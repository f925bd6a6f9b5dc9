import Rollout.CommandLine.Plan
import Rollout.Proofs.Text.Pieces

/-!
# A workload in one argument or in two

A command line names a workload by its kind and its name, in two arguments or in one with a
slash between them. What is behind the last slash is the name, and all before it is the kind,
which may hold further slashes. If there is a name, both ways name the same workload, or neither
names one (`CommandLine.one_argument_names_what_two_do`). The condition is on the name alone: an
empty kind is refused both times, by one as a resource and by the other as a kind.

Without a name they part. A single argument that ends in a slash is refused before its kind is
looked at, but a second argument is not asked whether it holds anything: `ds/` names nothing,
and `ds` with an empty text behind it names the daemon set without a name
(`CommandLine.two_arguments_without_name`).
-/

namespace Rollout
namespace CommandLine

variable {text kind name n : Text} {k : Kind}

/-- No kind is spelled with nothing. -/
theorem parse?_nil : Kind.parse? [] = none := by decide +kernel

/-- **Two arguments** name a workload if the first spells a kind. -/
theorem resource_some_eq_ok_iff :
    resource kind (some name) = .ok (k, n) ↔ n = name ∧ Kind.parse? kind = some k := by
  show resource.named kind name = .ok (k, n) ↔ _
  rw [resource.named]
  cases Kind.parse? kind with
  | none => exact iff_of_false (fun h => by cases h) (fun h => by cases h.2)
  | some k' =>
    rw [Except.ok.injEq, Prod.mk.injEq, Option.some.injEq]
    exact ⟨fun h => ⟨h.2.symm, h.1⟩, fun h => ⟨h.2, h.1.symm⟩⟩

/-- **One argument** is told apart from two by what is asked of its two parts. -/
theorem resource_slash_eq (kind : Text) (hname : .char '/' ∉ name) :
    resource (kind ++ .char '/' :: name) none
      = if kind.isEmpty || name.isEmpty then .error (.badResource (kind ++ .char '/' :: name))
        else resource kind (some name) := by
  simp only [resource, cutLast?_append kind hname]

/-- **One argument** names a workload if there is a name and it does as the second of two. -/
theorem resource_slash_eq_ok_iff (hname : .char '/' ∉ name) :
    resource (kind ++ .char '/' :: name) none = .ok (k, n)
      ↔ name ≠ [] ∧ resource kind (some name) = .ok (k, n) := by
  rw [resource_slash_eq kind hname]
  split
  · rename_i hempty
    refine iff_of_false (fun h => by cases h) fun ⟨hne, hk⟩ => ?_
    rcases Bool.or_eq_true_iff.mp hempty with h | h
    · rw [resource_some_eq_ok_iff, List.isEmpty_iff.mp h, parse?_nil] at hk
      cases hk.2
    · exact hne (List.isEmpty_iff.mp h)
  · rename_i hempty
    have hne : name ≠ [] := by
      rintro rfl
      exact hempty (Bool.or_true _)
    exact (and_iff_right hne).symm

/-- One argument names no workload without a name. -/
theorem ne_nil_of_resource_none (h : resource text none = .ok (k, n)) : n ≠ [] := by
  cases hcut : cutLast? (.char '/') text with
  | none =>
    rw [resource, hcut] at h
    cases h
  | some p =>
    obtain ⟨rfl, hname⟩ := cutLast?_eq_some_iff.mp hcut
    obtain ⟨hne, hk⟩ := (resource_slash_eq_ok_iff hname).mp h
    exact (resource_some_eq_ok_iff.mp hk).1 ▸ hne

/-- **One argument names what two do.** A kind, which may hold slashes, and a name, which holds
none and is not empty, make the same workload in one argument as in two, or in neither. No name
comes out empty, except from two arguments of which the first spells a kind and the second is
empty. -/
theorem one_argument_names_what_two_do (kind : Text) (hname : .char '/' ∉ name) :
    (name ≠ [] → ∀ w,
        resource (kind ++ .char '/' :: name) none = .ok w ↔ resource kind (some name) = .ok w)
      ∧ ∀ text given k, resource text given = .ok (k, [])
        ↔ given = some [] ∧ Kind.parse? text = some k := by
  refine ⟨fun hne w => (resource_slash_eq_ok_iff hname).trans (and_iff_right hne), ?_⟩
  rintro text (_ | second) k
  · exact iff_of_false (fun h => ne_nil_of_resource_none h rfl) (fun h => by cases h.1)
  · rw [resource_some_eq_ok_iff, Option.some.injEq, eq_comm]

theorem one_argument_names_what_two_do_versioned :
    .char '/' ∉ ("web" : Text) ∧ ("web" : Text) ≠ []
      ∧ resource "apps/v1/Deployment/web" none = .ok (.deployment, "web")
      ∧ resource "ds" (some []) = .ok (.daemonSet, []) := by
  have hname : .char '/' ∉ ("web" : Text) := by decide
  have hne : ("web" : Text) ≠ [] := by decide
  obtain ⟨hboth, hempty⟩ := one_argument_names_what_two_do "apps/v1/Deployment" hname
  have htwo : resource "apps/v1/Deployment" (some "web") = .ok (.deployment, "web") := by
    decide +kernel
  exact ⟨hname, hne, (hboth hne _).mpr htwo, (hempty "ds" _ _).mpr ⟨rfl, by decide +kernel⟩⟩

/-- **A workload without a name**: an empty second argument is taken for one, although a single
argument that ends in the slash is refused. -/
theorem two_arguments_without_name :
    resource "ds/" none = .error (.badResource "ds/")
      ∧ resource "ds" (some "") = .ok (.daemonSet, "") :=
  ⟨by decide +kernel, by decide +kernel⟩

end CommandLine
end Rollout
