import Rollout.Error

/-!
# Taking outcomes apart

A computation that succeeds has succeeded in each of its steps, and what failed
failed in the first step that did. Proofs about a computation peel its steps off
with these lemmas and never look at how sequencing is defined.

Two outcomes may be the same to whoever is told of them and still differ in what nobody
sees, as errors do that list the same names in another order (`Outcome.TellAlike`).
-/

namespace Rollout
namespace Outcome

variable {α β : Type}

/-- **A result of two steps** is a result of the second on one of the first. -/
theorem bind_eq_ok_iff {x : Outcome α} {f : α → Outcome β} {b : β} :
    x >>= f = .ok b ↔ ∃ a, x = .ok a ∧ f a = .ok b := by
  cases x with
  | error e => exact iff_of_false (fun h => by cases h) (fun ⟨_, h, _⟩ => by cases h)
  | ok a =>
    constructor
    · exact fun h => ⟨a, rfl, h⟩
    · rintro ⟨_, h, hb⟩
      cases h
      exact hb

theorem eq_ok_of_toOption {x : Outcome α} {a : α} (h : x.toOption = some a) : x = .ok a := by
  cases x with
  | error e => cases h
  | ok b => exact congrArg Except.ok (Option.some.inj h)

/-- What all computations came to came of one of them each. -/
theorem mem_of_mapM {f : α → Outcome β} {xs : List α} {ys : List β}
    (h : xs.mapM f = .ok ys) : ∀ y ∈ ys, ∃ x ∈ xs, f x = .ok y := by
  induction xs generalizing ys with
  | nil =>
    cases h
    exact fun y hy => absurd hy List.not_mem_nil
  | cons x xs ih =>
    rw [List.mapM_cons] at h
    obtain ⟨y, hy, h⟩ := Outcome.bind_eq_ok_iff.mp h
    obtain ⟨rest, hrest, h⟩ := Outcome.bind_eq_ok_iff.mp h
    cases h
    refine List.forall_mem_cons.mpr ⟨⟨x, List.mem_cons_self, hy⟩, fun z hz => ?_⟩
    obtain ⟨x', hx', hz⟩ := ih hrest z hz
    exact ⟨x', List.mem_cons_of_mem _ hx', hz⟩

/-! ## How computations fail -/

/-- **Whenever the computation fails, it fails like this.** -/
def FailsOnly (P : Failure → Prop) (x : Outcome α) : Prop :=
  ∀ e, x = .error e → P e

variable {P : Failure → Prop}

theorem failsOnly_ok (a : α) : FailsOnly P (.ok a : Outcome α) := nofun

theorem failsOnly_error {e : Failure} (h : P e) : FailsOnly P (.error e : Outcome α) := by
  rintro _ ⟨⟩
  exact h

theorem FailsOnly.bind {x : Outcome α} {f : α → Outcome β} (hx : FailsOnly P x)
    (hf : ∀ a, x = .ok a → FailsOnly P (f a)) : FailsOnly P (x >>= f) := by
  cases x with
  | error e => exact failsOnly_error (hx e rfl)
  | ok a => exact hf a rfl

/-- A computation that goes on without failing fails as its first step does. -/
theorem FailsOnly.andThen {x : Outcome α} (hx : FailsOnly P x) (f : α → β) :
    FailsOnly P (x >>= fun a => pure (f a)) :=
  hx.bind fun a _ => failsOnly_ok (f a)

theorem FailsOnly.map {x : Outcome α} (hx : FailsOnly P x) (f : α → β) : FailsOnly P (x.map f) := by
  cases x with
  | error e => exact failsOnly_error (hx e rfl)
  | ok a => exact failsOnly_ok (f a)

theorem failsOnly_foldlM {f : β → α → Outcome β} {xs : List α}
    (h : ∀ b, ∀ x ∈ xs, FailsOnly P (f b x)) (b : β) : FailsOnly P (xs.foldlM f b) := by
  induction xs generalizing b with
  | nil => exact failsOnly_ok b
  | cons x xs ih =>
    obtain ⟨hx, hxs⟩ : (∀ b, FailsOnly P (f b x)) ∧ ∀ b, ∀ y ∈ xs, FailsOnly P (f b y) :=
      ⟨fun b => h b x List.mem_cons_self, fun b y hy => h b y (List.mem_cons_of_mem x hy)⟩
    rw [List.foldlM_cons]
    exact (hx b).bind fun b' _ => ih hxs b'

theorem failsOnly_mapM {f : α → Outcome β} {xs : List α} (h : ∀ x ∈ xs, FailsOnly P (f x)) :
    FailsOnly P (xs.mapM f) := by
  induction xs with
  | nil => exact failsOnly_ok []
  | cons x xs ih =>
    obtain ⟨hx, hxs⟩ := List.forall_mem_cons.mp h
    rw [List.mapM_cons]
    exact hx.bind fun y _ => (ih hxs).andThen (y :: ·)

end Outcome

/-! ## What outcomes tell -/

/-- The status that an error carries, null if it is none of the cluster. -/
def RolloutError.status : RolloutError → Json
  | backend cause => cause.status
  | _ => .null

/-- **What is told of a failure**: the error's name, its message and its status, and nothing
of a value that has not the shape taken for granted. -/
def Failure.told : Failure → Option (Text × Text × Json)
  | rollout e => some (e.typeName, e.message, e.status)
  | malformed => none

namespace Outcome

variable {α β γ δ : Type}

/-- **Outcomes that tell alike**: both are results, which are related, or both are failures
of which the same is told. -/
inductive TellAlike (T : α → β → Prop) : Outcome α → Outcome β → Prop where
  | ok {a : α} {b : β} : T a b → TellAlike T (.ok a) (.ok b)
  | error {e e' : Failure} : e.told = e'.told → TellAlike T (.error e) (.error e')

variable {T : α → β → Prop} {U : γ → δ → Prop} {x : Outcome α} {y : Outcome β}

theorem tellAlike_refl (x : Outcome α) : TellAlike Eq x x := by
  cases x with
  | ok a => exact .ok rfl
  | error e => exact .error rfl

/-- Computations that go on alike tell alike. -/
theorem TellAlike.bind (h : TellAlike T x y) {f : α → Outcome γ} {g : β → Outcome δ}
    (hfg : ∀ a b, T a b → TellAlike U (f a) (g b)) : TellAlike U (x >>= f) (y >>= g) := by
  cases h with
  | ok hab => exact hfg _ _ hab
  | error he => exact .error he

end Outcome
end Rollout
