import Rollout.Proofs.Json.RoundTrip
import Rollout.Proofs.Revision.Record

/-!
# A recorded template is restored, and nothing else

Back at a revision a workload has the template that the revision records, part by part as
it was recorded, whatever the live template is – and all else about the object is as it is
live (`Workload.atRevision_restores`). The live object need not have a template, nor even a
specification: where nothing is, or null, the patch starts from an empty map. What it does
not do is put a map in the place of anything else (`Fields.mapHeld?`), and the workload is
refused then, with the place where the patch does not fit.

A record says of its template that it replaces, so that the live one is never looked into;
it is the two maps around it that the patch is merged into.
-/

namespace Rollout

open Json (everywhere isPortablePart isPlainPart)
open Workload (withTemplate)

namespace Fields

/-- **The map that a field holds**, an empty one if it holds nothing. There is none if the
field holds anything else. -/
def mapHeld? (fs : Fields Json) (name : Text) : Option (Fields Json) :=
  match get? fs name with
  | none => some []
  | some .null => some []
  | some (.obj gs) => some gs
  | some _ => none

variable {fs gs : Fields Json} {name : Text}

/-- A map is merged into the map that is held. -/
theorem mapAt_of_mapHeld? (h : mapHeld? fs name = some gs) (path : Text) :
    Patch.mapAt path (get? fs name) = .ok gs := by
  unfold mapHeld? at h
  split at h
  · rename_i hfs
    cases h
    rw [hfs]
    rfl
  · rename_i hfs
    cases h
    rw [hfs]
    rfl
  · rename_i hfs
    cases h
    rw [hfs]
    rfl
  · cases h

/-- A map is merged into nothing else. -/
theorem exists_of_mapHeld?_eq_none (h : mapHeld? fs name = none) :
    ∃ found, get? fs name = some found
      ∧ ∀ path, Patch.mapAt path (get? fs name) = Patch.refuse (.mapInto found.typeName path) := by
  unfold mapHeld? at h
  split at h
  · cases h
  · cases h
  · cases h
  · rename_i found hnull hobj hfs
    refine ⟨found, hfs, fun path => ?_⟩
    rw [hfs]
    cases found with
    | null => exact absurd rfl hnull
    | obj gs => exact absurd rfl (hobj gs)
    | _ => rfl

end Fields

namespace Snapshot

/-- **A record as it is written**: the patch that holds the template and the mark behind it. -/
theorem records_of_encode {s : Snapshot} {template : Fields Json}
    (hplain : everywhere isPlainPart (.obj template) = true)
    (hportable : Json.Portable (Patch.record (template ++ [(Patch.modeField, .str "replace")])))
    (hdata : s.data
      = Json.encode (Patch.record (template ++ [(Patch.modeField, .str "replace")]))) :
    s.Records template where
  plain := hplain
  data := by
    have hmark : Patch.modeField ∉ Fields.names template := by
      intro hmem
      obtain ⟨f, hf, heq⟩ := List.mem_map.mp hmem
      have hname := Json.isPlainPart_obj_iff.mp (Json.of_everywhere hplain) f hf
      rw [heq] at hname
      exact absurd hname (by decide)
    refine ⟨_, hdata ▸ Json.decode_encode hportable, ?_, ?_⟩
    · rw [← Fields.set_eq_append hmark, Fields.get?_set, if_pos rfl]
    · rw [← Fields.set_eq_append hmark, Fields.erase_set, if_pos rfl]
      exact List.filter_eq_self.mpr fun f hf =>
        decide_eq_true fun heq => hmark (heq ▸ List.mem_map_of_mem hf)

end Snapshot

namespace Workload

variable {live : Workload} {s : Snapshot} {template : Fields Json}

/-- **A workload at a revision has the recorded template and is otherwise as it is.** The
live object may have any template, or none, and no specification at all. If it has anything
but a map in the place of one of the two, the workload is refused as a patch that does not
fit there. -/
theorem atRevision_restores (hlive : ofFields live.kind live.raw = .ok live)
    (hraw : everywhere isPortablePart (.obj live.raw) = true)
    (htemplate : everywhere isPortablePart (.obj template) = true) (hs : s.Records template) :
    (∀ spec current, Fields.mapHeld? live.raw "spec" = some spec →
      Fields.mapHeld? spec "template" = some current →
      ∃ w restored, live.atRevision s = .ok w
        ∧ w.template = .ok (.obj template)
        ∧ Fields.get? w.raw "spec" = some (.obj restored)
        ∧ Fields.get? restored "template" = some (.obj template)
        ∧ (∀ k : Text, k ≠ "template" → Fields.get? restored k = Fields.get? spec k)
        ∧ ∀ k : Text, k ≠ "spec" → Fields.get? w.raw k = Fields.get? live.raw k)
    ∧ (Fields.mapHeld? live.raw "spec" = none →
      ∃ found, Fields.get? live.raw "spec" = some found ∧ live.atRevision s
        = Patch.refuse (.revision s.revision s.name (.mapInto found.typeName "spec")))
    ∧ ∀ spec, Fields.mapHeld? live.raw "spec" = some spec →
      Fields.mapHeld? spec "template" = none →
      ∃ found, Fields.get? spec "template" = some found ∧ live.atRevision s
        = Patch.refuse (.revision s.revision s.name (.mapInto found.typeName "spec.template")) := by
  obtain ⟨patch, hdecode, happlied⟩ := hs.appliedDocument_eq htemplate hraw
  refine ⟨fun spec current hspec hcurrent => ?_, fun hspec => ?_, fun spec hspec hcurrent => ?_⟩
  · have hrestored : live.atRevision s
        = .ok { live with raw := withTemplate live.raw spec template } := by
      rw [atRevision_eq hdecode, happlied, Fields.mapAt_of_mapHeld? hspec]
      show (s.blame (Patch.mapAt "spec.template" (Fields.get? spec "template") >>= _) >>= _) = _
      rw [Fields.mapAt_of_mapHeld? hcurrent]
      exact ofFields_withTemplate hlive spec template
    refine ⟨_, Fields.set spec "template" (.obj template), hrestored, template_withTemplate rfl,
      get?_spec_withTemplate live.raw spec template, get?_template_set spec template,
      fun k hk => ?_, fun k hk => ?_⟩
    · rw [Fields.get?_set, if_neg hk.symm]
    · show Fields.get? (withTemplate live.raw spec template) k = _
      rw [withTemplate, Fields.get?_set, if_neg hk.symm]
  · obtain ⟨found, hfound, hrefused⟩ := Fields.exists_of_mapHeld?_eq_none hspec
    refine ⟨found, hfound, ?_⟩
    rw [atRevision_eq hdecode, happlied, hrefused]
    rfl
  · obtain ⟨found, hfound, hrefused⟩ := Fields.exists_of_mapHeld?_eq_none hcurrent
    refine ⟨found, hfound, ?_⟩
    rw [atRevision_eq hdecode, happlied, Fields.mapAt_of_mapHeld? hspec]
    show (s.blame (Patch.mapAt "spec.template" (Fields.get? spec "template") >>= _) >>= _) = _
    rw [hrefused]
    rfl

/-- A template that holds null, lists in lists and an item twice. -/
def unevenTemplate : Fields Json :=
  [("nodeName", .null), ("items", .arr [.arr [.int 1, .int 1], .null, .obj []])]

/-- The revision that records it. -/
def unevenSnapshot : Snapshot :=
  ⟨"web-1", "default", 1,
    Json.encode (Patch.record (unevenTemplate ++ [(Patch.modeField, .str "replace")])), [], [], []⟩

/-- A daemon set with anything in the place of its specification. -/
def webWithSpec (spec : Json) : Workload :=
  ⟨.daemonSet, "default", "web", "u-1",
    [("metadata", .obj [("name", .str "web"), ("namespace", .str "default"), ("uid", .str "u-1")]),
      ("spec", spec)]⟩

/-- The template comes back where there was no specification, and a list in its place is
left alone. -/
theorem atRevision_restores_uneven :
    (∃ w, (webWithSpec .null).atRevision unevenSnapshot = .ok w
      ∧ w.template = .ok (.obj unevenTemplate))
    ∧ (webWithSpec (.arr [])).atRevision unevenSnapshot
      = Patch.refuse (.revision 1 "web-1" (.mapInto "list" "spec")) := by
  have hrecords : unevenSnapshot.Records unevenTemplate :=
    Snapshot.records_of_encode (by decide) ⟨by decide, by decide⟩ rfl
  have hnull : ofFields .daemonSet (webWithSpec .null).raw = .ok (webWithSpec .null) := rfl
  have hlist : ofFields .daemonSet (webWithSpec (.arr [])).raw = .ok (webWithSpec (.arr [])) := rfl
  obtain ⟨hrestored, -, -⟩ := atRevision_restores hnull (by decide) (by decide) hrecords
  obtain ⟨w, _, hw, htemplate, -⟩ := hrestored [] [] rfl rfl
  obtain ⟨-, hrefused, -⟩ := atRevision_restores hlist (by decide) (by decide) hrecords
  obtain ⟨found, hfound, hw'⟩ := hrefused rfl
  obtain rfl : .arr [] = found := Option.some.inj hfound
  exact ⟨⟨w, hw, htemplate⟩, hw'⟩

end Workload
end Rollout
