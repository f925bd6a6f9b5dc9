import Rollout.Proofs.Json.Found
import Rollout.Proofs.Patch.Plain
import Rollout.Revision.Reconstruction

/-!
# Recorded templates

A revision of a daemon set or a stateful set records a template, as a patch that puts it
in the place of the live one (`Snapshot.Records`). The template itself holds no
directives, so that the merge takes over every part of it as it stands: the object with
the patch applied is the object with that template, and nothing else about it has changed
(`Snapshot.Records.appliedDocument`).

For this the object has to be one that is read as it was written, since it is merged as
it is read. Nothing that a patch of this form does takes that away from it.
-/

namespace Rollout

namespace Fields

/-- An object that is there is what is read, an empty one too. -/
theorem section?_of_get? {fs gs : Fields Json} {name : Text}
    (h : get? fs name = some (.obj gs)) : section? fs name = .ok gs := by
  unfold section? given?
  rw [h]
  cases gs <;> rfl

end Fields

namespace Json

/-! ## Parts of portable documents -/

/-- A field that is read as it was written keeps an object so. -/
theorem everywhere_isPortablePart_set {fs : Fields Json} {k : Text} {v : Json}
    (h : everywhere isPortablePart (obj fs) = true) (hk : k.joined = k)
    (hv : everywhere isPortablePart v = true) :
    everywhere isPortablePart (obj (Fields.set fs k v)) = true := by
  obtain ⟨hpart, hs⟩ := everywhere_obj_iff.mp h
  obtain ⟨hd, hjoined⟩ := isPortablePart_obj_iff.mp hpart
  refine everywhere_obj_iff.mpr ⟨isPortablePart_obj_iff.mpr ⟨hd.set k v, fun f hf => ?_⟩,
    fun f hf => ?_⟩
  · obtain rfl | hf := Fields.mem_set hf
    · exact hk
    · exact hjoined f hf
  · obtain rfl | hf := Fields.mem_set hf
    · exact hv
    · exact hs f hf

/-- So does a field that is taken out. -/
theorem everywhere_isPortablePart_erase {fs : Fields Json} (k : Text)
    (h : everywhere isPortablePart (obj fs) = true) :
    everywhere isPortablePart (obj (Fields.erase fs k)) = true := by
  obtain ⟨hpart, hs⟩ := everywhere_obj_iff.mp h
  obtain ⟨hd, hjoined⟩ := isPortablePart_obj_iff.mp hpart
  exact everywhere_obj_iff.mpr ⟨isPortablePart_obj_iff.mpr ⟨hd.erase k, fun f hf =>
    hjoined f (Fields.mem_of_mem_erase hf)⟩, fun f hf => hs f (Fields.mem_of_mem_erase hf)⟩

/-- An object whose parts are portable is read as it was written. -/
theorem reread_fields_of_everywhere {fs : Fields Json}
    (h : everywhere isPortablePart (obj fs) = true) : Fields.reread fs = fs :=
  obj.inj (reread_eq_of_everywhere h)

end Json

namespace Workload

open Json (everywhere isPortablePart)

/-- **An object with a template** in the place of its own. -/
def withTemplate (raw spec template : Fields Json) : Fields Json :=
  Fields.set raw "spec" (.obj (Fields.set spec "template" (.obj template)))

/-- The selector is read off the specification. -/
theorem selector_of_get? {w : Workload} {spec : Fields Json}
    (h : Fields.get? w.raw "spec" = some (.obj spec)) :
    w.selector = .ok (Fields.getD spec "selector" .null) := by
  show (Fields.section? w.raw "spec" >>= _) = _
  rw [Fields.section?_of_get? h]
  rfl

/-- An object is read as it was written with another template, too. -/
theorem everywhere_withTemplate_of_everywhere {raw spec template : Fields Json}
    (hraw : everywhere isPortablePart (.obj raw) = true)
    (hspec : everywhere isPortablePart (.obj spec) = true)
    (htemplate : everywhere isPortablePart (.obj template) = true) :
    everywhere isPortablePart (.obj (withTemplate raw spec template)) = true := by
  have hinner := Json.everywhere_isPortablePart_set hspec
    (Text.joined_ofChars "template".toList) htemplate
  exact Json.everywhere_isPortablePart_set hraw (Text.joined_ofChars "spec".toList) hinner

theorem everywhere_withTemplate {raw spec template : Fields Json}
    (hraw : everywhere isPortablePart (.obj raw) = true)
    (hspec : Fields.get? raw "spec" = some (.obj spec))
    (htemplate : everywhere isPortablePart (.obj template) = true) :
    everywhere isPortablePart (.obj (withTemplate raw spec template)) = true :=
  everywhere_withTemplate_of_everywhere hraw (Json.everywhere_of_get? hraw hspec) htemplate

/-- Putting in a template again is putting in the last one. -/
theorem withTemplate_withTemplate (raw spec a b : Fields Json) :
    withTemplate (withTemplate raw spec a) (Fields.set spec "template" (.obj a)) b
      = withTemplate raw spec b := by
  rw [withTemplate, withTemplate, Fields.set_set, Fields.set_set]
  rfl

/-- To put in the template that is there changes nothing. -/
theorem withTemplate_self {raw spec current : Fields Json}
    (hspec : Fields.get? raw "spec" = some (.obj spec))
    (hcurrent : Fields.get? spec "template" = some (.obj current)) :
    withTemplate raw spec current = raw := by
  rw [withTemplate, Fields.set_of_get? hcurrent, Fields.set_of_get? hspec]

theorem get?_spec_withTemplate (raw spec template : Fields Json) :
    Fields.get? (withTemplate raw spec template) "spec"
      = some (.obj (Fields.set spec "template" (.obj template))) := by
  rw [withTemplate, Fields.get?_set, if_pos rfl]

theorem get?_template_set (spec template : Fields Json) :
    Fields.get? (Fields.set spec "template" (.obj template)) "template" = some (.obj template) := by
  rw [Fields.get?_set, if_pos rfl]

/-- The template that is put in is what is found there. -/
theorem template_withTemplate {w : Workload} {raw spec template : Fields Json}
    (h : w.raw = withTemplate raw spec template) : w.template = .ok (.obj template) := by
  have hgiven : (Fields.given? (Fields.set spec "template" (.obj template)) "template").getD
      (.obj []) = .obj template := by
    rw [Fields.given?, get?_template_set]
    cases template <;> rfl
  show (Fields.section? w.raw "spec" >>= _) = _
  rw [h, Fields.section?_of_get? (get?_spec_withTemplate raw spec template)]
  exact congrArg Except.ok hgiven

end Workload

namespace Patch

open Json (everywhere isPortablePart isPlainPart)
open Workload (withTemplate)

/-- The patch that a revision records for a template, which says of itself that it
replaces the live one. -/
def record (marked : Fields Json) : Json :=
  .obj [("spec", .obj [("template", .obj marked)])]

/-- **A patch of one field** changes what the field holds and does nothing else. -/
theorem merged_singleton {path k : Text} {v : Json} (hk : isDirective k = false)
    (base : Fields Json) :
    merged path base [(k, v)] = (do
      let held ← mergedAt path k v (Fields.get? base k)
      return some (Fields.put base k held)) := by
  have hplain : isPlainPart (.obj [(k, v)]) = true :=
    Json.isPlainPart_obj_iff.mpr (List.forall_mem_singleton.mpr hk)
  rw [merged_of_isPlainPart path hplain base, mergedFields_eq_foldlM,
    Json.dataFields_of_isPlainPart hplain, List.foldlM_cons, Fields.revise]
  show _ = (mergedAt path k v (Fields.get? base k) >>= _)
  cases mergedAt path k v (Fields.get? base k) <;> rfl

/-- **A template that replaces** becomes the template of the object, less its directives, if
there is room for it: where the object has a specification it must be a map, and where that
has a template it must be one. -/
theorem mergedObject_record (base : Fields Json) {marked : Fields Json}
    (hmarked : Fields.get? marked modeField = some (.str "replace")) :
    mergedObject base [("spec", .obj [("template", .obj marked)])] = (do
      let spec ← mapAt "spec" (Fields.get? base "spec")
      let _ ← mapAt "spec.template" (Fields.get? spec "template")
      return withTemplate base spec (Json.strippedFields marked)) := by
  have hmode : ∀ path, mode path marked = .ok .replace := by
    intro path
    rw [mode, hmarked]
    rfl
  have htemplate : ∀ held, mergedAt "spec" "template" (.obj marked) held = (do
      let _ ← mapAt "spec.template" held
      return some (.obj (Json.strippedFields marked))) := by
    intro held
    show (mapAt "spec.template" held >>= fun current =>
      merged "spec.template" current marked >>= _) = _
    refine bind_congr fun current => ?_
    rw [merged_of_replace (hmode _)]
    rfl
  have hspec : ∀ held, mergedAt "" "spec" (.obj [("template", .obj marked)]) held = (do
      let spec ← mapAt "spec" held
      let _ ← mapAt "spec.template" (Fields.get? spec "template")
      return some (.obj (Fields.set spec "template" (.obj (Json.strippedFields marked))))) := by
    intro held
    show (mapAt "spec" held >>= fun spec =>
      merged "spec" spec [("template", .obj marked)] >>= _) = _
    refine bind_congr fun spec => ?_
    rw [merged_singleton (by decide) spec, htemplate]
    cases mapAt "spec.template" (Fields.get? spec "template") <;> rfl
  show (merged "" base [("spec", .obj [("template", .obj marked)])] >>= _) = _
  rw [merged_singleton (by decide) base, hspec]
  cases mapAt "spec" (Fields.get? base "spec") with
  | error e => rfl
  | ok spec =>
    show (((mapAt "spec.template" (Fields.get? spec "template") >>= _) >>= _) >>= _)
      = (mapAt "spec.template" (Fields.get? spec "template") >>= _)
    cases mapAt "spec.template" (Fields.get? spec "template") <;> rfl

end Patch

open Json (everywhere isPortablePart isPlainPart)
open Workload (withTemplate)

/-- **The snapshot records a template**: its bytes hold the patch that puts the template in
the place of the live one, and in the template itself no name is a directive's. -/
structure Snapshot.Records (s : Snapshot) (template : Fields Json) : Prop where
  plain : everywhere isPlainPart (.obj template) = true
  data : ∃ marked, Json.decode s.data = .ok (Patch.record marked)
    ∧ Fields.get? marked Patch.modeField = some (.str "replace")
    ∧ Fields.erase marked Patch.modeField = template

namespace Snapshot

variable {s : Snapshot} {template : Fields Json}

/-- What is recorded travels. -/
theorem Records.portable (h : s.Records template) {d : Json} (hdata : s.data = Json.encode d) :
    everywhere isPortablePart (.obj template) = true := by
  obtain ⟨marked, hdecode, -, rfl⟩ := h.data
  rw [hdata] at hdecode
  have hspec := (Json.everywhere_obj_iff.mp (Json.portable_of_decode_encode hdecode).parts).2 _
    List.mem_cons_self
  exact Json.everywhere_isPortablePart_erase _
    ((Json.everywhere_obj_iff.mp hspec).2 _ List.mem_cons_self)

/-- **A record applied to any object** gives the object the recorded template, if there is
room for it. -/
theorem Records.appliedDocument_eq (h : s.Records template)
    (htemplate : everywhere isPortablePart (.obj template) = true) {raw : Fields Json}
    (hraw : everywhere isPortablePart (.obj raw) = true) :
    ∃ patch, Json.decode s.data = .ok patch
      ∧ Patch.appliedDocument (.obj raw) patch = (do
        let spec ← Patch.mapAt "spec" (Fields.get? raw "spec")
        let _ ← Patch.mapAt "spec.template" (Fields.get? spec "template")
        return withTemplate raw spec template) := by
  obtain ⟨marked, hdecode, hmarked, herase⟩ := h.data
  have hstripped : Json.strippedFields marked = template := by
    rw [← Patch.strippedFields_erase_modeField, herase]
    exact Json.obj.inj (Json.stripped_of_plain h.plain)
  refine ⟨_, hdecode, ?_⟩
  show (Patch.mergedDocument (.obj (Fields.reread raw)) _ >>= _) = _
  rw [Json.reread_fields_of_everywhere hraw]
  show (Patch.mergedObject raw [("spec", .obj [("template", .obj marked)])] >>= _) = _
  rw [Patch.mergedObject_record raw hmarked, hstripped]
  cases hspec : Patch.mapAt "spec" (Fields.get? raw "spec") with
  | error e => rfl
  | ok spec =>
    have hreread : Fields.reread (withTemplate raw spec template)
        = withTemplate raw spec template :=
      Json.reread_fields_of_everywhere (Workload.everywhere_withTemplate_of_everywhere hraw
        (Patch.everywhere_of_mapAt rfl (fun _ => Json.everywhere_of_get? hraw) hspec) htemplate)
    show ((Patch.mapAt "spec.template" (Fields.get? spec "template") >>= _) >>= _)
      = (Patch.mapAt "spec.template" (Fields.get? spec "template") >>= _)
    cases Patch.mapAt "spec.template" (Fields.get? spec "template") with
    | error e => rfl
    | ok current => exact congrArg Except.ok hreread

/-- **The object with a record applied to it** is the object with the recorded template. -/
theorem Records.appliedDocument (h : s.Records template) {d : Json}
    (hdata : s.data = Json.encode d) {raw spec current : Fields Json}
    (hraw : everywhere isPortablePart (.obj raw) = true)
    (hspec : Fields.get? raw "spec" = some (.obj spec))
    (hcurrent : Fields.get? spec "template" = some (.obj current)) :
    ∃ patch, Json.decode s.data = .ok patch ∧ patch.reread = patch
      ∧ Patch.appliedDocument (.obj raw) patch = .ok (withTemplate raw spec template) := by
  obtain ⟨patch, hdecode, happlied⟩ := h.appliedDocument_eq (h.portable hdata) hraw
  refine ⟨patch, hdecode, (Json.portable_of_decode_encode (hdata ▸ hdecode)).reread_eq, ?_⟩
  rw [happlied, hspec]
  show (Patch.mapAt "spec.template" (Fields.get? spec "template") >>= _) = _
  rw [hcurrent]
  rfl

end Snapshot

/-- **A document that a patch applies to** is an object, and so is the patch. -/
theorem Patch.exists_merged_of_appliedDocument {base fs : Fields Json} {patch : Json}
    (h : appliedDocument (.obj base) patch = .ok fs) :
    ∃ ps merged, patch = .obj ps ∧ mergedObject (Fields.reread base) ps = .ok merged
      ∧ fs = Fields.reread merged := by
  obtain ⟨merged, hmerged, h⟩ := Outcome.bind_eq_ok_iff.mp h
  cases h
  cases patch with
  | obj ps => exact ⟨ps, merged, rfl, hmerged, rfl⟩
  | _ => cases hmerged

namespace Workload

variable {s : Snapshot} {template : Fields Json}

/-- **A workload at a revision** comes from the snapshot's patch applied to its object. -/
theorem exists_applied_of_atRevision {live applied : Workload}
    (h : live.atRevision s = .ok applied) :
    ∃ patch fs, Patch.document s.data = .ok patch
      ∧ Patch.appliedDocument (.obj live.raw) patch = .ok fs
      ∧ ofFields live.kind fs = .ok applied := by
  obtain ⟨fs, hfs, h⟩ := Outcome.bind_eq_ok_iff.mp h
  -- blame changes no result
  have hplain : (do
      let patch ← Patch.document s.data
      Patch.appliedDocument (.obj live.raw) patch) = .ok fs := by
    unfold Snapshot.blame at hfs
    split at hfs
    · cases hfs
    · exact hfs
  obtain ⟨patch, hpatch, happlied⟩ := Outcome.bind_eq_ok_iff.mp hplain
  exact ⟨patch, fs, hpatch, happlied, h⟩

theorem eq_of_ofFields {kind : Kind} {fs : Fields Json} {w : Workload}
    (h : ofFields kind fs = .ok w) : w.kind = kind ∧ w.raw = fs := by
  obtain ⟨_, -, h⟩ := Outcome.bind_eq_ok_iff.mp h
  cases h
  exact ⟨rfl, rfl⟩

/-- What identifies a workload is in its metadata. -/
theorem ofFields_of_metadata {kind : Kind} {fs gs : Fields Json} {w : Workload}
    (h : ofFields kind fs = .ok w) (hmetadata : Fields.get? fs "metadata" = Fields.get? gs "metadata") :
    ofFields kind gs = .ok { w with raw := gs } := by
  obtain ⟨metadata, hsection, h⟩ := Outcome.bind_eq_ok_iff.mp h
  cases h
  refine Outcome.bind_eq_ok_iff.mpr ⟨metadata, ?_, rfl⟩
  unfold Fields.section? Fields.given? at hsection ⊢
  rw [← hmetadata]
  exact hsection

/-- A workload at a revision is its object with the patch applied, read again as a
workload. -/
theorem atRevision_eq {live : Workload} {patch : Json} (h : Json.decode s.data = .ok patch) :
    live.atRevision s = (do
      let raw ← s.blame (Patch.appliedDocument (.obj live.raw) patch)
      ofFields live.kind raw) := by
  rw [atRevision, Patch.document, h]
  rfl

/-- Another template leaves what identifies a workload. -/
theorem ofFields_withTemplate {live : Workload} (hlive : ofFields live.kind live.raw = .ok live)
    (spec template : Fields Json) :
    ofFields live.kind (withTemplate live.raw spec template)
      = .ok { live with raw := withTemplate live.raw spec template } := by
  refine ofFields_of_metadata hlive ?_
  rw [withTemplate, Fields.get?_set, if_neg (by decide)]

/-- **A workload at a recorded revision** has the recorded template and is otherwise as it
is. -/
theorem atRevision_of_records {live : Workload} (hlive : ofFields live.kind live.raw = .ok live)
    (h : s.Records template) {d : Json} (hdata : s.data = Json.encode d)
    {spec current : Fields Json} (hraw : everywhere isPortablePart (.obj live.raw) = true)
    (hspec : Fields.get? live.raw "spec" = some (.obj spec))
    (hcurrent : Fields.get? spec "template" = some (.obj current)) :
    live.atRevision s = .ok { live with raw := withTemplate live.raw spec template } := by
  obtain ⟨patch, hdecode, -, happlied⟩ := h.appliedDocument hdata hraw hspec hcurrent
  rw [atRevision_eq hdecode, happlied]
  exact ofFields_withTemplate hlive spec template

end Workload
end Rollout
