import Mathlib.Tactic.MkIffOfInductiveProp
import Rollout.Api.State
import Rollout.Proofs.Outcome
import Rollout.Template.Description

/-!
# Templates that are refused

A description reads a template part by part. Most parts are looked at before they are taken for
the map or the list they have to be, and one that is something else is named in an error: the
template is refused. Two kinds of parts are trusted instead. What a probe does and where the value
of an environment variable comes from are taken for maps, and the scheme of a request for a text,
whatever they are; the description breaks off there without a word.

What becomes of a template is therefore judged by two conditions: that the checked parts have
their shapes (`Template.IsShaped`) and that the trusted ones do (`Template.IsReadable`). It is
described if both hold, it is refused only if the first does not, and its description breaks off
only if the second does not (`Template.Judged`). Steps that follow each other are judged by the
conditions of both, so that the order in which the parts are met does not have to be kept in mind.
It matters for templates alone that fail both conditions, and nothing is said about which of the
two ends these come to (`Template.described_unless_misread`).

There is no other failure (`Template.failsOnly_describe`), so that whoever describes what was
found does not meet an error about finding it. All this is about templates that were read:
integers of more than `maxDigits` digits, which cannot be written out, are none of their parts.
-/

namespace Rollout
namespace Template

open Api (field fieldsOf itemsOf)
open Outcome (FailsOnly)

/-- **A failure to describe a template.** -/
def IsRefusal (e : Failure) : Prop :=
  (∃ cause, e = .rollout (.conversion cause)) ∨ e = .malformed

/-! ## Judgements -/

section Judged

variable {α β : Type} {C C' T T' : Prop} {x : Outcome α}

/-- **What becomes of a description** whose checked parts have their shapes just if `C`, and whose
trusted parts do just if `T`. -/
def Judged (C T : Prop) : Outcome α → Prop
  | .ok _ => C ∧ T
  | .error (.rollout (.conversion _)) => ¬C
  | .error .malformed => ¬T
  | .error (.rollout _) => False

theorem judged_ok (hC : C) (hT : T) (a : α) : Judged C T (.ok a : Outcome α) :=
  ⟨hC, hT⟩

theorem Judged.failsOnly (h : Judged C T x) : FailsOnly IsRefusal x := by
  rintro e rfl
  match e, h with
  | .rollout (.conversion cause), _ => exact .inl ⟨cause, rfl⟩
  | .malformed, _ => exact .inr rfl

theorem Judged.congr (h : Judged C T x) (hC : C ↔ C') (hT : T ↔ T') : Judged C' T' x :=
  propext hC ▸ propext hT ▸ h

/-- **Steps that follow each other** are judged by what both look at. -/
theorem Judged.bind (h : Judged C T x) {f : α → Outcome β}
    (hf : ∀ a, x = .ok a → Judged C' T' (f a)) : Judged (C ∧ C') (T ∧ T') (x >>= f) := by
  match x, h with
  | .ok a, ⟨hC, hT⟩ => exact (hf a rfl).congr (and_iff_right hC).symm (and_iff_right hT).symm
  | .error (.rollout (.conversion _)), hC => exact fun hall => hC hall.1
  | .error .malformed, hT => exact fun hall => hT hall.1

/-- A step that trusts nothing, and what follows it. -/
theorem Judged.checkedThen (h : Judged C True x) {f : α → Outcome β}
    (hf : ∀ a, x = .ok a → Judged C' T (f a)) : Judged (C ∧ C') T (x >>= f) :=
  (h.bind hf).congr Iff.rfl (and_iff_right trivial)

/-- A step before others that trust nothing. -/
theorem Judged.thenChecked (h : Judged C T x) {f : α → Outcome β}
    (hf : ∀ a, x = .ok a → Judged C' True (f a)) : Judged (C ∧ C') T (x >>= f) :=
  (h.bind hf).congr Iff.rfl (and_iff_left trivial)

/-- A step that is followed by another that cannot fail. -/
theorem Judged.andThen (h : Judged C T x) (f : α → β) :
    Judged C T (x >>= fun a => pure (f a)) :=
  (h.bind fun a _ => judged_ok trivial trivial (f a)).congr (and_iff_left trivial)
    (and_iff_left trivial)

/-- **Steps for each element** are judged by what they look at in all of them. -/
theorem judged_mapM {f : α → Outcome β} {p q : α → Prop} {xs : List α}
    (h : ∀ x ∈ xs, Judged (p x) (q x) (f x)) :
    Judged (∀ x ∈ xs, p x) (∀ x ∈ xs, q x) (xs.mapM f) := by
  induction xs with
  | nil => exact judged_ok nofun nofun []
  | cons x xs ih =>
    obtain ⟨hx, hxs⟩ := List.forall_mem_cons.mp h
    rw [List.mapM_cons]
    exact (hx.bind fun y _ => (ih hxs).andThen (y :: ·)).congr List.forall_mem_cons.symm
      List.forall_mem_cons.symm

/-- Steps that trust nothing. -/
theorem judged_mapM_checked {f : α → Outcome β} {p : α → Prop} {xs : List α}
    (h : ∀ x, Judged (p x) True (f x)) : Judged (∀ x ∈ xs, p x) True (xs.mapM f) :=
  (judged_mapM fun x _ => h x).congr Iff.rfl (iff_of_true (fun _ _ => trivial) trivial)

end Judged

/-! ## Parts -/

/-- A part that stands for a map: a map, or null for an empty one. -/
def IsMap (j : Json) : Prop :=
  j = .null ∨ ∃ fs, j = .obj fs

/-- A part that stands for a list. -/
def IsList (j : Json) : Prop :=
  j = .null ∨ ∃ items, j = .arr items

/-- A part that stands for a list of such items. -/
def IsListOf (p : Json → Prop) (j : Json) : Prop :=
  IsList j ∧ ∀ item ∈ itemsOf j, p item

section Parts

variable {β : Type} {C T : Prop} {part : Text} {j : Json} {fs : Fields Json} {items : List Json}

theorem eq_of_asMap (h : asMap part j = .ok fs) : fs = fieldsOf j := by
  cases j with
  | null | obj => cases h; rfl
  | _ => cases h

theorem eq_of_asList (h : asList part j = .ok items) : items = itemsOf j := by
  cases j with
  | null | arr => cases h; rfl
  | _ => cases h

theorem judged_asMap (part : Text) (j : Json) : Judged (IsMap j) True (asMap part j) := by
  cases j with
  | null => exact judged_ok (.inl rfl) trivial _
  | obj fs => exact judged_ok (.inr ⟨fs, rfl⟩) trivial _
  | _ => rintro (h | ⟨_, h⟩) <;> cases h

theorem judged_asList (part : Text) (j : Json) : Judged (IsList j) True (asList part j) := by
  cases j with
  | null => exact judged_ok (.inl rfl) trivial _
  | arr items => exact judged_ok (.inr ⟨items, rfl⟩) trivial _
  | _ => rintro (h | ⟨_, h⟩) <;> cases h

/-- **A map is checked and then read.** -/
theorem judged_map {f : Fields Json → Outcome β} (hf : Judged C T (f (fieldsOf j))) :
    Judged (IsMap j ∧ C) T (asMap part j >>= f) :=
  (judged_asMap part j).checkedThen fun _ h => eq_of_asMap h ▸ hf

/-- **A list is checked and then read.** -/
theorem judged_list {f : List Json → Outcome β} (hf : Judged C T (f (itemsOf j))) :
    Judged (IsList j ∧ C) T (asList part j >>= f) :=
  (judged_asList part j).checkedThen fun _ h => eq_of_asList h ▸ hf

/-- **A map is trusted and read.** -/
theorem judged_fields {f : Fields Json → Outcome β} (hf : Judged True T (f (fieldsOf j))) :
    Judged True (j.isObject = true ∧ T) (j.fields >>= f) := by
  cases j with
  | obj fs => exact hf.congr Iff.rfl (and_iff_right rfl).symm
  | _ => exact fun h => Bool.false_ne_true h.1

/-- A map is trusted, and all that is told of it is its own. -/
theorem judged_fields_andThen (j : Json) (f : Fields Json → β) :
    Judged True (j.isObject = true) (j.fields >>= fun fs => pure (f fs)) :=
  (judged_fields (judged_ok trivial trivial (f (fieldsOf j)))).congr Iff.rfl (and_iff_left trivial)

end Parts

/-! ## Shapes -/

/-- An environment variable that has a value, or a source that is a map. -/
def IsShapedVariable (v : Json) : Prop :=
  IsMap v ∧ (Fields.get? (fieldsOf v) "value" = none → IsMap (field v "valueFrom"))

/-- **A container whose checked parts have their shapes.** -/
@[mk_iff]
structure IsShapedContainer (c : Json) : Prop where
  ports : IsListOf IsMap (field c "ports")
  command : IsList (field c "command")
  args : IsList (field c "args")
  resources : IsMap (field c "resources")
  limits : IsMap (field (field c "resources") "limits")
  requests : IsMap (field (field c "resources") "requests")
  liveness : IsMap (field c "livenessProbe")
  readiness : IsMap (field c "readinessProbe")
  startup : IsMap (field c "startupProbe")
  env : IsListOf IsShapedVariable (field c "env")
  mounts : IsListOf IsMap (field c "volumeMounts")

/-- A volume whose source is a map. -/
def IsShapedVolume (v : Json) : Prop :=
  IsMap (field v (sourceField (fieldsOf v)))

/-- **A template whose checked parts have their shapes.** -/
@[mk_iff]
structure IsShaped (t : Json) : Prop where
  map : IsMap t
  metadata : IsMap (field t "metadata")
  spec : IsMap (field t "spec")
  labels : IsMap (field (field t "metadata") "labels")
  annotations : IsMap (field (field t "metadata") "annotations")
  initContainers : IsListOf (fun c => IsMap c ∧ IsShapedContainer c)
    (field (field t "spec") "initContainers")
  containers : IsListOf (fun c => IsMap c ∧ IsShapedContainer c)
    (field (field t "spec") "containers")
  volumes : IsListOf (fun v => IsMap v ∧ IsShapedVolume v) (field (field t "spec") "volumes")

/-- A handler that is a map, and whose scheme is a text if it is for requests. -/
def IsReadableHandler (handler : Handler) (v : Json) : Prop :=
  v.isObject = true
    ∧ (handler = .httpGet → ∃ s, Fields.getD (fieldsOf v) "scheme" (.str "HTTP") = .str s)

/-- A probe of which the first handler that it has can be read. -/
def IsReadableProbe (probe : Json) : Prop :=
  ∀ handler v, firstOf Handler.fieldName (fieldsOf probe) Handler.all = some (handler, v) →
    IsReadableHandler handler v

/-- A source of a value of which the first reference that it has is a map. -/
def IsReadableSource (source : Json) : Prop :=
  ∀ kind v, firstOf ValueSource.fieldName (fieldsOf source) ValueSource.all = some (kind, v) →
    v.isObject = true

/-- An environment variable that has a value, or a source that can be read. -/
def IsReadableVariable (entry : Json) : Prop :=
  Fields.get? (fieldsOf entry) "value" = none → IsReadableSource (field entry "valueFrom")

/-- A container whose trusted parts have their shapes. -/
@[mk_iff]
structure IsReadableContainer (c : Json) : Prop where
  liveness : IsReadableProbe (field c "livenessProbe")
  readiness : IsReadableProbe (field c "readinessProbe")
  startup : IsReadableProbe (field c "startupProbe")
  env : ∀ v ∈ itemsOf (field c "env"), IsReadableVariable v

/-- **A template whose trusted parts have their shapes.** -/
@[mk_iff]
structure IsReadable (t : Json) : Prop where
  initContainers : ∀ c ∈ itemsOf (field (field t "spec") "initContainers"), IsReadableContainer c
  containers : ∀ c ∈ itemsOf (field (field t "spec") "containers"), IsReadableContainer c

/-! ## Containers -/

variable {c : Json}

theorem judged_portsLine (c : Json) :
    Judged (IsListOf IsMap (field c "ports")) True (portsLine (fieldsOf c)) := by
  refine judged_list (Judged.andThen ?_ _)
  exact (judged_mapM_checked fun j => (judged_asMap _ j).andThen _).andThen _

theorem judged_wordLines (c : Json) (name title : Text) :
    Judged (IsList (field c name)) True (wordLines (fieldsOf c) name title) :=
  (judged_asList _ _).andThen _

theorem judged_amountLines (resources : Json) (name title : Text) :
    Judged (IsMap (field resources name)) True (amountLines (fieldsOf resources) name title) :=
  (judged_asMap _ _).andThen _

/-- What is asked of whatever was found is asked of what was found. -/
theorem iff_forall_found {α : Type} {P : α → Json → Prop} {found : Option (α × Json)} {a : α}
    {v : Json} (h : found = some (a, v)) :
    P a v ↔ ∀ a' v', found = some (a', v') → P a' v' := by
  refine ⟨fun hv a' v' h' => ?_, fun hall => hall a v h⟩
  cases h.symm.trans h'
  exact hv

/-- **What a probe does** is told of a handler that is a map, and of none. -/
theorem judged_probeAction (probe : Json) :
    Judged True (IsReadableProbe probe) (probeAction (fieldsOf probe)) := by
  have hmap : ∀ {handler : Handler} {v}, handler ≠ .httpGet →
      (v.isObject = true ↔ IsReadableHandler handler v) :=
    fun hne => ⟨fun h => ⟨h, fun heq => absurd heq hne⟩, And.left⟩
  unfold probeAction
  split
  · rename_i v hv
    have hscheme : IsReadableHandler .httpGet v ↔ v.isObject = true
        ∧ ∃ s, Fields.getD (fieldsOf v) "scheme" (.str "HTTP") = .str s :=
      and_congr_right fun _ => ⟨fun h => h rfl, fun h _ => h⟩
    refine (judged_fields ?_).congr Iff.rfl (hscheme.symm.trans (iff_forall_found hv))
    split
    · rename_i s hs
      exact judged_ok trivial ⟨s, hs⟩ _
    · rename_i hs
      exact fun ⟨s, h⟩ => hs s h
  · rename_i v hv
    exact (judged_fields_andThen v _).congr Iff.rfl ((hmap (by decide)).trans (iff_forall_found hv))
  · rename_i v hv
    exact (judged_fields_andThen v _).congr Iff.rfl ((hmap (by decide)).trans (iff_forall_found hv))
  · rename_i v hv
    exact (judged_fields_andThen v _).congr Iff.rfl ((hmap (by decide)).trans (iff_forall_found hv))
  · rename_i hnone
    exact judged_ok trivial (fun _ _ h => by cases hnone.symm.trans h) _

theorem judged_probeLines (c : Json) (name title : Text) :
    Judged (IsMap (field c name)) (IsReadableProbe (field c name))
      (probeLines (fieldsOf c) name title) := by
  refine (judged_map ?_).congr (and_iff_left trivial) Iff.rfl
  split
  · rename_i hempty
    have hnil : fieldsOf (field c name) = [] := List.isEmpty_iff.mp hempty
    refine judged_ok trivial (fun _ _ h => ?_) _
    rw [hnil] at h
    cases h
  · exact ((judged_probeAction _).andThen _).andThen _

/-- **Where a value comes from** is told of a source that is a map, and of none. -/
theorem judged_sourceText (source : Json) :
    Judged True (IsReadableSource source) (sourceText (fieldsOf source)) := by
  have hfound : ∀ {kind : ValueSource} {v}, 
      firstOf ValueSource.fieldName (fieldsOf source) ValueSource.all = some (kind, v) →
        (v.isObject = true ↔ IsReadableSource source) := fun h =>
    iff_forall_found (P := fun _ v => v.isObject = true) h
  unfold sourceText
  split
  · rename_i v hv
    exact (judged_fields_andThen v _).congr Iff.rfl (hfound hv)
  · rename_i v hv
    exact (judged_fields_andThen v _).congr Iff.rfl (hfound hv)
  · rename_i v hv
    exact (judged_fields_andThen v _).congr Iff.rfl (hfound hv)
  · rename_i v hv
    exact (judged_fields_andThen v _).congr Iff.rfl (hfound hv)
  · rename_i hnone
    exact judged_ok trivial (fun _ _ h => by cases hnone.symm.trans h) _

theorem judged_variableText (entry : Json) :
    Judged (Fields.get? (fieldsOf entry) "value" = none → IsMap (field entry "valueFrom"))
      (IsReadableVariable entry) (variableText (fieldsOf entry)) := by
  unfold variableText
  split
  · rename_i v hv
    exact judged_ok (fun h => by cases hv.symm.trans h) (fun h => by cases hv.symm.trans h) _
  · rename_i hnone
    refine (judged_map (judged_sourceText _)).congr ?_ ?_
    · exact (and_iff_left trivial).trans ⟨fun h _ => h, fun h => h hnone⟩
    · exact ⟨fun h _ => h, fun h => h hnone⟩

theorem judged_environmentLines (c : Json) :
    Judged (IsListOf IsShapedVariable (field c "env"))
      (∀ v ∈ itemsOf (field c "env"), IsReadableVariable v) (environmentLines (fieldsOf c)) := by
  refine judged_list ?_
  split
  · rename_i hempty
    rw [List.isEmpty_iff.mp hempty]
    exact judged_ok nofun nofun _
  · refine (judged_mapM fun j _ => ?_).andThen _
    exact judged_map ((judged_variableText j).andThen _)

theorem judged_mountLines (c : Json) :
    Judged (IsListOf IsMap (field c "volumeMounts")) True (mountLines (fieldsOf c)) := by
  refine judged_list ?_
  split
  · rename_i hempty
    rw [List.isEmpty_iff.mp hempty]
    exact judged_ok nofun trivial _
  · exact (judged_mapM_checked fun j => (judged_asMap _ j).andThen _).andThen _

/-- **A container** is described, refused for a checked part or given up at a trusted one. -/
theorem judged_containerLines (c : Json) :
    Judged (IsShapedContainer c) (IsReadableContainer c) (containerLines (fieldsOf c)) := by
  rw [isShapedContainer_iff, isReadableContainer_iff]
  refine (judged_portsLine c).checkedThen fun _ _ => ?_
  refine (judged_wordLines c _ _).checkedThen fun _ _ => ?_
  refine (judged_wordLines c _ _).checkedThen fun _ _ => ?_
  refine judged_map ?_
  refine (judged_amountLines (field c "resources") _ _).checkedThen fun _ _ => ?_
  refine (judged_amountLines (field c "resources") _ _).checkedThen fun _ _ => ?_
  refine (judged_probeLines c _ _).bind fun _ _ => ?_
  refine (judged_probeLines c _ _).bind fun _ _ => ?_
  refine (judged_probeLines c _ _).bind fun _ _ => ?_
  refine (judged_environmentLines c).thenChecked fun _ _ => ?_
  exact (judged_mountLines c).andThen _

/-! ## Templates -/

theorem judged_containersLines (part : Text) (containers : List Json) :
    Judged (∀ c ∈ containers, IsMap c ∧ IsShapedContainer c)
      (∀ c ∈ containers, IsReadableContainer c) (containersLines part containers) :=
  (judged_mapM fun c _ => judged_map (judged_containerLines c)).andThen _

theorem judged_volumesLines (volumes : List Json) :
    Judged (∀ v ∈ volumes, IsMap v ∧ IsShapedVolume v) True (volumesLines volumes) := by
  unfold volumesLines
  split
  · rename_i hempty
    rw [List.isEmpty_iff.mp hempty]
    exact judged_ok nofun trivial _
  · refine (judged_mapM_checked fun v => ?_).andThen _
    exact judged_map ((judged_asMap _ _).andThen _)

/-- **A template** is described, refused for a checked part or given up at a trusted one. -/
theorem judged_templateLines (t : Json) :
    Judged (IsShaped t) (IsReadable t) (templateLines none t) := by
  simp only [isShaped_iff, isReadable_iff, IsListOf, and_assoc]
  refine judged_map ?_
  refine judged_map ?_
  refine judged_map ?_
  refine (judged_asMap _ _).checkedThen fun _ _ => ?_
  refine (judged_asMap _ _).checkedThen fun _ _ => ?_
  refine judged_list ?_
  refine (judged_containersLines _ _).bind fun _ _ => ?_
  refine judged_list ?_
  refine (judged_containersLines _ _).thenChecked fun _ _ => ?_
  refine judged_list ?_
  exact (judged_volumesLines _).andThen _

/-- What is not set is shaped and can be read. -/
theorem isShaped_null : IsShaped .null := by
  have hlist : ∀ p, IsListOf p .null := fun p => ⟨.inl rfl, nofun⟩
  exact ⟨.inl rfl, .inl rfl, .inl rfl, .inl rfl, .inl rfl, hlist _, hlist _, hlist _⟩

theorem judged_describe (t : Json) : Judged (IsShaped t) (IsReadable t) (describe t) := by
  unfold describe describeWith
  split
  · exact judged_ok isShaped_null ⟨nofun, nofun⟩ _
  · exact (judged_templateLines t).andThen _

/-- **A template is described or refused**, or its description breaks off. -/
theorem failsOnly_describe (t : Json) : FailsOnly IsRefusal (describe t) :=
  (judged_describe t).failsOnly

/-- **A template is described or refused unless a trusted part is misread.** It is described just
if its parts have their shapes, the checked ones and the trusted ones. If the trusted ones do, it
is described or refused, and nothing else becomes of it. If only trusted ones do not, the
description breaks off. The template is taken to be one that was read, with integers of at most
`maxDigits` digits. -/
theorem described_unless_misread (t : Json) :
    ((∃ text, describe t = .ok text) ↔ IsShaped t ∧ IsReadable t)
      ∧ (IsReadable t → (∃ text, describe t = .ok text)
        ∨ ∃ cause, describe t = Outcome.fail (.conversion cause))
      ∧ (IsShaped t → ¬IsReadable t → describe t = .error .malformed)
      ∧ ∀ e, describe t = .error e → IsRefusal e := by
  have hjudged := judged_describe t
  have hfails := failsOnly_describe t
  generalize describe t = outcome at hjudged hfails
  match outcome, hjudged with
  | .ok text, ⟨hC, hT⟩ =>
    exact ⟨iff_of_true ⟨text, rfl⟩ ⟨hC, hT⟩, fun _ => .inl ⟨text, rfl⟩,
      fun _ hnot => absurd hT hnot, hfails⟩
  | .error (.rollout (.conversion cause)), hC =>
    exact ⟨iff_of_false (fun ⟨_, h⟩ => by cases h) fun h => hC h.1, fun _ => .inr ⟨cause, rfl⟩,
      fun h => absurd h hC, hfails⟩
  | .error .malformed, hT =>
    exact ⟨iff_of_false (fun ⟨_, h⟩ => by cases h) fun h => hT h.2, fun h => absurd h hT,
      fun _ _ => rfl, hfails⟩

/-- An environment variable for the name of the node. The reference to the field is a text, where
a map with the field's path is meant. -/
def nodeName : Json :=
  .obj [("name", .str "NODE"), ("valueFrom", .obj [("fieldRef", .str "spec.nodeName")])]

/-- A template of one container with that variable. -/
def nodeNamed : Json :=
  .obj [("spec", .obj [("containers", .arr [.obj [("env", .arr [nodeName])]])])]

/-- A template with a container in the place of the list of containers. -/
def unlisted : Json :=
  .obj [("spec", .obj [("containers", .obj [("name", .str "web")])])]

theorem described_unless_misread_nodeNamed :
    (IsShaped nodeNamed ∧ ¬IsReadable nodeNamed ∧ describe nodeNamed = .error .malformed)
      ∧ IsReadable unlisted ∧ ∃ cause, describe unlisted = Outcome.fail (.conversion cause) := by
  have hnone : ∀ {p j}, j = .null → IsListOf p j := by
    rintro p _ rfl
    exact ⟨.inl rfl, nofun⟩
  have hvariable : IsShapedVariable nodeName := ⟨.inr ⟨_, rfl⟩, fun _ => .inr ⟨_, rfl⟩⟩
  have hcontainer : IsShapedContainer (.obj [("env", .arr [nodeName])]) := by
    refine ⟨hnone rfl, .inl rfl, .inl rfl, .inl rfl, .inl rfl, .inl rfl, .inl rfl, .inl rfl,
      .inl rfl, ⟨.inr ⟨_, rfl⟩, ?_⟩, hnone rfl⟩
    exact List.forall_mem_singleton.mpr hvariable
  have hshaped : IsShaped nodeNamed := by
    refine ⟨.inr ⟨_, rfl⟩, .inl rfl, .inr ⟨_, rfl⟩, .inl rfl, .inl rfl, hnone rfl,
      ⟨.inr ⟨_, rfl⟩, ?_⟩, hnone rfl⟩
    exact List.forall_mem_singleton.mpr ⟨.inr ⟨_, rfl⟩, hcontainer⟩
  have hmisread : ¬IsReadable nodeNamed := by
    intro h
    have hvariable := (h.containers _ List.mem_cons_self).env nodeName List.mem_cons_self
    exact Bool.false_ne_true (hvariable rfl .field (.str "spec.nodeName") rfl)
  have hreadable : IsReadable unlisted := ⟨nofun, nofun⟩
  refine ⟨⟨hshaped, hmisread, (described_unless_misread nodeNamed).2.2.1 hshaped hmisread⟩,
    hreadable, ?_⟩
  have hnot : ¬IsShaped unlisted := by
    intro h
    rcases h.containers.1 with hnull | ⟨items, hlist⟩
    · cases hnull
    · cases hlist
  obtain ⟨hiff, hrefused, -⟩ := described_unless_misread unlisted
  exact (hrefused hreadable).resolve_left fun h => hnot (hiff.mp h).1

/-- **A template that is neither described nor refused.** -/
theorem exists_neither_described_nor_refused :
    ∃ t, (∀ text, describe t ≠ .ok text)
      ∧ ∀ cause, describe t ≠ Outcome.fail (.conversion cause) := by
  have hbroken : describe nodeNamed = .error .malformed := rfl
  refine ⟨nodeNamed, fun text h => ?_, fun cause h => ?_⟩
  · cases hbroken.symm.trans h
  · cases hbroken.symm.trans h

end Template
end Rollout
