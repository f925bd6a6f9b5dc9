import Rollout.Proofs.Json.Reordered
import Rollout.Template.Description

/-!
# Templates but for the order of fields

A merge may leave a template with its fields in another order, and whoever compares the two takes
them for the same. They are described alike, too, or fail alike
(`Template.describe_eq_of_reordered`): names are put in order before they are listed, and where one
of several fields counts, it is looked for in an order of the description's own.

There are two exceptions, and both are conditions. A volume is told by the first field that is not
its name, so that it may have no other field beside that one. And a value is shown as it is, so
that none that is shown may hold an object, which would be shown with its fields in order. Nothing
is asked of values that are looked at and not shown, nor of those that another value hides.
-/

namespace Rollout
namespace Template

open Api (field fieldsOf itemsOf)
open Json (IsPlain Reordered WellFormed)

/-! ## What is shown -/

/-- The value under a name, if there is one. -/
def under (j : Json) (name : Text) : List Json :=
  (Fields.get? (fieldsOf j) name).toList

/-- The values under all names. -/
def underAll (j : Json) : List Json :=
  (fieldsOf j).map Prod.snd

/-- What is shown of a port. -/
def shownOfPort (port : Json) : List Json :=
  under port "containerPort" ++ under port "protocol"

/-- What is shown of what a probe does. -/
def shownOfHandler : Option (Handler × Json) → List Json
  | some (.httpGet, v) => under v "host" ++ under v "port" ++ under v "path"
  | some (.tcpSocket, v) => under v "port"
  | some (.exec, v) => under v "command"
  | some (.grpc, v) => under v "port"
  | none => []

/-- What is shown of a probe. -/
def shownOfProbe (probe : Json) : List Json :=
  shownOfHandler (firstOf Handler.fieldName (fieldsOf probe) Handler.all) ++
    under probe "initialDelaySeconds" ++ under probe "timeoutSeconds" ++
    under probe "periodSeconds" ++ under probe "successThreshold" ++
    under probe "failureThreshold"

/-- What is shown of where a value comes from. -/
def shownOfSource : Option (ValueSource × Json) → List Json
  | some (.field, v) => under v "apiVersion" ++ under v "fieldPath"
  | some (.resourceField, v) => under v "resource"
  | some (.secretKey, v) => under v "key" ++ under v "name"
  | some (.configMapKey, v) => under v "key" ++ under v "name"
  | none => []

/-- What is shown of an environment variable: its value, or where that comes from. -/
def shownOfVariable (entry : Json) : List Json :=
  under entry "name" ++
    match Fields.get? (fieldsOf entry) "value" with
    | some v => [v]
    | none => shownOfSource
        (firstOf ValueSource.fieldName (fieldsOf (field entry "valueFrom")) ValueSource.all)

/-- What is shown of a mount. -/
def shownOfMount (mount : Json) : List Json :=
  under mount "mountPath" ++ under mount "name"

/-- **What is shown of a container.** -/
def shownOfContainer (c : Json) : List Json :=
  under c "name" ++ under c "image" ++ (itemsOf (field c "ports")).flatMap shownOfPort ++
    itemsOf (field c "command") ++ itemsOf (field c "args") ++
    underAll (field (field c "resources") "limits") ++
    underAll (field (field c "resources") "requests") ++
    shownOfProbe (field c "livenessProbe") ++ shownOfProbe (field c "readinessProbe") ++
    shownOfProbe (field c "startupProbe") ++
    (itemsOf (field c "env")).flatMap shownOfVariable ++
    (itemsOf (field c "volumeMounts")).flatMap shownOfMount

/-- What is shown of a volume. -/
def shownOfVolume (volume : Json) : List Json :=
  let source := sourceField (fieldsOf volume)
  under volume "name" ++
    match (sourceKind source).detail with
    | some (name, _) => under (field volume source) name
    | none => []

/-- **The values that a description shows** of a template. -/
def shownOf (t : Json) : List Json :=
  let spec := field t "spec"
  underAll (field (field t "metadata") "labels") ++
    underAll (field (field t "metadata") "annotations") ++
    (Fields.given? (fieldsOf spec) "serviceAccountName").toList ++
    (itemsOf (field spec "initContainers")).flatMap shownOfContainer ++
    (itemsOf (field spec "containers")).flatMap shownOfContainer ++
    (itemsOf (field spec "volumes")).flatMap shownOfVolume

/-- No value holds an object. -/
def ArePlain (vs : List Json) : Prop :=
  ∀ v ∈ vs, IsPlain v

instance : DecidablePred ArePlain :=
  fun vs => inferInstanceAs (Decidable (∀ v ∈ vs, IsPlain v))

variable {a b : Json} {α β : Type}

@[simp] theorem arePlain_append_iff {vs ws : List Json} :
    ArePlain (vs ++ ws) ↔ ArePlain vs ∧ ArePlain ws :=
  List.forall_mem_append

theorem arePlain_flatMap_iff {f : α → List Json} {xs : List α} :
    ArePlain (xs.flatMap f) ↔ ∀ x ∈ xs, ArePlain (f x) := by
  unfold ArePlain
  simp only [List.mem_flatMap, forall_exists_index, and_imp]
  exact ⟨fun h x hx v hv => h v x hx hv, fun h v x hx hv => h x hx v hv⟩

/-! ## Parts -/

/-- **A map that is read** in both templates. -/
theorem asMap_bind_eq (h : Reordered a b) {part : Text} {f g : Fields Json → Outcome β}
    (hfg : f (fieldsOf a) = g (fieldsOf b)) : asMap part a >>= f = asMap part b >>= g := by
  cases h with
  | refl =>
    cases a with
    | null | obj => exact hfg
    | _ => rfl
  | arr => rfl
  | obj => exact hfg

/-- **A list that is read** in both templates. -/
theorem asList_bind_eq (h : Reordered a b) {part : Text} {f g : List Json → Outcome β}
    (hfg : f (itemsOf a) = g (itemsOf b)) : asList part a >>= f = asList part b >>= g := by
  cases h with
  | refl =>
    cases a with
    | null | arr => exact hfg
    | _ => rfl
  | arr => exact hfg
  | obj => rfl

theorem fields_bind_eq (h : Reordered a b) {f g : Fields Json → Outcome β}
    (hfg : f (fieldsOf a) = g (fieldsOf b)) : a.fields >>= f = b.fields >>= g := by
  cases h with
  | refl =>
    cases a with
    | obj => exact hfg
    | _ => rfl
  | arr => rfl
  | obj => exact hfg

/-- What is done with each item comes to the same. -/
theorem mapM_eq {f g : Json → Outcome β} {xs ys : List Json} (h : List.Forall₂ Reordered xs ys)
    (hfg : ∀ x ∈ xs, ∀ y, Reordered x y → f x = g y) : xs.mapM f = ys.mapM g := by
  induction h with
  | nil => rfl
  | cons hxy _ ih =>
    obtain ⟨hx, hxs⟩ := List.forall_mem_cons.mp hfg
    rw [List.mapM_cons, List.mapM_cons, hx _ hxy, ih hxs]

/-- **A value that is shown** is the same in both templates. -/
theorem get?_eq (h : Reordered a b) {name : Text} (hplain : ArePlain (under a name)) :
    Fields.get? (fieldsOf a) name = Fields.get? (fieldsOf b) name := by
  have hrel := h.fieldsOf.get? name
  rw [under] at hplain
  generalize Fields.get? (fieldsOf a) name = v?, Fields.get? (fieldsOf b) name = w? at hplain hrel
  cases hrel with
  | none => rfl
  | some hvw => rw [hvw.eq_of_isPlain (hplain _ List.mem_cons_self)]

theorem textOr_eq (h : Reordered a b) {name : Text} (hplain : ArePlain (under a name))
    (fallback : Text) : textOr (fieldsOf a) name fallback = textOr (fieldsOf b) name fallback := by
  rw [textOr, textOr, Fields.getD, Fields.getD, get?_eq h hplain]

/-- Items that are shown are the same in both templates. -/
theorem itemsOf_eq (h : Reordered a b) (hplain : ArePlain (itemsOf a)) : itemsOf a = itemsOf b := by
  obtain ⟨hlength, hitems⟩ := List.forall₂_iff_zip.mp h.itemsOf
  refine List.forall₂_eq_eq_eq ▸ List.forall₂_iff_zip.mpr ⟨hlength, fun hmem => ?_⟩
  exact (hitems hmem).eq_of_isPlain (hplain _ (List.of_mem_zip hmem).1)

theorem isEmpty_fieldsOf_eq (h : Reordered a b) : (fieldsOf a).isEmpty = (fieldsOf b).isEmpty :=
  Json.isEmpty_eq_of_length_eq (Json.length_eq_of_names_perm h.fieldsOf.names_perm)

theorem isEmpty_itemsOf_eq (h : Reordered a b) : (itemsOf a).isEmpty = (itemsOf b).isEmpty :=
  Json.isEmpty_eq_of_length_eq h.itemsOf.length_eq

/-- Distinct names have one order. -/
theorem byName_eq_of_perm {fs gs : Fields Json} (hd : Fields.Distinct fs) (h : fs.Perm gs) :
    byName fs = byName gs := by
  have htrans : ∀ f g e : Text × Json, f.1.le g.1 = true → g.1.le e.1 = true → f.1.le e.1 = true :=
    fun _ _ _ => Text.le_trans
  have htotal : ∀ f g : Text × Json, (f.1.le g.1 || g.1.le f.1) = true :=
    fun _ _ => Text.le_total _ _
  refine List.Perm.eq_of_pairwise ?_ (List.pairwise_mergeSort htrans htotal fs)
    (List.pairwise_mergeSort htrans htotal gs)
    ((List.mergeSort_perm _ _).trans (h.trans (List.mergeSort_perm _ _).symm))
  intro f g hf hg hfg hgf
  have hf' : f ∈ fs := List.mem_mergeSort.mp hf
  have hg' : g ∈ fs := h.mem_iff.mpr (List.mem_mergeSort.mp hg)
  exact List.inj_on_of_nodup_map hd hf' hg' (Text.le_antisymm hfg hgf)

/-- **Values that are listed by name** are listed alike. -/
theorem byName_eq (h : Reordered a b) (ha : WellFormed a) (hplain : ArePlain (underAll a)) :
    byName (fieldsOf a) = byName (fieldsOf b) := by
  have hd : Fields.Distinct (fieldsOf a) := (Json.wellFormed_obj_iff.mp ha.fieldsOf).1
  have hd' : Fields.Distinct (fieldsOf b) := h.fieldsOf.names_perm.nodup_iff.mp hd
  refine byName_eq_of_perm hd (Fields.perm_of_get?_eq hd hd' fun k => get?_eq h fun v hv => ?_)
  have hmem : (k, v) ∈ fieldsOf a := Fields.mem_of_get? (Option.mem_toList.mp hv)
  exact hplain v (List.mem_map.mpr ⟨_, hmem, rfl⟩)

/-- What is found first is found in both templates. -/
theorem firstOf_rel (fieldName : α → Text) (h : Reordered a b) (choices : List α) :
    Option.Rel (fun p q => p.1 = q.1 ∧ Reordered p.2 q.2)
      (firstOf fieldName (fieldsOf a) choices) (firstOf fieldName (fieldsOf b) choices) := by
  induction choices with
  | nil => exact .none
  | cons choice choices ih =>
    have hrel := h.fieldsOf.get? (fieldName choice)
    rw [firstOf, firstOf]
    generalize Fields.get? (fieldsOf a) (fieldName choice) = v?,
      Fields.get? (fieldsOf b) (fieldName choice) = w? at hrel
    cases hrel with
    | none => exact ih
    | some hvw => exact .some ⟨rfl, hvw⟩

/-! ## Containers -/

theorem portsLine_eq (h : Reordered a b)
    (hplain : ArePlain ((itemsOf (field a "ports")).flatMap shownOfPort)) :
    portsLine (fieldsOf a) = portsLine (fieldsOf b) := by
  have hports := (h.field "ports").itemsOf
  refine asList_bind_eq (h.field "ports") ?_
  have htext : portsText (itemsOf (field a "ports")) = portsText (itemsOf (field b "ports")) := by
    refine congrArg (· >>= fun shown => pure ((", " : Text).intercalate shown)) ?_
    refine mapM_eq hports fun x hx y hxy => asMap_bind_eq hxy ?_
    obtain ⟨hport, hprotocol⟩ := arePlain_append_iff.mp (arePlain_flatMap_iff.mp hplain x hx)
    rw [textOr_eq hxy hport, textOr_eq hxy hprotocol]
  rw [htext, hports.length_eq]

theorem wordLines_eq (h : Reordered a b) {name : Text} (hplain : ArePlain (itemsOf (field a name)))
    (title : Text) : wordLines (fieldsOf a) name title = wordLines (fieldsOf b) name title :=
  asList_bind_eq (h.field name) (by rw [itemsOf_eq (h.field name) hplain])

theorem amountLines_eq (h : Reordered a b) (ha : WellFormed a) {name : Text}
    (hplain : ArePlain (underAll (field a name))) (title : Text) :
    amountLines (fieldsOf a) name title = amountLines (fieldsOf b) name title := by
  have hname := h.field name
  refine asMap_bind_eq hname ?_
  rw [isEmpty_fieldsOf_eq hname, byName_eq hname (ha.field name) hplain]

/-- **What a probe does** is the same. -/
theorem probeAction_eq (h : Reordered a b)
    (hplain : ArePlain (shownOfHandler (firstOf Handler.fieldName (fieldsOf a) Handler.all))) :
    probeAction (fieldsOf a) = probeAction (fieldsOf b) := by
  have hrel := firstOf_rel Handler.fieldName h Handler.all
  rw [probeAction, probeAction]
  generalize firstOf Handler.fieldName (fieldsOf a) Handler.all = found,
    firstOf Handler.fieldName (fieldsOf b) Handler.all = found' at hplain hrel
  cases hrel with
  | none => rfl
  | @some p q hpq =>
    obtain ⟨handler, v⟩ := p
    obtain ⟨_, w⟩ := q
    obtain ⟨rfl, hvw⟩ := hpq
    cases handler with
    | httpGet =>
      simp only [shownOfHandler, arePlain_append_iff] at hplain
      obtain ⟨⟨hhost, hport⟩, hpath⟩ := hplain
      refine fields_bind_eq hvw ?_
      rw [textOr_eq hvw hhost, textOr_eq hvw hport, textOr_eq hvw hpath]
      have hscheme := hvw.getD "scheme" (.str "HTTP")
      generalize Fields.getD (fieldsOf v) "scheme" (.str "HTTP") = s,
        Fields.getD (fieldsOf w) "scheme" (.str "HTTP") = s' at hscheme
      -- A scheme that is reordered is no text, and ends the description both times.
      cases hscheme <;> rfl
    | tcpSocket => exact fields_bind_eq hvw (by rw [textOr_eq hvw hplain])
    | exec => exact fields_bind_eq hvw (by rw [Fields.getD, Fields.getD, get?_eq hvw hplain])
    | grpc => exact fields_bind_eq hvw (by rw [textOr_eq hvw hplain])

theorem probeLines_eq (h : Reordered a b) {name : Text}
    (hplain : ArePlain (shownOfProbe (field a name))) (title : Text) :
    probeLines (fieldsOf a) name title = probeLines (fieldsOf b) name title := by
  have hname := h.field name
  simp only [shownOfProbe, arePlain_append_iff] at hplain
  obtain ⟨⟨⟨⟨⟨haction, hdelay⟩, htimeout⟩, hperiod⟩, hsuccess⟩, hfailure⟩ := hplain
  refine asMap_bind_eq hname ?_
  rw [isEmpty_fieldsOf_eq hname, probeText, probeText, probeAction_eq hname haction,
    textOr_eq hname hdelay, textOr_eq hname htimeout, textOr_eq hname hperiod,
    textOr_eq hname hsuccess, textOr_eq hname hfailure]

/-- **Where a value comes from** is told alike. -/
theorem sourceText_eq (h : Reordered a b)
    (hplain : ArePlain
      (shownOfSource (firstOf ValueSource.fieldName (fieldsOf a) ValueSource.all))) :
    sourceText (fieldsOf a) = sourceText (fieldsOf b) := by
  have hrel := firstOf_rel ValueSource.fieldName h ValueSource.all
  rw [sourceText, sourceText]
  generalize firstOf ValueSource.fieldName (fieldsOf a) ValueSource.all = found,
    firstOf ValueSource.fieldName (fieldsOf b) ValueSource.all = found' at hplain hrel
  cases hrel with
  | none => rfl
  | @some p q hpq =>
    obtain ⟨source, v⟩ := p
    obtain ⟨_, w⟩ := q
    obtain ⟨rfl, hvw⟩ := hpq
    cases source with
    | field | secretKey | configMapKey =>
      obtain ⟨hfirst, hsecond⟩ := arePlain_append_iff.mp hplain
      exact fields_bind_eq hvw (by rw [textOr_eq hvw hfirst, textOr_eq hvw hsecond])
    | resourceField => exact fields_bind_eq hvw (by rw [textOr_eq hvw hplain])

theorem variableText_eq (h : Reordered a b) (hplain : ArePlain (shownOfVariable a)) :
    variableText (fieldsOf a) = variableText (fieldsOf b) := by
  have hshown := (arePlain_append_iff.mp hplain).2
  have hvalue := h.fieldsOf.get? "value"
  rw [variableText, variableText]
  generalize Fields.get? (fieldsOf a) "value" = v?, Fields.get? (fieldsOf b) "value" = w?
    at hshown hvalue
  cases hvalue with
  | none => exact asMap_bind_eq (h.field "valueFrom") (sourceText_eq (h.field "valueFrom") hshown)
  | some hvw => rw [hvw.eq_of_isPlain (hshown _ List.mem_cons_self)]

theorem environmentLines_eq (h : Reordered a b)
    (hplain : ArePlain ((itemsOf (field a "env")).flatMap shownOfVariable)) :
    environmentLines (fieldsOf a) = environmentLines (fieldsOf b) := by
  have henv := h.field "env"
  refine asList_bind_eq henv ?_
  rw [isEmpty_itemsOf_eq henv]
  split
  · rfl
  refine congrArg (· >>= fun lines => pure (line 2 "Environment:" :: lines)) ?_
  refine mapM_eq henv.itemsOf fun x hx y hxy => asMap_bind_eq hxy ?_
  have hshown : ArePlain (shownOfVariable x) := arePlain_flatMap_iff.mp hplain x hx
  have hname : ArePlain (under x "name") := (arePlain_append_iff.mp hshown).1
  rw [variableText_eq hxy hshown, textOr_eq hxy hname]

theorem mountLines_eq (h : Reordered a b)
    (hplain : ArePlain ((itemsOf (field a "volumeMounts")).flatMap shownOfMount)) :
    mountLines (fieldsOf a) = mountLines (fieldsOf b) := by
  have hmounts := h.field "volumeMounts"
  refine asList_bind_eq hmounts ?_
  rw [isEmpty_itemsOf_eq hmounts]
  split
  · rfl
  refine congrArg (· >>= fun lines => pure (line 2 "Mounts:" :: lines)) ?_
  refine mapM_eq hmounts.itemsOf fun x hx y hxy => asMap_bind_eq hxy ?_
  obtain ⟨hpath, hname⟩ := arePlain_append_iff.mp (arePlain_flatMap_iff.mp hplain x hx)
  rw [textOr_eq hxy hpath, textOr_eq hxy hname, (hxy.getD "readOnly" .null).truthy_eq]

/-- **A container is described alike.** -/
theorem containerLines_eq (h : Reordered a b) (ha : WellFormed a)
    (hplain : ArePlain (shownOfContainer a)) :
    containerLines (fieldsOf a) = containerLines (fieldsOf b) := by
  simp only [shownOfContainer, arePlain_append_iff] at hplain
  obtain ⟨⟨⟨⟨⟨⟨⟨⟨⟨⟨⟨hname, himage⟩, hports⟩, hcommand⟩, hargs⟩, hlimits⟩, hrequests⟩, hliveness⟩,
    hreadiness⟩, hstartup⟩, henv⟩, hmounts⟩ := hplain
  have hresources := h.field "resources"
  have ha' : WellFormed (field a "resources") := ha.field "resources"
  rw [containerLines, containerLines, portsLine_eq h hports, wordLines_eq h hcommand,
    wordLines_eq h hargs, probeLines_eq h hliveness, probeLines_eq h hreadiness,
    probeLines_eq h hstartup, environmentLines_eq h henv, mountLines_eq h hmounts,
    textOr_eq h hname, textOr_eq h himage]
  refine bind_congr fun ports => bind_congr fun command => bind_congr fun args => ?_
  refine asMap_bind_eq hresources ?_
  rw [amountLines_eq hresources ha' hlimits, amountLines_eq hresources ha' hrequests]

theorem containersLines_eq (h : Reordered a b) (ha : WellFormed a)
    (hplain : ArePlain ((itemsOf a).flatMap shownOfContainer)) (part : Text) :
    containersLines part (itemsOf a) = containersLines part (itemsOf b) := by
  refine congrArg (· >>= fun lines : List (List Text) => pure lines.flatten) ?_
  refine mapM_eq h.itemsOf fun x hx y hxy => asMap_bind_eq hxy ?_
  exact containerLines_eq hxy (ha.itemsOf x hx) (arePlain_flatMap_iff.mp hplain x hx)

/-! ## Volumes -/

/-- A volume is told by the first name that is left when its own is taken away. -/
theorem sourceField_eq_head (fs : Fields Json) :
    sourceField fs = (Fields.names (Fields.erase fs "name")).head?.getD "" := by
  rw [Fields.names, List.head?_map, Fields.erase, List.head?_filter, sourceField]
  cases fs.find? (fun f => f.1 ≠ ("name" : Text)) <;> rfl

/-- **The source of a volume** that has no other field beside its name. -/
theorem sourceField_eq (h : Reordered a b)
    (hone : (Fields.erase (fieldsOf a) "name").length ≤ 1) :
    sourceField (fieldsOf a) = sourceField (fieldsOf b) := by
  have hperm : (Fields.names (Fields.erase (fieldsOf a) "name")).Perm
      (Fields.names (Fields.erase (fieldsOf b) "name")) := by
    rw [Fields.names_erase, Fields.names_erase]
    exact h.fieldsOf.names_perm.filter _
  rw [sourceField_eq_head, sourceField_eq_head]
  generalize Fields.erase (fieldsOf a) "name" = fs at hone hperm ⊢
  match fs, hone with
  | [], _ => rw [← hperm.nil_eq]; rfl
  | [f], _ => rw [← hperm.singleton_eq]; rfl

theorem volumeLines_eq (h : Reordered a b)
    (hone : (Fields.erase (fieldsOf a) "name").length ≤ 1) (hplain : ArePlain (shownOfVolume a)) :
    volumeLines (fieldsOf a) = volumeLines (fieldsOf b) := by
  obtain ⟨hname, hdetail⟩ := arePlain_append_iff.mp hplain
  have hsource := h.field (sourceField (fieldsOf a))
  rw [volumeLines, volumeLines, ← sourceField_eq h hone, textOr_eq h hname]
  refine asMap_bind_eq hsource ?_
  dsimp only
  generalize (sourceKind (sourceField (fieldsOf a))).detail = detail at hdetail ⊢
  cases detail with
  | none => rfl
  | some shown =>
    dsimp only at hdetail ⊢
    rw [textOr_eq hsource hdetail]

theorem volumesLines_eq (h : Reordered a b)
    (hone : ∀ v ∈ itemsOf a, (Fields.erase (fieldsOf v) "name").length ≤ 1)
    (hplain : ArePlain ((itemsOf a).flatMap shownOfVolume)) :
    volumesLines (itemsOf a) = volumesLines (itemsOf b) := by
  rw [volumesLines, volumesLines, isEmpty_itemsOf_eq h]
  split
  · rfl
  refine congrArg
    (· >>= fun lines : List (List Text) => pure (line 1 "Volumes:" :: lines.flatten)) ?_
  refine mapM_eq h.itemsOf fun x hx y hxy => asMap_bind_eq hxy ?_
  exact volumeLines_eq hxy (hone x hx) (arePlain_flatMap_iff.mp hplain x hx)

/-! ## Templates -/

theorem sectionLines_eq (h : Reordered a b) (ha : WellFormed a) (hplain : ArePlain (underAll a))
    (level : Nat) (title : Text) :
    sectionLines level title (fieldsOf a) = sectionLines level title (fieldsOf b) := by
  rw [sectionLines, sectionLines, byName_eq h ha hplain]

/-- A value that is shown if it is given. -/
theorem given?_eq (h : Reordered a b) {name : Text}
    (hplain : ArePlain (Fields.given? (fieldsOf a) name).toList) :
    Fields.given? (fieldsOf a) name = Fields.given? (fieldsOf b) name := by
  have hrel := h.fieldsOf.get? name
  rw [Fields.given?] at hplain
  rw [Fields.given?, Fields.given?]
  generalize Fields.get? (fieldsOf a) name = v?, Fields.get? (fieldsOf b) name = w? at hplain hrel ⊢
  cases hrel with
  | none => rfl
  | @some v w hvw =>
    rw [Option.filter_some, Option.filter_some, ← hvw.truthy_eq]
    rw [Option.filter_some] at hplain
    cases hv : v.truthy with
    | false => rfl
    | true =>
      rw [if_pos hv] at hplain
      rw [hvw.eq_of_isPlain (hplain v List.mem_cons_self)]

/-- **The lines of a template**, its own annotations shown. -/
theorem templateLines_eq (h : Reordered a b) (ha : WellFormed a)
    (hvolumes : ∀ v ∈ itemsOf (field (field a "spec") "volumes"),
      (Fields.erase (fieldsOf v) "name").length ≤ 1)
    (hplain : ArePlain (shownOf a)) : templateLines none a = templateLines none b := by
  simp only [shownOf, arePlain_append_iff] at hplain
  obtain ⟨⟨⟨⟨⟨hlabels, hannotations⟩, haccount⟩, hinitial⟩, hcontainers⟩, hsources⟩ := hplain
  have hmetadata := h.field "metadata"
  have hspec := h.field "spec"
  have haMetadata : WellFormed (field a "metadata") := ha.field "metadata"
  have haSpec : WellFormed (field a "spec") := ha.field "spec"
  refine asMap_bind_eq h ?_
  refine asMap_bind_eq hmetadata ?_
  refine asMap_bind_eq hspec ?_
  refine asMap_bind_eq (hmetadata.field "labels") ?_
  refine asMap_bind_eq (hmetadata.field "annotations") ?_
  rw [given?_eq hspec haccount]
  refine asList_bind_eq (hspec.field "initContainers") ?_
  rw [containersLines_eq (hspec.field "initContainers") (haSpec.field _) hinitial]
  refine bind_congr fun initialLines => asList_bind_eq (hspec.field "containers") ?_
  rw [containersLines_eq (hspec.field "containers") (haSpec.field _) hcontainers]
  refine bind_congr fun mainLines => asList_bind_eq (hspec.field "volumes") ?_
  rw [volumesLines_eq (hspec.field "volumes") hvolumes hsources,
    sectionLines_eq (hmetadata.field "labels") (haMetadata.field _) hlabels,
    sectionLines_eq (hmetadata.field "annotations") (haMetadata.field _) hannotations,
    isEmpty_fieldsOf_eq (hmetadata.field "annotations"),
    isEmpty_itemsOf_eq (hspec.field "initContainers")]

/-- **Templates that differ in the order of their fields only** are the same document, and are
described alike or fail alike. -/
theorem describe_eq_of_reordered (h : Reordered a b) (ha : WellFormed a)
    (hvolumes : ∀ v ∈ itemsOf (field (field a "spec") "volumes"),
      (Fields.erase (fieldsOf v) "name").length ≤ 1)
    (hplain : ArePlain (shownOf a)) : a.same b = true ∧ describe a = describe b := by
  refine ⟨h.same ha, ?_⟩
  have hlines := templateLines_eq h ha hvolumes hplain
  cases h with
  | refl => rfl
  | arr => rfl
  | obj => exact congrArg (fun lines => lines >>= _) hlines

/-- A template, with two things for a probe to do. -/
def stored : Json :=
  .obj [
    ("metadata", .obj [
      ("labels", .obj [("tier", .str "web"), ("app", .str "shop")]),
      ("annotations", .null)]),
    ("spec", .obj [
      ("containers", .arr [.obj [
        ("name", .str "main"),
        ("livenessProbe", .obj [
          ("exec", .obj [("command", .arr [.str "true"])]),
          ("tcpSocket", .obj [("port", .str "http")])])]]),
      ("volumes", .arr [.obj [("name", .str "data"), ("emptyDir", .obj [])]])])]

/-- The template with its fields in other orders. -/
def merged : Json :=
  .obj [
    ("spec", .obj [
      ("volumes", .arr [.obj [("emptyDir", .obj []), ("name", .str "data")]]),
      ("containers", .arr [.obj [
        ("livenessProbe", .obj [
          ("tcpSocket", .obj [("port", .str "http")]),
          ("exec", .obj [("command", .arr [.str "true"])])]),
        ("name", .str "main")]])]),
    ("metadata", .obj [
      ("annotations", .null),
      ("labels", .obj [("app", .str "shop"), ("tier", .str "web")])])]

theorem describe_eq_of_reordered_merged :
    (Reordered stored merged ∧ WellFormed stored ∧ ArePlain (shownOf stored)
      ∧ ∀ v ∈ itemsOf (field (field stored "spec") "volumes"),
        (Fields.erase (fieldsOf v) "name").length ≤ 1)
      ∧ stored ≠ merged ∧ stored.same merged = true ∧ describe stored = describe merged := by
  have hswap : ∀ {k l : Text} {v v' w w' : Json}, k ≠ l → Reordered v v' → Reordered w w' →
      Reordered (.obj [(k, v), (l, w)]) (.obj [(l, w'), (k, v')]) :=
    fun hkl hv hw => Json.reordered_swap hkl hv hw []
  have hlist : ∀ {x y : Json}, Reordered x y → Reordered (.arr [x]) (.arr [y]) :=
    fun h => Json.reordered_arr_iff.mpr (.cons h .nil)
  have h : Reordered stored merged := by
    refine hswap (by decide) ?metadata ?spec
    case metadata => exact hswap (by decide) (hswap (by decide) (.refl _) (.refl _)) (.refl _)
    case spec =>
      refine hswap (by decide) (hlist ?container) (hlist ?volume)
      case container => exact hswap (by decide) (.refl _) (hswap (by decide) (.refl _) (.refl _))
      case volume => exact hswap (by decide) (.refl _) (.refl _)
  have ha : WellFormed stored := by decide
  have hplain : ArePlain (shownOf stored) := by decide
  have hvolumes : ∀ v ∈ itemsOf (field (field stored "spec") "volumes"),
      (Fields.erase (fieldsOf v) "name").length ≤ 1 := by decide
  have hne : stored ≠ merged := by
    intro heq
    have hnames : Fields.names (fieldsOf stored) = Fields.names (fieldsOf merged) :=
      congrArg (fun t => Fields.names (fieldsOf t)) heq
    exact absurd hnames (by decide)
  exact ⟨⟨h, ha, hplain, hvolumes⟩, hne, describe_eq_of_reordered h ha hvolumes hplain⟩

end Template
end Rollout
