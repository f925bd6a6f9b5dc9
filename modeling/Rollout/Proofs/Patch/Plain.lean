import Rollout.Proofs.Patch.WellFormed

/-!
# Documents without directives

Directives are instructions to the merge. A document that has none (`Json.isPlainPart`,
everywhere) is taken over as it stands (`Json.stripped_of_plain`), and any document has none
once it has been stripped of them (`Json.plain_stripped`).

What is merged into an object reaches the result in several ways: as a scalar, as a map or a
list that replaces what was there, as a new map, as an element of a keyed list, as a value of
a united one. In all but the last the directives are carried out or dropped on the way, at
every depth, so that none is left in the result (`Patch.no_directive_is_left`). The values of a
united list are taken over unread. They are meant to be scalars, which have no directives.
-/

namespace Rollout

namespace Json

/-- No name in the object is a directive's. -/
def isPlainPart : Json → Bool
  | obj fs => fs.all (fun f => !Patch.isDirective f.1)
  | _ => true

theorem isPlainPart_obj_iff {fs : Fields Json} :
    isPlainPart (obj fs) = true ↔ ∀ f ∈ fs, Patch.isDirective f.1 = false := by
  rw [isPlainPart, List.all_eq_true]
  simp only [Bool.not_eq_true']

/-- A bare mode is a directive. -/
theorem isBareMode_of_isPlainPart {j : Json} (h : isPlainPart j = true) :
    Patch.isBareMode j = false := by
  unfold Patch.isBareMode
  split
  · rename_i k v
    have hk : Patch.isDirective k = false := isPlainPart_obj_iff.mp h (k, v) List.mem_cons_self
    refine beq_eq_false_iff_ne.mpr fun heq => ?_
    rw [heq] at hk
    exact absurd hk (by decide)
  · rfl

/-- The fields of an object without directives are all data. -/
theorem dataFields_of_isPlainPart {fs : Fields Json} (h : isPlainPart (obj fs) = true) :
    Patch.dataFields fs = fs :=
  List.filter_eq_self.mpr fun f hf => by
    rw [isPlainPart_obj_iff.mp h f hf]
    rfl

/-- **A document without directives is taken over as it stands.** -/
theorem stripped_of_plain {j : Json} (h : everywhere isPlainPart j = true) : j.stripped = j := by
  induction j using Json.induction with
  | arr items ih =>
    obtain ⟨-, hs⟩ := everywhere_arr_iff.mp h
    have hkept : items.filter (fun x => !Patch.isBareMode x) = items :=
      List.filter_eq_self.mpr fun x hx => by
        rw [isBareMode_of_isPlainPart (of_everywhere (hs x hx))]
        rfl
    rw [stripped, strippedItems_eq, hkept, List.map_congr_left fun x hx => ih x hx (hs x hx),
      List.map_id']
  | obj fs ih =>
    obtain ⟨hpart, hs⟩ := everywhere_obj_iff.mp h
    rw [stripped, strippedFields_eq, dataFields_of_isPlainPart hpart]
    refine congrArg obj ((List.map_congr_left fun f hf => ?_).trans (List.map_id fs))
    rw [ih f hf (hs f hf)]
    rfl
  | _ => rfl

/-- **A document that was stripped of its directives has none**, at any depth. -/
theorem plain_stripped (j : Json) : everywhere isPlainPart j.stripped = true := by
  induction j using Json.induction with
  | arr items ih =>
    rw [stripped, strippedItems_eq]
    refine everywhere_arr_iff.mpr ⟨rfl, fun y hy => ?_⟩
    obtain ⟨x, hx, rfl⟩ := List.mem_map.mp hy
    exact ih x (List.mem_of_mem_filter hx)
  | obj fs ih =>
    rw [stripped, strippedFields_eq]
    refine everywhere_obj_iff.mpr ⟨isPlainPart_obj_iff.mpr fun g hg => ?_, fun g hg => ?_⟩
    · obtain ⟨f, hf, rfl⟩ := List.mem_map.mp hg
      have hdata := (List.mem_filter.mp hf).2
      exact Bool.not_eq_true' _ ▸ hdata
    · obtain ⟨f, hf, rfl⟩ := List.mem_map.mp hg
      exact ih f (List.mem_of_mem_filter hf)
  | _ => rfl

end Json

namespace Patch

open Json (everywhere isPlainPart isPlainPart_obj_iff everywhere_obj_iff everywhere_arr_iff)

/-! ## A map of a patch that gives no directives -/

section Undirected

variable {patch : Fields Json}

theorem get?_directive_of_isPlainPart (h : isPlainPart (.obj patch) = true) {name : Text}
    (hname : isDirective name = true) : Fields.get? patch name = none := by
  refine Fields.get?_eq_none_iff.mpr fun hmem => ?_
  obtain ⟨f, hf, rfl⟩ := List.mem_map.mp hmem
  rw [isPlainPart_obj_iff.mp h f hf] at hname
  cases hname

theorem listDirectives_of_isPlainPart (path : Text) (h : isPlainPart (.obj patch) = true) :
    listDirectives path patch = .ok ⟨[], []⟩ := by
  have hstep : ∀ ds, ∀ f ∈ patch, addListDirective path ds f.1 f.2 = .ok ds := fun ds f hf => by
    rw [addListDirective, if_pos (.inr (.inr (by rw [isPlainPart_obj_iff.mp h f hf]; rfl)))]
  unfold listDirectives
  clear h
  induction patch with
  | nil => rfl
  | cons f patch ih =>
    rw [List.foldlM_cons, hstep _ f List.mem_cons_self]
    exact ih fun ds g hg => hstep ds g (List.mem_cons_of_mem _ hg)

/-- **A map under a patch without directives** has the patch's fields merged into it, and
nothing else is done to it. -/
theorem merged_of_isPlainPart (path : Text) (h : isPlainPart (.obj patch) = true)
    (base : Fields Json) :
    merged path base patch = (do return some (← mergedFields path base patch)) := by
  have hmode : mode path patch = .ok .merge := by
    rw [mode, get?_directive_of_isPlainPart h (by decide)]
  have hretained : retained? path patch = .ok none := by
    rw [retained?, get?_directive_of_isPlainPart h (by decide)]
  have hdirectives := listDirectives_of_isPlainPart path h
  obtain ⟨horders, hremovals⟩ := listDirectives_eq_ok hdirectives
  rw [merged_eq_phases hmode hretained hdirectives, ← horders, ← hremovals,
    mergedFields_eq_foldlM]
  rfl

end Undirected

/-! ## What is left of directives -/

/-- The mark is a directive, and is taken over by nobody. -/
theorem strippedFields_erase_modeField (fs : Fields Json) :
    Json.strippedFields (Fields.erase fs modeField) = Json.strippedFields fs := by
  rw [Json.strippedFields_eq, Json.strippedFields_eq, dataFields, dataFields, Fields.erase,
    List.filter_filter]
  refine congrArg (List.map _) (List.filter_congr fun f _ => ?_)
  by_cases hf : f.1 = modeField
  · rw [hf]
    rfl
  · rw [decide_eq_true hf, Bool.and_true]

theorem isKept_isPlainPart : IsKept isPlainPart where
  arr _ := rfl
  nil := rfl
  set fs k v hk h := by
    have hplain := isPlainPart_obj_iff.mp h
    refine isPlainPart_obj_iff.mpr fun f hf => ?_
    obtain rfl | hf := Fields.mem_set hf
    · -- a name that is there already is none of a directive's
      refine hk.elim (fun hhas => ?_) id
      obtain ⟨g, hg, rfl⟩ := List.mem_map.mp ((Fields.has_iff fs k).mp hhas)
      exact hplain g hg
    · exact hplain f hf
  filter fs t h :=
    isPlainPart_obj_iff.mpr fun f hf => isPlainPart_obj_iff.mp h f (List.mem_of_mem_filter hf)

/-- **The united lists of a patch's map hold scalars**, unless they replace the list that is
there. -/
def unitesScalars : Json → Bool
  | .obj fs => fs.all fun f =>
      match f.2 with
      | .arr items => !isUnited f.1 || items.any (hasMode "replace") || items.all identifies
      | _ => true
  | _ => true

/-- A scalar has no directives. -/
theorem plain_of_identifies {j : Json} (h : identifies j = true) :
    everywhere isPlainPart j = true := by
  cases j with
  | arr items => cases h
  | obj fs => cases h
  | _ => rfl

/-- A patch whose united lists hold scalars feeds pieces without directives. -/
theorem isFeed_of_unitesScalars {v : Json} (h : unitesScalars v = true) :
    isFeed isPlainPart v = true := by
  refine Bool.and_eq_true_iff.mpr ⟨Json.plain_stripped v, ?_⟩
  split
  · refine List.all_eq_true.mpr fun f hf => ?_
    have hf := List.all_eq_true.mp h f hf
    split
    · rename_i items heq
      simp only [heq, Bool.or_eq_true] at hf ⊢
      exact hf.imp_right fun hall =>
        List.all_eq_true.mpr fun x hx => plain_of_identifies (List.all_eq_true.mp hall x hx)
    · rfl
  · rfl

/-- **No directive is left in a merged object.** Whatever the patch says, and wherever it says
it, the object has no directives at any depth if it had none before – as long as the united
lists of the patch hold nothing but scalars. -/
theorem no_directive_is_left {base patch result : Fields Json}
    (hbase : everywhere isPlainPart (.obj base) = true)
    (hpatch : everywhere unitesScalars (.obj patch) = true)
    (h : mergedObject base patch = .ok result) : everywhere isPlainPart (.obj result) = true := by
  obtain ⟨result?, hmerged, h⟩ := Outcome.bind_eq_ok_iff.mp h
  obtain rfl := Except.ok.inj h
  cases result? with
  | none => rfl
  | some result =>
    exact everywhere_merged isKept_isPlainPart
      (Json.everywhere_mono (fun _ => isFeed_of_unitesScalars) hpatch) hbase hmerged

/-- A template with a container and a volume. -/
def webOnDisk : Fields Json :=
  [("containers", .arr [.obj [
      ("name", .str "web"), ("ports", .arr [.obj [("containerPort", .int 80)]])]]),
   ("volumes", .arr [.obj [("name", .str "data"), ("emptyDir", .obj [("medium", .str "Memory")])]]),
   ("finalizers", .arr [.str "a"])]

/-- A patch with directives in a map that is merged, one that is replaced and one that is new,
in an element, in a list that replaces and in a united list that does. -/
def fullOfDirectives : Fields Json :=
  [("$retainKeys", .arr [.str "containers", .str "volumes", .str "finalizers", .str "affinity"]),
   ("containers", .arr [
      .obj [("name", .str "web"), ("$deleteFromPrimitiveList/args", .arr []),
        ("ports", .arr [.obj [("$patch", .str "delete"), ("containerPort", .int 80)]])],
      .obj [("name", .str "log"), ("$setElementOrder/env", .arr []),
        ("tolerations", .arr [.obj [("$patch", .str "merge")],
          .obj [("key", .str "gpu"), ("$note", .null)]])]]),
   ("volumes", .arr [.obj [("name", .str "data"),
      ("emptyDir", .obj [("$patch", .str "replace"), ("$retainKeys", .arr []),
        ("limits", .arr [.arr [.obj [("$patch", .str "delete")]]])])]]),
   ("finalizers", .arr [.obj [("$patch", .str "replace")], .obj [("$note", .int 1)], .str "b"]),
   ("affinity", .obj [("$patch", .null), ("nodeAffinity", .obj [("$patch", .str "delete")])])]

theorem no_directive_is_left_fullOfDirectives :
    ∃ result, mergedObject webOnDisk fullOfDirectives = .ok result
      ∧ everywhere isPlainPart (.obj result) = true := by
  have hresult : mergedObject webOnDisk fullOfDirectives = .ok [
      ("containers", .arr [
        .obj [("name", .str "web"), ("ports", .arr [])],
        .obj [("name", .str "log"), ("tolerations", .arr [.obj [("key", .str "gpu")]])]]),
      ("volumes", .arr [.obj [("name", .str "data"),
        ("emptyDir", .obj [("limits", .arr [.arr []])])]]),
      ("finalizers", .arr [.obj [], .str "b"]),
      ("affinity", .obj [])] := by rfl
  exact ⟨_, hresult, no_directive_is_left (by decide) (by decide) hresult⟩

end Patch
end Rollout
