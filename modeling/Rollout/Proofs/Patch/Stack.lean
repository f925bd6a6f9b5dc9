import Rollout.Patch.Stack
import Rollout.Proofs.Patch.Depth

/-!
# Merging with little room

A merge on a stack is the merge without an end, or there is too little room and it fails
(`Patch.isWithin_mergedObjectWithin`). There is room enough for documents of `n` levels if there
is more than for the copy of one, two calls for each level. On the way down a merge spends one
call with each container, and what is left to be copied below it needs two less.

What a part of a patch is merged into need not have been in the object. It may be the result of
an earlier part, and that it is no deeper than the two documents is what `Patch.depth_merged_le`
is for.
-/

namespace Rollout

namespace Outcome

variable {α β : Type} {short short' : Prop} {x y : Outcome α}

/-- **The outcome is the other one**, or it is a failure for want of room, where room is short. -/
def IsWithin (short : Prop) (x y : Outcome α) : Prop :=
  x = y ∨ short ∧ x = .error .malformed

theorem isWithin_refl (x : Outcome α) : IsWithin short x x :=
  .inl rfl

theorem isWithin_malformed (h : short) (y : Outcome α) : IsWithin short (.error .malformed) y :=
  .inr ⟨h, rfl⟩

theorem IsWithin.mono (h : IsWithin short x y) (hs : short → short') : IsWithin short' x y :=
  h.imp_right (And.imp_left hs)

/-- **Steps that follow each other** are within the room if each is. -/
theorem IsWithin.bind (h : IsWithin short x y) {f g : α → Outcome β}
    (hfg : ∀ a, y = .ok a → IsWithin short (f a) (g a)) : IsWithin short (x >>= f) (y >>= g) := by
  rcases h with rfl | ⟨hs, rfl⟩
  · cases x with
    | ok a => exact hfg a rfl
    | error e => exact isWithin_refl _
  · exact isWithin_malformed hs _

/-- Going on in the same way is within the room if the first step is. -/
theorem IsWithin.andThen (h : IsWithin short x y) (f : α → Outcome β) :
    IsWithin short (x >>= f) (y >>= f) :=
  h.bind fun a _ => isWithin_refl (f a)

/-- A first step that gives nothing, within the room, leaves the outcome to the second. -/
theorem IsWithin.before {c : Outcome Unit} (hc : IsWithin short c (.ok ()))
    (h : IsWithin short x y) : IsWithin short (c >>= fun _ => x) y :=
  hc.bind fun _ _ => h

/-- A first step that takes no room leaves it to the second. -/
theorem isWithin_bind (x : Outcome α) {f g : α → Outcome β}
    (hfg : ∀ a, x = .ok a → IsWithin short (f a) (g a)) :
    IsWithin short (x >>= f) (x >>= g) :=
  (isWithin_refl x).bind hfg

end Outcome

namespace Patch

open Outcome (IsWithin isWithin_bind isWithin_malformed isWithin_refl)
open Json (depth_arr_le_iff depth_obj_le_iff depth_stripped_le)

variable {n room : Nat} {short : Prop}

/-! ## Calls and copies -/

/-- A call takes one of the room. -/
theorem isWithin_called {α : Type} {call : Nat → Outcome α} {x : Outcome α}
    (h : ∀ left, left + 1 = room → IsWithin (room ≤ 2 * n) (call left) x) :
    IsWithin (room ≤ 2 * n) (called room call) x := by
  cases room with
  | zero => exact isWithin_malformed (Nat.zero_le _) x
  | succ left => exact h left rfl

/-- **A copy takes two calls for each level**; with a call more there is room for it. -/
theorem isWithin_copied {j : Json} (h : j.depth ≤ n) :
    IsWithin (room + 1 ≤ 2 * n) (copied room j) (.ok ()) := by
  unfold copied
  split
  · exact isWithin_refl _
  · exact isWithin_malformed (by omega) _

theorem isWithin_mapCopied {path : Text} {base patch : Fields Json}
    (hbase : (Json.obj base).depth ≤ n) (hpatch : (Json.obj patch).depth ≤ n) :
    IsWithin (room + 1 ≤ 2 * n) (mapCopied room path base patch) (.ok ()) := by
  unfold mapCopied
  split
  · exact isWithin_copied ((depth_stripped_le (.obj patch)).trans hpatch)
  · exact isWithin_copied hbase
  · exact isWithin_refl _

theorem isWithin_listCopied {field : Text} {base patch : List Json}
    (hbase : (Json.arr base).depth ≤ n) (hpatch : (Json.arr patch).depth ≤ n) :
    IsWithin (room + 1 ≤ 2 * n) (listCopied room field base patch) (.ok ()) := by
  have hstripped := (depth_stripped_le (.arr patch)).trans hpatch
  unfold listCopied
  split
  · exact isWithin_copied hstripped
  · split
    · exact isWithin_refl _
    · split
      · exact isWithin_copied hbase
      · exact isWithin_copied hstripped

/-! ## Maps and lists -/

theorem isWithin_directed {path : Text} {base patch : Fields Json}
    {merge merge' : Fields Json → Outcome (Fields Json)}
    (h : ∀ kept, (∀ f ∈ kept, f ∈ base) → IsWithin short (merge kept) (merge' kept)) :
    IsWithin short (directed path base patch merge) (directed path base patch merge') := by
  refine isWithin_bind _ fun m _ => ?_
  cases m with
  | replace => exact isWithin_refl _
  | delete => exact isWithin_refl _
  | merge =>
    -- what is kept of the map goes the same way, whichever fields it is
    have hphases : ∀ kept, (∀ f ∈ kept, f ∈ base) → IsWithin short
        (do
          let directives ← listDirectives path patch
          let data ← merge kept
          let reduced ← directives.removals.foldlM (fun r d => remove r d.1 d.2) data
          let result ← directives.orders.foldlM (fun r d => reorder path r d.1 d.2) reduced
          return some result)
        (do
          let directives ← listDirectives path patch
          let data ← merge' kept
          let reduced ← directives.removals.foldlM (fun r d => remove r d.1 d.2) data
          let result ← directives.orders.foldlM (fun r d => reorder path r d.1 d.2) reduced
          return some result) :=
      fun kept hkept => isWithin_bind _ fun ds _ => (h kept hkept).andThen _
    refine isWithin_bind _ fun names? _ => ?_
    cases names? with
    | none => exact hphases base fun _ hf => hf
    | some names => exact hphases _ fun _ hf => List.mem_of_mem_filter hf

theorem isWithin_intoList {path key : Text} {items : List Json} {element : Fields Json}
    {merge merge' : Text → Fields Json → Outcome (Option (Fields Json))}
    (h : ∀ place base, base = [] ∨ Json.obj base ∈ items →
      IsWithin short (merge place base) (merge' place base)) :
    IsWithin short (intoList path key items element merge)
      (intoList path key items element merge') := by
  unfold intoList
  split
  · exact isWithin_refl _
  · simp only
    split
    · exact isWithin_refl _
    · refine (h _ _ ?_).andThen _
      split
      · rename_i fs heq
        obtain ⟨i, -, hi⟩ := Option.bind_eq_some_iff.mp heq
        exact .inr (List.mem_of_getElem? hi)
      · exact .inl rfl

theorem isWithin_listed {path field : Text} {base patch : List Json}
    {merge merge' : Text → List Json → Outcome (List Json)}
    (h : ∀ key, IsWithin short (merge key base) (merge' key base)) :
    IsWithin short (listed path field base patch merge) (listed path field base patch merge') := by
  unfold listed
  split
  · exact isWithin_refl _
  · split
    · exact isWithin_refl _
    · split
      · exact h _
      · exact isWithin_refl _

/-! ## Documents -/

/-- A map under its patch, on a stack. -/
abbrev mergedWithin (room : Nat) (path : Text) (base patch : Fields Json) :
    Outcome (Option (Fields Json)) :=
  directedWithin room path base patch fun room kept => mergedFieldsWithin room path kept patch

/-- **This value as a patch is merged as without an end to the stack** into what is no deeper than
`n`, or there is less room than for that. -/
structure MergesWithin (n : Nat) (v : Json) : Prop where
  ofObject : ∀ patch, v = .obj patch → ∀ room path base, (Json.obj base).depth ≤ n →
    IsWithin (room ≤ 2 * n) (mergedWithin room path base patch) (merged path base patch)
  ofList : ∀ patch, v = .arr patch → ∀ room path key items, (Json.arr items).depth ≤ n →
    IsWithin (room + 1 ≤ 2 * n) (mergedElementsWithin room path key items patch)
      (mergedElements path key items patch)

theorem isWithin_mergedValueWithin {v : Json} (hv : MergesWithin n v) (hdepth : v.depth ≤ n)
    (room : Nat) (path field : Text) {current : Option Json}
    (hc : ∀ w, current = some w → w.depth ≤ n) :
    IsWithin (room ≤ 2 * n) (mergedValueWithin room path field current v)
      (mergedValue path field current v) := by
  cases v with
  | obj patch =>
    obtain ⟨n, rfl⟩ := Nat.exists_eq_add_of_le' (Nat.le_of_add_left_le hdepth)
    rw [mergedValueWithin, mergedValue]
    refine isWithin_bind _ fun base hbase => ?_
    have hbase := depth_obj_le_iff.mpr (depth_of_mapAt hc hbase)
    exact (hv.ofObject patch rfl room path base hbase).andThen _
  | arr patch =>
    obtain ⟨n, rfl⟩ := Nat.exists_eq_add_of_le' (Nat.le_of_add_left_le hdepth)
    rw [mergedValueWithin, mergedValue]
    refine isWithin_bind _ fun base hbase => ?_
    have hbase := depth_arr_le_iff.mpr (depth_of_listAt hc hbase)
    refine (isWithin_called fun left hleft => ?_).andThen _
    subst hleft
    refine (isWithin_listCopied hbase hdepth).before (isWithin_listed fun key => ?_)
    exact (isWithin_copied hbase).before (hv.ofList patch rfl left path key base hbase)
  | _ => exact isWithin_refl _

theorem isWithin_mergedFieldsWithin {patch : Fields Json} (h : ∀ f ∈ patch, MergesWithin n f.2)
    (hpatch : ∀ f ∈ patch, f.2.depth ≤ n) (room : Nat) (path : Text) {result : Fields Json}
    (hresult : ∀ f ∈ result, f.2.depth ≤ n) :
    IsWithin (room ≤ 2 * n) (mergedFieldsWithin room path result patch)
      (mergedFields path result patch) := by
  induction patch generalizing result with
  | nil => exact isWithin_refl _
  | cons f patch ih =>
    obtain ⟨k, v⟩ := f
    obtain ⟨hv, hvs⟩ := List.forall_mem_cons.mp h
    obtain ⟨hdepth, hdepths⟩ := List.forall_mem_cons.mp hpatch
    rw [mergedFieldsWithin, mergedFields]
    split
    · exact ih hvs hdepths hresult
    · refine (isWithin_mergedValueWithin hv hdepth room _ _ (depth_of_get? hresult)).bind
        fun held hheld => ih hvs hdepths ?_
      have hput := depth_put hresult (k := k)
        (depth_of_mergedValue (keepsDepth hdepth) hdepth (depth_of_get? hresult) hheld)
      cases held <;> exact hput

theorem isWithin_mergedElementsWithin {patch : List Json} (h : ∀ x ∈ patch, MergesWithin n x)
    (hpatch : ∀ x ∈ patch, x.depth ≤ n) (room : Nat) (path key : Text) {items : List Json}
    (hitems : ∀ x ∈ items, x.depth ≤ n) :
    IsWithin (room ≤ 2 * n) (mergedElementsWithin room path key items patch)
      (mergedElements path key items patch) := by
  induction patch generalizing items with
  | nil => exact isWithin_refl _
  | cons x patch ih =>
    obtain ⟨hx, hxs⟩ := List.forall_mem_cons.mp h
    obtain ⟨hdepth, hdepths⟩ := List.forall_mem_cons.mp hpatch
    cases x with
    | obj element =>
      -- what an element is merged into is one of the list's, or empty
      have hbase : ∀ base, base = [] ∨ Json.obj base ∈ items → (Json.obj base).depth ≤ n := by
        rintro base (rfl | hmem)
        · exact (Nat.le_add_left 1 _).trans hdepth
        · exact hitems _ hmem
      rw [mergedElementsWithin, mergedElements]
      refine (isWithin_intoList fun place base hfound =>
        hx.ofObject element rfl room place base (hbase base hfound)).bind
          fun items' hitems' => ih hxs hdepths fun y hy => ?_
      rcases mem_of_intoList hitems' hy with hy | ⟨place, base, fs, hfound, hm, rfl⟩
      · exact hitems y hy
      · exact (keepsDepth hdepth).ofObject element rfl place base fs (hbase base hfound) hm
    | _ =>
      rw [mergedElementsWithin, mergedElements]
      · exact ih hxs hdepths hitems
      · rintro _ ⟨⟩
      · rintro _ ⟨⟩

theorem mergesWithin {v : Json} (h : v.depth ≤ n) : MergesWithin n v := by
  induction v using Json.induction generalizing n with
  | arr items ih =>
    obtain ⟨n, rfl⟩ := Nat.exists_eq_add_of_le' (Nat.le_of_add_left_le h)
    have hs := depth_arr_le_iff.mp h
    refine ⟨nofun, fun patch heq room path key base hbase => ?_⟩
    cases heq
    exact (isWithin_mergedElementsWithin (fun x hx => ih x hx (hs x hx)) hs room path key
      (depth_arr_le_iff.mp hbase)).mono fun _ => by omega
  | obj fs ih =>
    obtain ⟨n, rfl⟩ := Nat.exists_eq_add_of_le' (Nat.le_of_add_left_le h)
    have hs := depth_obj_le_iff.mp h
    refine ⟨fun patch heq room path base hbase => ?_, nofun⟩
    cases heq
    refine isWithin_called fun left hleft => ?_
    subst hleft
    refine (isWithin_mapCopied hbase h).before (isWithin_directed fun kept hkept => ?_)
    exact (isWithin_mergedFieldsWithin (fun f hf => ih f hf (hs f hf)) hs left path
      fun f hf => depth_obj_le_iff.mp hbase f (hkept f hf)).mono fun _ => by omega
  | _ => exact ⟨nofun, nofun⟩

/-- **On a stack an object is merged as without its end**, or there is not more room than a copy of
the deeper document takes. -/
theorem isWithin_mergedObjectWithin (room : Nat) (base patch : Fields Json) :
    IsWithin (room ≤ 2 * max (Json.obj base).depth (Json.obj patch).depth)
      (mergedObjectWithin room base patch) (mergedObject base patch) :=
  ((mergesWithin (le_max_right _ _)).ofObject patch rfl room "" base (le_max_left _ _)).andThen _

/-- **With more room than a copy takes** an object is merged as without an end to the stack. -/
theorem mergedObjectWithin_eq {base patch : Fields Json}
    (h : 2 * max (Json.obj base).depth (Json.obj patch).depth < room) :
    mergedObjectWithin room base patch = mergedObject base patch :=
  (isWithin_mergedObjectWithin room base patch).resolve_right fun hshort =>
    absurd hshort.1 (Nat.not_le_of_lt h)

end Patch
end Rollout
