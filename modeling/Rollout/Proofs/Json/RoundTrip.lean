import Rollout.Proofs.Json.Ascii
import Rollout.Proofs.Json.Portable
import Rollout.Proofs.Json.Quotation
import Rollout.Proofs.Json.Reading

/-!
# Written documents read back

A document that travels is found again where it was written, with whatever stands
behind it left over (`Json.readValue_written`). The separators may have blanks
behind their marks. As bytes this is `Json.decode_encode`: the bytes of a document
hold that document and no other.

The calls of a reader that the length of the text allows are enough, since every
value takes up at least one character of it.
-/

namespace Rollout

/-- **Separators that are read**: a comma and a colon, with blanks behind them. -/
structure Separators.IsPlain (sep : Separators) : Prop where
  item : ∃ n, sep.item = ',' :: List.replicate n ' '
  value : ∃ n, sep.value = ':' :: List.replicate n ' '

theorem Separators.isPlain_compact : Separators.compact.IsPlain :=
  ⟨⟨0, rfl⟩, 0, rfl⟩

theorem Separators.isPlain_spaced : Separators.spaced.IsPlain :=
  ⟨⟨1, rfl⟩, 1, rfl⟩

namespace Json

/-- Blanks are skipped. -/
theorem skipSpace_replicate (n : Nat) (t : Text) :
    skipSpace (Text.ofChars (List.replicate n ' ') ++ t) = skipSpace t := by
  induction n with
  | zero => rfl
  | succ n ih => exact ih

variable {sep : Separators}

/-- The document is found where it was written. -/
def IsReadBack (sep : Separators) (j : Json) : Prop :=
  ∀ fuel depth t, (written sep j).length ≤ fuel → j.depth ≤ depth → IsBehind t →
    readValue fuel depth (Text.ofChars (written sep j) ++ t) = .ok (j, t)

/-- A scalar is found if it is read in one step. -/
theorem isReadBack_of_scalar? {j : Json} (hne : written sep j ≠ [])
    (h : ∀ t, IsBehind t → scalar? (Text.ofChars (written sep j) ++ t) = some (j, t)) :
    IsReadBack sep j := by
  intro fuel depth t hfuel _ ht
  have hpos := List.length_pos_iff.mpr hne
  obtain ⟨k, rfl⟩ := Nat.exists_eq_succ_of_ne_zero (show fuel ≠ 0 by omega)
  exact readValue_scalar (h t ht) k depth

theorem scalar?_writtenText {s : Text} (hs : s.joined = s) (t : Text) :
    scalar? (Text.ofChars (writtenText s) ++ t) = some (str s, t) := by
  have hread := text?_written hs t
  rw [writtenText, Text.ofChars, List.map_cons, List.map_append, List.cons_append,
    List.append_assoc]
  show (text? (Text.ofChars (s.flatMap writtenPoint) ++ .char '\x22' :: t)).map _ = _
  rw [hread]
  rfl

/-! ## Lists -/

theorem length_writtenItems_pos (sep : Separators) (items : List Json) :
    0 < (writtenItems sep items).length := by
  cases items with
  | nil => rw [writtenItems]; exact Nat.one_pos
  | cons x xs =>
    have := length_writtenItems_pos sep xs
    rw [writtenItems, List.length_append]
    omega

/-- **The items of a list are found** up to its bracket. -/
theorem readItems_written (hsep : sep.IsPlain) {items : List Json}
    (hread : ∀ x ∈ items, IsReadBack sep x) {depth : Nat} (hdepth : ∀ x ∈ items, x.depth ≤ depth)
    {x : Json} {xs : List Json} (heq : items = x :: xs) {fuel : Nat} (t : Text)
    (hfuel : (written sep x ++ writtenItems sep xs).length ≤ fuel) :
    readItems fuel depth (Text.ofChars (written sep x ++ writtenItems sep xs) ++ t)
      = .ok (items, t) := by
  induction xs generalizing items x fuel with
  | nil =>
    subst heq
    rw [writtenItems, List.length_append, List.length_singleton] at hfuel
    obtain ⟨k, rfl⟩ := Nat.exists_eq_succ_of_ne_zero (show fuel ≠ 0 by omega)
    refine readItems_eq_ok_iff.mpr ⟨x, .char ']' :: t, ?_, .inl ⟨rfl, rfl⟩⟩
    rw [writtenItems, ofChars_append, List.append_assoc]
    exact hread x List.mem_cons_self k depth _ (by omega) (hdepth x List.mem_cons_self)
      (.inr (.inl rfl))
  | cons y ys ih =>
    subst heq
    obtain ⟨n, hitem⟩ := hsep.item
    have hpos := length_writtenItems_pos sep ys
    rw [writtenItems, hitem, List.append_assoc, List.length_append, List.length_append,
      List.length_cons, List.length_append] at hfuel
    obtain ⟨k, rfl⟩ := Nat.exists_eq_succ_of_ne_zero (show fuel ≠ 0 by omega)
    have hk : (written sep y ++ writtenItems sep ys).length ≤ k := by
      rw [List.length_append]
      omega
    have hys := ih (List.forall_mem_cons.mp hread).2 (List.forall_mem_cons.mp hdepth).2 rfl hk
    refine readItems_eq_ok_iff.mpr ⟨x, .char ',' :: (Text.ofChars (List.replicate n ' ') ++
      (Text.ofChars (written sep y ++ writtenItems sep ys) ++ t)), ?_,
      .inr ⟨_, y :: ys, rfl, ?_, rfl⟩⟩
    · rw [writtenItems, hitem, ofChars_append, List.append_assoc, List.append_assoc,
        ofChars_append, List.append_assoc]
      exact hread x List.mem_cons_self k depth _ (by omega) (hdepth x List.mem_cons_self)
        (.inl rfl)
    · rw [skipSpace_replicate, (startsValue_of_readItems hys).skipSpace]
      exact hys

/-! ## Objects -/

theorem length_writtenFields_pos (sep : Separators) (fs : List (Text × Json)) :
    0 < (writtenFields sep fs).length := by
  cases fs with
  | nil => rw [writtenFields]; exact Nat.one_pos
  | cons f fs =>
    obtain ⟨k, v⟩ := f
    have := length_writtenFields_pos sep fs
    rw [writtenFields, List.length_append]
    omega

/-- **The fields of an object are found** up to its brace. -/
theorem readFields_written (hsep : sep.IsPlain) {fs : List (Text × Json)}
    (hread : ∀ f ∈ fs, IsReadBack sep f.2) (hnames : ∀ f ∈ fs, f.1.joined = f.1) {depth : Nat}
    (hdepth : ∀ f ∈ fs, f.2.depth ≤ depth) {k : Text} {v : Json} {gs : List (Text × Json)}
    (heq : fs = (k, v) :: gs) {fuel : Nat} (t : Text)
    (hfuel : (writtenText k ++ sep.value ++ written sep v ++ writtenFields sep gs).length ≤ fuel) :
    readFields fuel depth
        (Text.ofChars (writtenText k ++ sep.value ++ written sep v ++ writtenFields sep gs) ++ t)
      = .ok (fs, t) := by
  induction gs generalizing fs k v fuel with
  | nil =>
    subst heq
    obtain ⟨n, hvalue⟩ := hsep.value
    rw [hvalue, writtenFields, List.length_append, List.length_append, List.length_singleton]
      at hfuel
    obtain ⟨j, rfl⟩ := Nat.exists_eq_succ_of_ne_zero (show fuel ≠ 0 by omega)
    have hv := hread _ List.mem_cons_self j depth (.char '\x7d' :: t) (by simp only; omega)
      (hdepth _ List.mem_cons_self) (.inr (.inr rfl))
    refine readFields_eq_ok_iff.mpr ⟨_, k, _, _, v, .char '\x7d' :: t, ?_,
      text?_written (hnames _ List.mem_cons_self)
        (.char ':' :: (Text.ofChars (List.replicate n ' ') ++
          (Text.ofChars (written sep v) ++ .char '\x7d' :: t))), rfl, ?_, .inl ⟨rfl, rfl⟩⟩
    · rw [writtenText, hvalue, writtenFields]
      simp [Text.ofChars]
    · rw [skipSpace_replicate, (startsValue_of_readValue hv).skipSpace]
      exact hv
  | cons g gs ih =>
    obtain ⟨k', v'⟩ := g
    subst heq
    obtain ⟨n, hvalue⟩ := hsep.value
    obtain ⟨n', hitem⟩ := hsep.item
    have hpos := length_writtenFields_pos sep gs
    rw [writtenFields, hitem] at hfuel
    simp only [List.length_append, List.length_cons] at hfuel
    obtain ⟨j, rfl⟩ := Nat.exists_eq_succ_of_ne_zero (show fuel ≠ 0 by omega)
    have hj : (writtenText k' ++ sep.value ++ written sep v' ++ writtenFields sep gs).length
        ≤ j := by
      simp only [List.length_append]
      omega
    have hgs := ih (List.forall_mem_cons.mp hread).2 (List.forall_mem_cons.mp hnames).2
      (List.forall_mem_cons.mp hdepth).2 rfl hj
    obtain ⟨rest, hrest⟩ : ∃ rest, rest = Text.ofChars (writtenText k' ++ sep.value
      ++ written sep v' ++ writtenFields sep gs) ++ t := ⟨_, rfl⟩
    have hstart : StartsValue rest := hrest ▸ ⟨_, _, rfl, by decide⟩
    rw [← hrest] at hgs
    have hv := hread _ List.mem_cons_self j depth
      (.char ',' :: (Text.ofChars (List.replicate n' ' ') ++ rest))
      (by simp only; omega) (hdepth _ List.mem_cons_self) (.inl rfl)
    refine readFields_eq_ok_iff.mpr ⟨_, k, _, _, v,
      .char ',' :: (Text.ofChars (List.replicate n' ' ') ++ rest), ?_,
      text?_written (hnames _ List.mem_cons_self) (.char ':' ::
        (Text.ofChars (List.replicate n ' ') ++ (Text.ofChars (written sep v) ++ .char ',' ::
          (Text.ofChars (List.replicate n' ' ') ++ rest)))),
      rfl, ?_, .inr ⟨_, (k', v') :: gs, rfl, ?_, rfl⟩⟩
    · rw [hrest, writtenText, writtenFields, hitem, hvalue]
      simp [Text.ofChars]
    · rw [skipSpace_replicate, (startsValue_of_readValue hv).skipSpace]
      exact hv
    · rw [skipSpace_replicate, hstart.skipSpace]
      exact hgs

/-! ## Documents -/

/-- **A document whose parts travel is found where it was written.** -/
theorem readValue_written (hsep : sep.IsPlain) {j : Json}
    (h : everywhere isPortablePart j = true) : IsReadBack sep j := by
  induction j using Json.induction with
  | null => exact isReadBack_of_scalar? (by rw [written]; decide) fun t _ => rfl
  | bool b =>
    cases b
    · exact isReadBack_of_scalar? (by rw [written]; decide) fun t _ => rfl
    · exact isReadBack_of_scalar? (by rw [written]; decide) fun t _ => rfl
  | int i =>
    refine isReadBack_of_scalar? ?_ fun t ht => scalar?_int (of_decide_eq_true h) ht
    rw [written, toList_toString_int]
    exact List.append_ne_nil_of_right_ne_nil _ Nat.toDigits_ne_nil
  | float x =>
    refine isReadBack_of_scalar? ?_ fun t ht => scalar?_float (of_decide_eq_true h) ht
    -- had nothing been written, nothing would be read
    intro hnil
    have hread := scalar?_float (x := x) (t := []) (of_decide_eq_true h) trivial
    rw [show x.render = [] from hnil] at hread
    cases hread
  | str s =>
    exact isReadBack_of_scalar? (by rw [written, writtenText]; exact List.cons_ne_nil _ _)
      fun t _ => scalar?_writtenText (of_decide_eq_true h) t
  | arr items ih =>
    have hs := (everywhere_arr_iff.mp h).2
    intro fuel depth t hfuel hdepth ht
    rw [Json.depth] at hdepth
    -- the brackets take up one level of the depth, and one call of the reader
    obtain ⟨d, rfl⟩ := Nat.exists_eq_succ_of_ne_zero (show depth ≠ 0 by omega)
    have hd := depthOfItems_le_iff.mp (Nat.le_of_succ_le_succ hdepth)
    cases items with
    | nil =>
      rw [written, List.length_cons] at hfuel
      obtain ⟨k, rfl⟩ := Nat.exists_eq_succ_of_ne_zero (show fuel ≠ 0 by omega)
      rw [written]
      exact readValue_emptyList k d t
    | cons x xs =>
      rw [written, List.length_cons] at hfuel
      obtain ⟨k, rfl⟩ := Nat.exists_eq_succ_of_ne_zero (show fuel ≠ 0 by omega)
      rw [written]
      exact readValue_list (readItems_written hsep (fun y hy => ih y hy (hs y hy)) hd rfl t
        (Nat.le_of_succ_le_succ hfuel))
  | obj fs ih =>
    obtain ⟨hp, hs⟩ := everywhere_obj_iff.mp h
    obtain ⟨hdist, hnames⟩ := isPortablePart_obj_iff.mp hp
    intro fuel depth t hfuel hdepth ht
    rw [Json.depth] at hdepth
    obtain ⟨d, rfl⟩ := Nat.exists_eq_succ_of_ne_zero (show depth ≠ 0 by omega)
    have hd := depthOfFields_le_iff.mp (Nat.le_of_succ_le_succ hdepth)
    cases fs with
    | nil =>
      rw [written, List.length_cons] at hfuel
      obtain ⟨k, rfl⟩ := Nat.exists_eq_succ_of_ne_zero (show fuel ≠ 0 by omega)
      rw [written]
      exact readValue_emptyObject k d t
    | cons f fs =>
      obtain ⟨name, v⟩ := f
      rw [written, List.length_cons] at hfuel
      obtain ⟨k, rfl⟩ := Nat.exists_eq_succ_of_ne_zero (show fuel ≠ 0 by omega)
      have hread := readValue_object (readFields_written hsep (fun f hf => ih f hf (hs f hf))
        hnames hd rfl t (Nat.le_of_succ_le_succ hfuel))
      rw [Fields.ofPairs_eq hdist] at hread
      rw [written]
      exact hread

/-- **A document that travels is what its written form holds.** -/
theorem parse_written (hsep : sep.IsPlain) {j : Json} (h : Portable j) :
    parse (Text.ofChars (written sep j)) = .ok j := by
  have hread : readValue ((Text.ofChars (written sep j)).length + 1) maxDepth
      (Text.ofChars (written sep j)) = .ok (j, []) := by
    have hlen : (written sep j).length ≤ (Text.ofChars (written sep j)).length + 1 := by
      rw [Text.ofChars, List.length_map]
      exact Nat.le_succ _
    have := readValue_written hsep h.parts _ maxDepth [] hlen h.shallow trivial
    rwa [List.append_nil] at this
  rw [parse, (startsValue_of_readValue hread).skipSpace, hread]
  rfl

/-- **The bytes of a document that travels hold that document.** -/
theorem decode_encode {j : Json} (h : Portable j) : decode (encode j) = .ok j := by
  rw [decode_encode_eq_parse]
  exact parse_written Separators.isPlain_compact h

end Json
end Rollout
