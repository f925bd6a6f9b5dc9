import Rollout.Proofs.Json.Found
import Rollout.Proofs.Json.RoundTrip

/-!
# Written documents are read as nothing else

A reader has limits: it does not follow containers deeper than `maxDepth`, and an integer of
more than `maxDigits` digits is none for it. Within them a document is found again where it
was written. Beyond them nothing is found there, and never another document
(`Json.isReadAlone_of_legible`): a document's bytes hold it exactly if it is within the limits
of the reader (`Json.decode_encode_eq_ok_iff`).

That nothing is found is seen from what would be found. It would be the document, and whatever
is found is within the limits.
-/

namespace Rollout
namespace Json

/-! ## The limits of a reader -/

/-- A part that is written so that it can be told from every other: a number of its format, a
text without halves that would be joined, an object without a name that comes twice. -/
def isLegiblePart : Json → Bool
  | int _ => true
  | j => isPortablePart j

/-- An integer of no more digits than are read. -/
def isShortPart : Json → Bool
  | int i => decide (Binary64.decimalLength i.natAbs ≤ maxDigits)
  | _ => true

/-- **A document within the limits of the reader.** -/
structure WithinLimits (j : Json) : Prop where
  short : everywhere isShortPart j = true
  shallow : j.depth ≤ maxDepth

theorem isPortablePart_eq (j : Json) : isPortablePart j = (isLegiblePart j && isShortPart j) := by
  cases j with
  | int i => rfl
  | _ => exact (Bool.and_true _).symm

/-- **A document travels** if it can be told from every other and is within the limits. -/
theorem portable_iff {j : Json} :
    Portable j ↔ everywhere isLegiblePart j = true ∧ WithinLimits j := by
  have hparts : everywhere isPortablePart j = true
      ↔ everywhere isLegiblePart j = true ∧ everywhere isShortPart j = true := by
    rw [← everywhere_and_iff]
    exact ⟨everywhere_mono fun j h => isPortablePart_eq j ▸ h,
      everywhere_mono fun j h => (isPortablePart_eq j).trans h⟩
  constructor
  · rintro ⟨hp, hd⟩
    obtain ⟨hl, hs⟩ := hparts.mp hp
    exact ⟨hl, hs, hd⟩
  · rintro ⟨hl, hs, hd⟩
    exact ⟨hparts.mpr ⟨hl, hs⟩, hd⟩

/-! ## Where a document was written -/

variable {sep : Separators}

theorem isBehind_writtenItems (hsep : sep.IsPlain) (items : List Json) (t : Text) :
    IsBehind (Text.ofChars (writtenItems sep items) ++ t) := by
  cases items with
  | nil => exact .inr (.inl rfl)
  | cons x xs =>
    obtain ⟨n, hitem⟩ := hsep.item
    rw [writtenItems, hitem]
    exact .inl rfl

theorem isBehind_writtenFields (hsep : sep.IsPlain) (fs : List (Text × Json)) (t : Text) :
    IsBehind (Text.ofChars (writtenFields sep fs) ++ t) := by
  cases fs with
  | nil => exact .inr (.inr rfl)
  | cons f fs =>
    obtain ⟨n, hitem⟩ := hsep.item
    rw [writtenFields, hitem]
    exact .inl rfl

/-- **Nothing but the document is found where it was written.** -/
structure IsReadAlone (sep : Separators) (j : Json) : Prop where
  starts : ∀ {t}, IsBehind t → StartsValue (Text.ofChars (written sep j) ++ t)
  unique : ∀ {fuel depth t r}, IsBehind t →
    readValue fuel depth (Text.ofChars (written sep j) ++ t) = .ok r → r = (j, t)

/-- What no list and no object starts like is read as a scalar. -/
theorem isReadAlone_of_forall_scalar? {j : Json}
    (hstarts : ∀ {t}, IsBehind t → StartsValue (Text.ofChars (written sep j) ++ t)
      ∧ ∀ u, Text.ofChars (written sep j) ++ t ≠ .char '[' :: u
        ∧ Text.ofChars (written sep j) ++ t ≠ .char '\x7b' :: u)
    (hscalar : ∀ {t r}, IsBehind t → scalar? (Text.ofChars (written sep j) ++ t) = some r →
      r = (j, t)) : IsReadAlone sep j := by
  refine ⟨fun ht => (hstarts ht).1, fun {fuel depth t r} ht hr => ?_⟩
  cases fuel with
  | zero => cases hr
  | succ fuel =>
    obtain ⟨j', rest⟩ := r
    rcases cases_of_readValue hr with ⟨d, u, -, heq, -⟩ | ⟨d, u, -, heq, -⟩ | hs
    · exact absurd heq ((hstarts ht).2 u).1
    · exact absurd heq ((hstarts ht).2 u).2
    · exact hscalar ht hs

/-- A scalar that is found is found alone. -/
theorem isReadAlone_of_scalar? {j : Json}
    (hread : ∀ {t}, IsBehind t → scalar? (Text.ofChars (written sep j) ++ t) = some (j, t)) :
    IsReadAlone sep j :=
  isReadAlone_of_forall_scalar? (fun ht => startsValue_of_scalar? (hread ht))
    fun ht hr => (Option.some.inj ((hread ht).symm.trans hr)).symm

/-- An integer starts with its sign or with a digit. -/
theorem startsValue_int (i : Int) (t : Text) :
    let found := Text.ofChars (ToString.toString i).toList ++ t
    StartsValue found ∧ ∀ u, found ≠ .char '[' :: u ∧ found ≠ .char '\x7b' :: u := by
  obtain ⟨c, cs, hds⟩ :=
    List.exists_cons_of_ne_nil (Nat.toDigits_ne_nil (n := i.natAbs) (b := 10))
  have hc : c.isDigit = true := isDigit_of_mem_toDigits (hds ▸ List.mem_cons_self)
  rw [toList_toString_int, hds]
  cases decide (i < 0) with
  | true =>
    refine ⟨⟨_, _, rfl, by decide⟩, fun u => ⟨?_, ?_⟩⟩ <;> simp [Text.ofChars]
  | false => exact ⟨startsValue_of_isDigit hc _, ne_open_of_isDigit hc _⟩

/-- An integer is found alone, or not at all. -/
theorem isReadAlone_int (i : Int) : IsReadAlone sep (int i) := by
  refine isReadAlone_of_forall_scalar? (fun {t} _ => startsValue_int i t) fun {t r} ht hr => ?_
  rw [written] at hr
  rcases Nat.lt_or_ge maxDigits (Binary64.decimalLength i.natAbs) with hlong | hshort
  · rw [scalar?_int_eq_none hlong ht] at hr
    cases hr
  · exact (Option.some.inj ((scalar?_int hshort ht).symm.trans hr)).symm

/-! ## Lists -/

/-- The items of a list start as the first of them does. -/
theorem startsValue_writtenItems (hsep : sep.IsPlain) {x : Json} (hx : IsReadAlone sep x)
    (xs : List Json) (t : Text) :
    StartsValue (Text.ofChars (written sep x ++ writtenItems sep xs) ++ t) := by
  rw [ofChars_append, List.append_assoc]
  exact hx.starts (isBehind_writtenItems hsep xs t)

/-- **The items that are found are those of the list.** -/
theorem eq_of_readItems_written (hsep : sep.IsPlain) {x : Json} {xs : List Json}
    (hread : ∀ y ∈ x :: xs, IsReadAlone sep y) {fuel depth : Nat} {t : Text}
    {r : List Json × Text}
    (h : readItems fuel depth (Text.ofChars (written sep x ++ writtenItems sep xs) ++ t) = .ok r) :
    r = (x :: xs, t) := by
  induction xs generalizing x fuel r with
  | nil =>
    obtain ⟨ys, rest⟩ := r
    cases fuel with
    | zero => cases h
    | succ fuel =>
      obtain ⟨y, u, hy, hend⟩ := readItems_eq_ok_iff.mp h
      rw [ofChars_append, List.append_assoc] at hy
      cases (hread x List.mem_cons_self).unique (isBehind_writtenItems hsep [] t) hy
      rcases hend with ⟨hclose, rfl⟩ | ⟨v, zs, hmore, -, -⟩
      · exact congrArg ([x], ·) (List.cons.inj hclose).2.symm
      · cases hmore
  | cons z zs ih =>
    obtain ⟨ys, rest⟩ := r
    obtain ⟨n, hitem⟩ := hsep.item
    obtain ⟨hx, hzs⟩ := List.forall_mem_cons.mp hread
    cases fuel with
    | zero => cases h
    | succ fuel =>
      obtain ⟨y, u, hy, hend⟩ := readItems_eq_ok_iff.mp h
      rw [ofChars_append, List.append_assoc] at hy
      cases hx.unique (isBehind_writtenItems hsep (z :: zs) t) hy
      have hstart := startsValue_writtenItems hsep (hzs z List.mem_cons_self) zs t
      have hbehind : Text.ofChars (writtenItems sep (z :: zs)) ++ t
          = .char ',' :: (Text.ofChars (List.replicate n ' ')
            ++ (Text.ofChars (written sep z ++ writtenItems sep zs) ++ t)) := by
        rw [writtenItems, hitem]
        simp [Text.ofChars]
      rw [hbehind] at hend
      rcases hend with ⟨hclose, -⟩ | ⟨v, ws, hmore, hi, rfl⟩
      · cases hclose
      · rw [← (List.cons.inj hmore).2, skipSpace_replicate, hstart.skipSpace] at hi
        cases ih hzs hi
        rfl

/-! ## Objects -/

/-- The first field that is found is the one that was written first. -/
theorem cases_of_readFields_written (hsep : sep.IsPlain) {k : Text} (hk : k.joined = k) {v : Json}
    (hv : IsReadAlone sep v) {rest : List Char} {t : Text}
    (hrest : IsBehind (Text.ofChars rest ++ t)) {fuel depth : Nat} {ps : List (Text × Json)}
    {u : Text} (h : readFields (fuel + 1) depth
        (Text.ofChars (writtenText k ++ sep.value ++ written sep v ++ rest) ++ t) = .ok (ps, u)) :
    skipSpace (Text.ofChars rest ++ t) = .char '\x7d' :: u ∧ ps = [(k, v)]
      ∨ ∃ w qs, skipSpace (Text.ofChars rest ++ t) = .char ',' :: w
        ∧ readFields fuel depth (skipSpace w) = .ok (qs, u) ∧ ps = (k, v) :: qs := by
  obtain ⟨n, hvalue⟩ := hsep.value
  have hlayout : Text.ofChars (writtenText k ++ sep.value ++ written sep v ++ rest) ++ t
      = .char '\x22' :: (Text.ofChars (k.flatMap writtenPoint) ++ .char '\x22' ::
        (.char ':' :: (Text.ofChars (List.replicate n ' ')
          ++ (Text.ofChars (written sep v) ++ (Text.ofChars rest ++ t))))) := by
    rw [writtenText, hvalue]
    simp [Text.ofChars]
  rw [hlayout] at h
  obtain ⟨t', k', a, b, v', w, hquote, hname, hcolon, hr, hend⟩ := readFields_eq_ok_iff.mp h
  rw [← (List.cons.inj hquote).2, text?_written hk] at hname
  obtain ⟨rfl, rfl⟩ := Prod.mk.inj (Option.some.inj hname)
  obtain rfl := (List.cons.inj hcolon).2
  rw [skipSpace_replicate, (hv.starts hrest).skipSpace] at hr
  cases hv.unique hrest hr
  exact hend

/-- **The fields that are found are those of the object.** -/
theorem eq_of_readFields_written (hsep : sep.IsPlain) {k : Text} {v : Json}
    {gs : List (Text × Json)} (hread : ∀ f ∈ (k, v) :: gs, IsReadAlone sep f.2)
    (hnames : ∀ f ∈ (k, v) :: gs, f.1.joined = f.1) {fuel depth : Nat} {t : Text}
    {r : List (Text × Json) × Text}
    (h : readFields fuel depth
        (Text.ofChars (writtenText k ++ sep.value ++ written sep v ++ writtenFields sep gs) ++ t)
      = .ok r) : r = ((k, v) :: gs, t) := by
  induction gs generalizing k v fuel r with
  | nil =>
    obtain ⟨ps, rest⟩ := r
    cases fuel with
    | zero => cases h
    | succ fuel =>
      rcases cases_of_readFields_written hsep (hnames _ List.mem_cons_self)
        (hread _ List.mem_cons_self) (isBehind_writtenFields hsep [] t) h with
        ⟨hclose, rfl⟩ | ⟨w, qs, hmore, -, -⟩
      · exact congrArg ([(k, v)], ·) (List.cons.inj hclose).2.symm
      · cases hmore
  | cons g gs ih =>
    obtain ⟨k', v'⟩ := g
    obtain ⟨ps, rest⟩ := r
    obtain ⟨n, hitem⟩ := hsep.item
    obtain ⟨hv, hvs⟩ := List.forall_mem_cons.mp hread
    obtain ⟨hk, hks⟩ := List.forall_mem_cons.mp hnames
    have hstart : StartsValue (Text.ofChars
        (writtenText k' ++ sep.value ++ written sep v' ++ writtenFields sep gs) ++ t) :=
      ⟨_, _, rfl, by decide⟩
    have hbehind : Text.ofChars (writtenFields sep ((k', v') :: gs)) ++ t
        = .char ',' :: (Text.ofChars (List.replicate n ' ') ++ (Text.ofChars
          (writtenText k' ++ sep.value ++ written sep v' ++ writtenFields sep gs) ++ t)) := by
      rw [writtenFields, hitem]
      simp [Text.ofChars]
    cases fuel with
    | zero => cases h
    | succ fuel =>
      have hend := cases_of_readFields_written hsep hk hv
        (isBehind_writtenFields hsep ((k', v') :: gs) t) h
      rw [hbehind] at hend
      rcases hend with ⟨hclose, -⟩ | ⟨w, qs, hmore, hi, rfl⟩
      · cases hclose
      · rw [← (List.cons.inj hmore).2, skipSpace_replicate, hstart.skipSpace] at hi
        cases ih hvs hks hi
        rfl

/-! ## Documents -/

/-- Behind a bracket stand the items of a list. -/
theorem cases_of_readValue_list {fuel depth : Nat} {t rest : Text} {j : Json}
    (h : readValue fuel depth (.char '[' :: t) = .ok (j, rest)) :
    skipSpace t = .char ']' :: rest ∧ j = arr []
      ∨ ∃ n d xs, readItems n d (skipSpace t) = .ok (xs, rest) ∧ j = arr xs := by
  cases fuel with
  | zero => cases h
  | succ fuel =>
    rcases cases_of_readValue h with ⟨d, u, -, hopen, hend⟩ | ⟨d, u, -, hopen, -⟩ | hs
    · obtain rfl := (List.cons.inj hopen).2
      exact hend.imp_right fun ⟨xs, hxs, hj⟩ => ⟨fuel, d, xs, hxs, hj⟩
    · cases hopen
    · exact absurd rfl ((startsValue_of_scalar? hs).2 _).1

/-- Behind a brace stand the fields of an object. -/
theorem cases_of_readValue_object {fuel depth : Nat} {t rest : Text} {j : Json}
    (h : readValue fuel depth (.char '\x7b' :: t) = .ok (j, rest)) :
    skipSpace t = .char '\x7d' :: rest ∧ j = obj []
      ∨ ∃ n d ps, readFields n d (skipSpace t) = .ok (ps, rest)
        ∧ j = obj (Fields.ofPairs ps) := by
  cases fuel with
  | zero => cases h
  | succ fuel =>
    rcases cases_of_readValue h with ⟨d, u, -, hopen, -⟩ | ⟨d, u, -, hopen, hend⟩ | hs
    · cases hopen
    · obtain rfl := (List.cons.inj hopen).2
      exact hend.imp_right fun ⟨ps, hps, hj⟩ => ⟨fuel, d, ps, hps, hj⟩
    · exact absurd rfl ((startsValue_of_scalar? hs).2 _).2

theorem isReadAlone_arr (hsep : sep.IsPlain) {items : List Json}
    (hread : ∀ x ∈ items, IsReadAlone sep x) : IsReadAlone sep (arr items) := by
  refine ⟨fun _ => by cases items <;> exact ⟨_, _, rfl, by decide⟩, ?_⟩
  intro fuel depth t r _ hr
  obtain ⟨j, rest⟩ := r
  cases items with
  | nil =>
    rw [written] at hr
    rcases cases_of_readValue_list hr with ⟨hclose, rfl⟩ | ⟨n, d, xs, hxs, -⟩
    · exact congrArg (arr [], ·) (List.cons.inj hclose).2.symm
    · exact absurd rfl ((startsValue_of_readItems hxs).ne_bracket t)
  | cons x xs =>
    rw [written] at hr
    have hstart := startsValue_writtenItems hsep (hread x List.mem_cons_self) xs t
    have hopen : Text.ofChars ('[' :: (written sep x ++ writtenItems sep xs)) ++ t
        = .char '[' :: (Text.ofChars (written sep x ++ writtenItems sep xs) ++ t) := rfl
    rw [hopen] at hr
    rcases cases_of_readValue_list hr with ⟨hclose, -⟩ | ⟨n, d, ys, hys, rfl⟩
    · exact absurd (hstart.skipSpace.symm.trans hclose) (hstart.ne_bracket rest)
    · rw [hstart.skipSpace] at hys
      cases eq_of_readItems_written hsep hread hys
      rfl

theorem isReadAlone_obj (hsep : sep.IsPlain) {fs : List (Text × Json)}
    (h : isLegiblePart (obj fs) = true) (hread : ∀ f ∈ fs, IsReadAlone sep f.2) :
    IsReadAlone sep (obj fs) := by
  obtain ⟨hdist, hnames⟩ := isPortablePart_obj_iff.mp h
  refine ⟨fun _ => by cases fs <;> exact ⟨_, _, rfl, by decide⟩, fun {fuel depth t r} _ hr => ?_⟩
  obtain ⟨j, rest⟩ := r
  cases fs with
  | nil =>
    rw [written] at hr
    rcases cases_of_readValue_object hr with ⟨hclose, rfl⟩ | ⟨n, d, ps, hps, -⟩
    · exact congrArg (obj [], ·) (List.cons.inj hclose).2.symm
    · cases n <;> cases hps
  | cons f fs =>
    obtain ⟨k, v⟩ := f
    rw [written] at hr
    rcases cases_of_readValue_object hr with ⟨hclose, -⟩ | ⟨n, d, ps, hps, rfl⟩
    · cases hclose
    · cases eq_of_readFields_written hsep hread hnames hps
      rw [Fields.ofPairs_eq hdist]

/-- **Where a document was written, no other is found.** -/
theorem isReadAlone_of_legible (hsep : sep.IsPlain) {j : Json}
    (h : everywhere isLegiblePart j = true) : IsReadAlone sep j := by
  induction j using Json.induction with
  | null => exact isReadAlone_of_scalar? fun _ => rfl
  | bool b => cases b <;> exact isReadAlone_of_scalar? fun _ => rfl
  | int i => exact isReadAlone_int i
  | float x => exact isReadAlone_of_scalar? fun ht => scalar?_float (of_decide_eq_true h) ht
  | str s => exact isReadAlone_of_scalar? fun _ => scalar?_writtenText (of_decide_eq_true h) _
  | arr items ih =>
    have hs := (everywhere_arr_iff.mp h).2
    exact isReadAlone_arr hsep fun x hx => ih x hx (hs x hx)
  | obj fs ih =>
    obtain ⟨hpart, hs⟩ := everywhere_obj_iff.mp h
    exact isReadAlone_obj hsep hpart fun f hf => ih f hf (hs f hf)

/-- **The written form of a document holds it, or nothing.** -/
theorem eq_of_parse_written (hsep : sep.IsPlain) {j j' : Json}
    (h : everywhere isLegiblePart j = true)
    (hread : parse (Text.ofChars (written sep j)) = .ok j') : j' = j := by
  have hj := isReadAlone_of_legible hsep h
  have hstart := hj.starts (t := []) trivial
  rw [List.append_nil] at hstart
  rw [parse, hstart.skipSpace] at hread
  cases hr : readValue ((Text.ofChars (written sep j)).length + 1) maxDepth
      (Text.ofChars (written sep j)) with
  | error e =>
    rw [hr] at hread
    cases hread
  | ok r =>
    rw [← List.append_nil (Text.ofChars (written sep j))] at hr
    cases hj.unique (t := []) trivial hr
    rw [List.append_nil] at hr
    rw [hr] at hread
    cases hread
    rfl

/-- **A document is read from its bytes exactly if it is within the limits of the reader**, and
nothing else is. -/
theorem decode_encode_eq_ok_iff {j j' : Json} (h : everywhere isLegiblePart j = true) :
    decode (encode j) = .ok j' ↔ j' = j ∧ WithinLimits j := by
  constructor
  · intro hread
    have hj := portable_of_decode_encode hread
    rw [decode_encode_eq_parse] at hread
    obtain rfl := eq_of_parse_written Separators.isPlain_compact h hread
    exact ⟨rfl, (portable_iff.mp hj).2⟩
  · rintro ⟨rfl, hlim⟩
    exact decode_encode (portable_iff.mpr ⟨h, hlim⟩)

end Json
end Rollout
