import Mathlib.Tactic.SplitIfs
import Rollout.Json.Encoding
import Rollout.Proofs.Json.Everywhere

/-!
# Written documents are ASCII

Everything that is written for a document is printable ASCII
(`Json.ascii_written`), whatever stands in the document's texts. Bytes of that
kind are recognised as UTF-8, and each is the character it was made of
(`Json.decode_ascii`), so that reading the bytes of a document is reading its
written form.
-/

namespace Rollout

/-- **Printable ASCII.** -/
def IsAscii (c : Char) : Prop :=
  0x20 ≤ c.toNat ∧ c.toNat < 0x7F

instance : DecidablePred IsAscii :=
  fun c => inferInstanceAs (Decidable (0x20 ≤ c.toNat ∧ c.toNat < 0x7F))

/-- Of characters that are written out it is seen one by one. -/
theorem isAscii_of_all {cs : List Char} (h : cs.all (fun c => decide (IsAscii c)) = true) :
    ∀ c ∈ cs, IsAscii c :=
  fun c hc => of_decide_eq_true (List.all_eq_true.mp h c hc)

/-- The separators are printable ASCII. -/
structure Separators.IsAscii (sep : Separators) : Prop where
  item : ∀ c ∈ sep.item, Rollout.IsAscii c
  value : ∀ c ∈ sep.value, Rollout.IsAscii c

theorem Separators.isAscii_compact : Separators.compact.IsAscii :=
  ⟨isAscii_of_all (by decide), isAscii_of_all (by decide)⟩

theorem isAscii_of_isDigit {c : Char} (h : c.isDigit = true) : IsAscii c := by
  rw [Char.isDigit, Bool.and_eq_true, decide_eq_true_eq, decide_eq_true_eq] at h
  have hlow : 48 ≤ c.toNat := h.1
  have hup : c.toNat ≤ 57 := h.2
  exact ⟨by omega, by omega⟩

theorem ascii_toDigits (n : Nat) : ∀ c ∈ Nat.toDigits 10 n, IsAscii c :=
  fun _ hc => isAscii_of_isDigit (Nat.isDigit_of_mem_toDigits (by decide) (by decide) hc)

theorem ascii_replicate (n : Nat) : ∀ c ∈ List.replicate n '0', IsAscii c := by
  intro c hc
  rw [List.eq_of_mem_replicate hc]
  decide

/-! ## Numbers -/

namespace Binary64

theorem ascii_dropTrailingZeros {ds : List Char} (h : ∀ c ∈ ds, IsAscii c) :
    ∀ c ∈ dropTrailingZeros ds, IsAscii c := by
  intro c hc
  have hmem := (List.dropWhile_sublist _).subset (List.mem_reverse.mp hc)
  exact h c (List.mem_reverse.mp hmem)

theorem ascii_layout (form : DecimalForm) {ds : List Char} (h : ∀ c ∈ ds, IsAscii c)
    (point : Int) : ∀ c ∈ layout form ds point, IsAscii c := by
  have htake : ∀ n, ∀ c ∈ ds.take n, IsAscii c := fun _ c hc => h c (List.mem_of_mem_take hc)
  have hdrop : ∀ n, ∀ c ∈ ds.drop n, IsAscii c := fun _ c hc => h c (List.mem_of_mem_drop hc)
  have hpoint : IsAscii '.' := by decide
  have hzero : IsAscii '0' := by decide
  unfold layout
  simp only
  split_ifs <;> simp only [List.forall_mem_append, List.forall_mem_cons, List.not_mem_nil,
    false_implies, implies_true, and_true]
  · exact ⟨hzero, hpoint, ascii_replicate _, h⟩
  · exact ⟨⟨h, ascii_replicate _⟩, hpoint, hzero⟩
  · exact ⟨htake _, hpoint, hdrop _⟩
  all_goals
    first
    | exact ⟨htake _, by decide, by decide, ascii_replicate _, ascii_toDigits _⟩
    | exact ⟨⟨htake _, hpoint, hdrop _⟩, by decide, by decide, ascii_replicate _, ascii_toDigits _⟩

/-- **A number is written in ASCII.** -/
theorem ascii_render (x : Binary64) : ∀ c ∈ x.render, IsAscii c := by
  cases x with
  | nan => exact isAscii_of_all (by decide)
  | infinite neg => cases neg <;> exact isAscii_of_all (by decide)
  | finite neg m q =>
    unfold render
    simp only
    rw [List.forall_mem_append]
    refine ⟨by cases neg <;> exact isAscii_of_all (by decide), ?_⟩
    split
    · exact isAscii_of_all (by decide)
    · exact ascii_layout _ (ascii_dropTrailingZeros (ascii_toDigits _)) _

end Binary64

/-! ## Texts and documents -/

namespace Json

theorem isAscii_digitChar : ∀ d < 16, IsAscii (Nat.digitChar d) := by
  decide

theorem ascii_hexDigits (width n : Nat) : ∀ c ∈ hexDigits width n, IsAscii c := by
  induction width generalizing n with
  | zero => exact fun c hc => absurd hc List.not_mem_nil
  | succ width ih =>
    rw [hexDigits, List.forall_mem_append]
    exact ⟨ih _, List.forall_mem_singleton.mpr (isAscii_digitChar _ (Nat.mod_lt _ (by decide)))⟩

theorem ascii_escapedUnit (n : Nat) : ∀ c ∈ escapedUnit n, IsAscii c := by
  rw [escapedUnit, List.forall_mem_cons, List.forall_mem_cons]
  exact ⟨by decide, by decide, ascii_hexDigits 4 n⟩

theorem ascii_escapedUnits (n : Nat) : ∀ c ∈ escapedUnits n, IsAscii c := by
  unfold escapedUnits
  split
  · exact ascii_escapedUnit n
  · exact List.forall_mem_append.mpr ⟨ascii_escapedUnit _, ascii_escapedUnit _⟩

theorem ascii_writtenPoint (p : CodePoint) : ∀ c ∈ writtenPoint p, IsAscii c := by
  cases p with
  | half i => exact ascii_escapedUnits _
  | char c =>
    unfold writtenPoint
    simp only
    split_ifs with h₁ h₂ h₃ h₄ h₅ h₆ h₇ h₈
    any_goals (apply isAscii_of_all; decide)
    · rw [Bool.and_eq_true, decide_eq_true_eq, decide_eq_true_eq] at h₈
      exact List.forall_mem_singleton.mpr h₈
    · exact ascii_escapedUnits _

theorem ascii_writtenText (t : Text) : ∀ c ∈ writtenText t, IsAscii c := by
  rw [writtenText, List.forall_mem_cons, List.forall_mem_append]
  refine ⟨by decide, fun c hc => ?_, isAscii_of_all (by decide)⟩
  obtain ⟨p, -, hp⟩ := List.mem_flatMap.mp hc
  exact ascii_writtenPoint p c hp

theorem ascii_toString_int (i : Int) : ∀ c ∈ (ToString.toString i).toList, IsAscii c := by
  cases i with
  | ofNat n =>
    show ∀ c ∈ n.repr.toList, IsAscii c
    rw [Nat.toList_repr]
    exact ascii_toDigits n
  | negSucc n =>
    show ∀ c ∈ ("-" ++ (n + 1).repr).toList, IsAscii c
    rw [String.toList_append, Nat.toList_repr, List.forall_mem_append]
    exact ⟨isAscii_of_all (by decide), ascii_toDigits _⟩

variable {sep : Separators}

theorem ascii_writtenItems (hsep : sep.IsAscii) {items : List Json}
    (h : ∀ x ∈ items, ∀ c ∈ written sep x, IsAscii c) :
    ∀ c ∈ writtenItems sep items, IsAscii c := by
  induction items with
  | nil =>
    rw [writtenItems]
    exact isAscii_of_all (by decide)
  | cons x xs ih =>
    obtain ⟨hx, hxs⟩ := List.forall_mem_cons.mp h
    rw [writtenItems, List.forall_mem_append, List.forall_mem_append]
    exact ⟨⟨hsep.item, hx⟩, ih hxs⟩

theorem ascii_writtenFields (hsep : sep.IsAscii) {fs : List (Text × Json)}
    (h : ∀ f ∈ fs, ∀ c ∈ written sep f.2, IsAscii c) :
    ∀ c ∈ writtenFields sep fs, IsAscii c := by
  induction fs with
  | nil =>
    rw [writtenFields]
    exact isAscii_of_all (by decide)
  | cons f fs ih =>
    obtain ⟨k, v⟩ := f
    obtain ⟨hv, hfs⟩ := List.forall_mem_cons.mp h
    rw [writtenFields, List.forall_mem_append, List.forall_mem_append, List.forall_mem_append,
      List.forall_mem_append]
    exact ⟨⟨⟨⟨hsep.item, ascii_writtenText k⟩, hsep.value⟩, hv⟩, ih hfs⟩

/-- **A document is written in printable ASCII.** -/
theorem ascii_written (hsep : sep.IsAscii) (j : Json) : ∀ c ∈ written sep j, IsAscii c := by
  induction j using Json.induction with
  | null =>
    rw [written]
    exact isAscii_of_all (by decide)
  | bool b =>
    rw [written]
    cases b <;> exact isAscii_of_all (by decide)
  | int i => exact ascii_toString_int i
  | float x => exact x.ascii_render
  | str s => exact ascii_writtenText s
  | arr items ih =>
    cases items with
    | nil =>
      rw [written]
      exact isAscii_of_all (by decide)
    | cons x xs =>
      obtain ⟨hx, hxs⟩ := List.forall_mem_cons.mp ih
      rw [written, List.forall_mem_cons, List.forall_mem_append]
      exact ⟨by decide, hx, ascii_writtenItems hsep hxs⟩
  | obj fs ih =>
    cases fs with
    | nil =>
      rw [written]
      exact isAscii_of_all (by decide)
    | cons f fs =>
      obtain ⟨k, v⟩ := f
      obtain ⟨hv, hfs⟩ := List.forall_mem_cons.mp ih
      rw [written, List.forall_mem_cons, List.forall_mem_append, List.forall_mem_append,
        List.forall_mem_append]
      exact ⟨by decide, ⟨⟨ascii_writtenText k, hsep.value⟩, hv⟩, ascii_writtenFields hsep hfs⟩

/-! ## Bytes -/

/-- The byte of an ASCII character. -/
theorem toNat_byte {c : Char} (h : IsAscii c) : (c.toNat.toUInt8).toNat = c.toNat := by
  rw [Nat.toUInt8_eq, UInt8.toNat_ofNat', Nat.mod_eq_of_lt (Nat.lt_trans h.2 (by decide))]

/-- A byte order mark is not ASCII. -/
theorem all_marks :
    Encoding.marks.all (fun m => m.1.any (fun b => !decide (0 < b.toNat ∧ b.toNat < 0x80))) = true :=
  rfl

/-- ASCII bytes have no byte order mark and no zero among them. -/
theorem detect_ascii {bs : Bytes} (h : ∀ b ∈ bs, 0 < b.toNat ∧ b.toNat < 0x80) :
    Encoding.detect bs = (.utf8, bs) := by
  have hne : ∀ b ∈ bs, (b == 0) = false := by
    intro b hb
    rw [beq_eq_false_iff_ne]
    rintro rfl
    exact absurd (h _ hb).1 (by decide)
  have hunmarked : ∀ m ∈ Encoding.marks, m.1.isPrefixOf bs = false := by
    intro m hm
    refine Bool.eq_false_iff.mpr fun hmark => ?_
    obtain ⟨b, hb, hnot⟩ := List.any_eq_true.mp (List.all_eq_true.mp all_marks m hm)
    rw [Bool.not_eq_true', decide_eq_false_iff_not] at hnot
    exact hnot (h b ((List.isPrefixOf_iff_prefix.mp hmark).subset hb))
  have hzeros : Encoding.ofZeros bs = .utf8 := by
    unfold Encoding.ofZeros
    split
    · rename_i a b c d rest
      rw [hne a (by simp), hne b (by simp)]
      rfl
    · rename_i a b
      rw [hne a (by simp), hne b (by simp)]
      rfl
    · rfl
  unfold Encoding.detect
  rw [List.find?_eq_none.mpr fun m hm => Bool.eq_false_iff.mp (hunmarked m hm), hzeros]

theorem decodeUtf8?_ascii {cs : List Char} (h : ∀ c ∈ cs, IsAscii c) :
    Encoding.decodeUtf8? (cs.map (fun c => c.toNat.toUInt8)) = some (Text.ofChars cs) := by
  induction cs with
  | nil => rfl
  | cons c cs ih =>
    obtain ⟨hc, hcs⟩ := List.forall_mem_cons.mp h
    have hbyte := toNat_byte hc
    have hlt : c.toNat.toUInt8 < 0x80 := by
      rw [UInt8.lt_iff_toNat_lt, hbyte]
      exact Nat.lt_trans hc.2 (by decide)
    have hpoint : CodePoint.ofValue c.toNat = .char c := by
      rw [show c.toNat = (CodePoint.char c).value from rfl, CodePoint.ofValue,
        CodePoint.ofValue?_value]
      rfl
    rw [List.map_cons]
    unfold Encoding.decodeUtf8?
    rw [if_pos hlt, ih hcs, hbyte, hpoint]
    rfl

/-- **The bytes of ASCII characters are read as their text.** -/
theorem decode_ascii {cs : List Char} (h : ∀ c ∈ cs, IsAscii c) :
    decode (cs.map (fun c => c.toNat.toUInt8)) = parse (Text.ofChars cs) := by
  have hbytes : ∀ b ∈ cs.map (fun c => c.toNat.toUInt8), 0 < b.toNat ∧ b.toNat < 0x80 := by
    intro b hb
    obtain ⟨c, hc, rfl⟩ := List.mem_map.mp hb
    rw [toNat_byte (h c hc)]
    have := h c hc
    exact ⟨Nat.lt_of_lt_of_le (by decide) this.1, Nat.lt_trans this.2 (by decide)⟩
  unfold decode
  rw [detect_ascii hbytes]
  simp only [Encoding.decode?, decodeUtf8?_ascii h]

/-- **A document's bytes are read as its compact form.** -/
theorem decode_encode_eq_parse (j : Json) : decode (encode j) = parse (compact j) :=
  decode_ascii (ascii_written Separators.isAscii_compact j)

end Json
end Rollout
