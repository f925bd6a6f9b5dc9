/-!
# Texts

A text is a list of code points. Nearly all of them are characters, but a
document may spell one half of a surrogate pair without the other, and such
a half is kept as it is: two names that differ in it are different names. It
belongs to no class of characters (`CodePoint.is`) and has no place in a
string of the language (`Text.toString`); whoever prints a text decides what
becomes of it.

Texts are ordered by their code points (`Text.le`), the halves standing where
their numbers put them.
-/

namespace Rollout

/-- **A code point**: a character, or half of a surrogate pair that stands
alone. -/
inductive CodePoint where
  | char (c : Char)
  /-- The half `U+D800 + offset`. -/
  | half (offset : Fin 0x800)
deriving DecidableEq, Repr, Inhabited

namespace CodePoint

instance : Coe Char CodePoint := ⟨char⟩

/-- The code point's number. -/
def value : CodePoint → Nat
  | char c => c.toNat
  | half offset => 0xD800 + offset

/-- **The code point of a number**; there are none from `0x110000` on. -/
def ofValue? (n : Nat) : Option CodePoint :=
  if h : 0xD800 ≤ n ∧ n < 0xE000 then some (half ⟨n - 0xD800, by omega⟩)
  else if n < 0x110000 then some (char (Char.ofNat n))
  else none

/-- The code point of a number that is known to be one. -/
def ofValue (n : Nat) : CodePoint :=
  (ofValue? n).getD (char '\uFFFD')

/-- A character of the class `p`. -/
def is (p : Char → Bool) : CodePoint → Bool
  | char c => p c
  | half _ => false

/-- A character changed by `f`; a half stays. -/
def map (f : Char → Char) : CodePoint → CodePoint
  | char c => char (f c)
  | half offset => half offset

/-- The character that stands for a code point where only characters can. -/
def toChar : CodePoint → Char
  | char c => c
  | half _ => '\uFFFD'

/-- **The code point of a code point's number is the code point.** -/
@[simp] theorem ofValue?_value (p : CodePoint) : ofValue? p.value = some p := by
  cases p with
  | char c =>
    have h : c.toNat < 0xD800 ∨ 0xDFFF < c.toNat ∧ c.toNat < 0x110000 := c.valid
    have hn : ¬(0xD800 ≤ c.toNat ∧ c.toNat < 0xE000) := by omega
    have hm : c.toNat < 0x110000 := by omega
    simp [ofValue?, value, hn, hm]
  | half i =>
    have h : 0xD800 ≤ 0xD800 + i.val ∧ 0xD800 + i.val < 0xE000 := by omega
    simp [ofValue?, value, h]

/-- Different code points have different numbers. -/
theorem value_inj {p q : CodePoint} : p.value = q.value ↔ p = q :=
  ⟨fun h => Option.some.inj (by rw [← ofValue?_value p, ← ofValue?_value q, h]),
    fun h => h ▸ rfl⟩

end CodePoint

/-- **A text.** -/
abbrev Text := List CodePoint

namespace Text

/-- The text of characters. -/
def ofChars (cs : List Char) : Text :=
  cs.map .char

/-- The text of a string. -/
def ofString (s : String) : Text :=
  ofChars s.toList

instance : Coe String Text := ⟨ofString⟩

/-- The text of an integer in decimal digits. -/
def ofInt (i : Int) : Text :=
  ToString.toString i

/-- A text as a string, halves replaced. -/
def toString (t : Text) : String :=
  String.ofList (t.map CodePoint.toChar)

/-- The characters of a text that has no halves. -/
def chars? (t : Text) : Option (List Char) :=
  t.mapM fun
    | .char c => some c
    | .half _ => none

/-- **The order of texts**: the first code point in which they differ
decides, and a text stands before those it begins. -/
def le : Text → Text → Bool
  | [], _ => true
  | _ :: _, [] => false
  | p :: s, q :: t => p.value < q.value || (p.value == q.value && le s t)

@[simp] theorem ofChars_inj {a b : List Char} : ofChars a = ofChars b ↔ a = b :=
  List.map_inj_right fun _ _ h => CodePoint.char.inj h

/-- **Different strings are different texts.** -/
@[simp] theorem ofString_inj {a b : String} : ofString a = ofString b ↔ a = b := by
  rw [ofString, ofString, ofChars_inj, String.toList_inj]

@[simp] theorem ofString_append (a b : String) :
    ofString (a ++ b) = ofString a ++ ofString b := by
  simp [ofString, ofChars]

@[simp] theorem toString_ofString (s : String) : toString (ofString s) = s := by
  simp [toString, ofString, ofChars, Function.comp_def, CodePoint.toChar]

/-- A text of characters has them. -/
@[simp] theorem chars?_ofChars (cs : List Char) : chars? (ofChars cs) = some cs := by
  induction cs with
  | nil => rfl
  | cons c cs ih =>
    simp only [chars?, ofChars] at ih
    simp [chars?, ofChars, ih]

theorem le_refl (t : Text) : le t t = true := by
  induction t with
  | nil => rfl
  | cons p t ih => simp [le, ih]

/-- Of two texts one stands before the other. -/
theorem le_total (s t : Text) : (le s t || le t s) = true := by
  induction s generalizing t with
  | nil => simp [le]
  | cons p s ih =>
    cases t with
    | nil => simp [le]
    | cons q t =>
      have := ih t
      simp only [le, Bool.or_eq_true, Bool.and_eq_true, decide_eq_true_eq, beq_iff_eq] at this ⊢
      rcases Nat.lt_trichotomy p.value q.value with h | h | h
      · exact .inl (.inl h)
      · exact this.imp (fun hs => .inr ⟨h, hs⟩) (fun ht => .inr ⟨h.symm, ht⟩)
      · exact .inr (.inl h)

theorem le_trans {s t u : Text} (hst : le s t = true) (htu : le t u = true) : le s u = true := by
  induction s generalizing t u with
  | nil => simp [le]
  | cons p s ih =>
    cases t with
    | nil => simp [le] at hst
    | cons q t =>
      cases u with
      | nil => simp [le] at htu
      | cons r u =>
        simp only [le, Bool.or_eq_true, Bool.and_eq_true, decide_eq_true_eq, beq_iff_eq]
          at hst htu ⊢
        rcases hst with h | ⟨h, hs⟩ <;> rcases htu with h' | ⟨h', ht⟩
        · exact .inl (by omega)
        · exact .inl (by omega)
        · exact .inl (by omega)
        · exact .inr ⟨by omega, ih hs ht⟩

/-- **Texts that stand before each other are the same text.** -/
theorem le_antisymm {s t : Text} (hst : le s t = true) (hts : le t s = true) : s = t := by
  induction s generalizing t with
  | nil =>
    cases t with
    | nil => rfl
    | cons q t => simp [le] at hts
  | cons p s ih =>
    cases t with
    | nil => simp [le] at hst
    | cons q t =>
      simp only [le, Bool.or_eq_true, Bool.and_eq_true, decide_eq_true_eq, beq_iff_eq] at hst hts
      rcases hst with h | ⟨h, hs⟩ <;> rcases hts with h' | ⟨h', ht⟩
      · omega
      · omega
      · omega
      · rw [CodePoint.value_inj.mp h, ih hs ht]

end Text

/-- Texts in their order. -/
def sortedTexts (ts : List Text) : List Text :=
  ts.mergeSort Text.le

end Rollout
