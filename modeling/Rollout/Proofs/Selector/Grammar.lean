import Mathlib.Computability.Language
import Mathlib.Data.Char
import Mathlib.Order.Interval.Set.Basic
import Rollout.Proofs.Selector.Reading

/-!
# The grammar of labels

Which texts serve as keys and values can be said in three ways. The checks take a text apart: they
cut it at its first slash and at its dots, and look at the ends of what they find
(`Label.isQualifiedName`). The grammar puts texts together: a qualified name is a name, or parts
with dots between them, a slash and a name (`Label.IsQualifiedName`). And a pattern spells them
from left to right, with options, repetitions and bounds, as a language (`Label.keyPattern`).

All three say the same (`Label.isQualifiedName_iff`, `Label.mem_keyPattern_iff`). What they
share is the text with an edge: its characters are of one class, those at both ends of a smaller
one. Names have edges, and so do the parts of a prefix. In a pattern such a text is its first
character, alone or before others and a last one, and a name of up to 63 characters therefore
has up to 61 between the ends.

A text is accepted as a key or as a value if it is one in whole, or if it is one but for a line
feed at its end (`Label.isKey_iff`, `Label.isValue_iff`).
-/

namespace Rollout
namespace Label

open Computability

/-! ## Classes of characters -/

/-- Small letters and digits. -/
def smallAlnum : Set Char :=
  Set.Icc 'a' 'z' ∪ Set.Icc '0' '9'

/-- Letters and digits. -/
def alnum : Set Char :=
  smallAlnum ∪ Set.Icc 'A' 'Z'

/-- The characters of a prefix's part. -/
def partChars : Set Char :=
  smallAlnum ∪ {'-'}

/-- The characters of a name. -/
def nameChars : Set Char :=
  alnum ∪ {'-', '_', '.'}

/-- The characters of a qualified name: those of a name, and the slash behind a prefix. -/
def keyChars : Set Char :=
  nameChars ∪ {'/'}

variable {c : Char} {cs : List Char}

theorem isSmallAlnum_iff : isSmallAlnum c = true ↔ c ∈ smallAlnum := by
  simp [isSmallAlnum, smallAlnum]

theorem isAlnum_iff : isAlnum c = true ↔ c ∈ alnum := by
  simp [isAlnum, alnum, isSmallAlnum_iff]

theorem isPartChar_iff : isPartChar c = true ↔ c ∈ partChars := by
  simp [isPartChar, partChars, isSmallAlnum_iff, or_comm]

theorem isNameChar_iff : isNameChar c = true ↔ c ∈ nameChars := by
  simp [isNameChar, nameChars, isAlnum_iff, or_comm, or_left_comm]

theorem smallAlnum_subset : smallAlnum ⊆ partChars :=
  Set.subset_union_left

theorem alnum_subset : alnum ⊆ nameChars :=
  Set.subset_union_left

theorem partChars_subset : partChars ⊆ nameChars :=
  Set.union_subset_union Set.subset_union_left (by simp)

/-! ## Texts put together -/

/-- **A text with an edge**: of characters of one class, with those of another at both ends. -/
structure HasEdge (edge inner : Set Char) (cs : List Char) : Prop where
  ne_nil : cs ≠ []
  mem : ∀ c ∈ cs, c ∈ inner
  head : ∀ c ∈ cs.head?, c ∈ edge
  last : ∀ c ∈ cs.getLast?, c ∈ edge

/-- **A name**: 1 to 63 characters, a letter or digit at both ends. -/
structure IsName (cs : List Char) : Prop extends HasEdge alnum nameChars cs where
  length_le : cs.length ≤ 63

/-- A part of a prefix. -/
abbrev IsPart (cs : List Char) : Prop :=
  HasEdge smallAlnum partChars cs

/-- **A qualified name**: a name, or parts with dots between them, a slash and a name. -/
inductive IsQualifiedName : List Char → Prop where
  | plain {name : List Char} (hname : IsName name) : IsQualifiedName name
  | qualified {parts : List (List Char)} {name : List Char} (hne : parts ≠ [])
      (hparts : ∀ part ∈ parts, IsPart part) (hname : IsName name) :
      IsQualifiedName (join '.' parts ++ '/' :: name)

/-- A class of which a check decides the ends of a text. -/
theorem endsWith_iff {p : Char → Bool} {edge : Set Char} (hp : ∀ c, p c = true ↔ c ∈ edge) :
    endsWith p cs = true
      ↔ cs ≠ [] ∧ (∀ c ∈ cs.head?, c ∈ edge) ∧ ∀ c ∈ cs.getLast?, c ∈ edge := by
  cases cs with
  | nil => simp [endsWith]
  | cons c cs => simp [endsWith, List.getLast?_cons, hp]

theorem hasEdge_iff {p q : Char → Bool} {edge inner : Set Char} (hp : ∀ c, p c = true ↔ c ∈ edge)
    (hq : ∀ c, q c = true ↔ c ∈ inner) :
    (endsWith p cs && cs.all q) = true ↔ HasEdge edge inner cs := by
  rw [Bool.and_eq_true, endsWith_iff hp, List.all_eq_true]
  simp only [hq]
  exact ⟨fun ⟨⟨hne, hhead, hlast⟩, hmem⟩ => ⟨hne, hmem, hhead, hlast⟩,
    fun h => ⟨⟨h.ne_nil, h.head, h.last⟩, h.mem⟩⟩

theorem isName_iff : isName cs = true ↔ IsName cs := by
  rw [isName, Bool.and_eq_true, hasEdge_iff (fun _ => isAlnum_iff) (fun _ => isNameChar_iff),
    decide_eq_true_eq]
  exact ⟨fun h => ⟨h.1, h.2⟩, fun h => ⟨h.toHasEdge, h.length_le⟩⟩

theorem isPart_iff : isPart cs = true ↔ IsPart cs :=
  hasEdge_iff (fun _ => isSmallAlnum_iff) (fun _ => isPartChar_iff)

theorem HasEdge.notMem {edge inner : Set Char} (h : HasEdge edge inner cs) (hc : c ∉ inner) :
    c ∉ cs :=
  fun hmem => hc (h.mem c hmem)

theorem IsName.slash_notMem (h : IsName cs) : '/' ∉ cs :=
  h.notMem (by simp [nameChars, alnum, smallAlnum])

/-- Neither a dot nor a slash is in a part. -/
theorem notMem_of_isPart (h : IsPart cs) : '.' ∉ cs ∧ '/' ∉ cs :=
  ⟨h.notMem (by simp [partChars, smallAlnum]), h.notMem (by simp [partChars, smallAlnum])⟩

/-- **The check takes apart what the grammar puts together.** -/
theorem isQualifiedName_iff : isQualifiedName cs = true ↔ IsQualifiedName cs := by
  constructor
  · intro h
    by_cases hslash : '/' ∈ cs
    · obtain ⟨front, name, rfl, hfront⟩ := List.eq_append_cons_of_mem hslash
      rw [isQualifiedName, cut?_append hfront, Bool.and_eq_true, isPrefixText,
        List.all_eq_true, isName_iff] at h
      rw [← join_pieces '.' front]
      exact .qualified (pieces_ne_nil _ _) (fun part hpart => isPart_iff.mp (h.1 part hpart)) h.2
    · rw [isQualifiedName, cut?_eq_none hslash, isName_iff] at h
      exact .plain h
  · rintro (hname | @⟨parts, name, hne, hparts, hname⟩)
    · rw [isQualifiedName, cut?_eq_none hname.slash_notMem]
      exact isName_iff.mpr hname
    · have hfront : '/' ∉ join '.' parts := by
        intro hmem
        obtain hdot | ⟨part, hpart, hmem⟩ := mem_of_mem_join hmem
        · cases hdot
        · exact (notMem_of_isPart (hparts part hpart)).2 hmem
      rw [isQualifiedName, cut?_append hfront, Bool.and_eq_true, isPrefixText,
        pieces_join hne fun part hpart => (notMem_of_isPart (hparts part hpart)).1,
        List.all_eq_true]
      exact ⟨fun part hpart => isPart_iff.mpr (hparts part hpart), isName_iff.mpr hname⟩

/-! ## Patterns -/

/-- One character of a class. -/
def oneOf (s : Set Char) : Language Char :=
  {w | ∃ c ∈ s, w = [c]}

/-- A character of the edge, alone or with a middle and another behind it. -/
def edged (edge : Set Char) (middle : Language Char) : Language Char :=
  oneOf edge * (1 + middle * oneOf edge)

/-- **The pattern of a name**: up to 61 characters between the ends. -/
def namePattern : Language Char :=
  edged alnum ((1 + oneOf nameChars) ^ 61)

/-- The pattern of a part. -/
def partPattern : Language Char :=
  edged smallAlnum (oneOf partChars)∗

/-- **The pattern of a key**: a name behind what may be parts with dots between them, and a
slash. -/
def keyPattern : Language Char :=
  (1 + partPattern * (oneOf {'.'} * partPattern)∗ * oneOf {'/'}) * namePattern

/-- **The pattern of a value**: what may be a name. -/
def valuePattern : Language Char :=
  1 + namePattern

variable {s edge inner : Set Char} {middle : Language Char}

theorem mem_oneOf_iff : cs ∈ oneOf s ↔ ∃ c ∈ s, cs = [c] :=
  Iff.rfl

theorem mem_oneOf_kstar_iff : cs ∈ (oneOf s)∗ ↔ ∀ c ∈ cs, c ∈ s := by
  rw [Language.mem_kstar]
  constructor
  · rintro ⟨ws, rfl, hws⟩ c hc
    obtain ⟨w, hw, hc⟩ := List.mem_flatten.mp hc
    obtain ⟨d, hd, rfl⟩ := hws w hw
    exact List.mem_singleton.mp hc ▸ hd
  · intro h
    refine ⟨cs.map fun c => [c], (List.flatMap_singleton' cs).symm, fun w hw => ?_⟩
    obtain ⟨c, hc, rfl⟩ := List.mem_map.mp hw
    exact ⟨c, h c hc, rfl⟩

/-- Up to `n` characters of a class. -/
theorem mem_oneOf_pow_iff {n : Nat} :
    cs ∈ (1 + oneOf s) ^ n ↔ (∀ c ∈ cs, c ∈ s) ∧ cs.length ≤ n := by
  induction n generalizing cs with
  | zero =>
    rw [pow_zero, Language.mem_one, Nat.le_zero, List.length_eq_zero_iff]
    exact ⟨fun h => ⟨h ▸ nofun, h⟩, And.right⟩
  | succ n ih =>
    rw [pow_succ', Language.mem_mul]
    constructor
    · rintro ⟨w, rfl | ⟨c, hc, rfl⟩, v, hv, rfl⟩
      · exact (ih.mp hv).imp_right Nat.le_succ_of_le
      · exact ⟨List.forall_mem_cons.mpr ⟨hc, (ih.mp hv).1⟩, Nat.succ_le_succ (ih.mp hv).2⟩
    · rintro ⟨hmem, hlength⟩
      cases cs with
      | nil => exact ⟨[], .inl rfl, [], ih.mpr ⟨hmem, Nat.zero_le n⟩, rfl⟩
      | cons c cs =>
        obtain ⟨hc, hcs⟩ := List.forall_mem_cons.mp hmem
        exact ⟨[c], .inr ⟨c, hc, rfl⟩, cs, ih.mpr ⟨hcs, Nat.le_of_succ_le_succ hlength⟩, rfl⟩

theorem mem_edged_iff : cs ∈ edged edge middle
    ↔ ∃ c ∈ edge, cs = [c] ∨ ∃ w ∈ middle, ∃ d ∈ edge, cs = c :: (w ++ [d]) := by
  simp only [edged, Language.mem_mul, Language.mem_add, Language.mem_one, mem_oneOf_iff]
  constructor
  · rintro ⟨_, ⟨c, hc, rfl⟩, _, rfl | ⟨w, hw, _, ⟨d, hd, rfl⟩, rfl⟩, rfl⟩
    · exact ⟨c, hc, .inl rfl⟩
    · exact ⟨c, hc, .inr ⟨w, hw, d, hd, rfl⟩⟩
  · rintro ⟨c, hc, rfl | ⟨w, hw, d, hd, rfl⟩⟩
    · exact ⟨[c], ⟨c, hc, rfl⟩, [], .inl rfl, rfl⟩
    · exact ⟨[c], ⟨c, hc, rfl⟩, w ++ [d], .inr ⟨w, hw, [d], ⟨d, hd, rfl⟩, rfl⟩, rfl⟩

/-- **A text with an edge** is its first character, alone or before a middle and a last one. -/
theorem hasEdge_iff_exists (hsub : edge ⊆ inner) : HasEdge edge inner cs
    ↔ ∃ c ∈ edge, cs = [c] ∨ ∃ w, (∀ x ∈ w, x ∈ inner) ∧ ∃ d ∈ edge, cs = c :: (w ++ [d]) := by
  constructor
  · rintro ⟨hne, hmem, hhead, hlast⟩
    obtain ⟨c, cs, rfl⟩ := List.exists_cons_of_ne_nil hne
    refine ⟨c, hhead c rfl, ?_⟩
    obtain rfl | ⟨w, d, rfl⟩ := List.eq_nil_or_concat cs
    · exact .inl rfl
    · rw [List.concat_eq_append] at *
      refine .inr ⟨w, fun x hx => hmem x ?_, d, hlast d ?_, rfl⟩
      · exact List.mem_cons_of_mem c (List.mem_append_left [d] hx)
      · exact List.getLast?_concat (l := c :: w)
  · rintro ⟨c, hc, rfl | ⟨w, hw, d, hd, rfl⟩⟩
    · have hmem : ∀ x ∈ [c], x ∈ inner := List.forall_mem_singleton.mpr (hsub hc)
      refine ⟨List.cons_ne_nil c [], hmem, ?_, ?_⟩ <;> rintro _ ⟨⟩ <;> exact hc
    · refine ⟨List.cons_ne_nil c _, ?_, ?_, fun x hx => ?_⟩
      · refine List.forall_mem_cons.mpr ⟨hsub hc, List.forall_mem_append.mpr ⟨hw, ?_⟩⟩
        exact List.forall_mem_singleton.mpr (hsub hd)
      · rintro _ ⟨⟩
        exact hc
      · rw [← List.cons_append, List.getLast?_concat] at hx
        exact Option.some.inj hx ▸ hd

theorem mem_partPattern_iff : cs ∈ partPattern ↔ IsPart cs := by
  rw [partPattern, mem_edged_iff, IsPart, hasEdge_iff_exists smallAlnum_subset]
  simp only [mem_oneOf_kstar_iff]

/-- **The pattern of a name**, with 61 characters between the ends, is that of 63. -/
theorem mem_namePattern_iff : cs ∈ namePattern ↔ IsName cs := by
  rw [namePattern, mem_edged_iff]
  simp only [mem_oneOf_pow_iff]
  have hlength : ∀ (c d : Char) (w : List Char), (c :: (w ++ [d])).length = w.length + 2 :=
    fun c d w => by rw [List.length_cons, List.length_append, List.length_singleton]
  constructor
  · rintro ⟨c, hc, hcs⟩
    refine ⟨(hasEdge_iff_exists alnum_subset).mpr ⟨c, hc, hcs.imp_right ?_⟩, ?_⟩
    · exact fun ⟨w, hw, hd⟩ => ⟨w, hw.1, hd⟩
    · obtain rfl | ⟨w, hw, d, -, rfl⟩ := hcs
      · exact (by decide : 1 ≤ 63)
      · exact (hlength c d w).trans_le (Nat.add_le_add_right hw.2 2)
  · rintro ⟨hedge, hle⟩
    obtain ⟨c, hc, hcs⟩ := (hasEdge_iff_exists alnum_subset).mp hedge
    refine ⟨c, hc, hcs.imp_right ?_⟩
    rintro ⟨w, hw, d, hd, rfl⟩
    rw [hlength] at hle
    exact ⟨w, ⟨hw, Nat.le_of_add_le_add_right hle⟩, d, hd, rfl⟩

/-- Parts with dots between them, one by one. -/
theorem mem_parts_iff : cs ∈ partPattern * (oneOf {'.'} * partPattern)∗
    ↔ ∃ parts, parts ≠ [] ∧ (∀ p ∈ parts, IsPart p) ∧ cs = join '.' parts := by
  simp only [Language.mem_mul, Language.mem_kstar, mem_oneOf_iff, mem_partPattern_iff]
  constructor
  · rintro ⟨p, hp, _, ⟨ws, rfl, hws⟩, rfl⟩
    have hdotted : ∀ w ∈ ws, IsPart w.tail ∧ w = '.' :: w.tail := by
      intro w hw
      obtain ⟨_, ⟨_, rfl, rfl⟩, q, hq, rfl⟩ := hws w hw
      exact ⟨hq, rfl⟩
    refine ⟨p :: ws.map List.tail, List.cons_ne_nil _ _, ?_, ?_⟩
    · refine List.forall_mem_cons.mpr ⟨hp, List.forall_mem_map.mpr fun w hw => (hdotted w hw).1⟩
    · rw [join_cons, List.flatMap_map, List.flatten_eq_flatMap]
      congr 1
      exact List.flatMap_congr fun w hw => (hdotted w hw).2
  · rintro ⟨parts, hne, hparts, rfl⟩
    obtain ⟨p, ps, rfl⟩ := List.exists_cons_of_ne_nil hne
    obtain ⟨hp, hps⟩ := List.forall_mem_cons.mp hparts
    refine ⟨p, hp, _, ⟨ps.map ('.' :: ·), List.flatMap_def .., ?_⟩, (join_cons '.' p ps).symm⟩
    exact List.forall_mem_map.mpr fun q hq => ⟨['.'], ⟨'.', rfl, rfl⟩, q, hps q hq, rfl⟩

/-- **The pattern spells what the grammar puts together.** -/
theorem mem_keyPattern_iff : cs ∈ keyPattern ↔ IsQualifiedName cs := by
  rw [keyPattern, Language.mem_mul]
  simp only [Language.mem_add, Language.mem_one, Language.mem_mul (l := _ * _) (m := oneOf _),
    mem_parts_iff, mem_oneOf_iff, mem_namePattern_iff]
  constructor
  · rintro ⟨_, rfl | ⟨_, ⟨parts, hne, hparts, rfl⟩, _, ⟨_, rfl, rfl⟩, rfl⟩, text, htext, rfl⟩
    · exact .plain htext
    · rw [List.append_assoc]
      exact .qualified hne hparts htext
  · rintro (hname | @⟨parts, text, hne, hparts, htext⟩)
    · exact ⟨[], .inl rfl, cs, hname, rfl⟩
    · refine ⟨join '.' parts ++ ['/'], .inr ?_, text, htext, List.append_assoc ..⟩
      exact ⟨_, ⟨parts, hne, hparts, rfl⟩, ['/'], ⟨'/', rfl, rfl⟩, rfl⟩

/-! ## Keys and values -/

/-- A value is empty or a name. -/
def IsValue (cs : List Char) : Prop :=
  cs = [] ∨ IsName cs

theorem mem_valuePattern_iff : cs ∈ valuePattern ↔ IsValue cs :=
  or_congr Iff.rfl mem_namePattern_iff

/-- A text is what `P` says, **in whole**. -/
def InWhole (P : List Char → Prop) (t : Text) : Prop :=
  ∃ cs, P cs ∧ t = .ofChars cs

/-- A text is what `P` says **up to the end of a line**: in whole, or before a line feed. -/
def ToLineEnd (P : List Char → Prop) (t : Text) : Prop :=
  ∃ cs, P cs ∧ (t = .ofChars cs ∨ t = .ofChars (cs ++ ['\n']))

variable {P : List Char → Prop} {t : Text}

theorem InWhole.toLineEnd (h : InWhole P t) : ToLineEnd P t :=
  h.imp fun _ h => h.imp_right .inl

/-- Without a line feed at the end, up to there is in whole. -/
theorem ToLineEnd.inWhole (h : ToLineEnd P t) (hend : t.getLast? ≠ some (.char '\n')) :
    InWhole P t := by
  obtain ⟨cs, hcs, rfl | rfl⟩ := h
  · exact ⟨cs, hcs, rfl⟩
  · refine absurd ?_ hend
    rw [Text.ofChars, List.map_append]
    exact List.getLast?_concat

/-- What a check finds before the end of the line. -/
theorem any_withoutLineEnd_iff {p : List Char → Bool} (hp : ∀ cs, p cs = true ↔ P cs)
    (hfeed : ∀ cs, P cs → '\n' ∉ cs) :
    t.chars?.any (fun cs => p (withoutLineEnd cs)) = true ↔ ToLineEnd P t := by
  rw [Option.any_eq_true]
  constructor
  · rintro ⟨cs, hcs, h⟩
    refine ⟨withoutLineEnd cs, (hp _).mp h, ?_⟩
    rw [Text.eq_ofChars_of_chars? hcs, withoutLineEnd]
    split
    · rename_i hend
      exact .inr (by rw [List.dropLast_append_getLast? _ hend])
    · exact .inl rfl
  · rintro ⟨cs, hcs, rfl | rfl⟩
    · refine ⟨cs, Text.chars?_ofChars cs, (hp _).mpr ?_⟩
      rwa [withoutLineEnd, if_neg fun hend => hfeed cs hcs (List.mem_of_getLast? hend)]
    · refine ⟨cs ++ ['\n'], Text.chars?_ofChars _, (hp _).mpr ?_⟩
      rwa [withoutLineEnd, if_pos List.getLast?_concat, List.dropLast_concat]

/-- A qualified name is made of its characters. -/
theorem IsQualifiedName.mem (h : IsQualifiedName cs) : ∀ c ∈ cs, c ∈ keyChars := by
  cases h with
  | plain hname => exact fun c hc => .inl (hname.mem c hc)
  | @qualified parts name hne hparts hname =>
    intro c hc
    obtain hc | hc := List.mem_append.mp hc
    · obtain rfl | ⟨part, hpart, hc⟩ := mem_of_mem_join hc
      · simp [keyChars, nameChars]
      · exact .inl (partChars_subset ((hparts part hpart).mem c hc))
    · obtain rfl | hc := List.mem_cons.mp hc
      · exact .inr rfl
      · exact .inl (hname.mem c hc)

theorem IsValue.mem (h : IsValue cs) : ∀ c ∈ cs, c ∈ nameChars := by
  obtain rfl | hname := h
  · exact nofun
  · exact hname.mem

theorem lineFeed_notMem : '\n' ∉ keyChars := by
  simp [keyChars, nameChars, alnum, smallAlnum]

/-- **A key** is a qualified name up to the end of a line. -/
theorem isKey_iff : isKey t = true ↔ ToLineEnd IsQualifiedName t :=
  any_withoutLineEnd_iff (fun _ => isQualifiedName_iff)
    fun _ h hmem => lineFeed_notMem (h.mem _ hmem)

/-- **A value** is empty or a name up to the end of a line. -/
theorem isValue_iff : isValue t = true ↔ ToLineEnd IsValue t := by
  have hvalue : ∀ cs : List Char, (cs.isEmpty || isName cs) = true ↔ IsValue cs := by
    intro cs
    rw [Bool.or_eq_true, List.isEmpty_iff, isName_iff, IsValue]
  exact any_withoutLineEnd_iff hvalue fun _ h hmem => lineFeed_notMem (.inl (h.mem _ hmem))

end Label
end Rollout
