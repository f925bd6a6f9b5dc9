import Mathlib.Data.List.Basic
import Rollout.Proofs.Revision.Rearrangement
import Rollout.Proofs.Text.Pieces
import Rollout.Selector.Query

/-!
# Queries that are read back

A query has no quotation: keys and values stand in it as they are, between commas, equals signs,
parentheses, blanks and exclamation marks. It can be read all the same, since no label holds one
of these marks (`Selector.isWord_of_isKey`, `Selector.isWord_of_isValue`). A key goes as far as
the first mark, and the mark says what kind of requirement this is; a comma ends it, unless it
stands in parentheses, where no requirement ends.

So a reader that knows nothing but the marks gets every requirement back that is written, and
what stands behind it (`Requirement.read_text`). Only the order of the values of a set is not
there to be read, as they are written in theirs (`Requirement.arranged`). Requirements that are
written as one line are then read back one by one
(`Requirement.map_arranged_eq_of_intercalate_eq`). That a label may end in a line feed does no
harm: it is no mark.
-/

namespace Rollout

/-- A text that has characters is made of them. -/
theorem Text.eq_ofChars_of_chars? {t : Text} {cs : List Char} (h : t.chars? = some cs) :
    t = ofChars cs := by
  induction t generalizing cs with
  | nil =>
    cases h
    rfl
  | cons p t ih =>
    cases p with
    | half offset => cases h
    | char c =>
      rw [chars?, List.mapM_cons] at h
      obtain ⟨_, ⟨⟩, h⟩ := Option.bind_eq_some_iff.mp h
      obtain ⟨ds, hds, h⟩ := Option.bind_eq_some_iff.mp h
      obtain rfl : c :: ds = cs := Option.some.inj h
      rw [ih hds]
      rfl

namespace Label

/-! ## What labels are made of -/

/-- A character that a key or a value can hold: one of a name, the slash behind a prefix, or the
line feed at the end. -/
def isLabelChar (c : Char) : Bool :=
  isNameChar c || c == '/' || c == '\n'

variable {cs : List Char} {t : Text}

theorem isLabelChar_of_isNameChar {c : Char} (h : isNameChar c = true) :
    isLabelChar c = true := by
  rw [isLabelChar, h, Bool.true_or, Bool.true_or]

theorem isLabelChar_of_isName (h : isName cs = true) : ∀ c ∈ cs, isLabelChar c = true := by
  rw [isName, Bool.and_eq_true, Bool.and_eq_true, List.all_eq_true] at h
  exact fun c hc => isLabelChar_of_isNameChar (h.1.2 c hc)

theorem isLabelChar_of_isPrefixText (h : isPrefixText cs = true) :
    ∀ c ∈ cs, isLabelChar c = true := by
  intro c hc
  rw [← join_pieces '.' cs] at hc
  obtain rfl | ⟨p, hp, hc⟩ := mem_of_mem_join hc
  · rfl
  · have hpart := List.all_eq_true.mp h p hp
    rw [isPart, Bool.and_eq_true, List.all_eq_true] at hpart
    have hchar : isPartChar c = true := hpart.2 c hc
    refine isLabelChar_of_isNameChar ?_
    rw [isPartChar, Bool.or_eq_true] at hchar
    obtain hsmall | hdash := hchar
    · rw [isNameChar, isAlnum, hsmall, Bool.true_or, Bool.true_or, Bool.true_or, Bool.true_or]
    · rw [isNameChar, hdash, Bool.or_true, Bool.true_or, Bool.true_or]

theorem isLabelChar_of_isQualifiedName (h : isQualifiedName cs = true) :
    ∀ c ∈ cs, isLabelChar c = true := by
  by_cases hslash : '/' ∈ cs
  · obtain ⟨front, name, rfl, hfront⟩ := List.eq_append_cons_of_mem hslash
    rw [isQualifiedName, cut?_append hfront, Bool.and_eq_true] at h
    refine List.forall_mem_append.mpr ⟨isLabelChar_of_isPrefixText h.1, ?_⟩
    exact List.forall_mem_cons.mpr ⟨rfl, isLabelChar_of_isName h.2⟩
  · rw [isQualifiedName, cut?_eq_none hslash] at h
    exact isLabelChar_of_isName h

theorem isLabelChar_of_withoutLineEnd (h : ∀ c ∈ withoutLineEnd cs, isLabelChar c = true) :
    ∀ c ∈ cs, isLabelChar c = true := by
  rw [withoutLineEnd] at h
  split at h
  · rename_i hend
    rw [← List.dropLast_append_getLast? _ hend]
    exact List.forall_mem_append.mpr ⟨h, List.forall_mem_singleton.mpr rfl⟩
  · exact h

/-- **A key is made of label characters**, and there is at least one. -/
theorem exists_chars_of_isKey (h : isKey t = true) :
    t ≠ [] ∧ ∃ cs, t = Text.ofChars cs ∧ ∀ c ∈ cs, isLabelChar c = true := by
  rw [isKey, Option.any_eq_true] at h
  obtain ⟨cs, hcs, h⟩ := h
  refine ⟨?_, cs, Text.eq_ofChars_of_chars? hcs,
    isLabelChar_of_withoutLineEnd (isLabelChar_of_isQualifiedName h)⟩
  rintro rfl
  cases hcs
  cases h

/-- **A value is made of label characters.** -/
theorem exists_chars_of_isValue (h : isValue t = true) :
    ∃ cs, t = Text.ofChars cs ∧ ∀ c ∈ cs, isLabelChar c = true := by
  rw [isValue, Option.any_eq_true] at h
  obtain ⟨cs, hcs, h⟩ := h
  refine ⟨cs, Text.eq_ofChars_of_chars? hcs, isLabelChar_of_withoutLineEnd ?_⟩
  rw [Bool.or_eq_true, List.isEmpty_iff] at h
  obtain hempty | hname := h
  · rw [hempty]
    exact fun c hc => absurd hc List.not_mem_nil
  · exact isLabelChar_of_isName hname

end Label

namespace Selector

/-! ## Words and marks -/

/-- The marks that set the parts of a query apart. -/
def marks : Text :=
  ",=()! "

/-- A code point of a word. -/
def isWordPoint (p : CodePoint) : Bool :=
  p ∉ marks

/-- **A text without marks.** -/
def IsWord (t : Text) : Prop :=
  ∀ p ∈ t, isWordPoint p = true

instance (t : Text) : Decidable (IsWord t) :=
  inferInstanceAs (Decidable (∀ p ∈ t, isWordPoint p = true))

/-- The word at the front of a text. -/
def word (t : Text) : Text :=
  t.takeWhile isWordPoint

/-- What stands behind the word. -/
def behind (t : Text) : Text :=
  t.dropWhile isWordPoint

variable {t z : Text}

/-- **No mark stands in a label.** -/
theorem isWord_ofChars {cs : List Char} (h : ∀ c ∈ cs, Label.isLabelChar c = true) :
    IsWord (.ofChars cs) := by
  have hmarks : ∀ p ∈ marks, p.is Label.isLabelChar = false := by decide
  intro p hp
  obtain ⟨c, hc, rfl⟩ := List.mem_map.mp hp
  refine decide_eq_true fun hmem => ?_
  exact Bool.eq_false_iff.mp (hmarks _ hmem) (h c hc)

theorem isWord_of_isKey (h : Label.isKey t = true) : t ≠ [] ∧ IsWord t := by
  obtain ⟨hne, cs, rfl, hcs⟩ := Label.exists_chars_of_isKey h
  exact ⟨hne, isWord_ofChars hcs⟩

theorem isWord_of_isValue (h : Label.isValue t = true) : IsWord t := by
  obtain ⟨cs, rfl, hcs⟩ := Label.exists_chars_of_isValue h
  exact isWord_ofChars hcs

/-- A text that starts with a mark, if with anything. -/
def StartsApart (z : Text) : Prop :=
  ∀ p ∈ z.head?, isWordPoint p = false

/-- **A word goes as far as the first mark.** -/
theorem word_append (ht : IsWord t) (hz : StartsApart z) : word (t ++ z) = t := by
  rw [word, List.takeWhile_append_of_pos ht]
  cases z with
  | nil => exact List.append_nil t
  | cons p z =>
    rw [List.takeWhile_cons_of_neg (Bool.eq_false_iff.mp (hz p rfl)), List.append_nil]

theorem behind_append (ht : IsWord t) (hz : StartsApart z) : behind (t ++ z) = z := by
  rw [behind, List.dropWhile_append_of_pos ht]
  cases z with
  | nil => rfl
  | cons p z => exact List.dropWhile_cons_of_neg (Bool.eq_false_iff.mp (hz p rfl))

/-- What can stand behind a requirement: nothing, or a comma and more. -/
def FollowsOn (z : Text) : Prop :=
  ∀ p ∈ z.head?, p = .char ','

theorem FollowsOn.startsApart (hz : FollowsOn z) : StartsApart z := by
  intro p hp
  rw [hz p hp]
  rfl

end Selector

namespace Requirement

open Selector (FollowsOn IsWord StartsApart behind behind_append word word_append)

variable {r : Requirement} {rs rs' : List Requirement} {z : Text}

/-! ## Requirements -/

/-- A requirement with its values in their order. -/
def arranged : Requirement → Requirement
  | among k vs => among k (sortedTexts vs)
  | notAmong k vs => notAmong k (sortedTexts vs)
  | r => r

/-- **A requirement that can be read**: key and values are words, and a set has values. -/
inductive IsLegible : Requirement → Prop where
  | equals {k v : Text} (hne : k ≠ []) (hk : IsWord k) (hv : IsWord v) : IsLegible (equals k v)
  | among {k : Text} {vs : List Text} (hne : k ≠ []) (hk : IsWord k) (hvs : vs ≠ [])
      (hwords : ∀ v ∈ vs, IsWord v) : IsLegible (among k vs)
  | notAmong {k : Text} {vs : List Text} (hne : k ≠ []) (hk : IsWord k) (hvs : vs ≠ [])
      (hwords : ∀ v ∈ vs, IsWord v) : IsLegible (notAmong k vs)
  | present {k : Text} (hne : k ≠ []) (hk : IsWord k) : IsLegible (present k)
  | absent {k : Text} (hne : k ≠ []) (hk : IsWord k) : IsLegible (absent k)

/-- The values of a set read up to the closing parenthesis, and the text behind it. -/
def readSet (make : List Text → Requirement) (t : Text) : Requirement × Text :=
  (make (pieces (.char ',') (t.takeWhile (· ≠ .char ')'))), (t.dropWhile (· ≠ .char ')')).tail)

/-- **A requirement read** at the front of a text, and the text behind it. -/
def read (t : Text) : Requirement × Text :=
  if t.head? = some (.char '!') then (absent (word t.tail), behind t.tail)
  else
    match behind t with
    | .char '=' :: rest => (equals (word t) (word rest), behind rest)
    | .char ' ' :: rest =>
      let make := if word rest = "in" then among else notAmong
      readSet (make (word t)) ((behind rest).drop 2)
    | rest => (present (word t), rest)

/-- A word is not taken for a requirement that is turned round. -/
theorem head?_append_ne {k : Text} (hne : k ≠ []) (hk : IsWord k) :
    (k ++ z).head? ≠ some (.char '!') := by
  cases k with
  | nil => exact absurd rfl hne
  | cons p k =>
    intro h
    obtain rfl : p = .char '!' := Option.some.inj h
    cases hk _ List.mem_cons_self

/-- **Values are read back** in their order. -/
theorem readSet_valueList (make : List Text → Requirement) {vs : List Text} (hvs : vs ≠ [])
    (hwords : ∀ v ∈ vs, IsWord v) :
    readSet make (valueList vs ++ (")" ++ z)) = (make (sortedTexts vs), z) := by
  have hperm : (sortedTexts vs).Perm vs := List.mergeSort_perm vs Text.le
  have hsorted : ∀ v ∈ sortedTexts vs, IsWord v := fun v hv => hwords v (hperm.mem_iff.mp hv)
  have hne : sortedTexts vs ≠ [] := fun h => hvs (List.nil_perm.mp (h ▸ hperm))
  have hjoin : valueList vs = join (.char ',') (sortedTexts vs) := intercalate_eq_join _ _
  have hopen : ∀ p ∈ valueList vs, decide (p ≠ .char ')') = true := by
    intro p hp
    refine decide_eq_true ?_
    rintro rfl
    obtain heq | ⟨v, hv, hp⟩ := mem_of_mem_join (hjoin ▸ hp)
    · cases heq
    · cases hsorted v hv _ hp
  have hpieces : pieces (.char ',') (valueList vs) = sortedTexts vs := by
    rw [hjoin]
    refine pieces_join hne fun v hv hp => ?_
    cases hsorted v hv _ hp
  rw [readSet, List.takeWhile_append_of_pos hopen, List.dropWhile_append_of_pos hopen]
  show (make (pieces (.char ',') (valueList vs ++ [])), z) = _
  rw [List.append_nil, hpieces]

/-- The word of a set operator says which set is read. -/
theorem read_set {k operator : Text} (hne : k ≠ []) (hk : IsWord k) (hword : IsWord operator) :
    read (k ++ (" " ++ (operator ++ (" (" ++ z))))
      = readSet ((if operator = "in" then among else notAmong) k) z := by
  have hblank : ∀ t : Text, StartsApart (" " ++ t) := by
    rintro t _ ⟨⟩
    rfl
  have hopen : StartsApart (" (" ++ z) := by
    rintro _ ⟨⟩
    rfl
  rw [read, if_neg (head?_append_ne hne hk), behind_append hk (hblank _), word_append hk (hblank _)]
  show readSet ((if word (operator ++ (" (" ++ z)) = "in" then among else notAmong) k)
    ((behind (operator ++ (" (" ++ z))).drop 2) = _
  rw [word_append hword hopen, behind_append hword hopen]
  rfl

/-- **Every requirement is read back**, and what stands behind it. -/
theorem read_text (h : IsLegible r) (hz : FollowsOn z) : read (r.text ++ z) = (r.arranged, z) := by
  cases h with
  | @equals k v hne hk hv =>
    have happ : (equals k v).text ++ z = k ++ ("=" ++ (v ++ z)) := by
      simp only [text, List.append_assoc]
    have hrest : StartsApart ("=" ++ (v ++ z)) := by
      rintro _ ⟨⟩
      rfl
    rw [happ, read, if_neg (head?_append_ne hne hk), behind_append hk hrest, word_append hk hrest]
    show (equals k (word (v ++ z)), behind (v ++ z)) = _
    rw [word_append hv hz.startsApart, behind_append hv hz.startsApart]
    rfl
  | @among k vs hne hk hvs hwords =>
    have happ : (among k vs).text ++ z
        = k ++ (" " ++ ("in" ++ (" (" ++ (valueList vs ++ (")" ++ z))))) := by
      simp only [text, List.append_assoc]
      rfl
    rw [happ, read_set hne hk (by decide)]
    exact readSet_valueList (among k) hvs hwords
  | @notAmong k vs hne hk hvs hwords =>
    have happ : (notAmong k vs).text ++ z
        = k ++ (" " ++ ("notin" ++ (" (" ++ (valueList vs ++ (")" ++ z))))) := by
      simp only [text, List.append_assoc]
      rfl
    rw [happ, read_set hne hk (by decide)]
    exact readSet_valueList (notAmong k) hvs hwords
  | @present k hne hk =>
    show read (k ++ z) = (present k, z)
    rw [read, if_neg (head?_append_ne hne hk), behind_append hk hz.startsApart,
      word_append hk hz.startsApart]
    cases z with
    | nil => rfl
    | cons p z =>
      obtain rfl := hz p rfl
      rfl
  | @absent k hne hk =>
    show (absent (word (k ++ z)), behind (k ++ z)) = (absent k, z)
    rw [word_append hk hz.startsApart, behind_append hk hz.startsApart]

/-! ## Requirements in one line -/

/-- Requirements as they stand behind another. -/
def following (rs : List Requirement) : Text :=
  rs.flatMap fun r => "," ++ r.text

theorem followsOn_following (rs : List Requirement) : FollowsOn (following rs) := by
  cases rs with
  | nil => exact nofun
  | cons r rs =>
    rintro _ ⟨⟩
    rfl

/-- A line of requirements, behind a comma. -/
theorem following_eq (hrs : rs ≠ []) :
    following rs = "," ++ ("," : Text).intercalate (rs.map text) := by
  induction rs with
  | nil => exact absurd rfl hrs
  | cons r rs ih =>
    show "," ++ r.text ++ following rs = _
    cases rs with
    | nil => simp [following]
    | cons r' rs =>
      rw [ih (List.cons_ne_nil r' rs)]
      simp only [List.map_cons, List.intercalate_cons_cons, List.append_assoc]

theorem map_arranged_eq_of_following_eq (hrs : ∀ r ∈ rs, IsLegible r)
    (hrs' : ∀ r ∈ rs', IsLegible r) (h : following rs = following rs') :
    rs.map arranged = rs'.map arranged := by
  induction rs generalizing rs' with
  | nil =>
    cases rs' with
    | nil => rfl
    | cons r' rs' => cases h
  | cons r rs ih =>
    cases rs' with
    | nil => cases h
    | cons r' rs' =>
      obtain ⟨hr, hrs⟩ := List.forall_mem_cons.mp hrs
      obtain ⟨hr', hrs'⟩ := List.forall_mem_cons.mp hrs'
      have htail : r.text ++ following rs = r'.text ++ following rs' := List.tail_eq_of_cons_eq h
      have hread := read_text hr (followsOn_following rs)
      rw [htail, read_text hr' (followsOn_following rs')] at hread
      obtain ⟨hfirst, hrest⟩ := Prod.mk.inj hread
      rw [List.map_cons, List.map_cons, hfirst, ih hrs hrs' hrest.symm]

/-- **A line of requirements is read back** one by one. -/
theorem map_arranged_eq_of_intercalate_eq (hne : rs ≠ []) (hne' : rs' ≠ [])
    (hrs : ∀ r ∈ rs, IsLegible r) (hrs' : ∀ r ∈ rs', IsLegible r)
    (h : ("," : Text).intercalate (rs.map text) = ("," : Text).intercalate (rs'.map text)) :
    rs.map arranged = rs'.map arranged := by
  refine map_arranged_eq_of_following_eq hrs hrs' ?_
  rw [following_eq hne, following_eq hne', h]

end Requirement
end Rollout
