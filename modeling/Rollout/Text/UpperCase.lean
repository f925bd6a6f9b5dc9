import Rollout.Text.Basic

/-!
# Capitals

A word that is looked up by its capitals is found in each of its spellings:
in small letters, in the two small letters outside ASCII whose capitals are
inside, and with ligatures or a sharp s, which are capitalised letter by
letter. `inCapitals` makes all capitals that are ASCII, whatever they are the
capitals of, and leaves everything else as it is, so that a text with another
letter in it is no word of ASCII capitals before or after.
-/

namespace Rollout

/-- A character's capitals, as far as they are ASCII. -/
def capitalsOf : Char → List Char
  | 'ı' => ['I']
  | 'ſ' => ['S']
  | 'ß' => ['S', 'S']
  | 'ﬀ' => ['F', 'F']
  | 'ﬁ' => ['F', 'I']
  | 'ﬂ' => ['F', 'L']
  | 'ﬃ' => ['F', 'F', 'I']
  | 'ﬄ' => ['F', 'F', 'L']
  | 'ﬅ' => ['S', 'T']
  | 'ﬆ' => ['S', 'T']
  | c => [c.toUpper]

/-- **A text in capitals**, as far as they are ASCII. -/
def inCapitals (t : Text) : Text :=
  t.flatMap fun
    | .char c => Text.ofChars (capitalsOf c)
    | .half offset => [.half offset]

@[simp] theorem inCapitals_append (s t : Text) :
    inCapitals (s ++ t) = inCapitals s ++ inCapitals t :=
  List.flatMap_append

example : inCapitals "ﬁrſt_word ä" = "FIRST_WORD ä" := by decide +kernel

end Rollout
