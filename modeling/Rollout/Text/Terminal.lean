import Rollout.Text.Quoted

/-!
# Text for a terminal

Colours and other effects of a terminal are asked for by control sequences:
an escape character and an opening bracket, any parameters, any intermediate
characters, and one final character. Text that may go to a file has none of
them (`plain`). What only begins like a sequence is text and stays.

Two more things are settled where a text is printed: a line ends in a line
feed alone (`lineEnds`), and a half of a surrogate pair has no bytes to be
printed in, so that it is spelled out by its number (`spelledOut`).
-/

namespace Rollout

/-- The escape character. -/
def escapeChar : Char := '\x1b'

/-- A parameter of a sequence: a digit, a semicolon and the like. -/
def isParameter (c : Char) : Bool :=
  '\x30' ≤ c && c ≤ '\x3f'

/-- An intermediate character of a sequence: a blank, an exclamation mark and
the like. -/
def isIntermediate (c : Char) : Bool :=
  '\x20' ≤ c && c ≤ '\x2f'

/-- The character that ends a sequence: a letter and the like. -/
def isFinal (c : Char) : Bool :=
  '\x40' ≤ c && c ≤ '\x7e'

/-- The length of a sequence whose first two characters stand in front of the
text; zero if it has no end. -/
def lengthBehindStart (body : Text) : Nat :=
  let parameters := body.takeWhile (·.is isParameter)
  let behind := body.dropWhile (·.is isParameter)
  let intermediates := behind.takeWhile (·.is isIntermediate)
  match behind.dropWhile (·.is isIntermediate) with
  | last :: _ =>
    if last.is isFinal then parameters.length + intermediates.length + 3 else 0
  | [] => 0

/-- The length of the sequence at the front of a text; zero if none stands
there. -/
def sequenceLength : Text → Nat
  | .char a :: .char b :: body =>
    if a = escapeChar ∧ b = '[' then lengthBehindStart body else 0
  | _ => 0

/-- The text without its sequences. `skipped` counts what is left of the one
that is being dropped. -/
def plainFrom : Nat → Text → Text
  | _, [] => []
  | skipped + 1, _ :: rest => plainFrom skipped rest
  | 0, p :: rest =>
    match sequenceLength (p :: rest) with
    | 0 => p :: plainFrom 0 rest
    | n + 1 => plainFrom n rest

/-- **A text without control sequences.** -/
def plain (t : Text) : Text :=
  plainFrom 0 t

/-- **A text whose lines end in a line feed alone.** -/
def lineEnds : Text → Text
  | .char '\r' :: .char '\n' :: rest => .char '\n' :: lineEnds rest
  | p :: rest => p :: lineEnds rest
  | [] => []

/-- **A text whose halves are spelled out** by their numbers. -/
def spelledOut (t : Text) : Text :=
  t.flatMap fun
    | .char c => [.char c]
    | .half offset => Text.ofChars (escapedValue (CodePoint.half offset).value)

/-- Every code point of the text is a character. -/
def isPrintedAsItIs (t : Text) : Bool :=
  t.chars?.isSome

example : plain "a\x1b[1;31mb\x1b[0m\x1b[" = "ab\x1b[" := by decide +kernel
example : plain "a\x1b[2 qb\x1b[1 2m" = "ab\x1b[1 2m" := by decide +kernel

end Rollout
