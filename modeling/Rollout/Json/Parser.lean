import Rollout.Json.Basic
import Rollout.Number.Integer
import Rollout.Text.SurrogatePair

/-!
# Reading documents

The grammar is that of the written form, with `NaN`, `Infinity` and
`-Infinity` beside the numbers, and blanks, tabs and line ends allowed
between tokens. A number without point and exponent is an integer; a name
that is written twice keeps its first place and its last value. Half of a
surrogate pair may be written on its own and is read as that half; two
escapes that make up a pair are read as the character it stands for.

Each reader takes the code points that are left and gives a value with those
behind it. The three readers of values call each other and spend at least
one code point each time, so the length of the text bounds their calls. They
also count how deep containers are nested: a document that goes deeper than
`maxDepth` is not read, and that is another failure than a text that is no
document.
-/

namespace Rollout

/-- **Why a text is not read.** -/
inductive Unreadable where
  /-- It is no document. -/
  | noDocument
  /-- Its containers are nested too deep. -/
  | tooDeep
deriving DecidableEq, Repr

/-- How deep containers may be nested. -/
def maxDepth : Nat := 990

namespace Json

/-- White space between tokens. -/
def isSpace (c : Char) : Bool :=
  c == ' ' || c == '\t' || c == '\n' || c == '\r'

/-- The text behind the white space. -/
def skipSpace (t : Text) : Text :=
  t.dropWhile (·.is isSpace)

/-- The value of a hexadecimal digit. -/
def hexValue? (c : Char) : Option Nat :=
  if '0' ≤ c && c ≤ '9' then some (c.toNat - '0'.toNat)
  else if 'a' ≤ c && c ≤ 'f' then some (c.toNat - 'a'.toNat + 10)
  else if 'A' ≤ c && c ≤ 'F' then some (c.toNat - 'A'.toNat + 10)
  else none

/-- Four hexadecimal digits. -/
def unit? : Text → Option (Nat × Text)
  | .char a :: .char b :: .char c :: .char d :: rest => do
    let a ← hexValue? a
    let b ← hexValue? b
    let c ← hexValue? c
    let d ← hexValue? d
    return (((a * 16 + b) * 16 + c) * 16 + d, rest)
  | _ => none

/-- The character of one escape by letter. -/
def escapeOf? : Char → Option Char
  | '\x22' => some '\x22'
  | '\\' => some '\\'
  | '/' => some '/'
  | 'b' => some '\x08'
  | 'f' => some '\x0c'
  | 'n' => some '\n'
  | 'r' => some '\r'
  | 't' => some '\t'
  | _ => none

/-- The code point of an escape by number, behind `\u`. A high unit takes
the low one that follows it as a second escape. -/
def escapedPoint? (t : Text) : Option (CodePoint × Text) := do
  let (n, rest) ← unit? t
  match rest with
  | .char '\\' :: .char 'u' :: more =>
    match unit? more with
    | some (m, behind) =>
      match SurrogatePair.char? n m with
      | some c => return (c, behind)
      | none => return (.ofValue n, rest)
    | none => return (.ofValue n, rest)
  | _ => return (.ofValue n, rest)

/-- What stands for the first code point of a text between quotes: the code
point and the rest. The quote itself stands for none. -/
def nextPoint? : Text → Option (CodePoint × Text)
  | .char '\\' :: .char 'u' :: more => escapedPoint? more
  | .char '\\' :: .char e :: more => (escapeOf? e).map (fun c => (.char c, more))
  | .char c :: rest =>
    if c == '\x22' || c == '\\' || c.toNat < 0x20 then none else some (.char c, rest)
  | .half offset :: rest => some (.half offset, rest)
  | [] => none

/-- A text up to its closing quote. `read` holds what has been read of it,
the last code point first. -/
def textBody? (read : Text) : Nat → Text → Option (Text × Text)
  | 0, _ => none
  | n + 1, t =>
    match t with
    | .char '\x22' :: rest => some (read.reverse, rest)
    | _ =>
      match nextPoint? t with
      | some (p, rest) => textBody? (p :: read) n rest
      | none => none

/-- A text behind its opening quote. -/
def text? (t : Text) : Option (Text × Text) :=
  textBody? [] (t.length + 1) t

/-- The digits at the front. -/
def spanDigits (t : Text) : List Char × Text :=
  ((t.takeWhile (·.is Char.isDigit)).map CodePoint.toChar, t.dropWhile (·.is Char.isDigit))

/-- The number a list of ASCII digits stands for. -/
def digitsValue (ds : List Char) : Nat :=
  Nat.ofDigitChars 10 ds 0

/-- The digits before the point: a zero alone or a run that starts
otherwise. -/
def wholeDigits? : Text → Option (List Char × Text)
  | .char '0' :: rest => some (['0'], rest)
  | t =>
    match spanDigits t with
    | ([], _) => none
    | found => some found

/-- The digits behind a point, if a point with digits stands here. -/
def fraction : Text → List Char × Text
  | .char '.' :: rest =>
    match spanDigits rest with
    | ([], _) => ([], .char '.' :: rest)
    | found => found
  | t => ([], t)

/-- The digits of an exponent behind its sign. -/
def exponentDigits? (negative : Bool) (t : Text) : Option (Int × Text) :=
  match spanDigits t with
  | ([], _) => none
  | (ds, rest) => some (Binary64.signed negative (digitsValue ds), rest)

/-- An exponent with its mark, if one stands here. -/
def exponent? : Text → Option (Int × Text)
  | .char c :: rest =>
    if c == 'e' || c == 'E' then
      match rest with
      | .char '-' :: more => exponentDigits? true more
      | .char '+' :: more => exponentDigits? false more
      | _ => exponentDigits? false rest
    else none
  | _ => none

/-- **A number behind its sign.** -/
def number (negative : Bool) (t : Text) : Option (Json × Text) := do
  let (ds, rest) ← wholeDigits? t
  let (fs, rest) := fraction rest
  match exponent? rest with
  | some (e, behind) =>
    return (float (Binary64.ofDecimal negative (digitsValue (ds ++ fs)) (e - fs.length)), behind)
  | none =>
    if fs.isEmpty then
      if ds.length ≤ maxDigits then return (int (Binary64.signed negative (digitsValue ds)), rest)
      else none
    else
      let x := Binary64.ofDecimal negative (digitsValue (ds ++ fs)) (-(fs.length : Int))
      return (float x, rest)

/-- The text behind a word, if it stands here. -/
def afterWord? (word t : Text) : Option Text :=
  if word.isPrefixOf t then some (t.drop word.length) else none

/-- A value that holds no other. -/
def scalar? (t : Text) : Option (Json × Text) :=
  match t with
  | .char '\x22' :: rest => (text? rest).map (fun (s, rest) => (str s, rest))
  | .char 'n' :: rest => (afterWord? "ull" rest).map (null, ·)
  | .char 't' :: rest => (afterWord? "rue" rest).map (bool true, ·)
  | .char 'f' :: rest => (afterWord? "alse" rest).map (bool false, ·)
  | .char 'N' :: rest => (afterWord? "aN" rest).map (float .nan, ·)
  | .char 'I' :: rest => (afterWord? "nfinity" rest).map (float (.infinite false), ·)
  | .char '-' :: rest =>
    match afterWord? "Infinity" rest with
    | some rest => some (float (.infinite true), rest)
    | none => number true rest
  | _ => number false t

/-- What a reader found, or that there is no document. -/
def orNoDocument {α : Type} : Option α → Except Unreadable α
  | some a => .ok a
  | none => .error .noDocument

mutual

/-- **A value at the front of the text**, its containers nested `depth` deep
at most. -/
def readValue : Nat → Nat → Text → Except Unreadable (Json × Text)
  | 0, _, _ => .error .noDocument
  | fuel + 1, depth, t =>
    match t, depth with
    | .char '[' :: _, 0 => .error .tooDeep
    | .char '\x7b' :: _, 0 => .error .tooDeep
    | .char '[' :: rest, depth + 1 =>
      match skipSpace rest with
      | .char ']' :: rest => .ok (arr [], rest)
      | rest => (readItems fuel depth rest).map (fun (xs, rest) => (arr xs, rest))
    | .char '\x7b' :: rest, depth + 1 =>
      match skipSpace rest with
      | .char '\x7d' :: rest => .ok (obj [], rest)
      | rest =>
        (readFields fuel depth rest).map (fun (ps, rest) => (obj (Fields.ofPairs ps), rest))
    | _, _ => orNoDocument (scalar? t)

/-- The items of a list up to its bracket. -/
def readItems : Nat → Nat → Text → Except Unreadable (List Json × Text)
  | 0, _, _ => .error .noDocument
  | fuel + 1, depth, t => do
    let (x, rest) ← readValue fuel depth t
    match skipSpace rest with
    | .char ']' :: rest => return ([x], rest)
    | .char ',' :: rest =>
      let (xs, rest) ← readItems fuel depth (skipSpace rest)
      return (x :: xs, rest)
    | _ => .error .noDocument

/-- The fields of an object up to its brace. -/
def readFields : Nat → Nat → Text → Except Unreadable (List (Text × Json) × Text)
  | 0, _, _ => .error .noDocument
  | fuel + 1, depth, t =>
    match t with
    | .char '\x22' :: rest => do
      let (k, rest) ← orNoDocument (text? rest)
      match skipSpace rest with
      | .char ':' :: rest =>
        let (v, rest) ← readValue fuel depth (skipSpace rest)
        match skipSpace rest with
        | .char '\x7d' :: rest => return ([(k, v)], rest)
        | .char ',' :: rest =>
          let (ps, rest) ← readFields fuel depth (skipSpace rest)
          return ((k, v) :: ps, rest)
        | _ => .error .noDocument
      | _ => .error .noDocument
    | _ => .error .noDocument

end

/-- **The document a text holds**, nothing but white space around it. -/
def parse (t : Text) : Except Unreadable Json := do
  let (v, rest) ← readValue (t.length + 1) maxDepth (skipSpace t)
  if (skipSpace rest).isEmpty then return v else .error .noDocument

/-- The document a text holds, if it holds one. -/
def parse? (t : Text) : Option Json :=
  (parse t).toOption

end Json
end Rollout
