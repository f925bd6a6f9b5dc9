import Rollout.Json.Parser
import Rollout.Json.Printer

/-!
# Documents as bytes

A document travels as bytes. Written, it is plain ASCII, one byte for each
character. Read, the bytes may be UTF-8, UTF-16 or UTF-32: a byte order mark
tells which, and without one the place of the zero bytes among the first
four does, since a document starts with an ASCII character. Bytes that are
no text in the encoding found are refused. The decoders let halves of
surrogate pairs through, each as the half it is; only UTF-16 joins two of
them.
-/

namespace Rollout

/-- A string of bytes. -/
abbrev Bytes := List UInt8

/-- The bytes of a string in UTF-8. -/
def Bytes.ofString (s : String) : Bytes :=
  s.toUTF8.toList

/-- How characters are laid out in bytes. -/
inductive Encoding where
  | utf8
  | utf16 (bigEndian : Bool)
  | utf32 (bigEndian : Bool)
deriving DecidableEq, Repr

namespace Encoding

/-- The byte order marks. The one of UTF-16 starts the one of UTF-32, which is looked for
first. -/
def marks : List (Bytes × Encoding) := [
  ([0x00, 0x00, 0xFE, 0xFF], .utf32 true),
  ([0xFF, 0xFE, 0x00, 0x00], .utf32 false),
  ([0xFE, 0xFF], .utf16 true),
  ([0xFF, 0xFE], .utf16 false),
  ([0xEF, 0xBB, 0xBF], .utf8)]

/-- The encoding that the zeros among the first bytes tell. -/
def ofZeros : Bytes → Encoding
  | a :: b :: c :: d :: _ =>
    if a == 0 then (if b == 0 then .utf32 true else .utf16 true)
    else if b == 0 then (if c == 0 && d == 0 then .utf32 false else .utf16 false)
    else .utf8
  | [a, b] => if a == 0 then .utf16 true else if b == 0 then .utf16 false else .utf8
  | _ => .utf8

/-- **The encoding of a document's bytes**, and the bytes behind the byte
order mark. -/
def detect (bs : Bytes) : Encoding × Bytes :=
  match marks.find? (fun m => m.1.isPrefixOf bs) with
  | some (mark, encoding) => (encoding, bs.drop mark.length)
  | none => (ofZeros bs, bs)

/-- The payload of a continuation byte. -/
def tail? (b : UInt8) : Option Nat :=
  if 0x80 ≤ b && b < 0xC0 then some (b.toNat - 0x80) else none

/-- The text of UTF-8. Every code point has its shortest form. -/
def decodeUtf8? : Bytes → Option Text
  | [] => some []
  | a :: rest =>
    if a < 0x80 then (decodeUtf8? rest).map (.ofValue a.toNat :: ·)
    else if a < 0xC2 then none
    else if a < 0xE0 then
      match rest with
      | b :: rest => do
        let b ← tail? b
        let cs ← decodeUtf8? rest
        return CodePoint.ofValue ((a.toNat - 0xC0) * 0x40 + b) :: cs
      | _ => none
    else if a < 0xF0 then
      match rest with
      | b :: c :: rest => do
        let b ← tail? b
        let c ← tail? c
        let n := ((a.toNat - 0xE0) * 0x40 + b) * 0x40 + c
        let cs ← decodeUtf8? rest
        if n < 0x800 then none else return CodePoint.ofValue n :: cs
      | _ => none
    else if a < 0xF5 then
      match rest with
      | b :: c :: d :: rest => do
        let b ← tail? b
        let c ← tail? c
        let d ← tail? d
        let n := (((a.toNat - 0xF0) * 0x40 + b) * 0x40 + c) * 0x40 + d
        let cs ← decodeUtf8? rest
        if n < 0x10000 || 0x110000 ≤ n then none else return CodePoint.ofValue n :: cs
      | _ => none
    else none

/-- Two bytes as a UTF-16 unit. -/
def unit16 (bigEndian : Bool) (a b : UInt8) : Nat :=
  if bigEndian then a.toNat * 0x100 + b.toNat else b.toNat * 0x100 + a.toNat

/-- The UTF-16 units of an even number of bytes. -/
def units16? (bigEndian : Bool) : Bytes → Option (List Nat)
  | [] => some []
  | [_] => none
  | a :: b :: rest => (units16? bigEndian rest).map (unit16 bigEndian a b :: ·)

/-- The text of UTF-16 units; halves that stand together are a pair. -/
def ofUnits (ns : List Nat) : Text :=
  Text.joined (ns.map CodePoint.ofValue)

/-- The text of UTF-32. -/
def decodeUtf32? (bigEndian : Bool) : Bytes → Option Text
  | [] => some []
  | a :: b :: c :: d :: rest => do
    let n :=
      if bigEndian then unit16 true a b * 0x10000 + unit16 true c d
      else unit16 false c d * 0x10000 + unit16 false a b
    let cs ← decodeUtf32? bigEndian rest
    if 0x110000 ≤ n then none else return CodePoint.ofValue n :: cs
  | _ => none

/-- The text that bytes stand for. -/
def decode? : Encoding → Bytes → Option Text
  | utf8, bs => decodeUtf8? bs
  | utf16 big, bs => (units16? big bs).map ofUnits
  | utf32 big, bs => decodeUtf32? big bs

end Encoding

namespace Json

/-- **A document as bytes**, in the compact form. Its integers are taken to
have no more digits than are read (`maxDigits`). -/
def encode (j : Json) : Bytes :=
  (written Separators.compact j).map (fun c => c.toNat.toUInt8)

/-- **The document that bytes hold.** -/
def decode (bs : Bytes) : Except Unreadable Json :=
  let (encoding, rest) := Encoding.detect bs
  match encoding.decode? rest with
  | some t => parse t
  | none => .error .noDocument

end Json
end Rollout
