import Rollout.Json.Basic

/-!
# Equality of documents

Two documents are the same (`Json.same`) when they hold the same values: a
number equals a number of the same value whatever its type, truth values
count as one and zero, lists are compared item by item and objects by name,
whatever the order of their fields.

A NaN inside a list or an object is the same as any other NaN there, but a
NaN compared on its own is equal to nothing (`Json.eqv`). The two notions
differ in that case alone.
-/

namespace Rollout
namespace Json

/-- The number a value counts as in a comparison. -/
def number? : Json → Option (Int ⊕ Binary64)
  | bool b => some (.inl (if b then 1 else 0))
  | int i => some (.inl i)
  | float x => some (.inr x)
  | _ => none

/-- Numbers of the same value, every NaN being the same. -/
def sameNumber : Int ⊕ Binary64 → Int ⊕ Binary64 → Bool
  | .inl i, .inl j => i == j
  | .inl i, .inr x => x.eqvInt i
  | .inr x, .inl i => x.eqvInt i
  | .inr .nan, .inr .nan => true
  | .inr x, .inr y => x.eqv y

/-- Sameness of two values that are no containers. -/
def sameScalar : Json → Json → Bool
  | null, null => true
  | str s, str t => s == t
  | a, b =>
    match a.number?, b.number? with
    | some x, some y => sameNumber x y
    | _, _ => false

mutual

/-- **The same value.** -/
def same : Json → Json → Bool
  | arr xs, arr ys => sameItems xs ys
  | obj fs, obj gs => fs.length == gs.length && sameFields fs gs
  | a, b => sameScalar a b

/-- The same items in the same order. -/
def sameItems : List Json → List Json → Bool
  | [], [] => true
  | x :: xs, y :: ys => same x y && sameItems xs ys
  | _, _ => false

/-- Every field is in the other object with the same value. -/
def sameFields : List (Text × Json) → List (Text × Json) → Bool
  | [], _ => true
  | (k, v) :: fs, gs =>
    (match Fields.get? gs k with
      | some w => same v w
      | none => false) && sameFields fs gs

end

/-- **Equality of two values on their own**: sameness, save that a NaN is
not equal to a NaN. -/
def eqv : Json → Json → Bool
  | float .nan, float .nan => false
  | a, b => same a b

/-- The value occurs in a list. -/
def isIn (x : Json) (xs : List Json) : Bool :=
  xs.any (same x)

end Json
end Rollout
