import Rollout.Json.Basic
import Rollout.Text.SurrogatePair

/-!
# Documents read again

A document that is written and read comes back the same, but for its texts:
two halves of a surrogate pair that stand together are written as the
character they spell is, and read as that. Names can become equal in this
way, and then the last value stands at the first place, as with any name that
is written twice.
-/

namespace Rollout
namespace Json

mutual

/-- **The document that is read where this one was written.** -/
def reread : Json → Json
  | str s => str s.joined
  | arr items => arr (rereadItems items)
  | obj fields => obj (Fields.ofPairs (rereadFields fields))
  | j => j

/-- The items of a list, each read again. -/
def rereadItems : List Json → List Json
  | [] => []
  | x :: xs => reread x :: rereadItems xs

/-- The fields of an object as they are written, names and values read
again. -/
def rereadFields : List (Text × Json) → List (Text × Json)
  | [] => []
  | (k, v) :: fs => (k.joined, reread v) :: rereadFields fs

end

end Json

namespace Fields

/-- The fields of the object that is read where one with these was
written. -/
def reread (fs : Fields Json) : Fields Json :=
  ofPairs (Json.rereadFields fs)

end Fields
end Rollout
