import Rollout.Text.Basic

/-!
# Words that look alike

How close a word is to another: twice the number of characters in blocks
they share, against the characters of both. The blocks are found greedily:
the longest one first, of several the one that starts earliest in the first
word and then earliest in the second, and then the same to the left and to
the right of it.
-/

namespace Rollout

/-- How many characters two words share at their fronts. -/
def commonFront : Text → Text → Nat
  | a :: as, b :: bs => if a = b then commonFront as bs + 1 else 0
  | _, _ => 0

/-- The longest block that starts at the front of `a`, anywhere in `b`: its
place in `b` and its length. `j` is the place of `b`'s front. -/
def longestHere (a : Text) : Text → Nat → Nat × Nat
  | [], j => (j, 0)
  | b :: bs, j =>
    let here := commonFront a (b :: bs)
    let later := longestHere a bs (j + 1)
    if later.2 ≤ here then (j, here) else later

/-- **The longest block two words share**: its places in both and its
length. `i` is the place of `a`'s front. -/
def longestBlock : Text → Text → Nat → Nat × Nat × Nat
  | [], _, i => (i, 0, 0)
  | a :: as, b, i =>
    let here := longestHere (a :: as) b 0
    let later := longestBlock as b (i + 1)
    if later.2.2 ≤ here.2 then (i, here.1, here.2) else later

/-- The number of characters in shared blocks. The fuel bounds how often the
words are divided; a word cannot be divided more often than it has
characters. -/
def sharedCharacters : Nat → Text → Text → Nat
  | 0, _, _ => 0
  | fuel + 1, a, b =>
    let (i, j, n) := longestBlock a b 0
    if n = 0 then 0
    else
      sharedCharacters fuel (a.take i) (b.take j) + n +
        sharedCharacters fuel (a.drop (i + n)) (b.drop (j + n))

/-- How alike two words are, as a quotient. -/
def likeness (a b : Text) : Nat × Nat :=
  (2 * sharedCharacters a.length a b, a.length + b.length)

/-- **The choices that look like a word**, at least six tenths alike and the
three most alike at most, by their code points. -/
def lookalikes (word : Text) (choices : List Text) : List Text :=
  let scored := choices.map (fun c => (c, likeness c word))
  let close := scored.filter (fun s => 6 * s.2.2 ≤ 10 * s.2.1)
  let best := close.mergeSort (fun s t =>
    t.2.1 * s.2.2 < s.2.1 * t.2.2 || (t.2.1 * s.2.2 = s.2.1 * t.2.2 && t.1.le s.1))
  sortedTexts ((best.take 3).map Prod.fst)

end Rollout
