/-!
# Pieces of a text

A text cut at every occurrence of a code point, and the pieces put together
again. What the elements of the text are does not matter. Cutting never loses
a piece: a text with `n` cuts has `n + 1` pieces, empty ones among them, and
`join_pieces` says that putting them together gives the text back.
-/

namespace Rollout

variable {α : Type} [DecidableEq α]

/-- **The pieces of a text** between the occurrences of `sep`. -/
def pieces (sep : α) : List α → List (List α)
  | [] => [[]]
  | c :: cs =>
    if c = sep then [] :: pieces sep cs
    else
      match pieces sep cs with
      | [] => [[c]]
      | p :: ps => (c :: p) :: ps

/-- Pieces put together with `sep` between them. -/
def join (sep : α) : List (List α) → List α
  | [] => []
  | [p] => p
  | p :: q :: ps => p ++ sep :: join sep (q :: ps)

theorem pieces_ne_nil (sep : α) (cs : List α) : pieces sep cs ≠ [] := by
  cases cs with
  | nil => simp [pieces]
  | cons c cs =>
    simp only [pieces]
    split
    · simp
    · split <;> simp

/-- **Cutting loses nothing.** -/
theorem join_pieces (sep : α) (cs : List α) : join sep (pieces sep cs) = cs := by
  induction cs with
  | nil => rfl
  | cons c cs ih =>
    by_cases h : c = sep
    · subst h
      cases hp : pieces c cs with
      | nil => exact absurd hp (pieces_ne_nil c cs)
      | cons p ps => simpa [pieces, hp, join] using ih
    · cases hp : pieces sep cs with
      | nil => exact absurd hp (pieces_ne_nil sep cs)
      | cons p ps =>
        rw [hp] at ih
        cases ps with
        | nil => simpa [pieces, h, hp, join] using ih
        | cons q qs => simpa [pieces, h, hp, join] using ih

/-- A text without the separator is one piece. -/
theorem pieces_of_notMem {sep : α} {cs : List α} (h : sep ∉ cs) : pieces sep cs = [cs] := by
  induction cs with
  | nil => rfl
  | cons c cs ih =>
    simp only [List.mem_cons, not_or] at h
    simp [pieces, Ne.symm h.1, ih h.2]

/-- **Cutting goes through a separator**: the piece before it, and the pieces
behind it. -/
theorem pieces_append {sep : α} {cs : List α} (h : sep ∉ cs) (rest : List α) :
    pieces sep (cs ++ sep :: rest) = cs :: pieces sep rest := by
  induction cs with
  | nil => simp [pieces]
  | cons c cs ih =>
    simp only [List.mem_cons, not_or] at h
    simp [pieces, Ne.symm h.1, ih h.2]

/-- No piece holds the separator. -/
theorem notMem_of_mem_pieces {sep : α} {cs p : List α} (hp : p ∈ pieces sep cs) :
    sep ∉ p := by
  induction cs generalizing p with
  | nil => simp_all [pieces]
  | cons c cs ih =>
    simp only [pieces] at hp
    split at hp
    · rcases List.mem_cons.mp hp with rfl | hp
      · simp
      · exact ih hp
    · rename_i hc
      split at hp
      · rename_i hnil
        exact absurd hnil (pieces_ne_nil sep cs)
      · rename_i q qs hcs
        rw [hcs] at ih
        rcases List.mem_cons.mp hp with rfl | hp
        · simp only [List.mem_cons, not_or]
          exact ⟨Ne.symm hc, ih List.mem_cons_self⟩
        · exact ih (List.mem_cons_of_mem _ hp)

/-- **Pieces put together are cut again into the same pieces.** -/
theorem pieces_join {sep : α} {ps : List (List α)} (hne : ps ≠ [])
    (h : ∀ p ∈ ps, sep ∉ p) : pieces sep (join sep ps) = ps := by
  induction ps with
  | nil => exact absurd rfl hne
  | cons p ps ih =>
    cases ps with
    | nil => simpa [join] using pieces_of_notMem (h p List.mem_cons_self)
    | cons q qs =>
      rw [join, pieces_append (h p List.mem_cons_self),
        ih (by simp) (fun r hr => h r (List.mem_cons_of_mem _ hr))]

/-- The text up to the first `sep` and the text behind it, if there is
one. -/
def cut? (sep : α) : List α → Option (List α × List α)
  | [] => none
  | c :: cs =>
    if c = sep then some ([], cs)
    else (cut? sep cs).map (fun (a, b) => (c :: a, b))

/-- **A text is cut at its first separator.** -/
theorem cut?_append {sep : α} {a : List α} (h : sep ∉ a) (b : List α) :
    cut? sep (a ++ sep :: b) = some (a, b) := by
  induction a with
  | nil => simp [cut?]
  | cons c a ih =>
    simp only [List.mem_cons, not_or] at h
    simp [cut?, Ne.symm h.1, ih h.2]

/-- A text without the separator is not cut. -/
theorem cut?_eq_none {sep : α} {cs : List α} (h : sep ∉ cs) : cut? sep cs = none := by
  induction cs with
  | nil => rfl
  | cons c cs ih =>
    simp only [List.mem_cons, not_or] at h
    simp [cut?, Ne.symm h.1, ih h.2]

/-- The text up to the last `sep` and the text behind it, if there is
one. -/
def cutLast? (sep : α) : List α → Option (List α × List α)
  | [] => none
  | c :: cs =>
    match cutLast? sep cs with
    | some (a, b) => some (c :: a, b)
    | none => if c = sep then some ([], cs) else none

/-- A text without the separator has no last one. -/
theorem cutLast?_eq_none {sep : α} {cs : List α} (h : sep ∉ cs) :
    cutLast? sep cs = none := by
  induction cs with
  | nil => rfl
  | cons c cs ih =>
    simp only [List.mem_cons, not_or] at h
    simp [cutLast?, Ne.symm h.1, ih h.2]

/-- **A text is cut at its last separator.** -/
theorem cutLast?_append {sep : α} (a : List α) {b : List α} (h : sep ∉ b) :
    cutLast? sep (a ++ sep :: b) = some (a, b) := by
  induction a with
  | nil => simp [cutLast?, cutLast?_eq_none h]
  | cons c a ih => simp [cutLast?, ih]

end Rollout
