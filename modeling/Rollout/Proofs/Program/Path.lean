import Rollout.Program

/-!
# What a program can do

A program fixes what it asks and not what it is answered. A *path* is one way
the conversation can go: what the program noted down, what it asked and what
it was told, in order, up to the result. Nothing is assumed about the answers,
so whatever holds on every path holds against everything the program may talk
to – and a run follows one of the paths (`Program.path_steps`).

A program that goes on takes a path of its first part and then one of what
follows (`Program.path_attempt_iff`), which is all that is ever needed to take
a path apart.
-/

namespace Rollout
namespace Program

variable {Q : Type} {A : Q → Type} {α β : Type}

/-- One thing a program does: it notes something down, or asks and is
answered. -/
inductive Step (Q : Type) (A : Q → Type) where
  | noted (entry : Note)
  | asked (question : Q) (answer : A question)

/-- The question of a step. -/
def Step.question? : Step Q A → Option Q
  | noted _ => none
  | asked q _ => some q

/-- **What was asked**, in order. -/
def questionsOf (t : List (Step Q A)) : List Q :=
  t.filterMap Step.question?

@[simp] theorem questionsOf_nil : questionsOf ([] : List (Step Q A)) = [] := rfl

@[simp] theorem questionsOf_noted (n : Note) (t : List (Step Q A)) :
    questionsOf (.noted n :: t) = questionsOf t := rfl

@[simp] theorem questionsOf_asked (q : Q) (a : A q) (t : List (Step Q A)) :
    questionsOf (.asked q a :: t) = q :: questionsOf t := rfl

@[simp] theorem questionsOf_append (t t' : List (Step Q A)) :
    questionsOf (t ++ t') = questionsOf t ++ questionsOf t' :=
  List.filterMap_append

@[simp] theorem questionsOf_map_noted (ns : List Note) :
    questionsOf (ns.map (Step.noted (A := A))) = [] := by
  rw [questionsOf, List.filterMap_map]
  exact List.filterMap_eq_nil_iff.mpr fun _ _ => rfl

/-- **A path of a program**: its steps and its result, for some answers. -/
inductive Path : Program Q A α → List (Step Q A) → Outcome α → Prop where
  | done (r : Outcome α) : Path (.done r) [] r
  | note {p : Program Q A α} {t : List (Step Q A)} {r : Outcome α} (n : Note) :
      Path p t r → Path (.note n p) (.noted n :: t) r
  | ask {q : Q} {f : A q → Program Q A α} {t : List (Step Q A)} {r : Outcome α} (a : A q) :
      Path (f a) t r → Path (.ask q f) (.asked q a :: t) r

@[simp] theorem path_done_iff {r r' : Outcome α} {t : List (Step Q A)} :
    Path (.done r) t r' ↔ t = [] ∧ r' = r := by
  constructor
  · intro h
    cases h
    exact ⟨rfl, rfl⟩
  · rintro ⟨rfl, rfl⟩
    exact .done _

theorem path_note_iff {n : Note} {p : Program Q A α} {t : List (Step Q A)} {r : Outcome α} :
    Path (.note n p) t r ↔ ∃ t', t = .noted n :: t' ∧ Path p t' r := by
  constructor
  · intro h
    cases h with
    | note n h => exact ⟨_, rfl, h⟩
  · rintro ⟨t', rfl, h⟩
    exact .note n h

theorem path_ask_iff {q : Q} {f : A q → Program Q A α} {t : List (Step Q A)} {r : Outcome α} :
    Path (.ask q f) t r ↔ ∃ a t', t = .asked q a :: t' ∧ Path (f a) t' r := by
  constructor
  · intro h
    cases h with
    | ask a h => exact ⟨a, _, rfl, h⟩
  · rintro ⟨a, t', rfl, h⟩
    exact .ask a h

/-- **A path of a program that goes on** is a path of its first part and then
one of what follows. -/
theorem path_attempt_iff {p : Program Q A α} {k : Outcome α → Program Q A β}
    {t : List (Step Q A)} {r : Outcome β} :
    Path (attempt p k) t r
      ↔ ∃ r₁ t₁ t₂, t = t₁ ++ t₂ ∧ Path p t₁ r₁ ∧ Path (k r₁) t₂ r := by
  induction p generalizing t with
  | done r₀ =>
    rw [attempt_done]
    constructor
    · intro h
      exact ⟨r₀, [], t, rfl, .done r₀, h⟩
    · rintro ⟨r₁, t₁, t₂, rfl, h₁, h₂⟩
      obtain ⟨rfl, rfl⟩ := path_done_iff.mp h₁
      exact h₂
  | note n p ih =>
    rw [attempt_note, path_note_iff]
    constructor
    · rintro ⟨t', rfl, h⟩
      obtain ⟨r₁, t₁, t₂, rfl, h₁, h₂⟩ := ih.mp h
      exact ⟨r₁, .noted n :: t₁, t₂, rfl, .note n h₁, h₂⟩
    · rintro ⟨r₁, t₁, t₂, rfl, h₁, h₂⟩
      obtain ⟨t', rfl, hp⟩ := path_note_iff.mp h₁
      exact ⟨t' ++ t₂, rfl, ih.mpr ⟨r₁, t', t₂, rfl, hp, h₂⟩⟩
  | ask q f ih =>
    rw [attempt_ask, path_ask_iff]
    constructor
    · rintro ⟨a, t', rfl, h⟩
      obtain ⟨r₁, t₁, t₂, rfl, h₁, h₂⟩ := (ih a).mp h
      exact ⟨r₁, .asked q a :: t₁, t₂, rfl, .ask a h₁, h₂⟩
    · rintro ⟨r₁, t₁, t₂, rfl, h₁, h₂⟩
      obtain ⟨a, t', rfl, hp⟩ := path_ask_iff.mp h₁
      exact ⟨a, t' ++ t₂, rfl, (ih a).mpr ⟨r₁, t', t₂, rfl, hp, h₂⟩⟩

/-- A path to a result goes through a result of the first part. -/
theorem path_bind_ok_iff {p : Program Q A α} {k : α → Program Q A β} {t : List (Step Q A)}
    {b : β} :
    Path (p >>= k) t (.ok b)
      ↔ ∃ a t₁ t₂, t = t₁ ++ t₂ ∧ Path p t₁ (.ok a) ∧ Path (k a) t₂ (.ok b) := by
  show Path (attempt p _) t (.ok b) ↔ _
  rw [path_attempt_iff]
  constructor
  · rintro ⟨r₁, t₁, t₂, rfl, h₁, h₂⟩
    cases r₁ with
    | ok a => exact ⟨a, t₁, t₂, rfl, h₁, h₂⟩
    | error e =>
      obtain ⟨-, h⟩ := path_done_iff.mp h₂
      exact absurd h (by simp)
  · rintro ⟨a, t₁, t₂, rfl, h₁, h₂⟩
    exact ⟨.ok a, t₁, t₂, rfl, h₁, h₂⟩

/-- What is noted down first comes first on the path. -/
theorem path_notes_bind_iff {ns : List Note} {k : Unit → Program Q A α} {t : List (Step Q A)}
    {r : Outcome α} :
    Path (notes ns >>= k) t r ↔ ∃ t', t = ns.map .noted ++ t' ∧ Path (k ()) t' r := by
  induction ns generalizing t with
  | nil => exact ⟨fun h => ⟨t, rfl, h⟩, fun ⟨_, ht, h⟩ => ht ▸ h⟩
  | cons n ns ih =>
    show Path (.note n (notes ns >>= k)) t r ↔ _
    rw [path_note_iff]
    constructor
    · rintro ⟨t₁, rfl, h⟩
      obtain ⟨t₂, rfl, hk⟩ := ih.mp h
      exact ⟨t₂, rfl, hk⟩
    · rintro ⟨t', rfl, h⟩
      exact ⟨_, rfl, ih.mpr ⟨t', rfl, h⟩⟩

/-! ## Runs -/

section Runs

variable {σ : Type} (answer : σ → (q : Q) → A q × σ)

/-- The steps of a run. -/
def steps : Program Q A α → σ → List (Step Q A)
  | done _, _ => []
  | note n p, s => .noted n :: steps p s
  | ask q f, s => .asked q (answer s q).1 :: steps (f (answer s q).1) (answer s q).2

/-- **A run follows a path** to what the run comes to. -/
theorem path_steps (p : Program Q A α) (s : σ) :
    Path p (steps answer p s) (run answer p s).result := by
  induction p generalizing s with
  | done r => exact .done r
  | note n p ih => exact .note n (ih s)
  | ask q f ih => exact .ask _ (ih _ _)

/-- Whoever was asked gave the answers of the steps. -/
theorem exists_eq_answer_of_mem_steps {p : Program Q A α} {s : σ} {q : Q} {a : A q}
    (h : .asked q a ∈ steps answer p s) : ∃ s', a = (answer s' q).1 := by
  induction p generalizing s with
  | done r => simp [steps] at h
  | note n p ih =>
    rcases List.mem_cons.mp h with h | h
    · cases h
    · exact ih h
  | ask q' f ih =>
    rcases List.mem_cons.mp h with h | h
    · cases h
      exact ⟨s, rfl⟩
    · exact ih _ h

end Runs

end Program
end Rollout
