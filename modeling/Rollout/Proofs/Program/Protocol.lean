import Rollout.Proofs.Program.Path

/-!
# Protocols

Some rules for what a program may ask depend on little of what was done before: whether
something has been opened and not yet closed, or whether anything has failed. A *protocol*
says it with phases: what may be asked in a phase, and which phase each answer leads to.

That a program follows a protocol (`Program.Follows`) is checked along the program, part by
part, with the phases in which a part may end; then the steps of every path keep the
protocol (`Program.Follows.of_path`). A program whose questions are answered by programs
follows a protocol of theirs, if each answer leads from a phase that stands for one of the
program's to a phase that does (`Program.Follows.through`).
-/

namespace Rollout
namespace Program

variable {Q : Type} {A : Q → Type} {α β σ : Type}

/-- **A protocol**: what may be asked in a phase, and the phase after an answer. -/
structure Protocol (Q : Type) (A : Q → Type) (σ : Type) where
  allows : σ → Q → Prop
  next : σ → (q : Q) → A q → σ

/-- **The steps keep a protocol** from a phase to another. -/
def Protocol.Kept (P : Protocol Q A σ) : σ → List (Step Q A) → σ → Prop
  | s, [], s' => s' = s
  | s, .noted _ :: t, s' => Kept P s t s'
  | s, .asked q a :: t, s' => P.allows s q ∧ Kept P (P.next s q a) t s'

/-- What was done first keeps the protocol, and so does the rest from there. -/
theorem Protocol.kept_append_iff {P : Protocol Q A σ} {s s'' : σ} {t t' : List (Step Q A)} :
    P.Kept s (t ++ t') s'' ↔ ∃ s', P.Kept s t s' ∧ P.Kept s' t' s'' := by
  induction t generalizing s with
  | nil => exact ⟨fun h => ⟨s, rfl, h⟩, fun ⟨_, rfl, h⟩ => h⟩
  | cons x t ih =>
    cases x with
    | noted n => exact ih
    | asked q a =>
      show P.allows s q ∧ P.Kept (P.next s q a) (t ++ t') s'' ↔ _
      rw [ih]
      exact ⟨fun ⟨hq, s', h, h'⟩ => ⟨s', ⟨hq, h⟩, h'⟩, fun ⟨s', ⟨hq, h⟩, h'⟩ => ⟨hq, s', h, h'⟩⟩

/-- **The program follows a protocol** from a phase: whatever it is answered, it only asks
what may be asked in the phase that it is in, and ends in a phase as it may end there. -/
def Follows (P : Protocol Q A σ) (ends : σ → Outcome α → Prop) : σ → Program Q A α → Prop
  | s, done r => ends s r
  | s, note _ p => Follows P ends s p
  | s, ask q f => P.allows s q ∧ ∀ a, Follows P ends (P.next s q a) (f a)

section Follows

variable {P : Protocol Q A σ} {ends : σ → Outcome α → Prop} {ends' : σ → Outcome β → Prop}
  {s : σ} {p : Program Q A α}

theorem Follows.mono {ends' : σ → Outcome α → Prop} (h : Follows P ends s p)
    (hends : ∀ s r, ends s r → ends' s r) : Follows P ends' s p := by
  induction p generalizing s with
  | done r => exact hends s r h
  | note n p ih => exact ih h
  | ask q f ih => exact ⟨h.1, fun a => ih a (h.2 a)⟩

/-- **A program that goes on follows the protocol** if its first part does, and then what
follows from wherever the first part may end. -/
theorem Follows.attempt {k : Outcome α → Program Q A β} (h : Follows P ends s p)
    (hk : ∀ s r, ends s r → Follows P ends' s (k r)) : Follows P ends' s (attempt p k) := by
  induction p generalizing s with
  | done r => exact hk s r h
  | note n p ih => exact ih h
  | ask q f ih => exact ⟨h.1, fun a => ih a (h.2 a)⟩

/-- A program that goes on with a result. -/
theorem Follows.bind {k : α → Program Q A β} (h : Follows P ends s p)
    (hok : ∀ s a, ends s (.ok a) → Follows P ends' s (k a))
    (herror : ∀ s e, ends s (.error e) → ends' s (.error e)) : Follows P ends' s (p >>= k) := by
  refine h.attempt fun s r hr => ?_
  cases r with
  | ok a => exact hok s a hr
  | error e => exact herror s e hr

/-- Notes ask nothing. -/
theorem Follows.notes_bind {k : Unit → Program Q A α} (h : Follows P ends s (k ()))
    (ns : List Note) : Follows P ends s (notes ns >>= k) := by
  induction ns with
  | nil => exact h
  | cons n ns ih => exact ih

/-- **What a program follows is kept on all of its paths.** -/
theorem Follows.of_path {t : List (Step Q A)} {r : Outcome α} (h : Follows P ends s p)
    (hpath : Path p t r) : ∃ s', P.Kept s t s' ∧ ends s' r := by
  induction hpath generalizing s with
  | done r => exact ⟨s, rfl, h⟩
  | note n _ ih => exact ih h
  | ask a _ ih =>
    obtain ⟨s', hkept, hends⟩ := ih (h.2 a)
    exact ⟨s', ⟨h.1, hkept⟩, hends⟩

/-- **A protocol is passed on** to the programs that answer. `stands` says which phases of
theirs stand for which phases of the program's. -/
theorem Follows.through {Q' : Type} {A' : Q' → Type} {σ' : Type} {P' : Protocol Q' A' σ'}
    {answers : (q : Q) → Program Q' A' (A q)} {stands : σ → σ' → Prop}
    (hasked : ∀ s s' q, stands s s' → P.allows s q →
      Follows P' (fun s'' r => ∃ a, r = .ok a ∧ stands (P.next s q a) s'') s' (answers q))
    {s' : σ'} (h : Follows P ends s p) (hstands : stands s s') :
    Follows P' (fun s'' r => ∃ s, stands s s'' ∧ ends s r) s' (through answers p) := by
  induction p generalizing s s' with
  | done r => exact ⟨s, hstands, h⟩
  | note n p ih => exact ih h hstands
  | ask q f ih =>
    refine (hasked s s' q hstands h.1).attempt fun s'' r hr => ?_
    obtain ⟨a, rfl, hstands⟩ := hr
    exact ih a (h.2 a) hstands

end Follows

end Program
end Rollout
