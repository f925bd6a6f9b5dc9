import Rollout.Proofs.Program.Discipline

/-!
# Programs that change nothing

Where questions change nothing, each of them has one answer, and a program that asks no
others is a function of the answers: it comes to what is computed from them
(`Program.outcome`), however its parts are put together. A run of it comes to the same
(`Program.Asks.run_eq`).
-/

namespace Rollout
namespace Program

variable {Q σ : Type} {A : Q → Type} {α β : Type} {b : (q : Q) → A q}

/-- **What a program comes to** where each question has one answer. -/
def outcome (b : (q : Q) → A q) : Program Q A α → Outcome α
  | done r => r
  | note _ p => outcome b p
  | ask q f => outcome b (f (b q))

theorem outcome_attempt (p : Program Q A α) (k : Outcome α → Program Q A β) :
    outcome b (attempt p k) = outcome b (k (outcome b p)) := by
  induction p with
  | done r => rfl
  | note n p ih => exact ih
  | ask q f ih => exact ih (b q)

/-- **What a program comes to that goes on** is computed step by step. -/
@[simp] theorem outcome_bind (p : Program Q A α) (k : α → Program Q A β) :
    outcome b (p >>= k) = outcome b p >>= fun a => outcome b (k a) := by
  show outcome b (attempt p _) = _
  rw [outcome_attempt]
  cases outcome b p <;> rfl

@[simp] theorem outcome_liftM (x : Outcome α) : outcome b (liftM x : Program Q A α) = x :=
  rfl

/-- **A run of a program that changes nothing** comes to what is computed from the
answers. -/
theorem Asks.run_eq {P : Q → Prop} {p : Program Q A α} (h : Asks P p)
    {answer : σ → (q : Q) → A q × σ} {s : σ} (hanswer : ∀ q, P q → answer s q = (b q, s)) :
    (run answer p s).result = outcome b p := by
  have hobeys := h []
  generalize ([] : List (Step Q A)) = past at hobeys
  clear h
  induction p generalizing past with
  | done r => rfl
  | note n p ih => exact ih _ hobeys
  | ask q f ih =>
    simp only [run, hanswer q hobeys.1]
    exact ih (b q) _ (hobeys.2 (b q))

end Program
end Rollout
