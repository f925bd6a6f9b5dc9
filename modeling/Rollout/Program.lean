import Rollout.Error
import Rollout.Note

/-!
# Programs that ask

The parts of the library that talk to a cluster are not functions of the
cluster but programs: trees that end, note something down, or ask a question
and go on with the answer. What a program does for *every* behaviour of what
it talks to is then a statement about one tree, and what it does against a
given one is a run of the tree.

`Program.attempt` hands a program's result on whether it failed or not, and
everything else is made of it: sequencing goes on with a result only
(`Program.bind`), and `thenAlways` does something in either case.
`Program.through` answers the questions of one program by other programs.
-/

namespace Rollout

/-- **A program** with questions in `Q`, the answer to `q` in `A q` and a
result in `α`. -/
inductive Program (Q : Type) (A : Q → Type) (α : Type) where
  | done (result : Outcome α)
  | note (entry : Note) (rest : Program Q A α)
  | ask (question : Q) (resume : A question → Program Q A α)

namespace Program

variable {Q : Type} {A : Q → Type} {α β : Type}

/-- **Goes on with whatever the program ends with.** -/
def attempt : Program Q A α → (Outcome α → Program Q A β) → Program Q A β
  | done r, k => k r
  | note n p, k => note n (attempt p k)
  | ask q f, k => ask q (fun a => attempt (f a) k)

/-- Ends at once with an outcome. -/
def ofOutcome (r : Outcome α) : Program Q A α := done r

/-- Ends with a failure. -/
def fail (e : RolloutError) : Program Q A α := done (Outcome.fail e)

/-- **Goes on with the result**, unless the program failed. -/
def bind (p : Program Q A α) (k : α → Program Q A β) : Program Q A β :=
  attempt p fun r =>
    match r with
    | .ok a => k a
    | .error e => done (.error e)

instance : Monad (Program Q A) where
  pure a := done (.ok a)
  bind := bind

instance : MonadLift Outcome (Program Q A) where
  monadLift := ofOutcome

/-- Asks and ends with the answer. -/
def question (q : Q) : Program Q A (A q) :=
  ask q (fun a => done (.ok a))

/-- Writes a line into the log. -/
def log (component event : Text) (level : Level) (fields : Fields Json) : Program Q A Unit :=
  note (.log ⟨component, event, level, fields⟩) (done (.ok ()))

/-- Counts one more. -/
def count (c : Counter) : Program Q A Unit :=
  note (.count c) (done (.ok ()))

/-- Notes down everything in a list. -/
def notes : List Note → Program Q A Unit
  | [] => done (.ok ())
  | n :: ns => note n (notes ns)

/-- **Whatever happens, `last` is done**, and then the program ends as it
did. A failure of `last` takes the place of the result. -/
def thenAlways (p : Program Q A α) (last : Program Q A Unit) : Program Q A α :=
  attempt p fun r => bind last fun _ => done r

/-- **The questions of a program answered by other programs.** -/
def through {Q' : Type} {A' : Q' → Type} (answer : (q : Q) → Program Q' A' (A q)) :
    Program Q A α → Program Q' A' α
  | done r => done r
  | note n p => note n (through answer p)
  | ask q f => bind (answer q) (fun a => through answer (f a))

/-- What a run came to: its result, the state it left, what it noted down
and what it asked, in order. -/
structure Run (Q σ α : Type) where
  result : Outcome α
  state : σ
  notes : List Note
  asked : List Q

/-- **A program run** against something that answers and changes. -/
def run {σ : Type} (answer : σ → (q : Q) → A q × σ) : Program Q A α → σ → Run Q σ α
  | done r, s => ⟨r, s, [], []⟩
  | note n p, s =>
    let after := run answer p s
    { after with notes := n :: after.notes }
  | ask q f, s =>
    let (a, s') := answer s q
    let after := run answer (f a) s'
    { after with asked := q :: after.asked }

@[simp] theorem attempt_done (r : Outcome α) (k : Outcome α → Program Q A β) :
    attempt (done r) k = k r := rfl

@[simp] theorem attempt_note (n : Note) (p : Program Q A α) (k : Outcome α → Program Q A β) :
    attempt (note n p) k = note n (attempt p k) := rfl

@[simp] theorem attempt_ask (q : Q) (f : A q → Program Q A α) (k : Outcome α → Program Q A β) :
    attempt (ask q f) k = ask q (fun a => attempt (f a) k) := rfl

/-- **Going on twice is going on once.** -/
theorem attempt_attempt {γ : Type} (p : Program Q A α) (k : Outcome α → Program Q A β)
    (l : Outcome β → Program Q A γ) :
    attempt (attempt p k) l = attempt p (fun r => attempt (k r) l) := by
  induction p with
  | done r => rfl
  | note n p ih => simp [ih]
  | ask q f ih => simp [ih]

/-- **A run of a program that goes on** is a run of its first part and then a
run of what follows, in the state that was left. -/
theorem run_attempt {σ : Type} (answer : σ → (q : Q) → A q × σ) (p : Program Q A α)
    (k : Outcome α → Program Q A β) (s : σ) :
    run answer (attempt p k) s =
      let first := run answer p s
      let second := run answer (k first.result) first.state
      ⟨second.result, second.state, first.notes ++ second.notes, first.asked ++ second.asked⟩ := by
  induction p generalizing s with
  | done r => simp [run]
  | note n p ih => simp [run, ih]
  | ask q f ih => simp [run, ih]

/-- The laws of sequencing: ending at once does nothing, and going on twice
is going on once. -/
instance : LawfulMonad (Program Q A) :=
  LawfulMonad.mk' (Program Q A)
    (fun p => by
      show attempt p _ = p
      induction p with
      | done r => cases r <;> rfl
      | note n p ih => exact congrArg (note n) ih
      | ask q f ih => exact congrArg (ask q) (funext ih))
    (fun _ _ => rfl)
    (fun p k l => by
      show attempt (attempt p _) _ = attempt p _
      rw [attempt_attempt]
      congr 1
      funext r
      cases r <;> rfl)

end Program
end Rollout
