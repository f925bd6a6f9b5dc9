import Rollout.Program

/-!
# What a run comes to

A run of a program is put together from runs of its parts: `Program.EndsIn` says how
a program ends, in which state it leaves what it talks to and what it asked on the way,
and is silent about what it noted down. One rule for each way to build a program
carries the statement from the parts to the whole.

A program whose questions are answered by other programs runs as it would against an
answerer that runs those (`Program.run_through`), so that it can be followed without
looking at how it is answered.
-/

namespace Rollout
namespace Program

variable {Q : Type} {A : Q → Type} {α β σ : Type} {answer : σ → (q : Q) → A q × σ}

/-- **How a program ends**: with which result, in which state, after which questions. -/
def EndsIn (answer : σ → (q : Q) → A q × σ) (p : Program Q A α) (s : σ) (r : Outcome α) (s' : σ)
    (asked : List Q) : Prop :=
  ∃ notes, run answer p s = ⟨r, s', notes, asked⟩

theorem endsIn_run (p : Program Q A α) (s : σ) :
    EndsIn answer p s (run answer p s).result (run answer p s).state (run answer p s).asked :=
  ⟨(run answer p s).notes, rfl⟩

section Parts

variable {p : Program Q A α} {s s₁ s₂ : σ} {qs qs' : List Q}

theorem EndsIn.result {r : Outcome α} (h : EndsIn answer p s r s₁ qs) :
    (run answer p s).result = r := by
  obtain ⟨_, h⟩ := h
  rw [h]

theorem EndsIn.state {r : Outcome α} (h : EndsIn answer p s r s₁ qs) :
    (run answer p s).state = s₁ := by
  obtain ⟨_, h⟩ := h
  rw [h]

theorem EndsIn.asked {r : Outcome α} (h : EndsIn answer p s r s₁ qs) :
    (run answer p s).asked = qs := by
  obtain ⟨_, h⟩ := h
  rw [h]

theorem endsIn_done (r : Outcome α) (s : σ) : EndsIn answer (done r) s r s [] :=
  ⟨[], rfl⟩

theorem EndsIn.note {r : Outcome α} (n : Note) (h : EndsIn answer p s r s₁ qs) :
    EndsIn answer (note n p) s r s₁ qs := by
  obtain ⟨notes, h⟩ := h
  exact ⟨n :: notes, by rw [run, h]⟩

theorem EndsIn.ask {q : Q} {f : A q → Program Q A α} {r : Outcome α}
    (h : EndsIn answer (f (answer s q).1) (answer s q).2 r s₁ qs) :
    EndsIn answer (ask q f) s r s₁ (q :: qs) := by
  obtain ⟨notes, h⟩ := h
  refine ⟨notes, ?_⟩
  show (⟨(run answer (f (answer s q).1) (answer s q).2).result, _, _, q :: _⟩ : Run Q σ α) = _
  rw [h]

/-- **A program that goes on** ends as what it goes on with. -/
theorem EndsIn.attempt {k : Outcome α → Program Q A β} {r : Outcome α} {r' : Outcome β}
    (hp : EndsIn answer p s r s₁ qs) (hk : EndsIn answer (k r) s₁ r' s₂ qs') :
    EndsIn answer (attempt p k) s r' s₂ (qs ++ qs') := by
  obtain ⟨notes, hp⟩ := hp
  obtain ⟨notes', hk⟩ := hk
  refine ⟨notes ++ notes', ?_⟩
  rw [run_attempt, hp]
  show (⟨(run answer (k r) s₁).result, _, _, _⟩ : Run Q σ β) = _
  rw [hk]

/-- A program that goes on with a result. -/
theorem EndsIn.bind {k : α → Program Q A β} {a : α} {r' : Outcome β}
    (hp : EndsIn answer p s (.ok a) s₁ qs) (hk : EndsIn answer (k a) s₁ r' s₂ qs') :
    EndsIn answer (p >>= k) s r' s₂ (qs ++ qs') :=
  hp.attempt hk

/-- A program that failed does not go on. -/
theorem EndsIn.bind_error {k : α → Program Q A β} {e : Failure}
    (hp : EndsIn answer p s (.error e) s₁ qs) : EndsIn answer (p >>= k) s (.error e) s₁ qs := by
  show EndsIn answer (Program.bind p k) s (.error e) s₁ qs
  rw [Program.bind, ← List.append_nil qs]
  exact hp.attempt (endsIn_done (.error e) s₁)

/-- What is only noted down leads nowhere. -/
theorem EndsIn.log_bind {component event : Text} {level : Level} {fields : Fields Json}
    {k : Unit → Program Q A β} {r : Outcome β} (hk : EndsIn answer (k ()) s r s₁ qs) :
    EndsIn answer (log component event level fields >>= k) s r s₁ qs :=
  EndsIn.note _ hk

theorem EndsIn.count_bind {c : Counter} {k : Unit → Program Q A β} {r : Outcome β}
    (hk : EndsIn answer (k ()) s r s₁ qs) :
    EndsIn answer (count c >>= k) s r s₁ qs :=
  EndsIn.note _ hk

end Parts

/-- A computation in two steps, asked in either step for nothing. -/
theorem liftM_bind (x : Outcome α) (f : α → Outcome β) :
    (liftM (x >>= f) : Program Q A β) = (liftM x : Program Q A α) >>= fun a => liftM (f a) := by
  cases x <;> rfl

/-- Notes one after the other. -/
theorem notes_append_bind (ns ns' : List Note) (k : Unit → Program Q A α) :
    (notes (ns ++ ns') >>= k) = (notes ns >>= fun _ => notes ns' >>= k) := by
  induction ns with
  | nil => rfl
  | cons n ns ih => exact congrArg (note n) ih

/-! ## Questions answered by programs -/

variable {Q' : Type} {A' : Q' → Type}

/-- **A program that goes on is answered** part by part. -/
theorem through_bind (answers : (q : Q) → Program Q' A' (A q)) (p : Program Q A α)
    (k : α → Program Q A β) :
    through answers (p >>= k) = through answers p >>= fun a => through answers (k a) := by
  induction p with
  | done r => cases r <;> rfl
  | note n p ih => exact congrArg (note n) ih
  | ask q f ih =>
    show (answers q >>= fun a => through answers (f a >>= k)) = (answers q >>= _) >>= _
    rw [bind_assoc]
    exact congrArg _ (funext ih)

/-- Notes leave nothing to be answered. -/
theorem through_notes_bind (answers : (q : Q) → Program Q' A' (A q)) (ns : List Note)
    (k : Unit → Program Q A α) :
    through answers (notes ns >>= k) = (notes ns >>= fun _ => through answers (k ())) := by
  induction ns with
  | nil => rfl
  | cons n ns ih => exact congrArg (note n) ih

/-- **A program whose questions are answered by programs** runs as it would against an
answerer that runs them, and asks what they ask. -/
theorem run_through {answers : (q : Q) → Program Q' A' (A q)}
    {serve : σ → (q : Q') → A' q × σ} {reply : σ → (q : Q) → A q × σ} {calls : Q → List Q'}
    (h : ∀ s q, run serve (answers q) s = ⟨.ok (reply s q).1, (reply s q).2, [], calls q⟩)
    (p : Program Q A α) (s : σ) :
    run serve (through answers p) s =
      let r := run reply p s
      ⟨r.result, r.state, r.notes, r.asked.flatMap calls⟩ := by
  induction p generalizing s with
  | done r => rfl
  | note n p ih => rw [through, run, ih, run]
  | ask q f ih =>
    show run serve (attempt (answers q) _) s = _
    rw [run_attempt, h]
    simp only [ih, run, List.nil_append, List.flatMap_cons]

end Program
end Rollout
