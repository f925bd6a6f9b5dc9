import Rollout.Proofs.Outcome
import Rollout.Proofs.Program.Discipline

/-!
# Programs that go alike

What is said of two runs – that they come to the same, although what they are answered is
not the same – is said of two programs first. They go alike (`Program.Alike`) if they ask
the same questions as long as their answers are related, and end as related; what they
note down is not compared. The relation between answers depends on the question, so that
most answers may have to be equal and a few may differ in a certain way.

One rule for each way to build a program carries this from the parts to the whole, and
programs that go alike come to the same against whatever answers alike
(`Program.Alike.run`).
-/

namespace Rollout
namespace Program

variable {Q σ : Type} {A : Q → Type} {α β γ δ : Type}

/-- **Programs that go alike**: they ask the same, whatever related answers they are given,
and end as related. -/
inductive Alike (R : (q : Q) → A q → A q → Prop) (S : Outcome α → Outcome β → Prop) :
    Program Q A α → Program Q A β → Prop where
  | done {r : Outcome α} {r' : Outcome β} : S r r' → Alike R S (.done r) (.done r')
  | note {p : Program Q A α} {p' : Program Q A β} (n n' : Note) :
      Alike R S p p' → Alike R S (.note n p) (.note n' p')
  | ask {q : Q} {f : A q → Program Q A α} {f' : A q → Program Q A β} :
      (∀ a a', R q a a' → Alike R S (f a) (f' a')) → Alike R S (.ask q f) (.ask q f')

/-- **Runs that come to the same**: they end as related, in the same state and after the
same questions. -/
structure Run.Same (S : Outcome α → Outcome β → Prop) (run : Run Q σ α) (run' : Run Q σ β) :
    Prop where
  result : S run.result run'.result
  state : run.state = run'.state
  asked : run.asked = run'.asked

variable {R : (q : Q) → A q → A q → Prop} {S : Outcome α → Outcome β → Prop}
  {S' : Outcome γ → Outcome δ → Prop} {T : α → β → Prop} {U : γ → δ → Prop}
  {p : Program Q A α} {p' : Program Q A β}

/-- Programs that go on alike go alike. -/
theorem Alike.attempt {k : Outcome α → Program Q A γ} {k' : Outcome β → Program Q A δ}
    (h : Alike R S p p') (hk : ∀ r r', S r r' → Alike R S' (k r) (k' r')) :
    Alike R S' (attempt p k) (attempt p' k') := by
  induction h with
  | done hr => exact hk _ _ hr
  | note n n' _ ih => exact .note n n' ih
  | ask _ ih => exact .ask ih

/-- Programs that go on with results alike. -/
theorem Alike.bind {k : α → Program Q A γ} {k' : β → Program Q A δ}
    (h : Alike R (Outcome.TellAlike T) p p')
    (hk : ∀ a b, T a b → Alike R (Outcome.TellAlike U) (k a) (k' b)) :
    Alike R (Outcome.TellAlike U) (p >>= k) (p' >>= k') := by
  refine h.attempt fun r r' hr => ?_
  cases hr with
  | ok hab => exact hk _ _ hab
  | error he => exact .done (.error he)

/-- A computation on the way tells alike. -/
theorem alike_liftM_bind {x : Outcome α} {y : Outcome β} {k : α → Program Q A γ}
    {k' : β → Program Q A δ} (h : Outcome.TellAlike T x y)
    (hk : ∀ a b, T a b → Alike R (Outcome.TellAlike U) (k a) (k' b)) :
    Alike R (Outcome.TellAlike U) (liftM x >>= k) (liftM y >>= k') :=
  Alike.bind (.done h) hk

/-- The same computation on the way. -/
theorem alike_self_bind (x : Outcome α) {k : α → Program Q A γ} {k' : α → Program Q A δ}
    (hk : ∀ a, Alike R (Outcome.TellAlike U) (k a) (k' a)) :
    Alike R (Outcome.TellAlike U) (liftM x >>= k) (liftM x >>= k') :=
  alike_liftM_bind (Outcome.tellAlike_refl x) fun a _ hab => hab ▸ hk a

/-- Programs that go on with the same result. -/
theorem Alike.bind_eq {p p' : Program Q A α} {k k' : α → Program Q A γ} (h : Alike R Eq p p')
    (hk : ∀ a, Alike R Eq (k a) (k' a)) : Alike R Eq (p >>= k) (p' >>= k') := by
  refine h.attempt fun r r' hr => ?_
  subst hr
  cases r with
  | ok a => exact hk a
  | error e => exact .done rfl

/-- Programs that note down as much and go on alike. -/
theorem alike_notes_bind {ns ns' : List Note} (hlength : ns.length = ns'.length)
    {k : Unit → Program Q A α} {k' : Unit → Program Q A β} (hk : Alike R S (k ()) (k' ())) :
    Alike R S (notes ns >>= k) (notes ns' >>= k') := by
  induction ns generalizing ns' with
  | nil =>
    cases ns' with
    | nil => exact hk
    | cons n' ns' => cases hlength
  | cons n ns ih =>
    cases ns' with
    | nil => cases hlength
    | cons n' ns' => exact .note n n' (ih (Nat.succ.inj hlength))

/-- **A program goes like itself** where answers to what it asks are only related if they
are the same. -/
theorem Asks.alike {P : Q → Prop} {p : Program Q A α} (h : Asks P p)
    (hR : ∀ q a a', P q → R q a a' → a = a') : Alike R (Outcome.TellAlike Eq) p p := by
  have hobeys := h []
  generalize ([] : List (Step Q A)) = past at hobeys
  clear h
  induction p generalizing past with
  | done r => exact .done (Outcome.tellAlike_refl r)
  | note n p ih => exact .note n n (ih _ hobeys)
  | ask q f ih =>
    refine .ask fun a a' ha => ?_
    obtain rfl := hR q a a' hobeys.1 ha
    exact ih a _ (hobeys.2 a)

/-! ## Runs of them -/

section Runs

variable {answer answer' : σ → (q : Q) → A q × σ}

/-- **Programs that go alike come to the same** against what answers alike and changes
alike. -/
theorem Alike.run (h : Alike R S p p')
    (hanswer : ∀ s q, R q (answer s q).1 (answer' s q).1 ∧ (answer s q).2 = (answer' s q).2)
    (s : σ) : Run.Same S (run answer p s) (run answer' p' s) := by
  induction h generalizing s with
  | done hr => exact ⟨hr, rfl, rfl⟩
  | note n n' _ ih => exact ⟨(ih s).result, (ih s).state, (ih s).asked⟩
  | @ask q f f' _ ih =>
    obtain ⟨ha, hs⟩ := hanswer s q
    simp only [Program.run]
    generalize answer s q = x at ha hs
    generalize answer' s q = x' at ha hs
    obtain ⟨a, s₁⟩ := x
    obtain ⟨a', s₁'⟩ := x'
    obtain rfl : s₁ = s₁' := hs
    have hsame := ih a a' ha s₁
    exact ⟨hsame.result, hsame.state, congrArg (q :: ·) hsame.asked⟩

/-- Runs that go on alike come to the same. -/
theorem Run.Same.attempt {s : σ} (h : Run.Same S (run answer p s) (run answer' p' s))
    {k : Outcome α → Program Q A γ} {k' : Outcome β → Program Q A δ}
    (hk : ∀ r r' s', S r r' → Run.Same S' (run answer (k r) s') (run answer' (k' r') s')) :
    Run.Same S' (run answer (Program.attempt p k) s) (run answer' (Program.attempt p' k') s) := by
  rw [run_attempt, run_attempt]
  generalize run answer p s = first at h
  generalize run answer' p' s = first' at h
  obtain ⟨r, s₁, _, asked⟩ := first
  obtain ⟨r', s₁', _, asked'⟩ := first'
  obtain ⟨hr, hs, hasked⟩ := h
  obtain rfl : s₁ = s₁' := hs
  obtain rfl : asked = asked' := hasked
  have hsame := hk r r' s₁ hr
  exact ⟨hsame.result, hsame.state, congrArg (asked ++ ·) hsame.asked⟩

/-- A first question that is answered in the same way. -/
theorem Run.same_ask {s : σ} {q : Q} {f : A q → Program Q A α} {f' : A q → Program Q A β}
    (hanswer : answer s q = answer' s q)
    (h : Run.Same S (run answer (f (answer s q).1) (answer s q).2)
      (run answer' (f' (answer s q).1) (answer s q).2)) :
    Run.Same S (run answer (.ask q f) s) (run answer' (.ask q f') s) := by
  simp only [Program.run, ← hanswer]
  exact ⟨h.result, h.state, congrArg (q :: ·) h.asked⟩

end Runs

end Program
end Rollout
