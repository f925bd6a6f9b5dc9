import Mathlib.Data.List.Induction
import Rollout.Proofs.Program.Path

/-!
# What a program may do, and when

Much of what is asked of a program is about order: that something is not done before
something else was, or not twice. A rule for that looks at what has been done so far –
what was noted down, what was asked and what the answers were – and says what may be
asked next. A program keeps to the rule (`Program.Obeys`) if it never asks anything else,
whatever it is answered, and ends only as it may.

The rule is checked along the program, part by part (`Program.Obeys.attempt`,
`Program.Obeys.bind`), and then holds of every path (`Program.Obeys.of_path`). What the
answers are assumed to be like can be a part of the rule, since the answers are in the
past that it looks at.
-/

namespace Rollout
namespace Program

variable {Q : Type} {A : Q → Type} {α β : Type}

/-- The questions of a kind among some steps. -/
def questions (P : Q → Bool) (t : List (Step Q A)) : List Q :=
  (t.filterMap Step.question?).filter P

section Questions

variable {P : Q → Bool} {t t' : List (Step Q A)}

@[simp] theorem questions_append : questions P (t ++ t') = questions P t ++ questions P t' := by
  rw [questions, List.filterMap_append, List.filter_append]
  rfl

@[simp] theorem questions_noted (n : Note) : questions P [(.noted n : Step Q A)] = [] := rfl

theorem questions_asked (q : Q) (a : A q) :
    questions P [.asked q a] = if P q then [q] else [] :=
  List.filter_cons

/-- A question of the kind was asked in one of the steps. -/
theorem mem_questions_iff {q : Q} : q ∈ questions P t ↔ P q = true ∧ ∃ a, .asked q a ∈ t := by
  rw [questions, List.mem_filter, List.mem_filterMap, and_comm]
  refine and_congr_right fun _ => ⟨?_, ?_⟩
  · rintro ⟨step, hstep, hq⟩
    cases step with
    | noted n => cases hq
    | asked q' a =>
      cases hq
      exact ⟨a, hstep⟩
  · rintro ⟨a, ha⟩
    exact ⟨_, ha, rfl⟩

end Questions

/-! ## Steps that were permitted -/

/-- **Everything that was asked might be asked** after what had been done before. -/
def Permitted (may : List (Step Q A) → Q → Prop) (t : List (Step Q A)) : Prop :=
  ∀ before q a after, t = before ++ .asked q a :: after → may before q

section Permitted

variable {may : List (Step Q A) → Q → Prop} {t : List (Step Q A)}

theorem permitted_nil : Permitted may [] := by
  intro before q a after h
  simp at h

/-- What comes last is permitted if it is a note, or may be asked after all the rest. -/
theorem Permitted.concat (h : Permitted may t) {x : Step Q A}
    (hx : ∀ q a, x = .asked q a → may t q) : Permitted may (t ++ [x]) := by
  intro before q a after heq
  cases after using List.reverseRecOn with
  | nil =>
    obtain ⟨rfl, hlast⟩ := List.append_inj' heq rfl
    exact hx q a (List.cons.inj hlast).1
  | append_singleton after y =>
    rw [← List.cons_append, ← List.append_assoc] at heq
    exact h before q a after (List.append_inj' heq rfl).1

theorem Permitted.noted (h : Permitted may t) (n : Note) : Permitted may (t ++ [.noted n]) :=
  h.concat nofun

theorem Permitted.asked (h : Permitted may t) {q : Q} (hq : may t q) (a : A q) :
    Permitted may (t ++ [.asked q a]) := by
  refine h.concat fun q' a' heq => ?_
  cases heq
  exact hq

/-- **What may only be asked first is asked at most once.** -/
theorem Permitted.length_questions_le_one {P : Q → Bool} (h : Permitted may t)
    (hfirst : ∀ before q, may before q → P q = true → questions P before = []) :
    (questions P t).length ≤ 1 := by
  induction t using List.reverseRecOn with
  | nil => exact Nat.zero_le 1
  | append_singleton t x ih =>
    have ht : Permitted may t := fun before q a after heq =>
      h before q a (after ++ [x]) (by rw [heq, List.append_assoc, List.cons_append])
    rw [questions_append]
    cases x with
    | noted n =>
      rw [questions_noted, List.append_nil]
      exact ih ht
    | asked q a =>
      rw [questions_asked]
      split
      · rename_i hq
        rw [hfirst t q (h t q a [] rfl) hq]
        exact Nat.le_refl 1
      · rw [List.append_nil]
        exact ih ht

end Permitted

/-! ## Programs that keep to a rule -/

/-- **The program keeps to a rule**: whatever it is answered, it only asks what may be
asked after everything done before, and ends as it may end after that. -/
def Obeys (may : List (Step Q A) → Q → Prop) (ends : List (Step Q A) → Outcome α → Prop) :
    List (Step Q A) → Program Q A α → Prop
  | past, done r => ends past r
  | past, note n p => Obeys may ends (past ++ [.noted n]) p
  | past, ask q f => may past q ∧ ∀ a, Obeys may ends (past ++ [.asked q a]) (f a)

section Obeys

variable {may may' : List (Step Q A) → Q → Prop} {ends : List (Step Q A) → Outcome α → Prop}
  {ends' : List (Step Q A) → Outcome β → Prop} {past : List (Step Q A)} {p : Program Q A α}

/-- A rule that allows more is kept to as well, and what was done stays done. -/
theorem Obeys.mono {ends' : List (Step Q A) → Outcome α → Prop} (h : Obeys may ends past p)
    (hmay : ∀ past' q, past <+: past' → may past' q → may' past' q)
    (hends : ∀ past' r, past <+: past' → ends past' r → ends' past' r) :
    Obeys may' ends' past p := by
  induction p generalizing past with
  | done r => exact hends past r (List.prefix_refl _) h
  | note n p ih =>
    have hlonger := List.prefix_append past [.noted n]
    exact ih h (fun _ _ h => hmay _ _ (hlonger.trans h)) (fun _ _ h => hends _ _ (hlonger.trans h))
  | ask q f ih =>
    refine ⟨hmay past q (List.prefix_refl _) h.1, fun a => ?_⟩
    have hlonger := List.prefix_append past [.asked q a]
    exact ih a (h.2 a) (fun _ _ h => hmay _ _ (hlonger.trans h))
      (fun _ _ h => hends _ _ (hlonger.trans h))

/-- **A program that goes on keeps to the rule** if its first part does, and then what
follows on whatever the first part may end with. -/
theorem Obeys.attempt {k : Outcome α → Program Q A β} (h : Obeys may ends past p)
    (hk : ∀ past' r, past <+: past' → ends past' r → Obeys may ends' past' (k r)) :
    Obeys may ends' past (attempt p k) := by
  induction p generalizing past with
  | done r => exact hk past r (List.prefix_refl _) h
  | note n p ih =>
    have hlonger := List.prefix_append past [.noted n]
    exact ih h fun _ _ h => hk _ _ (hlonger.trans h)
  | ask q f ih =>
    refine ⟨h.1, fun a => ?_⟩
    have hlonger := List.prefix_append past [.asked q a]
    exact ih a (h.2 a) fun _ _ h => hk _ _ (hlonger.trans h)

/-- A program that goes on with a result. -/
theorem Obeys.bind {k : α → Program Q A β} (h : Obeys may ends past p)
    (hok : ∀ past' a, past <+: past' → ends past' (.ok a) → Obeys may ends' past' (k a))
    (herror : ∀ past' e, past <+: past' → ends past' (.error e) → ends' past' (.error e)) :
    Obeys may ends' past (p >>= k) := by
  refine Obeys.attempt h fun past' r hlonger hr => ?_
  cases r with
  | ok a => exact hok past' a hlonger hr
  | error e => exact herror past' e hlonger hr

/-- Where no question of a kind may be asked, none is. -/
theorem Obeys.questions_eq {P : Q → Bool} (h : Obeys may ends past p)
    (hmay : ∀ past' q, may past' q → P q = false) :
    Obeys may (fun past' r => questions P past' = questions P past ∧ ends past' r) past p := by
  induction p generalizing past with
  | done r => exact ⟨rfl, h⟩
  | note n p ih =>
    have hsame : questions P (past ++ [.noted n]) = questions P past := by
      rw [questions_append, questions_noted, List.append_nil]
    rw [← hsame]
    exact ih h
  | ask q f ih =>
    refine ⟨h.1, fun a => ?_⟩
    have hsame : questions P (past ++ [.asked q a]) = questions P past := by
      rw [questions_append, questions_asked, hmay past q h.1]
      exact List.append_nil _
    rw [← hsame]
    exact ih a (h.2 a)

/-- A computation on the way asks nothing. -/
theorem obeys_liftM_bind {x : Outcome α} {k : α → Program Q A β}
    (hok : ∀ a, x = .ok a → Obeys may ends' past (k a))
    (herror : ∀ e, x = .error e → ends' past (.error e)) :
    Obeys may ends' past (liftM x >>= k) := by
  cases x with
  | ok a => exact hok a rfl
  | error e => exact herror e rfl

/-- **What a program keeps to holds on all of its paths.** -/
theorem Obeys.of_path {t : List (Step Q A)} {r : Outcome α} (h : Obeys may ends past p)
    (hpath : Path p t r) (hpast : Permitted may past) :
    Permitted may (past ++ t) ∧ ends (past ++ t) r := by
  induction hpath generalizing past with
  | done r =>
    rw [List.append_nil]
    exact ⟨hpast, h⟩
  | note n _ ih =>
    rw [List.append_cons]
    exact ih h (hpast.noted n)
  | ask a _ ih =>
    rw [List.append_cons]
    exact ih (h.2 a) (hpast.asked h.1 a)

end Obeys

/-! ## Programs that ask some questions only -/

/-- **The program asks nothing but such questions.** -/
def Asks (P : Q → Prop) (p : Program Q A α) : Prop :=
  ∀ past, Obeys (fun _ q => P q) (fun _ _ => True) past p

section Asks

variable {P : Q → Prop}

theorem Asks.mono {P' : Q → Prop} {p : Program Q A α} (h : Asks P p) (hP : ∀ q, P q → P' q) :
    Asks P' p :=
  fun past => (h past).mono (fun _ q _ hq => hP q hq) fun _ _ _ _ => trivial

theorem asks_done (r : Outcome α) : Asks P (done r : Program Q A α) :=
  fun _ => trivial

theorem Asks.note {p : Program Q A α} (n : Note) (h : Asks P p) : Asks P (note n p) :=
  fun past => h (past ++ [.noted n])

theorem asks_ask {q : Q} {f : A q → Program Q A α} (hq : P q) (h : ∀ a, Asks P (f a)) :
    Asks P (ask q f) :=
  fun past => ⟨hq, fun a => h a (past ++ [.asked q a])⟩

theorem Asks.attempt {p : Program Q A α} {k : Outcome α → Program Q A β} (h : Asks P p)
    (hk : ∀ r, Asks P (k r)) : Asks P (attempt p k) :=
  fun past => (h past).attempt fun past' r _ _ => hk r past'

theorem Asks.bind {p : Program Q A α} {k : α → Program Q A β} (h : Asks P p)
    (hk : ∀ a, Asks P (k a)) : Asks P (p >>= k) := by
  refine h.attempt fun r => ?_
  cases r with
  | ok a => exact hk a
  | error e => exact asks_done _

theorem Asks.ite {c : Prop} [Decidable c] {p p' : Program Q A α} (h : Asks P p) (h' : Asks P p') :
    Asks P (if c then p else p') := by
  split
  · exact h
  · exact h'

/-- Notes ask nothing. -/
theorem asks_notes (ns : List Note) : Asks P (notes ns : Program Q A Unit) := by
  induction ns with
  | nil => exact asks_done _
  | cons n ns ih => exact ih.note n

end Asks

/-! ## Questions answered by programs -/

variable {Q' : Type} {A' : Q' → Type}

/-- **A rule is passed on** to the programs that answer. `tells` says what the questions
that are asked in the end tell of those that they answer. -/
theorem Obeys.through {answers : (q : Q) → Program Q' A' (A q)}
    {tells : List (Step Q A) → List (Step Q' A') → Prop}
    {may : List (Step Q A) → Q → Prop} {ends : List (Step Q A) → Outcome α → Prop}
    {may' : List (Step Q' A') → Q' → Prop}
    (hnoted : ∀ past past' n, tells past past' →
      tells (past ++ [.noted n]) (past' ++ [.noted n]))
    (hasked : ∀ past past' q, tells past past' → may past q →
      Obeys may' (fun past'' r => ∃ a, r = .ok a ∧ tells (past ++ [.asked q a]) past'') past'
        (answers q))
    {past : List (Step Q A)} {past' : List (Step Q' A')} {p : Program Q A α}
    (h : Obeys may ends past p) (htells : tells past past') :
    Obeys may' (fun past'' r => ∃ past, tells past past'' ∧ ends past r) past'
      (through answers p) := by
  induction p generalizing past past' with
  | done r => exact ⟨past, htells, h⟩
  | note n p ih => exact ih h (hnoted past past' n htells)
  | ask q f ih =>
    refine (hasked past past' q htells h.1).attempt fun past'' r _ hr => ?_
    obtain ⟨a, rfl, htells⟩ := hr
    exact ih a (h.2 a) htells

end Program
end Rollout
