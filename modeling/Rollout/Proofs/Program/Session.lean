import Mathlib.Logic.Function.Basic
import Rollout.Proofs.Program.Discipline

/-!
# Programs side by side

Several programs talk to the same thing at the same time. One question at a time is
answered, whose it is and how it is answered – truly, say, or by a refusal – being up to
somebody else. A schedule lists these decisions (`Program.Session.after`), so that what
holds after every schedule holds however the programs are interleaved.

Each program knows only its own past. If all of them keep to rules about their own past,
an invariant of the whole has to be shown for questions that the rules allow and for
nothing else (`Program.Session.invariant`).
-/

namespace Rollout
namespace Program

variable {ι Q σ τ α : Type} {A : Q → Type} [DecidableEq ι]

/-- **Programs that run side by side**: the state of what they talk to, what is left of
each, and who has done what. -/
structure Session (ι Q : Type) (A : Q → Type) (σ α : Type) where
  state : σ
  left : ι → Program Q A α
  trace : List (ι × Step Q A)

/-- What one of them has done. -/
def stepsOf (trace : List (ι × Step Q A)) (i : ι) : List (Step Q A) :=
  (trace.filter (fun x => x.1 = i)).map Prod.snd

theorem stepsOf_concat_self (trace : List (ι × Step Q A)) (i : ι) (x : Step Q A) :
    stepsOf (trace ++ [(i, x)]) i = stepsOf trace i ++ [x] := by
  rw [stepsOf, List.filter_append, List.filter_cons, if_pos (decide_eq_true rfl), List.map_append]
  rfl

theorem stepsOf_concat_of_ne (trace : List (ι × Step Q A)) {i j : ι} (x : Step Q A) (h : i ≠ j) :
    stepsOf (trace ++ [(i, x)]) j = stepsOf trace j := by
  rw [stepsOf, List.filter_append, List.filter_cons, if_neg (by simpa using h), List.filter_nil,
    List.append_nil]
  rfl

theorem mem_stepsOf_iff {trace : List (ι × Step Q A)} {i : ι} {x : Step Q A} :
    x ∈ stepsOf trace i ↔ (i, x) ∈ trace := by
  rw [stepsOf, List.mem_map]
  constructor
  · rintro ⟨⟨j, y⟩, hmem, rfl⟩
    obtain ⟨hmem, hj⟩ := List.mem_filter.mp hmem
    rw [← of_decide_eq_true hj]
    exact hmem
  · exact fun hmem => ⟨(i, x), List.mem_filter.mpr ⟨hmem, decide_eq_true rfl⟩, rfl⟩

namespace Session

/-- Nobody has done anything yet. -/
def start (p : ι → Program Q A α) (s : σ) : Session ι Q A σ α :=
  ⟨s, p, []⟩

/-- **One turn**: `i` does one thing more, and if that is a question it is answered in the
way of the turn. -/
def turn (answer : τ → σ → (q : Q) → A q × σ) (c : Session ι Q A σ α) (i : ι) (way : τ) :
    Session ι Q A σ α :=
  match c.left i with
  | .done _ => c
  | .note n p => ⟨c.state, Function.update c.left i p, c.trace ++ [(i, .noted n)]⟩
  | .ask q f =>
    let (a, s) := answer way c.state q
    ⟨s, Function.update c.left i (f a), c.trace ++ [(i, .asked q a)]⟩

/-- **After a schedule**, which says turn by turn whose it is and of which way. -/
def after (answer : τ → σ → (q : Q) → A q × σ) (c : Session ι Q A σ α) :
    List (ι × τ) → Session ι Q A σ α
  | [] => c
  | (i, way) :: rest => after answer (c.turn answer i way) rest

variable {answer : τ → σ → (q : Q) → A q × σ} {may : ι → List (Step Q A) → Q → Prop}
  {ends : ι → List (Step Q A) → Outcome α → Prop} {c : Session ι Q A σ α}

/-- **Everybody keeps to their own rule**: they have done so far, and what is left of them
will go on so. -/
def Keeps (may : ι → List (Step Q A) → Q → Prop) (ends : ι → List (Step Q A) → Outcome α → Prop)
    (c : Session ι Q A σ α) : Prop :=
  ∀ i, Permitted (may i) (stepsOf c.trace i)
    ∧ Obeys (may i) (ends i) (stepsOf c.trace i) (c.left i)

theorem keeps_start {p : ι → Program Q A α} (h : ∀ i, Obeys (may i) (ends i) [] (p i)) (s : σ) :
    (start p s).Keeps may ends :=
  fun i => ⟨permitted_nil, h i⟩

/-- Somebody who keeps to the rule after one thing more, while the others stand still. -/
theorem Keeps.update (h : c.Keeps may ends) {i : ι} {x : Step Q A} {p : Program Q A α} {s : σ}
    (hpermitted : Permitted (may i) (stepsOf c.trace i ++ [x]))
    (hobeys : Obeys (may i) (ends i) (stepsOf c.trace i ++ [x]) p) :
    Keeps may ends (⟨s, Function.update c.left i p, c.trace ++ [(i, x)]⟩ : Session ι Q A σ α) := by
  intro j
  by_cases hj : i = j
  · subst hj
    show Permitted (may i) (stepsOf (c.trace ++ [(i, x)]) i)
      ∧ Obeys (may i) (ends i) (stepsOf (c.trace ++ [(i, x)]) i) (Function.update c.left i p i)
    rw [stepsOf_concat_self, Function.update_self]
    exact ⟨hpermitted, hobeys⟩
  · show Permitted (may j) (stepsOf (c.trace ++ [(i, x)]) j)
      ∧ Obeys (may j) (ends j) (stepsOf (c.trace ++ [(i, x)]) j) (Function.update c.left i p j)
    rw [stepsOf_concat_of_ne c.trace x hj, Function.update_of_ne (Ne.symm hj)]
    exact h j

/-- **One turn keeps an invariant** that notes keep, and questions that are allowed. -/
theorem invariant_turn {I : List (ι × Step Q A) → σ → Prop}
    (hnoted : ∀ trace s i n, I trace s → I (trace ++ [(i, .noted n)]) s)
    (hasked : ∀ trace s i q way, I trace s → may i (stepsOf trace i) q →
      I (trace ++ [(i, .asked q (answer way s q).1)]) (answer way s q).2)
    (hkeeps : c.Keeps may ends) (h : I c.trace c.state) (i : ι) (way : τ) :
    (c.turn answer i way).Keeps may ends
      ∧ I (c.turn answer i way).trace (c.turn answer i way).state := by
  obtain ⟨hpermitted, hobeys⟩ := hkeeps i
  unfold turn
  cases hleft : c.left i with
  | done r => exact ⟨hkeeps, h⟩
  | note n p =>
    rw [hleft] at hobeys
    exact ⟨hkeeps.update (hpermitted.noted n) hobeys, hnoted _ _ _ _ h⟩
  | ask q f =>
    rw [hleft] at hobeys
    exact ⟨hkeeps.update (hpermitted.asked hobeys.1 _) (hobeys.2 _),
      hasked _ _ _ _ _ h hobeys.1⟩

/-- **However programs are interleaved**, an invariant that notes keep, and questions that
are allowed, holds, and everybody has only asked what was allowed. -/
theorem invariant {I : List (ι × Step Q A) → σ → Prop}
    (hnoted : ∀ trace s i n, I trace s → I (trace ++ [(i, .noted n)]) s)
    (hasked : ∀ trace s i q way, I trace s → may i (stepsOf trace i) q →
      I (trace ++ [(i, .asked q (answer way s q).1)]) (answer way s q).2)
    (hkeeps : c.Keeps may ends) (h : I c.trace c.state) (schedule : List (ι × τ)) :
    (c.after answer schedule).Keeps may ends
      ∧ I (c.after answer schedule).trace (c.after answer schedule).state := by
  induction schedule generalizing c with
  | nil => exact ⟨hkeeps, h⟩
  | cons t rest ih =>
    obtain ⟨hkeeps, h⟩ := invariant_turn hnoted hasked hkeeps h t.1 t.2
    exact ih hkeeps h

end Session

end Program
end Rollout
