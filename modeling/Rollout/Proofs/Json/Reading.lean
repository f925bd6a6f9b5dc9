import Rollout.Proofs.Json.Numeral

/-!
# The steps of a reader

What the three readers of values do in one call, as a relation between the text
and what is found. Everything else about reading is an induction on the calls with
these steps: that a written document is found again, and that whatever is found is
a document that can be written.
-/

namespace Rollout
namespace Json

/-- **The text starts as a value does**: neither with a blank nor with what closes
a list or an object. -/
def StartsValue (t : Text) : Prop :=
  ∃ c u, t = .char c :: u ∧ isSpace c = false ∧ c ≠ ']' ∧ c ≠ '\x7d'

theorem StartsValue.skipSpace {t : Text} (h : StartsValue t) : Json.skipSpace t = t := by
  obtain ⟨c, u, rfl, hc, -⟩ := h
  exact List.dropWhile_cons_of_neg (by rw [CodePoint.is, hc]; exact Bool.false_ne_true)

theorem StartsValue.ne_bracket {t : Text} (h : StartsValue t) (u : Text) : t ≠ .char ']' :: u := by
  obtain ⟨c, v, rfl, -, hc, -⟩ := h
  exact fun heq => hc (CodePoint.char.inj (List.cons.inj heq).1)

theorem startsValue_of_isDigit {c : Char} (h : c.isDigit = true) (u : Text) :
    StartsValue (.char c :: u) := by
  refine ⟨c, u, rfl, ?_, ?_, ?_⟩
  · unfold isSpace
    by_contra hs
    rw [Bool.not_eq_false, Bool.or_eq_true, Bool.or_eq_true, Bool.or_eq_true] at hs
    rcases hs with ((hs | hs) | hs) | hs <;>
      exact absurd (beq_iff_eq.mp hs ▸ h) (by decide)
  · rintro rfl
    exact absurd h (by decide)
  · rintro rfl
    exact absurd h (by decide)

/-- A digit opens no list and no object. -/
theorem ne_open_of_isDigit {c : Char} (h : c.isDigit = true) (t u : Text) :
    CodePoint.char c :: t ≠ .char '[' :: u ∧ CodePoint.char c :: t ≠ .char '\x7b' :: u := by
  refine ⟨fun heq => ?_, fun heq => ?_⟩ <;>
  · rw [CodePoint.char.inj (List.cons.inj heq).1] at h
    exact absurd h (by decide)

/-- A scalar starts as a value does, and not with a bracket or a brace. -/
theorem startsValue_of_scalar? {t : Text} {r : Json × Text} (h : scalar? t = some r) :
    StartsValue t ∧ ∀ u, t ≠ .char '[' :: u ∧ t ≠ .char '\x7b' :: u := by
  unfold scalar? at h
  split at h
  all_goals try exact ⟨⟨_, _, rfl, by decide⟩, fun u => ⟨by simp, by simp⟩⟩
  obtain ⟨c, u, rfl, hc⟩ := exists_digit_of_number h
  exact ⟨startsValue_of_isDigit hc u, ne_open_of_isDigit hc u⟩

/-! ## Values -/

theorem readValue_scalar {t : Text} {r : Json × Text} (h : scalar? t = some r)
    (fuel depth : Nat) : readValue (fuel + 1) depth t = .ok r := by
  have hne := (startsValue_of_scalar? h).2
  unfold readValue
  split
  · exact absurd rfl (hne _).1
  · exact absurd rfl (hne _).2
  · exact absurd rfl (hne _).1
  · exact absurd rfl (hne _).2
  · rw [h]
    rfl

/-- **What a value is read as**: a list, an object or a scalar. -/
theorem cases_of_readValue {fuel depth : Nat} {t rest : Text} {j : Json}
    (h : readValue (fuel + 1) depth t = .ok (j, rest)) :
    (∃ d u, depth = d + 1 ∧ t = .char '[' :: u
        ∧ (skipSpace u = .char ']' :: rest ∧ j = arr []
          ∨ ∃ xs, readItems fuel d (skipSpace u) = .ok (xs, rest) ∧ j = arr xs))
      ∨ (∃ d u, depth = d + 1 ∧ t = .char '\x7b' :: u
        ∧ (skipSpace u = .char '\x7d' :: rest ∧ j = obj []
          ∨ ∃ ps, readFields fuel d (skipSpace u) = .ok (ps, rest) ∧ j = obj (Fields.ofPairs ps)))
      ∨ scalar? t = some (j, rest) := by
  unfold readValue at h
  split at h
  · cases h
  · cases h
  · rename_i u d
    refine .inl ⟨d, u, rfl, rfl, ?_⟩
    split at h
    · rename_i heq
      cases h
      exact .inl ⟨heq, rfl⟩
    · cases hr : readItems fuel d (skipSpace u) with
      | error e => rw [hr] at h; cases h
      | ok r => rw [hr] at h; cases h; exact .inr ⟨_, rfl, rfl⟩
  · rename_i u d
    refine .inr (.inl ⟨d, u, rfl, rfl, ?_⟩)
    split at h
    · rename_i heq
      cases h
      exact .inl ⟨heq, rfl⟩
    · cases hr : readFields fuel d (skipSpace u) with
      | error e => rw [hr] at h; cases h
      | ok r => rw [hr] at h; cases h; exact .inr ⟨_, rfl, rfl⟩
  · refine .inr (.inr ?_)
    cases hs : scalar? t with
    | none => rw [hs] at h; cases h
    | some r => rw [hs] at h; cases h; rfl

/-- What is read as a value starts as one. -/
theorem startsValue_of_readValue {fuel depth : Nat} {t : Text} {r : Json × Text}
    (h : readValue fuel depth t = .ok r) : StartsValue t := by
  cases fuel with
  | zero => cases h
  | succ fuel =>
    obtain ⟨j, rest⟩ := r
    rcases cases_of_readValue h with ⟨d, u, -, rfl, -⟩ | ⟨d, u, -, rfl, -⟩ | h
    · exact ⟨_, _, rfl, by decide⟩
    · exact ⟨_, _, rfl, by decide⟩
    · exact (startsValue_of_scalar? h).1

/-- What is read as the items of a list starts as a value. -/
theorem startsValue_of_readItems {fuel depth : Nat} {t : Text} {r : List Json × Text}
    (h : readItems fuel depth t = .ok r) : StartsValue t := by
  cases fuel with
  | zero => cases h
  | succ fuel =>
    cases hr : readValue fuel depth t with
    | error e =>
      rw [readItems, hr] at h
      cases h
    | ok r' => exact startsValue_of_readValue hr

theorem readValue_emptyList (fuel depth : Nat) (t : Text) :
    readValue (fuel + 1) (depth + 1) (.char '[' :: .char ']' :: t) = .ok (arr [], t) :=
  rfl

theorem readValue_emptyObject (fuel depth : Nat) (t : Text) :
    readValue (fuel + 1) (depth + 1) (.char '\x7b' :: .char '\x7d' :: t) = .ok (obj [], t) :=
  rfl

/-- A list of the items that are read behind its bracket. -/
theorem readValue_list {fuel depth : Nat} {t rest : Text} {xs : List Json}
    (h : readItems fuel depth t = .ok (xs, rest)) :
    readValue (fuel + 1) (depth + 1) (.char '[' :: t) = .ok (arr xs, rest) := by
  have hstart := startsValue_of_readItems h
  unfold readValue
  simp only
  rw [hstart.skipSpace]
  split
  · exact absurd rfl (hstart.ne_bracket _)
  · rw [h]
    rfl

/-- An object of the fields that are read behind its brace. -/
theorem readValue_object {fuel depth : Nat} {t rest : Text} {ps : List (Text × Json)}
    (h : readFields fuel depth (.char '\x22' :: t) = .ok (ps, rest)) :
    readValue (fuel + 1) (depth + 1) (.char '\x7b' :: .char '\x22' :: t)
      = .ok (obj (Fields.ofPairs ps), rest) := by
  show (readFields fuel depth (.char '\x22' :: t)).map _ = _
  rw [h]
  rfl

/-! ## Items and fields -/

/-- **The items of a list** are a value and the end of the list, or a value, a comma
and the other items. -/
theorem readItems_eq_ok_iff {fuel depth : Nat} {t rest : Text} {xs : List Json} :
    readItems (fuel + 1) depth t = .ok (xs, rest)
      ↔ ∃ x u, readValue fuel depth t = .ok (x, u)
          ∧ (skipSpace u = .char ']' :: rest ∧ xs = [x]
            ∨ ∃ v ys, skipSpace u = .char ',' :: v
                ∧ readItems fuel depth (skipSpace v) = .ok (ys, rest) ∧ xs = x :: ys) := by
  rw [readItems]
  constructor
  · intro h
    cases hr : readValue fuel depth t with
    | error e => rw [hr] at h; cases h
    | ok r =>
      obtain ⟨x, u⟩ := r
      simp only [hr, bind, Except.bind] at h
      refine ⟨x, u, rfl, ?_⟩
      split at h
      · rename_i heq
        cases h
        exact .inl ⟨heq, rfl⟩
      · rename_i v heq
        cases hi : readItems fuel depth (skipSpace v) with
        | error e => rw [hi] at h; cases h
        | ok r => rw [hi] at h; cases h; exact .inr ⟨v, _, heq, hi, rfl⟩
      · cases h
  · rintro ⟨x, u, hr, ⟨heq, rfl⟩ | ⟨v, ys, heq, hi, rfl⟩⟩
    · simp only [hr, bind, Except.bind]
      rw [heq]
      rfl
    · simp only [hr, bind, Except.bind]
      rw [heq]
      simp only [hi]
      rfl

/-- **The fields of an object** are a name, a colon, a value and the end of the
object, or a comma and the other fields in the place of the end. -/
theorem readFields_eq_ok_iff {fuel depth : Nat} {t rest : Text} {ps : List (Text × Json)} :
    readFields (fuel + 1) depth t = .ok (ps, rest)
      ↔ ∃ t' k u u' v w, t = .char '\x22' :: t' ∧ text? t' = some (k, u)
          ∧ skipSpace u = .char ':' :: u' ∧ readValue fuel depth (skipSpace u') = .ok (v, w)
          ∧ (skipSpace w = .char '\x7d' :: rest ∧ ps = [(k, v)]
            ∨ ∃ w' qs, skipSpace w = .char ',' :: w'
                ∧ readFields fuel depth (skipSpace w') = .ok (qs, rest)
                ∧ ps = (k, v) :: qs) := by
  constructor
  · intro h
    unfold readFields at h
    split at h
    · rename_i t'
      cases hk : text? t' with
      | none => rw [hk] at h; cases h
      | some r =>
        obtain ⟨k, u⟩ := r
        simp only [hk, orNoDocument, bind, Except.bind] at h
        split at h
        · rename_i u' hcolon
          cases hv : readValue fuel depth (skipSpace u') with
          | error e => rw [hv] at h; cases h
          | ok r =>
            obtain ⟨v, w⟩ := r
            simp only [hv] at h
            refine ⟨t', k, u, u', v, w, rfl, hk, hcolon, hv, ?_⟩
            split at h
            · rename_i heq
              cases h
              exact .inl ⟨heq, rfl⟩
            · rename_i w' heq
              cases hi : readFields fuel depth (skipSpace w') with
              | error e => rw [hi] at h; cases h
              | ok r => rw [hi] at h; cases h; exact .inr ⟨w', _, heq, hi, rfl⟩
            · cases h
        · cases h
    · cases h
  · rintro ⟨t', k, u, u', v, w, rfl, hk, hcolon, hv, hend⟩
    unfold readFields
    simp only [hk, orNoDocument, hcolon, hv, bind, Except.bind]
    rcases hend with ⟨heq, rfl⟩ | ⟨w', qs, heq, hi, rfl⟩
    · rw [heq]
      rfl
    · rw [heq]
      simp only [hi]
      rfl

end Json
end Rollout
