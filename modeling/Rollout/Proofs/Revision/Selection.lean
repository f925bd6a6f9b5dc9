import Mathlib.Order.Bounds.Basic
import Rollout.Proofs.Revision.ByNumber

/-!
# The rules of selection

Which entry a target selects can be said without sorting anything. It depends on how many
entries carry a number and on how many exceed an entry, and `Revision.Chooses` says so, error by
error: a negative target names nothing; then the least number that repeats is refused, with the
names of all that carry it; then `previousTarget` takes the entry that a single other exceeds,
if there are two at all, and every other target takes the entry of its number, if there is one.

The choice made in the sorted history keeps these rules, and they leave no other choice, in
whatever order the history is listed (`Revision.selection_is_by_numbers`).
-/

namespace Rollout
namespace Revision

open Revisioned (revision name)
open Outcome (TellAlike)

variable {α : Type} [Revisioned α] {history history' all : List α} {n target : Int}

/-- The entries that carry a number. -/
def carriers (history : List α) (n : Int) : List α :=
  history.filter fun a => revision a = n

/-- **The least number that repeats.** -/
def IsFirstRepeated (history : List α) (n : Int) : Prop :=
  IsLeast {m | 2 ≤ (carriers history m).length} n

/-- **What a target selects.** The rules exclude one another: each asks for what those before it
leave open. -/
inductive Chooses (history : List α) (target : Int) : Outcome α → Prop where
  | negative (h : target < 0) : Chooses history target (Outcome.fail (.revisionNotFound target))
  | repeated {n : Int} {names : List Text} (h : 0 ≤ target) (hn : IsFirstRepeated history n)
      (hnames : names.Perm ((carriers history n).map name)) :
      Chooses history target (Outcome.fail (.duplicateRevision n names))
  | insufficient (h : target = previousTarget) (hd : Distinct history)
      (hlength : history.length < 2) :
      Chooses history target (Outcome.fail .insufficientHistory)
  | found {a : α} (h : 0 ≤ target) (hd : Distinct history) (ha : IsTarget history target a) :
      Chooses history target (.ok a)
  | missing (h : 0 < target) (hd : Distinct history) (hnone : carriers history target = []) :
      Chooses history target (Outcome.fail (.revisionNotFound target))

/-! ## Numbers that repeat -/

theorem mem_carriers {a : α} : a ∈ carriers history n ↔ a ∈ history ∧ revision a = n := by
  rw [carriers, List.mem_filter, decide_eq_true_eq]

theorem carriers_cons_of_ne {a : α} (h : revision a ≠ n) :
    carriers (a :: all) n = carriers all n :=
  List.filter_cons_of_neg (mt of_decide_eq_true h)

theorem carriers_cons_of_eq {a : α} (h : revision a = n) :
    carriers (a :: all) n = a :: carriers all n :=
  List.filter_cons_of_pos (decide_eq_true h)

theorem perm_carriers (h : history.Perm history') (n : Int) :
    (carriers history n).Perm (carriers history' n) :=
  h.filter _

theorem IsFirstRepeated.of_perm (h : history.Perm history') (hn : IsFirstRepeated history n) :
    IsFirstRepeated history' n := by
  unfold IsFirstRepeated at hn ⊢
  simpa only [(perm_carriers h _).length_eq] using hn

/-- Where no number repeats, one entry at most carries it. -/
theorem Distinct.not_isFirstRepeated (h : Distinct history) : ¬IsFirstRepeated history n := by
  intro hn
  have hcarriers : Distinct (carriers history n) := h.filter _
  match hall : carriers history n with
  | [] | [_] => exact absurd hn.1 (by simp [hall])
  | a :: b :: rest =>
    have hrevision : ∀ c ∈ a :: b :: rest, revision c = n := fun c hc =>
      (mem_carriers.mp (hall.symm ▸ hc)).2
    rw [hall] at hcarriers
    obtain ⟨ha, hb, -⟩ := List.forall_mem_cons.mp hrevision |>.imp_right List.forall_mem_cons.mp
    exact (List.pairwise_cons.mp hcarriers).1 b List.mem_cons_self (ha.trans hb.symm)

/-- Below the first of ascending numbers there are none. -/
theorem carriers_eq_nil_of_lt {a : α}
    (hsorted : (a :: all).Pairwise (fun a b => revision a ≤ revision b)) (h : n < revision a) :
    carriers (a :: all) n = [] := by
  refine List.filter_eq_nil_iff.mpr (List.forall_mem_cons.mpr ⟨?_, fun b hb => ?_⟩)
  · exact mt of_decide_eq_true (Int.ne_of_gt h)
  · have hab := (List.pairwise_cons.mp hsorted).1 b hb
    exact mt of_decide_eq_true (Int.ne_of_gt (Int.lt_of_lt_of_le h hab))

/-- **The first number that two neighbours share is the least that repeats** where the numbers
ascend. -/
theorem isFirstRepeated_of_firstRepeated?
    (hsorted : all.Pairwise (fun a b => revision a ≤ revision b))
    (h : firstRepeated? all = some n) : IsFirstRepeated all n := by
  induction all with
  | nil => cases h
  | cons a rest ih =>
    obtain ⟨ha, hrest⟩ := List.pairwise_cons.mp hsorted
    cases rest with
    | nil => cases h
    | cons b tail =>
      rw [firstRepeated?] at h
      split at h
      · rename_i hab
        obtain rfl : revision b = n := Option.some.inj h
        refine ⟨?_, fun m (hm : 2 ≤ (carriers _ m).length) => Int.not_lt.mp fun hlt => ?_⟩
        · show 2 ≤ (carriers (a :: b :: tail) (revision b)).length
          rw [carriers_cons_of_eq hab, carriers_cons_of_eq rfl]
          exact Nat.le_add_left 2 _
        · rw [carriers_eq_nil_of_lt hsorted (hab ▸ hlt)] at hm
          cases hm
      · rename_i hab
        have hlt : revision a < revision b :=
          Int.lt_iff_le_and_ne.mpr ⟨ha b List.mem_cons_self, hab⟩
        obtain ⟨hrepeats, hleast⟩ := ih hrest h
        refine ⟨?_, fun m (hm : 2 ≤ (carriers _ m).length) => hleast ?_⟩
        · exact Nat.le_trans hrepeats ((List.sublist_cons_self a _).filter _).length_le
        · show 2 ≤ (carriers (b :: tail) m).length
          by_cases ham : revision a = m
          · rw [carriers_cons_of_eq ham, carriers_eq_nil_of_lt hrest (ham ▸ hlt)] at hm
            exact absurd hm (Nat.lt_irrefl 1)
          · rwa [carriers_cons_of_ne ham] at hm

/-- **A history is ordered if no number repeats**; else the least that does is refused, with the
names of all that carry it. -/
theorem ordered_cases (history : List α) :
    (Distinct history ∧ ordered history = .ok (sorted history))
      ∨ ∃ n names, IsFirstRepeated history n ∧ names.Perm ((carriers history n).map name)
        ∧ ordered history = Outcome.fail (.duplicateRevision n names) := by
  have hperm := sorted_perm history
  cases hrepeated : firstRepeated? (sorted history) with
  | none =>
    have hstrict := pairwise_of_firstRepeated?_eq_none (pairwise_sorted history) hrepeated
    have hdistinct : Distinct history :=
      hperm.pairwise (hstrict.imp Int.ne_of_lt) fun hab => hab.symm
    exact .inl ⟨hdistinct, ordered_of_distinct hdistinct⟩
  | some n =>
    have hfirst := isFirstRepeated_of_firstRepeated? (pairwise_sorted history) hrepeated
    refine .inr ⟨n, _, hfirst.of_perm hperm, (perm_carriers hperm n).map name, ?_⟩
    rw [ordered, hrepeated]
    rfl

/-- A target that is not negative is refused with the history. -/
theorem select_of_ordered_error {e : Failure} (htarget : 0 ≤ target)
    (h : ordered history = .error e) : select history target = .error e := by
  rw [select, if_neg (Int.not_lt.mpr htarget), previous, h]
  split <;> rfl

/-- Which names repeat is told in one order. -/
theorem told_duplicateRevision_of_perm {names names' : List Text} (h : names.Perm names') :
    Failure.told (.rollout (.duplicateRevision n names))
      = Failure.told (.rollout (.duplicateRevision n names')) := by
  simp only [Failure.told, RolloutError.message, RolloutError.typeName, RolloutError.status,
    sortedTexts_of_perm h]

/-! ## Entries that are meant -/

/-- Where no number repeats, an entry is known by its number. -/
theorem Distinct.eq_of_revision_eq (h : Distinct history) {a b : α} (ha : a ∈ history)
    (hb : b ∈ history) (hab : revision a = revision b) : a = b := by
  have hfound := (find?_eq_some_iff_of_distinct h).mpr ⟨ha, hab⟩
  rw [(find?_eq_some_iff_of_distinct h).mpr ⟨hb, rfl⟩] at hfound
  exact (Option.some.inj hfound).symm

/-- More entries exceed an entry than exceed a higher one. -/
theorem length_above_lt {a b : α} (hb : b ∈ history) (hab : revision a < revision b) :
    (history.filter fun c => revision b < revision c).length
      < (history.filter fun c => revision a < revision c).length := by
  have habove : (history.filter fun c => revision b < revision c)
      = (history.filter fun c => revision a < revision c).filter
        fun c => revision b < revision c := by
    rw [List.filter_filter]
    refine List.filter_congr fun c _ => ?_
    rw [← Bool.decide_and, decide_eq_decide]
    exact (and_iff_left_of_imp (Int.lt_trans hab)).symm
  rw [habove]
  refine List.length_filter_lt_length_iff_exists.mpr
    ⟨b, List.mem_filter.mpr ⟨hb, decide_eq_true hab⟩, ?_⟩
  exact mt of_decide_eq_true (Int.lt_irrefl _)

/-- **One entry at most is meant** where no number repeats. -/
theorem IsTarget.unique (h : Distinct history) {a b : α} (ha : IsTarget history target a)
    (hb : IsTarget history target b) : a = b := by
  refine h.eq_of_revision_eq ha.mem hb.mem ?_
  by_cases htarget : target = previousTarget
  · have hlength := (ha.previous htarget).trans (hb.previous htarget).symm
    obtain hab | hab | hab := Int.lt_trichotomy (revision a) (revision b)
    · exact absurd hlength (Nat.ne_of_gt (length_above_lt hb.mem hab))
    · exact hab
    · exact absurd hlength (Nat.ne_of_lt (length_above_lt ha.mem hab))
  · exact (ha.named htarget).trans (hb.named htarget).symm

/-- There are two entries where one exceeds another. -/
theorem IsTarget.two_le_length {a : α} (ha : IsTarget history previousTarget a) :
    2 ≤ history.length := by
  have habove : (history.filter fun b => revision a < revision b).length < history.length :=
    List.length_filter_lt_length_iff_exists.mpr
      ⟨a, ha.mem, mt of_decide_eq_true (Int.lt_irrefl _)⟩
  rwa [ha.previous rfl] at habove

/-- **What is meant is selected.** -/
theorem IsTarget.select_eq {a : α} (h : Distinct history) (htarget : 0 ≤ target)
    (ha : IsTarget history target a) : select history target = .ok a := by
  have hexists : (target = previousTarget ∧ 2 ≤ history.length)
      ∨ (0 < target ∧ ∃ b ∈ history, revision b = target) := by
    obtain rfl | hne := eq_or_ne target previousTarget
    · exact .inl ⟨rfl, ha.two_le_length⟩
    · exact .inr ⟨Int.lt_iff_le_and_ne.mpr ⟨htarget, hne.symm⟩, a, ha.mem, ha.named hne⟩
  obtain ⟨b, hb, hmeant⟩ := exists_select h hexists
  rw [hb, hmeant.unique h ha]

/-- What no entry carries is not found. -/
theorem select_of_carriers_eq_nil (h : Distinct history) (htarget : 0 < target)
    (hnone : carriers history target = []) :
    select history target = Outcome.fail (.revisionNotFound target) := by
  have hfound : history.find? (fun a => revision a = target) = none :=
    List.find?_eq_none.mpr (List.filter_eq_nil_iff.mp hnone)
  rw [select_of_distinct htarget h, History.findRevision, hfound]

/-! ## The rules are kept -/

/-- **What is selected keeps the rules.** -/
theorem chooses_select (history : List α) (target : Int) :
    Chooses history target (select history target) := by
  by_cases hneg : target < 0
  · rw [select_of_neg hneg]
    exact .negative hneg
  have htarget : 0 ≤ target := Int.not_lt.mp hneg
  obtain ⟨hd, -⟩ | ⟨n, names, hn, hnames, hordered⟩ := ordered_cases history
  · by_cases hprevious : target = previousTarget
    · subst hprevious
      by_cases hlength : history.length < 2
      · rw [select_previousTarget_of_length_le_one (Nat.le_of_lt_succ hlength)]
        exact .insufficient rfl hd hlength
      · obtain ⟨a, ha, hmeant⟩ := exists_select hd (.inl ⟨rfl, Nat.not_lt.mp hlength⟩)
        rw [ha]
        exact .found htarget hd hmeant
    · have hpos : 0 < target := Int.lt_iff_le_and_ne.mpr ⟨htarget, Ne.symm hprevious⟩
      match hcarriers : carriers history target with
      | [] =>
        rw [select_of_carriers_eq_nil hd hpos hcarriers]
        exact .missing hpos hd hcarriers
      | a :: rest =>
        have hmem : a ∈ carriers history target := hcarriers ▸ List.mem_cons_self
        obtain ⟨b, hb, hmeant⟩ := exists_select hd (.inr ⟨hpos, a, mem_carriers.mp hmem⟩)
        rw [hb]
        exact .found htarget hd hmeant
  · rw [select_of_ordered_error htarget hordered]
    exact .repeated htarget hn hnames

/-- **The rules leave no choice**: whatever keeps them tells what is selected. -/
theorem Chooses.tellAlike_select {x : Outcome α} (h : Chooses history target x) :
    TellAlike Eq (select history target) x := by
  cases h with
  | negative h =>
    rw [select_of_neg h]
    exact Outcome.tellAlike_refl _
  | repeated h hn hnames =>
    obtain ⟨hd, -⟩ | ⟨m, names, hm, hothers, hordered⟩ := ordered_cases history
    · exact absurd hn hd.not_isFirstRepeated
    · obtain rfl := hm.unique hn
      rw [select_of_ordered_error h hordered]
      exact .error (told_duplicateRevision_of_perm (hothers.trans hnames.symm))
  | insufficient h hd hlength =>
    rw [h, select_previousTarget_of_length_le_one (Nat.le_of_lt_succ hlength)]
    exact Outcome.tellAlike_refl _
  | found h hd ha =>
    rw [ha.select_eq hd h]
    exact .ok rfl
  | missing h hd hnone =>
    rw [select_of_carriers_eq_nil hd h hnone]
    exact Outcome.tellAlike_refl _

/-- The rules do not depend on the order of the history. -/
theorem Chooses.of_perm {x : Outcome α} (h : Chooses history target x)
    (hperm : history.Perm history') : Chooses history' target x := by
  have hdistinct : Distinct history → Distinct history' := fun hd =>
    hperm.pairwise hd fun hab => hab.symm
  cases h with
  | negative h => exact .negative h
  | repeated h hn hnames =>
    exact .repeated h (hn.of_perm hperm) (hnames.trans ((perm_carriers hperm _).map name))
  | insufficient h hd hlength =>
    exact .insufficient h (hdistinct hd) (hperm.length_eq ▸ hlength)
  | found h hd ha =>
    refine .found h (hdistinct hd) ⟨hperm.mem_iff.mp ha.mem, ha.named, fun htarget => ?_⟩
    rw [← ha.previous htarget]
    exact (hperm.filter _).length_eq.symm
  | missing h hd hnone =>
    exact .missing h (hdistinct hd) (List.nil_perm.mp (hnone ▸ perm_carriers hperm target))

/-- **Selection is by numbers.** What is selected keeps the rules, and whatever keeps them, in
whatever order the history is listed, tells the same. A number that repeats is told with the
names of all entries that carry it, in order. The entry before the last is the one that is
selected by its own number, if this is positive. -/
theorem selection_is_by_numbers (history : List α) (target : Int) :
    Chooses history target (select history target)
      ∧ (∀ history' x, history.Perm history' → Chooses history' target x →
        TellAlike Eq (select history target) x)
      ∧ (∀ history', history.Perm history' →
        TellAlike Eq (select history target) (select history' target))
      ∧ (∀ n names, select history target = Outcome.fail (.duplicateRevision n names) →
        (RolloutError.duplicateRevision n names).message
          = "revision " ++ .ofInt n ++ " is recorded more than once: "
            ++ (", " : Text).intercalate (sortedTexts ((carriers history n).map name)))
      ∧ ∀ a, Distinct history → IsTarget history previousTarget a → 0 < revision a →
        select history previousTarget = .ok a ∧ select history (revision a) = .ok a := by
  refine ⟨chooses_select history target,
    fun history' x hperm hx => (hx.of_perm hperm.symm).tellAlike_select,
    fun history' hperm =>
      ((chooses_select history' target).of_perm hperm.symm).tellAlike_select,
    fun n names hselect => ?_, fun a hd ha hpos => ⟨ha.select_eq hd (Int.le_refl 0), ?_⟩⟩
  · have hchooses := chooses_select history target
    rw [hselect] at hchooses
    cases hchooses with
    | repeated h hn hnames => rw [RolloutError.message, sortedTexts_of_perm hnames]
  · refine IsTarget.select_eq hd (Int.le_of_lt hpos) ⟨ha.mem, fun _ => rfl, fun hprevious => ?_⟩
    exact absurd hprevious (Int.ne_of_gt hpos)

/-- Three entries that are not listed by their numbers. -/
def unordered : List (Text × Int) :=
  [("second", 2), ("first", 1), ("fifth", 5)]

theorem selection_is_by_numbers_unordered :
    select unordered previousTarget = .ok ("second", 2)
      ∧ select unordered 2 = .ok ("second", 2)
      ∧ TellAlike Eq (select unordered 2) (select unordered.reverse 2)
      ∧ TellAlike Eq (select unordered 3) (Outcome.fail (.revisionNotFound 3)) := by
  have hdistinct : Distinct unordered := by decide
  have htarget : IsTarget unordered previousTarget ("second", 2) :=
    ⟨by decide, fun h => absurd rfl h, fun _ => rfl⟩
  obtain ⟨-, -, halike, -, hprevious⟩ := selection_is_by_numbers unordered 2
  obtain ⟨hzero, htwo⟩ := hprevious _ hdistinct htarget (by decide)
  obtain ⟨-, hrules, -⟩ := selection_is_by_numbers unordered 3
  exact ⟨hzero, htwo, halike _ (List.reverse_perm _).symm,
    hrules _ _ (List.Perm.refl _) (.missing (by decide) hdistinct rfl)⟩

end Revision
end Rollout
