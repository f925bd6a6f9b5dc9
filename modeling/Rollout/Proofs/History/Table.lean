import Rollout.Proofs.History.Ownership
import Rollout.Proofs.Json.Numeral
import Rollout.Proofs.Revision.LastListed
import Rollout.Proofs.Text.Table

/-!
# A row for each revision

A look at all revisions of a daemon set or a deployment shows a table, with the number of a
revision and its cause in a row. `History.IsAccount` says which rows these are, without sorting or
looking anything up by number: one for each number that the workload's own history holds, in
ascending order, with the cause of the entry that is listed last. `History.IsTable` says how they
are laid out: as the text of the rows, aligned.

Of a cause nothing is asked but that it is a text. It is laid out as it is, together with what
layout is made of: a tab in it is a column to alignment, and a line feed ends its row, so that
what stands behind may look like a row of its own. The number of lines tells how many of these
there are, and only without them a row is a line (`History.table_has_row_for_each_revision`).
-/

namespace Rollout
namespace History

open Program (EndsIn endsIn_done)
open Revision (Distinct IsLastListed byNumber numbers sorted)
open Revisioned (revision)

variable {α : Type} [Revisioned α] {key : Text} {annotations : Mapping}

/-! ## Causes -/

/-- **Why a revision was made**: what the annotation says, unless it is missing or empty. -/
inductive IsCause (key : Text) (annotations : Mapping) : Text → Prop where
  | given {cause : Text} (h : annotations.get? key = some (.str cause)) (hne : cause ≠ []) :
      IsCause key annotations cause
  | missing (h : annotations.get? key = none ∨ annotations.get? key = some (.str [])) :
      IsCause key annotations "<none>"

/-- The cause as it is shown. -/
def shownCause (cause : Json) : Text :=
  if cause.truthy then cause.text else ("<none>" : Text)

/-- **What is shown is the cause** if the annotation is a text. -/
theorem isCause_shownCause (h : ∀ v, annotations.get? key = some v → ∃ t, v = .str t) :
    IsCause key annotations (shownCause (causeOf key annotations)) := by
  have hcause : causeOf key annotations = (annotations.get? key).getD (.str []) := rfl
  cases hv : annotations.get? key with
  | none =>
    rw [hcause, hv]
    exact .missing (.inl hv)
  | some v =>
    obtain ⟨cause, rfl⟩ := h v hv
    rw [hcause, hv]
    cases cause with
    | nil => exact .missing (.inr hv)
    | cons p cause => exact .given hv (List.cons_ne_nil p cause)

/-! ## Rows -/

/-- **The rows that tell a history**: one for each number, in ascending order, with the cause of
the entry that is listed last. -/
structure IsAccount (key : Text) (annotations : α → Mapping) (history : List α)
    (rows : List (Int × Text)) : Prop where
  ascending : rows.Pairwise fun row row' => row.1 < row'.1
  number : ∀ n, n ∈ rows.map Prod.fst ↔ n ∈ numbers history
  cause : ∀ row ∈ rows, ∃ a, IsLastListed history row.1 a ∧ IsCause key (annotations a) row.2

/-- The two fields of each line: the headings, and the number and the cause of each row. -/
def fieldsOf (rows : List (Int × Text)) : List (Text × Text) :=
  ("REVISION", "CHANGE-CAUSE") :: rows.map fun row => (.ofInt row.1, row.2)

/-- The rows and their headings before they are aligned, with a tab between the fields of a line. -/
def tabbed (rows : List (Int × Text)) : Text :=
  (fieldsOf rows).flatMap (fieldLine · ++ [.char '\n'])

/-- **The rows laid out.** The text is that of the rows, aligned as any text is. Below the headings
and above what follows the last line feed there is a line for each row, and another one for each
line feed in a cause. Without these, every row is a line, and all causes start where their heading
does. -/
structure IsTable (rows : List (Int × Text)) (text : Text) : Prop where
  aligned : text = TabStops.align {} (tabbed rows)
  length : (pieces (.char '\n') text).length
    = rows.length + 2 + (rows.map fun row => row.2.count (.char '\n')).sum
  lines : (∀ row ∈ rows, .char '\n' ∉ row.2) → ∃ w heading lines,
    pieces (.char '\n') text = heading :: lines ++ [[]]
      ∧ TabStops.IsLine {} w "REVISION" "CHANGE-CAUSE" heading
      ∧ List.Forall₂ (fun row line => TabStops.IsLine {} w (.ofInt row.1) row.2 line) rows lines

/-- A number is written in digits, with a sign if it is negative. -/
theorem notMem_ofInt {c : Char} (hdigit : c.isDigit = false) (hsign : c ≠ '-') (n : Int) :
    .char c ∉ Text.ofInt n := by
  intro hmem
  obtain ⟨d, hd, heq⟩ := List.mem_map.mp hmem
  obtain rfl := CodePoint.char.inj heq
  rw [Json.toList_toString_int] at hd
  obtain hd | hd := List.mem_append.mp hd
  · split at hd
    · exact hsign (List.mem_singleton.mp hd)
    · cases hd
  · rw [Json.isDigit_of_mem_toDigits hd] at hdigit
    cases hdigit

/-- **A table is its lines aligned.** -/
theorem causeTable_eq (rows : List (Int × Json)) :
    causeTable rows
      = TabStops.align {} (tabbed (rows.map fun row => (row.1, shownCause row.2))) := by
  have hrow : causeRow = fun row => fieldLine (.ofInt row.1, shownCause row.2) ++ [.char '\n'] := by
    funext row
    simp only [causeRow, fieldLine, shownCause, List.append_assoc]
    rfl
  rw [causeTable, tabbed, fieldsOf, List.flatMap_cons, List.map_map, List.flatMap_map, hrow]
  rfl

/-- Neither field of a line but the cause holds what ends it. -/
theorem first_of_mem_fieldsOf {rows : List (Int × Text)} {f : Text × Text}
    (hf : f ∈ fieldsOf rows) : .char '\t' ∉ f.1 ∧ .char '\n' ∉ f.1 := by
  obtain rfl | hf := List.mem_cons.mp hf
  · decide
  · obtain ⟨row, -, rfl⟩ := List.mem_map.mp hf
    exact ⟨notMem_ofInt (by decide) (by decide) row.1, notMem_ofInt (by decide) (by decide) row.1⟩

/-- **Every row ends a line**, and so does every line feed in a cause. -/
theorem count_lines (rows : List (Int × Text)) :
    (tabbed rows).count (.char '\n') = rows.length + 1
      + (rows.map fun row => row.2.count (.char '\n')).sum := by
  have hline : ∀ f : Text × Text, .char '\n' ∉ f.1 →
      (fieldLine f ++ [CodePoint.char '\n']).count (.char '\n') = f.2.count (.char '\n') + 1 := by
    intro f hf
    simp [fieldLine, List.count_eq_zero_of_not_mem hf]
  have hheading : ("CHANGE-CAUSE" : Text).count (.char '\n') = 0 := by decide
  rw [tabbed, fieldsOf, List.flatMap_cons, List.count_append, hline _ (by decide), hheading,
    List.flatMap_map]
  induction rows with
  | nil => rfl
  | cons row rows ih =>
    have hrow : (fieldLine (.ofInt row.1, row.2) ++ [CodePoint.char '\n']).count (.char '\n')
        = row.2.count (.char '\n') + 1 := hline _ (notMem_ofInt (by decide) (by decide) row.1)
    rw [List.flatMap_cons, List.count_append, hrow, List.length_cons, List.map_cons, List.sum_cons]
    omega

/-- **A table is laid out line by line.** -/
theorem isTable_align (rows : List (Int × Text)) :
    IsTable rows (TabStops.align {} (tabbed rows)) := by
  have hfeed : ({} : TabStops).fill ≠ .char '\n' := by decide
  refine ⟨rfl, ?_, fun hcauses => ?_⟩
  · rw [TabStops.length_pieces_align hfeed, length_pieces, count_lines]
    omega
  · have hsecond : ∀ f ∈ fieldsOf rows, .char '\n' ∉ f.2 := by
      refine List.forall_mem_cons.mpr ⟨by decide, fun f hf => ?_⟩
      obtain ⟨row, hrow, rfl⟩ := List.mem_map.mp hf
      exact hcauses row hrow
    obtain ⟨w, lines, hlines, htable⟩ := TabStops.exists_lines_align (by decide) hfeed
      (fun f hf => first_of_mem_fieldsOf hf) hsecond
    obtain ⟨heading, rest, hheading, hrest, rfl⟩ := List.forall₂_cons_left_iff.mp hlines
    rw [List.forall₂_map_left_iff] at hrest
    exact ⟨w, heading, rest, htable, hheading, hrest⟩

/-- Whatever is recorded of causes is a text. -/
def CausesAreTexts (key : Text) (annotations : α → Mapping) (history : List α) : Prop :=
  ∀ a ∈ history, ∀ v, (annotations a).get? key = some v → ∃ t, v = .str t

/-- **The text tells a history** in a table. -/
def Tells (key : Text) (annotations : α → Mapping) (history : List α) (text : Text) : Prop :=
  ∃ rows, IsAccount key annotations history rows ∧ IsTable rows text

/-- **Sorted entries of distinct numbers** tell the history that they are taken from. -/
theorem isAccount_sorted {annotations : α → Mapping} {history : List α}
    (h : CausesAreTexts key annotations history) :
    IsAccount key annotations history ((sorted (byNumber history)).map fun a =>
      (revision a, shownCause (causeOf key (annotations a)))) := by
  have hdistinct := Revision.distinct_byNumber history
  have hmem : ∀ a, a ∈ sorted (byNumber history) ↔ a ∈ byNumber history :=
    fun a => (Revision.sorted_perm _).mem_iff
  refine ⟨List.pairwise_map.mpr (Revision.pairwise_sorted_of_distinct hdistinct), fun n => ?_,
    fun row hrow => ?_⟩
  · rw [← Revision.numbers_byNumber, Revision.mem_numbers, List.map_map, List.mem_map]
    simp only [hmem]
    rfl
  · obtain ⟨a, ha, rfl⟩ := List.mem_map.mp hrow
    have hlast := Revision.isLastListed_iff.mpr ⟨(hmem a).mp ha, rfl⟩
    exact ⟨a, hlast, isCause_shownCause (h a hlast.mem)⟩

theorem tells_causeTable {annotations : α → Mapping} {history : List α}
    (h : CausesAreTexts key annotations history) :
    Tells key annotations history (causeTable ((sorted (byNumber history)).map fun a =>
      (revision a, causeOf key (annotations a)))) := by
  refine ⟨_, isAccount_sorted h, ?_⟩
  rw [causeTable_eq, List.map_map]
  exact isTable_align _

/-! ## Looking at a history -/

section Runs

variable {σ : Type} {answer : σ → (q : Backend.Request) → q.Answer × σ} {s s' : σ}
  {asked : List Backend.Request} {space name : Text}

/-- What is counted and logged does not matter. -/
theorem endsIn_view {kind : Kind} {n : Int} {r : Outcome Text}
    (h : EndsIn answer (viewKind kind key space name n) s r s' asked) :
    EndsIn answer (view kind key space name n) s r s' asked :=
  h.log_bind.count_bind

/-- **A daemon set's history is shown** once it is resolved. -/
theorem endsIn_viewDaemonSet {live : Workload} {history : List Snapshot}
    (hread : EndsIn answer (resolve .daemonSet space name) s (.ok (live, history)) s' asked)
    (hne : history ≠ []) (hdistinct : Distinct history) (key : Text) :
    EndsIn answer (viewKind .daemonSet key space name 0) s
      (.ok (causeTable ((sorted (byNumber history)).map fun a =>
        (revision a, causeOf key a.annotations)))) s' asked := by
  rw [Revision.byNumber_of_distinct hdistinct, ← List.append_nil asked]
  refine hread.bind ?_
  show EndsIn answer (if history.isEmpty then _ else _) _ _ _ _
  rw [if_neg (by simpa using hne)]
  show EndsIn answer (liftM (Revision.ordered history) >>= _) _ _ _ _
  rw [Revision.ordered_of_distinct hdistinct]
  exact endsIn_done _ s'

/-- **A deployment's history is shown** once its replica sets are resolved. -/
theorem endsIn_viewDeployment {owned : List ReplicaSet}
    (hread : EndsIn answer (Backend.getWorkload .deployment space name >>= resolveReplicaSets) s
      (.ok owned) s' asked) (hne : owned ≠ []) (key : Text) :
    EndsIn answer (viewKind .deployment key space name 0) s
      (.ok (causeTable ((sorted (byNumber owned)).map fun a =>
        (revision a, causeOf key a.annotations)))) s' asked := by
  have hchildren : (byNumber owned).isEmpty = false := by
    obtain ⟨a, ha⟩ := List.exists_mem_of_ne_nil owned hne
    obtain ⟨b, hb, -⟩ := Revision.exists_mem_byNumber ha
    exact List.isEmpty_eq_false_iff.mpr (List.ne_nil_of_mem hb)
  rw [viewKind, viewDeployment, ← bind_assoc, ← List.append_nil asked]
  refine hread.bind ?_
  show EndsIn answer (if (byNumber owned).isEmpty then _ else _) _ _ _ _
  rw [hchildren]
  exact endsIn_done _ s'

/-- **A table has a row for each revision.** Let a daemon set's own history be resolved, no number
occur twice in it, and the causes be texts; or let a deployment's own replica sets be resolved,
of which the last that is listed stands for a number. Unless there are none, a look at all
revisions ends there with a table that tells them: a row for each number in ascending order, with
its cause, aligned whatever is in the causes, and a line for each row just if no cause holds a line
feed. -/
theorem table_has_row_for_each_revision (key space name : Text) :
    (∀ live history,
      EndsIn answer (resolve .daemonSet space name) s (.ok (live, history)) s' asked →
      history ≠ [] → Distinct history → CausesAreTexts key Snapshot.annotations history →
      ∃ text, EndsIn answer (view .daemonSet key space name 0) s (.ok text) s' asked
        ∧ Tells key Snapshot.annotations history text)
    ∧ ∀ owned,
      EndsIn answer (Backend.getWorkload .deployment space name >>= resolveReplicaSets) s
        (.ok owned) s' asked →
      owned ≠ [] → CausesAreTexts key ReplicaSet.annotations owned →
      ∃ text, EndsIn answer (view .deployment key space name 0) s (.ok text) s' asked
        ∧ Tells key ReplicaSet.annotations owned text := by
  refine ⟨fun live history hread hne hdistinct htexts => ?_, fun owned hread hne htexts => ?_⟩
  · exact ⟨_, endsIn_view (endsIn_viewDaemonSet hread hne hdistinct key), tells_causeTable htexts⟩
  · exact ⟨_, endsIn_view (endsIn_viewDeployment hread hne key), tells_causeTable htexts⟩

end Runs

/-- A cluster that holds a workload of either kind and lists these for it. -/
def webTelling (snapshots : List Snapshot) (replicaSets : List ReplicaSet) (_ : Unit) :
    (q : Backend.Request) → q.Answer × Unit
  | .getWorkload kind .. => (.ok { Rollback.webWorkload with kind := kind }, ())
  | q => webListing snapshots replicaSets () q

/-- A snapshot with a cause. -/
def webCaused (revision : Int) (cause : Text) : Snapshot :=
  { webOwned "u-1" revision with annotations := [(.str changeCauseKey, .str cause)] }

theorem causesAreTexts_webCaused (numbered : List (Int × Text)) :
    CausesAreTexts changeCauseKey Snapshot.annotations
      (numbered.map fun row => webCaused row.1 row.2) := by
  intro a ha v hv
  obtain ⟨row, -, rfl⟩ := List.mem_map.mp ha
  have hcause : (webCaused row.1 row.2).annotations.get? changeCauseKey = some (.str row.2) := by
    show Fields.get? [(changeCauseKey, Json.str row.2)] changeCauseKey = _
    exact if_pos rfl
  exact ⟨row.2, Option.some.inj (hv.symm.trans hcause)⟩

/-- Causes that are given, empty and missing, and a number that repeats. -/
theorem table_has_row_for_each_revision_web :
    let snapshots := [webCaused 2 "scale up", webCaused 1 ""]
    let replicaSets := [webChild "u-1" 1, webChild "u-1" 2, webChild "u-1" 1]
    let answer := webTelling snapshots replicaSets
    (∃ text asked,
        EndsIn answer (view .daemonSet changeCauseKey "default" "web" 0) () (.ok text) () asked
        ∧ Tells changeCauseKey Snapshot.annotations snapshots text)
      ∧ ∃ text asked,
        EndsIn answer (view .deployment changeCauseKey "default" "web" 0) () (.ok text) () asked
        ∧ Tells changeCauseKey ReplicaSet.annotations replicaSets text := by
  intro snapshots replicaSets answer
  have hsnapshots : ∃ live asked, EndsIn answer (resolve .daemonSet "default" "web") ()
      (.ok (live, snapshots)) () asked := ⟨_, _, _, rfl⟩
  have hreplicaSets : ∃ asked,
      EndsIn answer (Backend.getWorkload .deployment "default" "web" >>= resolveReplicaSets) ()
        (.ok replicaSets) () asked := ⟨_, _, rfl⟩
  have hnone : CausesAreTexts changeCauseKey ReplicaSet.annotations replicaSets := by
    intro a ha v hv
    have hempty : ∀ r ∈ replicaSets, r.annotations = [] := by simp [replicaSets, webChild]
    rw [hempty a ha] at hv
    cases hv
  obtain ⟨live, asked, hread⟩ := hsnapshots
  obtain ⟨asked', hread'⟩ := hreplicaSets
  obtain ⟨text, htext⟩ := (table_has_row_for_each_revision changeCauseKey "default" "web").1 live
    snapshots hread (List.cons_ne_nil _ _) (by decide)
    (causesAreTexts_webCaused [(2, "scale up"), (1, "")])
  obtain ⟨text', htext'⟩ := (table_has_row_for_each_revision changeCauseKey "default" "web").2
    replicaSets hread' (List.cons_ne_nil _ _) hnone
  exact ⟨⟨text, asked, htext⟩, ⟨text', asked', htext'⟩⟩

/-- A history whose first cause goes on like a row. -/
def forging : List Snapshot :=
  [webCaused 1 "first\n9\tforged", webCaused 2 "second"]

/-- **A cause can look like a row**: of a number that is not recorded, out of order. -/
theorem exists_forged_row :
    ∃ history, history ≠ [] ∧ Distinct history
      ∧ CausesAreTexts changeCauseKey Snapshot.annotations history ∧ 9 ∉ numbers history
      ∧ ∃ live asked, EndsIn (webTelling history []) (resolve .daemonSet "default" "web") ()
          (.ok (live, history)) () asked
        ∧ EndsIn (webTelling history []) (view .daemonSet changeCauseKey "default" "web" 0) ()
          (.ok "REVISION  CHANGE-CAUSE\n1         first\n9         forged\n2         second\n") ()
          asked := by
  have hread : ∃ live asked, EndsIn (webTelling forging []) (resolve .daemonSet "default" "web") ()
      (.ok (live, forging)) () asked := ⟨_, _, _, rfl⟩
  have hne : forging ≠ [] := List.cons_ne_nil _ _
  have hdistinct : Distinct forging := by decide
  have hsorted : sorted forging = forging := List.mergeSort_of_pairwise (by decide)
  obtain ⟨live, asked, hread⟩ := hread
  have hview := endsIn_viewDaemonSet hread hne hdistinct changeCauseKey
  rw [Revision.byNumber_of_distinct hdistinct, hsorted] at hview
  exact ⟨forging, hne, hdistinct,
    causesAreTexts_webCaused [(1, "first\n9\tforged"), (2, "second")], by decide, live, asked,
    hread, endsIn_view hview⟩

end History
end Rollout
