import Rollout.Proofs.Program.Session
import Rollout.Proofs.Rollback.Convergence
import Rollout.Proofs.Rollback.Mutation

/-!
# Rollbacks at the same time

Nothing keeps several callers from rolling back the same workload at once. Each of them
reads the object and its revisions, compares and sends a patch; what the others do in
between it does not see, and no version of the object is checked. So a decision may be
taken on an object that is no longer the stored one.

Still the templates are never mixed (`Rollback.templates_are_not_mixed`): in whatever order
the calls are made, and whichever of them fail, the stored object is the initial one with
either its own template or the one that is recorded for the target of whoever patched
last. For a record replaces the template as a whole, so that it does not matter on which
template it comes; and which record is sent depends on the history alone, which no patch
of a template changes.

The argument has two halves. What one rollback sends is known from what it has been
answered before (`Rollback.MayCall`), because its requests keep to a rule and the calls
tell of the requests (`Rollback.Tells`). What the answers can be is an invariant of the
cluster and of everything done so far (`Rollback.IsConsistent`), which one call keeps.
-/

namespace Rollout

open Api (Call CallError Memory workloadRead snapshotsListed withKind)
open Backend (changes)
open Json (everywhere isPortablePart)
open Program (Obeys Session Step questions stepsOf)
open Workload (withTemplate)

namespace Api

/-- What was done in a conversation with the API. -/
abbrev Past := List (Step Call Call.Answer)

namespace Memory

/-- **A call that may fail**: refused where a refusal is given, and served otherwise. -/
def serveUnless (refusal : Option CallError) (m : Memory) (c : Call) : c.Answer × Memory :=
  match refusal with
  | none => m.serve c
  | some e => (.error e, m)

/-- **The snapshots of a stored object**: those in its namespace that it controls. -/
def owned (m : Memory) (kind : Kind) (raw : Fields Json) : Outcome (List Snapshot) := do
  let w ← Workload.ofFields kind (withKind kind raw)
  let candidates ← snapshotsListed w.space (listed w.space m.revisions)
  return History.ownedSnapshots w candidates

/-- A call that did not fail was answered with its content. -/
theorem content_eq_ok {m : Memory} {c : Call} {x : c.Content} (h : m.answer c = .ok x) :
    m.content c = .ok x := by
  unfold answer at h
  split at h
  · cases h
  · exact h

end Memory
end Api

namespace Rollback

variable {ι : Type} {m : Memory} {kind : Kind} {space name : Text} {w : Workload} {order : Order}

/-! ## What a rollback sends -/

/-- **A patch with a reason**: the data of the snapshot that the target names in the
history that was read, sent to the workload that was read. -/
structure IsSent (kind : Kind) (w : Workload) (target : Int) (calls : Api.Past)
    (live : Workload) (candidates : List Snapshot) (s : Snapshot) (body : Json) : Prop where
  read : ∃ object, .asked (.read kind w.space w.name) (.ok object) ∈ calls
    ∧ workloadRead kind w.space w.name (.ok object) = .ok live
  listed : ∃ query items, .asked (.listRevisions live.space query) (.ok items) ∈ calls
    ∧ snapshotsListed live.space (.ok items) = .ok candidates
  chosen : Revision.select (History.ownedSnapshots live candidates) target = .ok s
  data : Json.decode s.data = .ok body

/-- **What a rollback may send** after what it has been answered: one patch with a reason,
and any other call. -/
def MayCall (kind : Kind) (w : Workload) (target : Int) (calls : Api.Past) : Call → Prop
  | .patch k sp n body =>
    questions Call.isPatch calls = [] ∧ k = kind ∧ ∃ live candidates s,
      IsSent kind w target calls live candidates s body ∧ sp = live.space ∧ n = live.name
  | _ => True

/-- **What the calls tell of the requests** that they were made for. -/
structure Tells (past : Backend.Past) (calls : Api.Past) : Prop where
  read : ∀ k sp n live, .asked (.getWorkload k sp n) (.ok live) ∈ past →
    ∃ object, .asked (.read k sp n) (.ok object) ∈ calls
      ∧ workloadRead k sp n (.ok object) = .ok live
  listed : ∀ sp query candidates, .asked (.listSnapshots sp query) (.ok candidates) ∈ past →
    ∃ items, .asked (.listRevisions sp query) (.ok items) ∈ calls
      ∧ snapshotsListed sp (.ok items) = .ok candidates
  quiet : changes past = [] → questions Call.isPatch calls = []

section Tells

variable {past : Backend.Past} {calls calls' : Api.Past}

theorem tells_nil : Tells [] [] :=
  ⟨nofun, nofun, fun _ => rfl⟩

/-- What is done next is told by the calls that it comes to. -/
theorem Tells.concat (h : Tells past calls) {x : Step Backend.Request Backend.Request.Answer}
    (hread : ∀ k sp n live, x = .asked (.getWorkload k sp n) (.ok live) →
      ∃ object, .asked (.read k sp n) (.ok object) ∈ calls'
        ∧ workloadRead k sp n (.ok object) = .ok live)
    (hlisted : ∀ sp query candidates, x = .asked (.listSnapshots sp query) (.ok candidates) →
      ∃ items, .asked (.listRevisions sp query) (.ok items) ∈ calls'
        ∧ snapshotsListed sp (.ok items) = .ok candidates)
    (hquiet : changes [x] = [] → questions Call.isPatch calls' = []) :
    Tells (past ++ [x]) (calls ++ calls') where
  read k sp n live hmem := by
    obtain hmem | hmem := List.mem_append.mp hmem
    · obtain ⟨object, hobject, hlive⟩ := h.read k sp n live hmem
      exact ⟨object, List.mem_append_left _ hobject, hlive⟩
    · obtain ⟨object, hobject, hlive⟩ := hread k sp n live (List.mem_singleton.mp hmem).symm
      exact ⟨object, List.mem_append_right _ hobject, hlive⟩
  listed sp query candidates hmem := by
    obtain hmem | hmem := List.mem_append.mp hmem
    · obtain ⟨items, hitems, hcandidates⟩ := h.listed sp query candidates hmem
      exact ⟨items, List.mem_append_left _ hitems, hcandidates⟩
    · obtain ⟨items, hitems, hcandidates⟩ :=
        hlisted sp query candidates (List.mem_singleton.mp hmem).symm
      exact ⟨items, List.mem_append_right _ hitems, hcandidates⟩
  quiet hnone := by
    rw [changes, Program.questions_append, List.append_eq_nil_iff] at hnone
    rw [Program.questions_append, h.quiet hnone.1, hquiet hnone.2, List.append_nil]

/-- The request is one whose answers the calls tell. -/
def isTold : Backend.Request → Bool
  | .getWorkload .. => true
  | .listSnapshots .. => true
  | _ => false

/-- Of any other request nothing is told. -/
theorem Tells.concat_untold (h : Tells past calls) {q : Backend.Request} {a : q.Answer}
    (hq : isTold q = false)
    (hquiet : changes [.asked q a] = [] → questions Call.isPatch calls' = []) :
    Tells (past ++ [.asked q a]) (calls ++ calls') := by
  refine h.concat (fun k sp n live heq => ?_) (fun sp query candidates heq => ?_) hquiet
  · obtain ⟨rfl, -⟩ := Step.asked.inj heq
    cases hq
  · obtain ⟨rfl, -⟩ := Step.asked.inj heq
    cases hq

/-- **A request that is allowed is answered by calls that are**, and these tell of it. -/
theorem obeys_answer (seconds : Int) {q : Backend.Request} (h : Tells past calls)
    (hmay : MayAsk kind w order past q) :
    Obeys (MayCall kind w order.target)
      (fun calls' r => ∃ a, r = .ok a ∧ Tells (past ++ [.asked q a]) calls') calls
      (Api.answer seconds q) := by
  cases q with
  | getWorkload k sp n =>
    refine ⟨trivial, fun a => ⟨_, rfl, h.concat (fun k' sp' n' live heq => ?_) (by rintro _ _ _ ⟨⟩)
      fun _ => rfl⟩⟩
    obtain ⟨hq, hlive⟩ := Step.asked.inj heq
    cases hq
    cases a with
    | ok object => exact ⟨object, List.mem_singleton_self _, eq_of_heq hlive⟩
    | error e => cases eq_of_heq hlive
  | listSnapshots sp query =>
    refine ⟨trivial, fun a => ⟨_, rfl, h.concat (by rintro _ _ _ _ ⟨⟩) (fun sp' query' cs heq => ?_)
      fun _ => rfl⟩⟩
    obtain ⟨hq, hlisted⟩ := Step.asked.inj heq
    cases hq
    cases a with
    | ok items => exact ⟨items, List.mem_singleton_self _, eq_of_heq hlisted⟩
    | error e => cases eq_of_heq hlisted
  | patchWorkload k sp n data =>
    obtain ⟨-, -, hnone, rfl, live, s, hfounded, rfl, rfl, rfl⟩ := hmay
    obtain ⟨object, hread⟩ := h.read _ _ _ _ hfounded.read
    obtain ⟨query, candidates, hcandidates, hchosen⟩ := hfounded.chosen
    obtain ⟨items, hlisted⟩ := h.listed _ _ _ hcandidates
    simp only [Api.answer]
    split
    · exact ⟨_, rfl, List.append_nil calls ▸ h.concat_untold rfl fun _ => rfl⟩
    · exact ⟨_, rfl, List.append_nil calls ▸ h.concat_untold rfl fun _ => rfl⟩
    · rename_i body hbody
      have hsent : IsSent k w order.target calls live candidates s body :=
        ⟨⟨object, hread⟩, ⟨query, items, hlisted⟩, hchosen, hbody⟩
      exact ⟨⟨h.quiet hnone, rfl, live, candidates, s, hsent, rfl, rfl⟩,
        fun a => ⟨_, rfl, h.concat_untold rfl fun hchanges => by cases hchanges⟩⟩
  | _ => exact ⟨trivial, fun a => ⟨_, rfl, h.concat_untold rfl fun _ => rfl⟩⟩

/-- **A rollback sends what it may.** -/
theorem obeys_mayCall (kind : Kind) (w : Workload) (order : Order) (seconds : Int) :
    Obeys (MayCall kind w order.target) (fun _ _ => True) []
      (Api.talk seconds (rollBack kind w order)) := by
  have hnoted : ∀ past calls n, Tells past calls →
      Tells (past ++ [.noted n]) (calls ++ [.noted n]) :=
    fun _ _ _ h => h.concat nofun nofun fun _ => rfl
  refine (Obeys.through hnoted (fun past calls q h hmay => obeys_answer seconds h hmay)
    (obeys_mayAsk kind w order) tells_nil).mono ?_ ?_
  · exact fun _ _ _ h => h
  · exact fun _ _ _ _ => trivial

end Tells

/-! ## What is stored -/

/-- **A workload whose revisions record templates**, as it is stored: a whole object that
is read as it was written. Nothing is asked of the revisions that it does not control, and
any of the calls may be made to fail. -/
structure HasRecords (m : Memory) (kind : Kind) (space name : Text)
    (raw spec current : Fields Json) : Prop where
  stored : m.find? kind space name = some (.obj raw)
  portable : everywhere isPortablePart (.obj raw) = true
  specified : Fields.get? raw "spec" = some (.obj spec)
  templated : Fields.get? spec "template" = some (.obj current)
  records : ∀ history, m.owned kind raw = .ok history →
    ∀ s ∈ history, ∃ template, s.Records template

/-- The step is a patch of the object, and was accepted. -/
def isPatchOf (kind : Kind) (space name : Text) : Step Call Call.Answer → Bool
  | .asked (.patch k sp n _) (.ok _) => k = kind && sp = space && n = name
  | _ => false

/-- **Who has patched the object last**, if anybody has. -/
def lastToPatch? (kind : Kind) (space name : Text) (trace : List (ι × Step Call Call.Answer)) :
    Option ι :=
  (trace.reverse.find? (fun x => isPatchOf kind space name x.2)).map Prod.fst

theorem lastToPatch?_concat (trace : List (ι × Step Call Call.Answer)) (i : ι)
    (x : Step Call Call.Answer) :
    lastToPatch? kind space name (trace ++ [(i, x)])
      = if isPatchOf kind space name x then some i else lastToPatch? kind space name trace := by
  rw [lastToPatch?, List.reverse_append, List.reverse_singleton, List.singleton_append,
    List.find?_cons]
  cases isPatchOf kind space name x <;> rfl

/-- **The template is that of the last patch**: the one that is recorded for the target of
whoever sent it, and the initial one where nobody has sent any. -/
def IsOfLast (m : Memory) (kind : Kind) (raw current : Fields Json) (target : ι → Int)
    (last : Option ι) (held : Fields Json) : Prop :=
  match last with
  | none => held = current
  | some i => ∃ history s, m.owned kind raw = .ok history
    ∧ Revision.select history (target i) = .ok s ∧ s.Records held

/-- **What has been done agrees with what is stored.** Whoever has read the object has read
the initial one with some template, and whoever has listed revisions has listed the initial
ones; the object that is stored is the initial one with the template of the last patch. -/
structure IsConsistent (m : Memory) (kind : Kind) (space name : Text)
    (raw spec current : Fields Json) (target : ι → Int)
    (trace : List (ι × Step Call Call.Answer)) (now : Memory) : Prop where
  read : ∀ i object, (i, .asked (.read kind space name) (.ok object)) ∈ trace →
    ∃ held, object = .obj (withTemplate raw spec held)
  listed : ∀ i sp query items, (i, .asked (.listRevisions sp query) (.ok items)) ∈ trace →
    Memory.listed sp m.revisions = .ok items
  revisions : now.revisions = m.revisions
  stored : ∃ held, everywhere isPortablePart (.obj held) = true
    ∧ now.find? kind space name = some (.obj (withTemplate raw spec held))
    ∧ IsOfLast m kind raw current target (lastToPatch? kind space name trace) held

variable {raw spec current held : Fields Json} {target : ι → Int}
  {trace : List (ι × Step Call Call.Answer)} {now : Memory} {i : ι}

/-- At first the initial template is stored. -/
theorem HasRecords.isConsistent (h : HasRecords m kind space name raw spec current)
    (target : ι → Int) : IsConsistent m kind space name raw spec current target [] m where
  read := nofun
  listed := nofun
  revisions := rfl
  stored := by
    refine ⟨current, ?_, ?_, rfl⟩
    · exact Json.everywhere_of_get? (Json.everywhere_of_get? h.portable h.specified) h.templated
    · rw [Workload.withTemplate_self h.specified h.templated]
      exact h.stored

/-! ## One call -/

/-- What is done next agrees with what is stored if what is read and listed by it does, and
what it leaves stored. -/
theorem IsConsistent.concat (h : IsConsistent m kind space name raw spec current target trace now)
    {x : Step Call Call.Answer} {now' : Memory}
    (hread : ∀ object, x = .asked (.read kind space name) (.ok object) →
      ∃ held, object = .obj (withTemplate raw spec held))
    (hlisted : ∀ sp query items, x = .asked (.listRevisions sp query) (.ok items) →
      Memory.listed sp m.revisions = .ok items)
    (hrevisions : now'.revisions = now.revisions)
    (hstored : ∃ held, everywhere isPortablePart (.obj held) = true
      ∧ now'.find? kind space name = some (.obj (withTemplate raw spec held))
      ∧ IsOfLast m kind raw current target (if isPatchOf kind space name x then some i
        else lastToPatch? kind space name trace) held) :
    IsConsistent m kind space name raw spec current target (trace ++ [(i, x)]) now' where
  read j object hmem := by
    obtain hmem | hmem := List.mem_append.mp hmem
    · exact h.read j object hmem
    · exact hread object (Prod.mk.inj (List.mem_singleton.mp hmem)).2.symm
  listed j sp query items hmem := by
    obtain hmem | hmem := List.mem_append.mp hmem
    · exact h.listed j sp query items hmem
    · exact hlisted sp query items (Prod.mk.inj (List.mem_singleton.mp hmem)).2.symm
  revisions := hrevisions.trans h.revisions
  stored := by
    rw [lastToPatch?_concat]
    exact hstored

/-- The history that was read is that of the initial object. -/
theorem owned_eq_of_read {live : Workload} {candidates : List Snapshot}
    (hread : workloadRead kind space name (.ok (.obj (withTemplate raw spec held))) = .ok live)
    (hlisted : snapshotsListed live.space (Memory.listed live.space m.revisions) = .ok candidates) :
    m.owned kind raw = .ok (History.ownedSnapshots live candidates) := by
  have hlive : Workload.ofFields kind (withKind kind (withTemplate raw spec held)) = .ok live :=
    hread
  have hinitial : Workload.ofFields kind (withKind kind raw)
      = .ok { live with raw := withKind kind raw } := by
    refine Workload.ofFields_of_metadata hlive ?_
    rw [Api.get?_withKind kind _ (by decide), Api.get?_withKind kind _ (by decide), withTemplate,
      Fields.get?_set, if_neg (by decide)]
  exact Outcome.bind_eq_ok_iff.mpr ⟨_, hinitial,
    Outcome.bind_eq_ok_iff.mpr ⟨candidates, hlisted, rfl⟩⟩

/-- **A record that is sent to the object** is accepted as the template, whatever the
object holds by then. -/
theorem HasRecords.patched_of_records (h : HasRecords m kind space name raw spec current)
    (hheld : everywhere isPortablePart (.obj held) = true)
    (hfind : now.find? kind space name = some (.obj (withTemplate raw spec held)))
    {s : Snapshot} {template : Fields Json} (hs : s.Records template) {d body : Json}
    (hdata : s.data = Json.encode d) (hbody : Json.decode s.data = .ok body) :
    now.patched kind space name body = .ok (.obj (withTemplate raw spec template)) := by
  obtain ⟨patch, hdecode, hreread, happlied⟩ := hs.appliedDocument hdata
    (Workload.everywhere_withTemplate h.portable h.specified hheld)
    (Workload.get?_spec_withTemplate raw spec held) (Workload.get?_template_set spec held)
  obtain rfl := Except.ok.inj (hdecode.symm.trans hbody)
  rw [Workload.withTemplate_withTemplate] at happlied
  rw [Memory.patched, hfind, hreread]
  simp only [happlied]

/-- A call that is no patch, or is refused, changes nothing. -/
theorem IsConsistent.unpatched
    (h : IsConsistent m kind space name raw spec current target trace now)
    {x : Step Call Call.Answer} (hpatch : isPatchOf kind space name x = false)
    (hread : ∀ object, x = .asked (.read kind space name) (.ok object) →
      now.find? kind space name = some object)
    (hlisted : ∀ sp query items, x = .asked (.listRevisions sp query) (.ok items) →
      Memory.listed sp now.revisions = .ok items) :
    IsConsistent m kind space name raw spec current target (trace ++ [(i, x)]) now := by
  obtain ⟨held, hheld, hfind, hlast⟩ := h.stored
  refine h.concat (fun object heq => ⟨held, ?_⟩) (fun sp query items heq => ?_) rfl
    ⟨held, hheld, hfind, ?_⟩
  · exact Option.some.inj ((hread object heq).symm.trans hfind)
  · rw [← h.revisions]
    exact hlisted sp query items heq
  · rw [hpatch]
    exact hlast

/-- A patch of another object leaves this one as it is. -/
theorem IsConsistent.patched_elsewhere
    (h : IsConsistent m kind space name raw spec current target trace now) {k : Kind}
    {sp n : Text} {body object : Json} (hne : ¬(k = kind ∧ sp = space ∧ n = name)) :
    IsConsistent m kind space name raw spec current target
      (trace ++ [(i, .asked (.patch k sp n body) (.ok object))]) (now.put ⟨k, sp, n, object⟩) := by
  obtain ⟨held, hheld, hfind, hlast⟩ := h.stored
  have hat : Memory.isAt kind space name ⟨k, sp, n, object⟩ = false :=
    Bool.eq_false_iff.mpr fun hat => hne (Memory.isAt_iff.mp hat)
  refine h.concat nofun nofun rfl ⟨held, hheld, ?_, ?_⟩
  · rw [Memory.find?_put, hat]
    exact hfind
  · show IsOfLast m kind raw current target
      (if Memory.isAt kind space name ⟨k, sp, n, object⟩ = true then _ else _) held
    rw [hat]
    exact hlast

section Callers

variable [DecidableEq ι]

/-- **A patch with a reason puts a record in the place of the template.** -/
theorem HasRecords.isConsistent_patch (h : HasRecords m kind space name raw spec current)
    (hnow : IsConsistent m kind space name raw spec current target trace now)
    (hspace : w.space = space) (hname : w.name = name) {live : Workload}
    {candidates : List Snapshot} {s : Snapshot} {body object : Json}
    (hsent : IsSent kind w (target i) (stepsOf trace i) live candidates s body)
    (hanswer : now.answer (.patch kind space name body) = .ok object) :
    IsConsistent m kind space name raw spec current target
      (trace ++ [(i, .asked (.patch kind space name body) (.ok object))])
      (now.put ⟨kind, space, name, object⟩) := by
  subst hspace hname
  obtain ⟨found, hfound, hlive⟩ := hsent.read
  obtain ⟨query, items, hitems, hcandidates⟩ := hsent.listed
  -- what was read and listed may be old, but is what it was in the beginning
  obtain ⟨old, rfl⟩ := hnow.read i found (Program.mem_stepsOf_iff.mp hfound)
  rw [← hnow.listed i _ _ _ (Program.mem_stepsOf_iff.mp hitems)] at hcandidates
  have howned := owned_eq_of_read hlive hcandidates
  have hs := Revision.mem_of_select hsent.chosen
  obtain ⟨template, hrecords⟩ := h.records _ howned s hs
  obtain ⟨d, hdata⟩ := exists_data_eq_encode_of_listed hcandidates s (List.mem_filter.mp hs).1
  obtain ⟨held, hheld, hfind, -⟩ := hnow.stored
  have hpatched := h.patched_of_records hheld hfind hrecords hdata hsent.data
  obtain rfl := Except.ok.inj ((Memory.content_eq_ok hanswer).symm.trans hpatched)
  refine hnow.concat nofun nofun rfl ⟨template, hrecords.portable hdata,
    Memory.find?_put_self now _ _ _ _, ?_⟩
  rw [isPatchOf, decide_eq_true rfl, decide_eq_true rfl, decide_eq_true rfl]
  exact ⟨_, s, howned, hsent.chosen, hrecords⟩

/-- **A call that may be made keeps what is stored consistent**, whether it fails or not. -/
theorem HasRecords.isConsistent_call (h : HasRecords m kind space name raw spec current)
    (hnow : IsConsistent m kind space name raw spec current target trace now)
    (hspace : w.space = space) (hname : w.name = name) {c : Call}
    (hmay : MayCall kind w (target i) (stepsOf trace i) c) (refusal : Option CallError) :
    IsConsistent m kind space name raw spec current target
      (trace ++ [(i, .asked c (now.serveUnless refusal c).1)]) (now.serveUnless refusal c).2 := by
  cases refusal with
  | some e =>
    exact hnow.unpatched (by cases c <;> rfl) (by rintro _ ⟨⟩) (by rintro _ _ _ ⟨⟩)
  | none =>
    show IsConsistent m kind space name raw spec current target
      (trace ++ [(i, .asked c (now.answer c))]) (now.after c (now.answer c))
    cases c with
    | patch k sp n body =>
      obtain ⟨-, rfl, live, candidates, s, hsent, rfl, rfl⟩ := hmay
      cases hanswer : now.answer (.patch k live.space live.name body) with
      | error e => exact hnow.unpatched rfl (by rintro _ ⟨⟩) (by rintro _ _ _ ⟨⟩)
      | ok object =>
        by_cases hplace : k = k ∧ live.space = space ∧ live.name = name
        · obtain ⟨-, hsp, hn⟩ := hplace
          rw [hsp, hn] at hanswer ⊢
          exact h.isConsistent_patch hnow hspace hname hsent hanswer
        · exact hnow.patched_elsewhere hplace
    | read k sp n =>
      refine hnow.unpatched rfl (fun object heq => ?_) (by rintro _ _ _ ⟨⟩)
      obtain ⟨hq, hanswer⟩ := Step.asked.inj heq
      cases hq
      have hcontent := Memory.content_eq_ok (eq_of_heq hanswer)
      cases hfind : now.find? kind space name with
      | none =>
        rw [Memory.content, hfind] at hcontent
        cases hcontent
      | some stored =>
        rw [Memory.content, hfind] at hcontent
        exact congrArg some (Except.ok.inj hcontent)
    | listRevisions sp query =>
      refine hnow.unpatched rfl (by rintro _ ⟨⟩) fun sp' query' items heq => ?_
      obtain ⟨hq, hanswer⟩ := Step.asked.inj heq
      cases hq
      exact Memory.content_eq_ok (eq_of_heq hanswer)
    | _ => exact hnow.unpatched rfl (by rintro _ ⟨⟩) (by rintro _ _ _ ⟨⟩)

/-! ## Many callers -/

/-- **Several rollbacks at the same time**: what they have come to after a schedule, which
says for every call whose it is and whether it is refused. -/
def together (m : Memory) (seconds : Int) (kind : Kind) (callers : ι → Workload × Order)
    (schedule : List (ι × Option CallError)) : Session ι Call Call.Answer Memory Ending :=
  (Session.start (fun i => Api.talk seconds (rollBack kind (callers i).1 (callers i).2)) m).after
    Memory.serveUnless schedule

/-- **Templates are not mixed.** Let the revisions that a workload controls record
templates, and let any number of callers roll it back at the same time. However their
calls are interleaved and whichever of them fail, the stored object is at any time the
initial one but for its template; this is the initial one as long as nobody has patched
the object, and afterwards the one that is recorded for the target of whoever patched it
last. Nobody sends more than one patch. -/
theorem templates_are_not_mixed (h : HasRecords m kind space name raw spec current)
    {callers : ι → Workload × Order}
    (hcallers : ∀ i, (callers i).1.space = space ∧ (callers i).1.name = name) (seconds : Int)
    (schedule : List (ι × Option CallError)) :
    let now := together m seconds kind callers schedule
    (∃ held, now.state.find? kind space name = some (.obj (withTemplate raw spec held))
      ∧ IsOfLast m kind raw current (fun i => (callers i).2.target)
        (lastToPatch? kind space name now.trace) held)
    ∧ ∀ i, (questions Call.isPatch (stepsOf now.trace i)).length ≤ 1 := by
  intro now
  let target : ι → Int := fun i => (callers i).2.target
  have hstart := Session.keeps_start
    (fun i => obeys_mayCall kind (callers i).1 (callers i).2 seconds) m
  have hcall : ∀ trace now i c refusal, IsConsistent m kind space name raw spec current target trace
      now → MayCall kind (callers i).1 (target i) (stepsOf trace i) c →
      IsConsistent m kind space name raw spec current target
        (trace ++ [(i, .asked c (now.serveUnless refusal c).1)]) (now.serveUnless refusal c).2 :=
    fun _ _ i _ refusal hnow hmay =>
      h.isConsistent_call hnow (hcallers i).1 (hcallers i).2 hmay refusal
  obtain ⟨hkeeps, hnow⟩ := Session.invariant
    (fun _ _ _ _ hnow => hnow.unpatched rfl nofun nofun) hcall hstart (h.isConsistent target)
    schedule
  obtain ⟨held, -, hfind, hlast⟩ := hnow.stored
  refine ⟨⟨held, hfind, hlast⟩, fun i => ?_⟩
  refine (hkeeps i).1.length_questions_le_one fun before c hmay hc => ?_
  cases c with
  | patch => exact hmay.1
  | _ => cases hc

end Callers

/-- The daemon set with a revision that is not the live one. -/
def webPast : Memory :=
  webCluster [webRevision 1 (webRecord "web:1")]

theorem hasRecords_web :
    HasRecords webPast .daemonSet "default" "web" webSet webSpec (webTemplate "web:2") where
  stored := rfl
  portable := by decide
  specified := rfl
  templated := rfl
  records := by
    intro history howned s hs
    have hhistory : webPast.owned .daemonSet webSet = .ok [webSnapshot 1 "web:1"] := rfl
    obtain rfl := Except.ok.inj (hhistory.symm.trans howned)
    obtain rfl := List.mem_singleton.mp hs
    exact ⟨_, records_webSnapshot ⟨by decide, by decide⟩ (by decide) 1⟩

/-- Callers who go back to the revision. -/
def webCallers (_ : Fin 3) : Workload × Order :=
  (webWorkload, ⟨1, false, [], false⟩)

/-- All of them read before any of them patches, and the patch of the last is refused. -/
def webSchedule : List (Fin 3 × Option CallError) :=
  [(0, none), (1, none), (2, none), (0, none), (1, none), (2, none), (0, none), (1, none),
    (2, none), (0, none), (1, none), (2, some .malformed)]

theorem templates_are_not_mixed_web :
    ∃ held history s, (together webPast 0 .daemonSet webCallers webSchedule).state.find? .daemonSet
        "default" "web" = some (.obj (withTemplate webSet webSpec held))
      ∧ webPast.owned .daemonSet webSet = .ok history
      ∧ Revision.select history (webCallers 1).2.target = .ok s ∧ s.Records held := by
  have hlast : lastToPatch? .daemonSet "default" "web"
      (together webPast 0 .daemonSet webCallers webSchedule).trace = some 1 := by
    decide +kernel
  have hcallers : ∀ i, (webCallers i).1.space = "default" ∧ (webCallers i).1.name = "web" :=
    fun _ => ⟨rfl, rfl⟩
  obtain ⟨⟨held, hfind, hheld⟩, -⟩ := templates_are_not_mixed hasRecords_web hcallers 0 webSchedule
  rw [hlast] at hheld
  obtain ⟨history, s, howned, hselect, hs⟩ := hheld
  exact ⟨held, history, s, hfind, howned, hselect, hs⟩

end Rollback
end Rollout
