import Rollout.Proofs.Json.RoundTrip
import Rollout.Proofs.Rollback.Preview

/-!
# Rollbacks converge

A rollback leaves no trace but the template it goes back to: after any sequence of
rollbacks the cluster is the initial one with a single object replaced, and that object
is the initial one with a single field replaced (`Rollback.rollbacks_converge`). So the
order in which revisions were gone back to does not matter, and neither does how often;
the last rollback decides.

The invariant is that the cluster *holds* a template (`Api.Memory.holding`): it is the
initial one with that template put into the object. Holding a template a cluster has the
same history as before, since what identifies a workload, and what selects its
revisions, is not in the template. One rollback takes a cluster that holds one template
to one that holds another, or leaves it alone where the two are equal
(`Rollback.IsRecorded.rolledBack_of_eqv`, `Rollback.IsRecorded.rolledBack_of_not_eqv`).
-/

namespace Rollout

open Api (Memory workloadRead workloadPatched snapshotsListed withKind)
open Json (everywhere isPortablePart)
open Workload (withTemplate)

namespace Api.Memory

/-- **The cluster with a template** put into an object that it stores. -/
def holding (m : Memory) (kind : Kind) (space name : Text) (raw spec template : Fields Json) :
    Memory :=
  m.put ⟨kind, space, name, .obj (withTemplate raw spec template)⟩

/-- **The cluster after rollbacks**, one after the other. -/
def afterAll (m : Memory) (seconds : Int) : List (Workload × Rollback.Order) → Memory
  | [] => m
  | (w, order) :: rest => afterAll (m.rolledBack seconds w order).state seconds rest

end Api.Memory

namespace Rollback

/-- **A workload whose revisions record templates.** The object is stored under its own
name and is read as it was written; its history can be resolved, no number repeats in
it, and each of its snapshots is the record of a template. -/
structure IsRecorded (m : Memory) (kind : Kind) (space name : Text)
    (raw spec current : Fields Json) (history : List Snapshot) : Prop where
  faultless : m.faults = []
  snapshots : kind ≠ .deployment
  stored : m.find? kind space name = some (.obj raw)
  portable : everywhere isPortablePart (.obj raw) = true
  specified : Fields.get? raw "spec" = some (.obj spec)
  templated : Fields.get? spec "template" = some (.obj current)
  read : ∃ live, m.history kind space name = .ok (live, history)
    ∧ live.space = space ∧ live.name = name
  distinct : history.Pairwise (fun s t => s.revision ≠ t.revision)
  records : ∀ s ∈ history, ∃ template, s.Records template

/-- **A real rollback of the workload** to a revision that there is: one of a recorded
number, or the one before the last of at least two. -/
structure IsAsked (kind : Kind) (space name : Text) (history : List Snapshot) (w : Workload)
    (order : Order) : Prop where
  kind : w.kind = kind
  space : w.space = space
  name : w.name = name
  real : order.dryRun = false
  target : (order.target = Revision.previousTarget ∧ 2 ≤ history.length)
    ∨ (0 < order.target ∧ ∃ s ∈ history, s.revision = order.target)

variable {m : Memory} {kind : Kind} {space name : Text} {raw spec current held : Fields Json}
  {history : List Snapshot}

/-! ## A cluster that holds a template -/

/-- The initial cluster holds the initial template. -/
theorem IsRecorded.holding_current (h : IsRecorded m kind space name raw spec current history) :
    m.holding kind space name raw spec current = m := by
  rw [Memory.holding, Workload.withTemplate_self h.specified h.templated]
  exact Memory.put_of_find? h.stored

/-- The copy that is read has the specification that is stored. -/
theorem get?_spec_holding (kind : Kind) (raw spec held : Fields Json) :
    Fields.get? (withKind kind (withTemplate raw spec held)) "spec"
      = some (.obj (Fields.set spec "template" (.obj held))) := by
  rw [Api.get?_withKind kind _ (by decide), Workload.get?_spec_withTemplate]

/-- The cluster has no faults whatever it holds. -/
theorem IsRecorded.faultless_holding (h : IsRecorded m kind space name raw spec current history)
    (held : Fields Json) : (m.holding kind space name raw spec held).faults = [] :=
  h.faultless

/-- **The history does not depend on the template that is held.** -/
theorem IsRecorded.history_holding (h : IsRecorded m kind space name raw spec current history)
    (held : Fields Json) :
    ∃ live, (m.holding kind space name raw spec held).history kind space name
        = .ok (live, history)
      ∧ live.space = space ∧ live.name = name
      ∧ Workload.ofFields kind (withKind kind (withTemplate raw spec held)) = .ok live := by
  obtain ⟨live, hread, hspace, hname⟩ := h.read
  obtain ⟨found, hfound, hread⟩ := Outcome.bind_eq_ok_iff.mp hread
  obtain ⟨query, hquery, hread⟩ := Outcome.bind_eq_ok_iff.mp hread
  obtain ⟨candidates, hlisted, hread⟩ := Outcome.bind_eq_ok_iff.mp hread
  obtain ⟨rfl, rfl⟩ := Prod.mk.inj (Except.ok.inj hread)
  rw [Memory.answer_of_faultless h.faultless, Memory.content, h.stored] at hfound
  have hfields : Workload.ofFields kind (withKind kind raw) = .ok found := hfound
  -- the object is read as another, of the same name and with the same selector
  let other : Workload := { found with raw := withKind kind (withTemplate raw spec held) }
  have hother : Workload.ofFields kind (withKind kind (withTemplate raw spec held)) = .ok other := by
    refine Workload.ofFields_of_metadata hfields ?_
    rw [Api.get?_withKind kind _ (by decide), Api.get?_withKind kind _ (by decide), withTemplate,
      Fields.get?_set, if_neg (by decide)]
  have hread : workloadRead kind space name
      ((m.holding kind space name raw spec held).answer (.read kind space name)) = .ok other := by
    rw [Memory.answer_of_faultless (h.faultless_holding held), Memory.content, Memory.holding,
      Memory.find?_put_self]
    exact hother
  have hselector : other.selector = found.selector := by
    have hspec : Fields.get? found.raw "spec" = some (.obj spec) := by
      rw [(Workload.eq_of_ofFields hfields).2, Api.get?_withKind kind _ (by decide), h.specified]
    rw [Workload.selector_of_get? hspec,
      Workload.selector_of_get? (get?_spec_holding kind raw spec held), Fields.getD, Fields.getD,
      Fields.get?_set, if_neg (by decide)]
  refine ⟨other, ?_, hspace, hname, hother⟩
  refine Outcome.bind_eq_ok_iff.mpr ⟨other, hread, Outcome.bind_eq_ok_iff.mpr ⟨query, ?_,
    Outcome.bind_eq_ok_iff.mpr ⟨candidates, hlisted, rfl⟩⟩⟩
  rw [History.queryOf, hselector]
  exact hquery

/-- The object that is held is one that is read as it was written, its copy too. -/
theorem IsRecorded.portable_holding (h : IsRecorded m kind space name raw spec current history)
    (hheld : everywhere isPortablePart (.obj held) = true) :
    everywhere isPortablePart (.obj (withTemplate raw spec held)) = true
      ∧ everywhere isPortablePart (.obj (withKind kind (withTemplate raw spec held))) = true := by
  have hobject := Workload.everywhere_withTemplate h.portable h.specified hheld
  refine ⟨hobject, ?_⟩
  unfold withKind
  split
  · exact hobject
  · refine Json.everywhere_isPortablePart_set hobject (Text.joined_ofChars "kind".toList) ?_
    cases kind <;> decide

/-- The template that is held is the one that is stored. -/
theorem IsRecorded.template_holding (h : IsRecorded m kind space name raw spec current history)
    (held : Fields Json) :
    (m.holding kind space name raw spec held).template kind space name = .ok (.obj held) := by
  obtain ⟨live, -, -, -, hlive⟩ := h.history_holding held
  have hpatched : workloadPatched kind space name (.ok (.obj (withTemplate raw spec held)))
      = .ok { live with raw := withTemplate raw spec held } := by
    refine Workload.ofFields_of_metadata hlive ?_
    exact Api.get?_withKind kind _ (by decide)
  rw [Memory.holding, Memory.template_put m hpatched]
  exact Workload.template_withTemplate rfl

/-- **The record that is selected is what is planned**, whatever is held. -/
theorem IsRecorded.planned_holding (h : IsRecorded m kind space name raw spec current history)
    (hheld : everywhere isPortablePart (.obj held) = true) {target : Int} {s : Snapshot}
    {template : Fields Json} (hselect : Revision.select history target = .ok s)
    (hs : s.Records template) :
    ∃ live, (m.holding kind space name raw spec held).history kind space name = .ok (live, history)
      ∧ live.space = space ∧ live.name = name
      ∧ planned live history target = .ok (s, .obj template) := by
  obtain ⟨live, hread, hspace, hname, hlive⟩ := h.history_holding held
  obtain ⟨hkind, hraw⟩ := Workload.eq_of_ofFields hlive
  obtain ⟨d, hdata⟩ := exists_data_eq_encode hread s (Revision.mem_of_select hselect)
  have hportable := (h.portable_holding hheld).2
  have hspec := get?_spec_holding kind raw spec held
  rw [← hraw] at hportable hspec
  rw [← hraw, ← hkind] at hlive
  have happlied := Workload.atRevision_of_records hlive hs hdata hportable hspec
    (Workload.get?_template_set spec held)
  refine ⟨live, hread, hspace, hname, ?_⟩
  rw [planned, hselect]
  show (live.atRevision s >>= _) = _
  rw [happlied]
  show (Workload.template _ >>= _) = _
  rw [Workload.template_withTemplate rfl]
  rfl

/-! ## One rollback -/

variable {w : Workload} {order : Order} {s : Snapshot} {template : Fields Json}

/-- **A rollback to the template that is held** is skipped. -/
theorem IsRecorded.rolledBack_of_eqv (h : IsRecorded m kind space name raw spec current history)
    (hheld : everywhere isPortablePart (.obj held) = true)
    (hask : IsAsked kind space name history w order)
    (hselect : Revision.select history order.target = .ok s) (hs : s.Records template)
    (heqv : (Json.obj template).eqv (.obj held) = true) (seconds : Int) :
    let run := (m.holding kind space name raw spec held).rolledBack seconds w order
    run.result = .ok (.skipped ("current template already matches revision " ++ .ofInt s.revision))
      ∧ run.state = m.holding kind space name raw spec held
      ∧ run.asked.filter Api.Call.isPatch = [] := by
  obtain ⟨rfl, rfl, rfl, hreal, -⟩ := hask
  obtain ⟨live, hread, -, -, hplan⟩ := h.planned_holding hheld hselect hs
  exact Rollback.rolledBack_of_eqv (h.faultless_holding held) h.snapshots seconds hread hplan hreal
    (h.template_holding held) heqv

/-- **A rollback to another template** sends one patch, and the cluster holds that template
afterwards. -/
theorem IsRecorded.rolledBack_of_not_eqv
    (h : IsRecorded m kind space name raw spec current history)
    (hheld : everywhere isPortablePart (.obj held) = true)
    (hask : IsAsked kind space name history w order)
    (hselect : Revision.select history order.target = .ok s) (hs : s.Records template)
    (heqv : (Json.obj template).eqv (.obj held) = false) (seconds : Int) :
    let run := (m.holding kind space name raw spec held).rolledBack seconds w order
    run.result = .ok .succeeded
      ∧ run.state = m.holding kind space name raw spec template
      ∧ ∃ body, run.asked.filter Api.Call.isPatch = [.patch kind space name body] := by
  obtain ⟨rfl, rfl, rfl, hreal, -⟩ := hask
  obtain ⟨live, hread, hspace, hname, hplan⟩ := h.planned_holding hheld hselect hs
  obtain ⟨d, hdata⟩ := exists_data_eq_encode hread s (Revision.mem_of_select hselect)
  obtain ⟨body, object, hbody, hanswer, hresult, hstate, -, hone⟩ :=
    Rollback.rolledBack_of_not_eqv (h.faultless_holding held) h.snapshots hspace hname seconds hread
      hplan hreal (h.template_holding held) heqv
  -- what the cluster makes of the patch is the object with the template
  have hobject : object = .obj (withTemplate raw spec template) := by
    obtain ⟨patch, hdecode, hreread, happlied⟩ := hs.appliedDocument hdata
      (h.portable_holding hheld).1 (Workload.get?_spec_withTemplate raw spec held)
      (Workload.get?_template_set spec held)
    obtain rfl := Except.ok.inj (hdecode.symm.trans hbody)
    rw [Memory.answer_patch (h.faultless_holding held) (Memory.find?_put_self m _ _ _ _)
      (hreread.symm ▸ happlied), Workload.withTemplate_withTemplate] at hanswer
    exact (Except.ok.inj hanswer).symm
  refine ⟨hresult, ?_, body, hone⟩
  rw [hstate, hobject, Memory.holding, Memory.put_put]
  rfl

/-! ## Many rollbacks -/

/-- **What is asked for is recorded.** -/
theorem IsRecorded.exists_record (h : IsRecorded m kind space name raw spec current history)
    (hask : IsAsked kind space name history w order) :
    ∃ s template, Revision.select history order.target = .ok s
      ∧ Revision.IsTarget history order.target s ∧ s.Records template
      ∧ everywhere isPortablePart (.obj template) = true := by
  obtain ⟨s, hselect, htarget⟩ := Revision.exists_select h.distinct hask.target
  obtain ⟨template, hs⟩ := h.records s htarget.mem
  obtain ⟨live, hread, -⟩ := h.read
  obtain ⟨d, hdata⟩ := exists_data_eq_encode hread s htarget.mem
  exact ⟨s, template, hselect, htarget, hs, hs.portable hdata⟩

/-- The initial template is read as it was written. -/
theorem IsRecorded.portable_current (h : IsRecorded m kind space name raw spec current history) :
    everywhere isPortablePart (.obj current) = true :=
  Json.everywhere_of_get? (Json.everywhere_of_get? h.portable h.specified) h.templated

/-- **After any rollbacks the cluster holds a template**, and has not changed otherwise. -/
theorem IsRecorded.exists_holding (h : IsRecorded m kind space name raw spec current history)
    (seconds : Int) {past : List (Workload × Order)}
    (hpast : ∀ p ∈ past, IsAsked kind space name history p.1 p.2)
    (hheld : everywhere isPortablePart (.obj held) = true) :
    ∃ after, everywhere isPortablePart (.obj after) = true
      ∧ (m.holding kind space name raw spec held).afterAll seconds past
        = m.holding kind space name raw spec after := by
  induction past generalizing held with
  | nil => exact ⟨held, hheld, rfl⟩
  | cons p past ih =>
    obtain ⟨hask, hpast⟩ := List.forall_mem_cons.mp hpast
    obtain ⟨s, template, hselect, -, hs, htemplate⟩ := h.exists_record hask
    show ∃ after, _ ∧ Memory.afterAll (Memory.rolledBack _ seconds p.1 p.2).state seconds past = _
    cases heqv : (Json.obj template).eqv (.obj held) with
    | true =>
      rw [(h.rolledBack_of_eqv hheld hask hselect hs heqv seconds).2.1]
      exact ih hpast hheld
    | false =>
      rw [(h.rolledBack_of_not_eqv hheld hask hselect hs heqv seconds).2.1]
      exact ih hpast htemplate

/-- **Rollbacks converge.** Let the revisions of a workload record templates. After any
rollbacks in the past, the next one leaves the initial cluster with the initial object in
its place, but for its template, which is then equal to the one that is recorded for the
target. If the recorded template differs from the stored one, the rollback succeeds with
a single patch; otherwise it is skipped, and nothing is patched or changed. So it is when
the same target is asked for again. -/
theorem rollbacks_converge (h : IsRecorded m kind space name raw spec current history)
    (seconds : Int) {past : List (Workload × Order)}
    (hpast : ∀ p ∈ past, IsAsked kind space name history p.1 p.2)
    (hask : IsAsked kind space name history w order) :
    let before := m.afterAll seconds past
    let run := before.rolledBack seconds w order
    ∃ s template stored after, Revision.IsTarget history order.target s ∧ s.Records template
      ∧ before = m.put ⟨kind, space, name, .obj (withTemplate raw spec stored)⟩
      ∧ run.state = m.put ⟨kind, space, name, .obj (withTemplate raw spec after)⟩
      ∧ (Json.obj template).eqv (.obj after) = true
      ∧ ((Json.obj template).eqv (.obj stored) = false →
        run.result = .ok .succeeded ∧ after = template
          ∧ ∃ body, run.asked.filter Api.Call.isPatch = [.patch kind space name body])
      ∧ ((Json.obj template).eqv (.obj stored) = true →
        (∃ detail, run.result = .ok (.skipped detail)) ∧ run.state = before
          ∧ run.asked.filter Api.Call.isPatch = [])
      ∧ ∀ w' order', IsAsked kind space name history w' order' → order'.target = order.target →
        let again := run.state.rolledBack seconds w' order'
        (∃ detail, again.result = .ok (.skipped detail)) ∧ again.state = run.state
          ∧ again.asked.filter Api.Call.isPatch = [] := by
  obtain ⟨stored, hstored, hbefore⟩ := h.exists_holding seconds hpast h.portable_current
  rw [h.holding_current] at hbefore
  obtain ⟨s, template, hselect, htarget, hs, htemplate⟩ := h.exists_record hask
  rw [hbefore]
  -- what is held when the template is live is held when it is asked for again
  have hagain : ∀ {after : Fields Json}, everywhere isPortablePart (.obj after) = true →
      (Json.obj template).eqv (.obj after) = true →
      ∀ w' order', IsAsked kind space name history w' order' → order'.target = order.target →
        let again := (m.holding kind space name raw spec after).rolledBack seconds w' order'
        (∃ detail, again.result = .ok (.skipped detail))
          ∧ again.state = m.holding kind space name raw spec after
          ∧ again.asked.filter Api.Call.isPatch = [] := by
    intro after hafter heqv w' order' hask' htarget'
    obtain ⟨hresult, hrest⟩ :=
      h.rolledBack_of_eqv hafter hask' (htarget' ▸ hselect) hs heqv seconds
    exact ⟨⟨_, hresult⟩, hrest⟩
  cases heqv : (Json.obj template).eqv (.obj stored) with
  | true =>
    obtain ⟨hresult, hstate, hnone⟩ :=
      h.rolledBack_of_eqv hstored hask hselect hs heqv seconds
    refine ⟨s, template, stored, stored, htarget, hs, rfl, hstate, heqv,
      fun hne => absurd (heqv.symm.trans hne) nofun,
      fun _ => ⟨⟨_, hresult⟩, hstate, hnone⟩, ?_⟩
    rw [hstate]
    exact hagain hstored heqv
  | false =>
    obtain ⟨hresult, hstate, hone⟩ :=
      h.rolledBack_of_not_eqv hstored hask hselect hs heqv seconds
    have hself : (Json.obj template).eqv (.obj template) = true :=
      Json.same_refl (Json.wellFormed_of_everywhere htemplate)
    refine ⟨s, template, stored, template, htarget, hs, rfl, hstate, hself,
      fun _ => ⟨hresult, rfl, hone⟩, fun heq => absurd (heq.symm.trans heqv) nofun, ?_⟩
    rw [hstate]
    exact hagain htemplate hself

/-- The patch that is recorded for a template. -/
def webRecord (image : Text) : Json :=
  Patch.record (("$patch", .str "replace") :: webTemplate image)

/-- The snapshot of a revision. -/
def webSnapshot (revision : Int) (image : Text) : Snapshot :=
  ⟨"web-1", "default", revision, Json.encode (webRecord image), [⟨"", "", "u-1", "", true⟩], [], []⟩

/-- A snapshot of the daemon set records a template. -/
theorem records_webSnapshot {image : Text} (hportable : Json.Portable (webRecord image))
    (hplain : everywhere Json.isPlainPart (.obj (webTemplate image)) = true) (revision : Int) :
    (webSnapshot revision image).Records (webTemplate image) where
  plain := hplain
  data := ⟨("$patch", .str "replace") :: webTemplate image, Json.decode_encode hportable, by rfl,
    by rfl⟩

/-- The daemon set with two revisions, of which the last is live. -/
theorem isRecorded_web :
    IsRecorded (webCluster [webRevision 1 (webRecord "web:1"), webRevision 2 (webRecord "web:2")])
      .daemonSet "default" "web" webSet webSpec (webTemplate "web:2")
      [webSnapshot 1 "web:1", webSnapshot 2 "web:2"] where
  faultless := rfl
  snapshots := nofun
  stored := rfl
  portable := by decide
  specified := rfl
  templated := rfl
  read := by
    have hquery : (History.queryOf { webWorkload with raw := withKind .daemonSet webSet }).isOk
        = true := by
      decide +kernel
    cases hq : History.queryOf { webWorkload with raw := withKind .daemonSet webSet } with
    | error e =>
      rw [hq] at hquery
      cases hquery
    | ok query =>
      refine ⟨{ webWorkload with raw := withKind .daemonSet webSet }, ?_, rfl, rfl⟩
      exact Outcome.bind_eq_ok_iff.mpr ⟨_, by rfl, Outcome.bind_eq_ok_iff.mpr ⟨query, hq,
        Outcome.bind_eq_ok_iff.mpr ⟨[webSnapshot 1 "web:1", webSnapshot 2 "web:2"], by rfl, by rfl⟩⟩⟩
  distinct := by decide
  records := by
    intro s hs
    rcases List.mem_cons.mp hs with rfl | hs
    · exact ⟨_, records_webSnapshot ⟨by decide, by decide⟩ (by decide) 1⟩
    · obtain rfl := List.mem_singleton.mp hs
      exact ⟨_, records_webSnapshot ⟨by decide, by decide⟩ (by decide) 2⟩

theorem rollbacks_converge_web :
    let m := webCluster [webRevision 1 (webRecord "web:1"), webRevision 2 (webRecord "web:2")]
    let run := (m.afterAll 0 [(webWorkload, ⟨1, false, [], false⟩)]).rolledBack 0 webWorkload
      ⟨Revision.previousTarget, false, [], false⟩
    ∃ template after,
      run.state = m.put ⟨.daemonSet, "default", "web", .obj (withTemplate webSet webSpec after)⟩
      ∧ (Json.obj template).eqv (.obj after) = true
      ∧ (run.result = .ok .succeeded ∨ ∃ detail, run.result = .ok (.skipped detail)) := by
  intro m run
  have hpast : ∀ p ∈ [(webWorkload, (⟨1, false, [], false⟩ : Order))],
      IsAsked .daemonSet "default" "web" [webSnapshot 1 "web:1", webSnapshot 2 "web:2"] p.1 p.2 := by
    intro p hp
    obtain rfl := List.mem_singleton.mp hp
    exact ⟨rfl, rfl, rfl, rfl, .inr ⟨by decide, webSnapshot 1 "web:1", List.mem_cons_self, rfl⟩⟩
  have hask : IsAsked .daemonSet "default" "web" [webSnapshot 1 "web:1", webSnapshot 2 "web:2"]
      webWorkload ⟨Revision.previousTarget, false, [], false⟩ :=
    ⟨rfl, rfl, rfl, rfl, .inl ⟨rfl, by decide⟩⟩
  obtain ⟨-, template, stored, after, -, -, -, hstate, heqv, hdiffers, hsame, -⟩ :=
    rollbacks_converge isRecorded_web 0 hpast hask
  refine ⟨template, after, hstate, heqv, ?_⟩
  cases hlive : (Json.obj template).eqv (.obj stored) with
  | true => exact .inr (hsame hlive).1
  | false => exact .inl (hdiffers hlive).1

end Rollback
end Rollout
