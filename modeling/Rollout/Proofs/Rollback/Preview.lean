import Rollout.Proofs.Patch.Agreement
import Rollout.Proofs.Revision.Record
import Rollout.Proofs.Rollback.Plan

/-!
# What is previewed is what is installed

A dry run applies the recorded patch to its own copy of the live object, and shows the
template that comes of it. A real run sends the patch, and the cluster applies it to the
object it has stored. The two compute on different things: the copy has its kind
written in, and the patch that is sent has been read from its bytes and is read once
more. Still the template is the same, and the cluster accepts the patch
(`Rollback.preview_is_installed`).

The patch of a recorded revision is bytes that were written, so that what is read from
them travels unchanged (`Rollback.exists_data_eq_encode`); and objects that agree but
for their kind agree so under every patch (`Patch.AgreesBut.mergedObject`).
-/

namespace Rollout

open Api (Memory workloadRead workloadPatched withKind)

variable {m : Memory} {kind : Kind} {w live : Workload}

/-- The patch that written data holds stays as it is when it is read again. -/
theorem Patch.portable_of_document {data : Bytes} {d patch : Json} (hdata : data = Json.encode d)
    (h : Patch.document data = .ok patch) : Json.decode data = .ok patch ∧ Json.Portable patch := by
  have hread := Patch.document_eq_ok_iff.mp h
  exact ⟨hread, Json.portable_of_decode_encode (hdata ▸ hread)⟩

/-! ## Workloads of objects that agree -/

/-- Whether an object is a workload is a matter of its metadata, and what its template is
of its specification. -/
theorem Workload.exists_ofFields {fs gs : Fields Json} (h : ofFields kind fs = .ok w)
    (hmetadata : Fields.get? fs "metadata" = Fields.get? gs "metadata")
    (hspec : Fields.get? fs "spec" = Fields.get? gs "spec") :
    ∃ other, ofFields kind gs = .ok other ∧ other.template = w.template := by
  refine ⟨{ w with raw := gs }, ofFields_of_metadata h hmetadata, ?_⟩
  obtain ⟨metadata, -, h⟩ := Outcome.bind_eq_ok_iff.mp h
  cases h
  unfold template spec Fields.section? Fields.given?
  rw [hspec]

/-- What is read as the kind is written as it. -/
theorem joined_eq_kind_iff (name : Text) : name.joined = ("kind" : Text) ↔ name = "kind" := by
  refine ⟨fun h => Text.eq_of_joined h (by decide), ?_⟩
  rintro rfl
  exact Text.joined_ofChars _

/-- What is read of an object besides its kind is what is stored. -/
theorem Api.get?_withKind (kind : Kind) (raw : Fields Json) {name : Text} (h : name ≠ "kind") :
    Fields.get? (withKind kind raw) name = Fields.get? raw name := by
  unfold withKind
  split
  · rfl
  · rw [Fields.get?_set, if_neg (Ne.symm h)]

/-- **The copy that a workload is read as** agrees with the stored object but for the
kind. -/
theorem agreesBut_reread_withKind (kind : Kind) (raw : Fields Json) :
    Patch.AgreesBut "kind" (Fields.reread (withKind kind raw)) (Fields.reread raw) := by
  unfold withKind
  split
  · exact Patch.agreesBut_refl _ _
  · rename_i h
    have hnone : Fields.get? raw "kind" = none := by
      cases hk : Fields.get? raw "kind" with
      | none => rfl
      | some v => exact absurd (by rw [Fields.has, hk]; rfl) h
    exact Patch.agreesBut_reread_set joined_eq_kind_iff hnone kind.name

namespace Api.Memory

/-- **The template that is stored** for a workload. -/
def template (m : Memory) (kind : Kind) (space name : Text) : Outcome Json := do
  let object ← Outcome.ofOption (m.find? kind space name)
  let raw ← object.fields
  let w ← Workload.ofFields kind raw
  w.template

/-- The template of an object that was stored is that of the workload that it is. -/
theorem template_put (m : Memory) {kind : Kind} {space name : Text} {object : Json}
    {patched : Workload} (h : workloadPatched kind space name (.ok object) = .ok patched) :
    (m.put ⟨kind, space, name, object⟩).template kind space name = patched.template := by
  obtain ⟨raw, hraw, hpatched⟩ := Outcome.bind_eq_ok_iff.mp h
  rw [template, find?_put_self]
  show (object.fields >>= _) = _
  rw [hraw]
  show (Workload.ofFields kind raw >>= _) = _
  rw [hpatched]
  rfl

end Api.Memory

namespace Rollback

variable {s : Snapshot}

/-- **What was read is what is stored**, with the kind written in. -/
theorem exists_stored (hm : m.faults = [])
    (hlive : workloadRead kind w.space w.name (m.answer (.read kind w.space w.name)) = .ok live) :
    ∃ raw, m.find? kind w.space w.name = some (.obj raw) ∧ live.raw = withKind kind raw
      ∧ live.kind = kind ∧ m.template kind w.space w.name = live.template := by
  rw [Memory.answer_of_faultless hm, Memory.content] at hlive
  cases hfind : m.find? kind w.space w.name with
  | none =>
    rw [hfind] at hlive
    cases hlive
  | some object =>
    rw [hfind] at hlive
    obtain ⟨raw, hraw, hw⟩ := Outcome.bind_eq_ok_iff.mp hlive
    cases object with
    | obj fs =>
      cases hraw
      obtain ⟨other, hother, htemplate⟩ := Workload.exists_ofFields hw
        (Api.get?_withKind kind raw (by decide)) (Api.get?_withKind kind raw (by decide))
      refine ⟨raw, rfl, ?_⟩
      obtain ⟨metadata, -, hw⟩ := Outcome.bind_eq_ok_iff.mp hw
      have hstored : m.template kind w.space w.name = live.template := by
        unfold Memory.template
        rw [hfind]
        show (Workload.ofFields kind raw >>= fun w => w.template) = _
        rw [hother]
        exact htemplate
      cases hw
      exact ⟨rfl, rfl, hstored⟩
    | _ => cases hraw

/-- **A patch that fits the copy fits the stored object**, and gives it the template that
it gave the copy. -/
theorem exists_patched (hm : m.faults = [])
    (hlive : workloadRead kind w.space w.name (m.answer (.read kind w.space w.name)) = .ok live)
    {d : Json} (hdata : s.data = Json.encode d) {applied : Workload}
    (happlied : live.atRevision s = .ok applied) :
    ∃ body object patched, Json.decode s.data = .ok body
      ∧ m.answer (.patch kind w.space w.name body) = .ok object
      ∧ workloadPatched kind w.space w.name (.ok object) = .ok patched
      ∧ patched.template = applied.template := by
  obtain ⟨raw, hfind, hraw, hkind, -⟩ := exists_stored hm hlive
  obtain ⟨patch, fs, hpatch, hfs, happlied⟩ := Workload.exists_applied_of_atRevision happlied
  obtain ⟨ps, merged, rfl, hmerged, rfl⟩ := Patch.exists_merged_of_appliedDocument hfs
  obtain ⟨hbody, hportable⟩ := Patch.portable_of_document hdata hpatch
  rw [hraw] at hmerged
  obtain ⟨merged', hmerged', hagree⟩ := (agreesBut_reread_withKind kind raw).mergedObject hmerged
  have hanswer : m.answer (.patch kind w.space w.name (.obj ps))
      = .ok (.obj (Fields.reread merged')) := by
    refine Memory.answer_patch hm hfind ?_
    rw [hportable.reread_eq]
    exact Outcome.bind_eq_ok_iff.mpr ⟨merged', hmerged', rfl⟩
  rw [hkind] at happlied
  obtain ⟨patched, hpatched, htemplate⟩ := Workload.exists_ofFields happlied
    (hagree.get?_reread joined_eq_kind_iff (by decide))
    (hagree.get?_reread joined_eq_kind_iff (by decide))
  exact ⟨.obj ps, _, patched, hbody, hanswer, hpatched, htemplate⟩

/-! ## From the preview to the installation -/

variable {order : Order} {history : List Snapshot}

/-- **A plan was made wherever a template was shown.** -/
theorem exists_planned_of_previewed {text : Text}
    (h : (Program.run Memory.reply (rollBackSnapshots kind w { order with dryRun := true }) m).result
      = .ok (.previewed text)) :
    ∃ live history s template rendered, m.history kind w.space w.name = .ok (live, history)
      ∧ planned live history order.target = .ok (s, template)
      ∧ Template.describe template = .ok rendered ∧ text = "will roll back to " ++ rendered := by
  cases hread : m.history kind w.space w.name with
  | error e =>
    obtain ⟨e', _, hends, -⟩ := endsReading_of_history_error { order with dryRun := true } hread
    cases hends.result.symm.trans h
  | ok found =>
    obtain ⟨live, history⟩ := found
    cases hplan : planned live history order.target with
    | error e =>
      obtain ⟨_, hends, -⟩ :=
        endsReading_of_planned_error { order with dryRun := true } hread hplan
      cases hends.result.symm.trans h
    | ok plan =>
      obtain ⟨s, template⟩ := plan
      have hreading : EndsReading (carriedOut kind live true s template) m _ := endsReading_dryRun
      obtain ⟨_, hdry, -⟩ := hreading
      obtain ⟨_, -, hends⟩ := endsIn_of_planned { order with dryRun := true } hread hplan hdry
      obtain ⟨rendered, hrendered, htext⟩ :=
        Outcome.bind_eq_ok_iff.mp (hends.result.symm.trans h)
      cases htext
      exact ⟨live, history, s, template, rendered, rfl, hplan, hrendered, rfl⟩

/-- The template of a workload whose history was found can be read. -/
theorem exists_template_of_history {space name : Text}
    (h : m.history kind space name = .ok (live, history)) :
    workloadRead kind space name (m.answer (.read kind space name)) = .ok live
      ∧ ∃ current, live.template = .ok current := by
  obtain ⟨found, hfound, h⟩ := Outcome.bind_eq_ok_iff.mp h
  obtain ⟨query, hquery, h⟩ := Outcome.bind_eq_ok_iff.mp h
  obtain ⟨_, -, h⟩ := Outcome.bind_eq_ok_iff.mp h
  cases h
  refine ⟨hfound, ?_⟩
  obtain ⟨selector, hselector, -⟩ := Outcome.bind_eq_ok_iff.mp hquery
  obtain ⟨spec, hspec, -⟩ := Outcome.bind_eq_ok_iff.mp hselector
  exact ⟨_, Outcome.bind_eq_ok_iff.mpr ⟨spec, hspec, rfl⟩⟩

/-- **A real run that finds its template live** changes nothing and patches nothing. -/
theorem rolledBack_of_eqv (hm : m.faults = []) (hkind : w.kind ≠ .deployment) (seconds : Int)
    {template : Json} (hread : m.history w.kind w.space w.name = .ok (live, history))
    (hplan : planned live history order.target = .ok (s, template)) (hreal : order.dryRun = false)
    {current : Json} (hcurrent : m.template w.kind w.space w.name = .ok current)
    (heqv : template.eqv current = true) :
    let run := m.rolledBack seconds w order
    run.result = .ok (.skipped ("current template already matches revision " ++ .ofInt s.revision))
      ∧ run.state = m ∧ run.asked.filter Api.Call.isPatch = [] := by
  obtain ⟨raw, -, -, -, hstored⟩ := exists_stored hm (exists_template_of_history hread).1
  have hskip : EndsReading (carriedOut w.kind live false s template) m _ :=
    endsReading_skip (hstored ▸ hcurrent) heqv
  obtain ⟨asked, hskip, hasked⟩ := hskip
  rw [← hreal] at hskip
  obtain ⟨read, hreads, hends⟩ := endsIn_of_planned order hread hplan hskip
  obtain ⟨hresult, hstate, hcalls⟩ := rolledBack_of_endsIn seconds hkind hends
  refine ⟨hresult, hstate, ?_⟩
  rw [hcalls]
  exact Api.filter_isPatch_callsOf (List.forall_mem_append.mpr ⟨hreads, hasked⟩)

/-- **A real run that finds another template live** sends one patch, which the cluster
accepts. -/
theorem rolledBack_of_not_eqv (hm : m.faults = []) (hkind : w.kind ≠ .deployment)
    (hspace : live.space = w.space) (hname : live.name = w.name) (seconds : Int)
    {template : Json} (hread : m.history w.kind w.space w.name = .ok (live, history))
    (hplan : planned live history order.target = .ok (s, template)) (hreal : order.dryRun = false)
    {current : Json} (hcurrent : m.template w.kind w.space w.name = .ok current)
    (heqv : template.eqv current = false) :
    let run := m.rolledBack seconds w order
    ∃ body object, Json.decode s.data = .ok body
      ∧ m.answer (.patch w.kind w.space w.name body) = .ok object
      ∧ run.result = .ok .succeeded ∧ run.state = m.put ⟨w.kind, w.space, w.name, object⟩
      ∧ run.state.template w.kind w.space w.name = .ok template
      ∧ run.asked.filter Api.Call.isPatch = [.patch w.kind w.space w.name body] := by
  have hlive := (exists_template_of_history hread).1
  obtain ⟨raw, -, -, -, hstored⟩ := exists_stored hm hlive
  obtain ⟨hs, applied, -, happlied, htemplate⟩ := exists_applied_of_planned hplan
  obtain ⟨d, hdata⟩ := exists_data_eq_encode hread s hs
  obtain ⟨body, object, patched, hbody, hanswer, hpatched, hsame⟩ :=
    exists_patched hm hlive hdata happlied
  rw [← hspace, ← hname] at hanswer hpatched
  have hrestore := endsIn_restore hbody hanswer hpatched
  have hcarried : carriedOut w.kind live order.dryRun s template = restore w.kind live s := by
    rw [hreal, carriedOut_of_template (hstored ▸ hcurrent), if_neg (heqv ▸ Bool.false_ne_true)]
  rw [← hcarried, hspace, hname] at hrestore
  obtain ⟨read, hreads, hends⟩ := endsIn_of_planned order hread hplan hrestore
  obtain ⟨hresult, hstate, hcalls⟩ := rolledBack_of_endsIn seconds hkind hends
  rw [hspace, hname] at hanswer hpatched
  refine ⟨body, object, hbody, hanswer, hresult, hstate, ?_, ?_⟩
  · rw [hstate, Memory.template_put m hpatched, hsame, htemplate]
  · rw [hcalls, List.flatMap_append, List.filter_append, Api.filter_isPatch_callsOf hreads]
    simp [Api.callsOf, hbody, Api.Call.isPatch]

/-- **A run that installs a template**: it ends well, the cluster has refused no patch, and
the template that is stored afterwards is the one, or equal to it where nothing had to be
sent. -/
structure Installs (m : Memory) (run : Program.Run Api.Call Memory Ending) (kind : Kind)
    (space name : Text) (template : Json) : Prop where
  ending : (run.result = .ok .succeeded ∧ run.state.template kind space name = .ok template)
    ∨ ∃ detail current, run.result = .ok (.skipped detail)
      ∧ run.state.template kind space name = .ok current ∧ template.eqv current = true
  accepted : ∀ k sp n body, Api.Call.patch k sp n body ∈ run.asked →
    ∃ object, m.answer (.patch k sp n body) = .ok object

/-- **A real run installs what is planned.** -/
theorem installs_of_planned (hm : m.faults = []) (hkind : w.kind ≠ .deployment)
    (hspace : live.space = w.space) (hname : live.name = w.name) (seconds : Int)
    {template : Json} (hread : m.history w.kind w.space w.name = .ok (live, history))
    (hplan : planned live history order.target = .ok (s, template)) (hreal : order.dryRun = false) :
    Installs m (m.rolledBack seconds w order) w.kind w.space w.name template := by
  obtain ⟨hlive, current, hcurrent⟩ := exists_template_of_history hread
  obtain ⟨raw, -, -, -, hstored⟩ := exists_stored hm hlive
  rw [← hstored] at hcurrent
  have hpatches : ∀ {asked : List Api.Call} {k sp n body}, .patch k sp n body ∈ asked →
      .patch k sp n body ∈ asked.filter Api.Call.isPatch :=
    fun h => List.mem_filter.mpr ⟨h, by rfl⟩
  cases heqv : template.eqv current with
  | true =>
    obtain ⟨hresult, hstate, hnone⟩ :=
      rolledBack_of_eqv hm hkind seconds hread hplan hreal hcurrent heqv
    refine ⟨.inr ⟨_, current, hresult, ?_, heqv⟩, fun k sp n body hpatch => ?_⟩
    · rw [hstate, hcurrent]
    · exact absurd (hpatches hpatch) (hnone ▸ List.not_mem_nil)
  | false =>
    obtain ⟨body, object, -, hanswer, hresult, -, htemplate, hone⟩ :=
      rolledBack_of_not_eqv hm hkind hspace hname seconds hread hplan hreal hcurrent heqv
    refine ⟨.inl ⟨hresult, htemplate⟩, fun k sp n b hpatch => ?_⟩
    have hmem := hpatches hpatch
    rw [hone] at hmem
    cases List.mem_singleton.mp hmem
    exact ⟨object, hanswer⟩

/-- **What is previewed is what is installed.** Let the workload be stored under its own
name. If a dry run shows a template, which is that of the workload with the selected
snapshot applied, the real run installs it; and where no snapshot can be selected or
applied, both runs fail for the same reason. -/
theorem preview_is_installed (m : Memory) (hm : m.faults = []) (w : Workload)
    (hkind : w.kind ≠ .deployment)
    (hplace : ∀ live, workloadRead w.kind w.space w.name
      (m.answer (.read w.kind w.space w.name)) = .ok live → live.space = w.space ∧ live.name = w.name)
    (seconds : Int) (order : Order) :
    let dry := m.rolledBack seconds w { order with dryRun := true }
    let real := m.rolledBack seconds w { order with dryRun := false }
    (∀ text, dry.result = .ok (.previewed text) →
      ∃ live history s applied template rendered,
        m.history w.kind w.space w.name = .ok (live, history)
        ∧ Revision.select history order.target = .ok s ∧ live.atRevision s = .ok applied
        ∧ applied.template = .ok template ∧ Template.describe template = .ok rendered
        ∧ text = "will roll back to " ++ rendered
        ∧ Installs m real w.kind w.space w.name template)
    ∧ ∀ live history e, m.history w.kind w.space w.name = .ok (live, history) →
      (Revision.select history order.target = .error e
        ∨ ∃ s, Revision.select history order.target = .ok s ∧ live.atRevision s = .error e) →
      dry.result = .error e ∧ real.result = .error e := by
  refine ⟨fun text hdry => ?_, fun live history e hread hfails => ?_⟩
  · have hends : Program.EndsIn Memory.reply
        (rollBackSnapshots w.kind w { order with dryRun := true }) m _ _ _ :=
      Program.endsIn_run _ m
    rw [(rolledBack_of_endsIn seconds hkind hends).1] at hdry
    obtain ⟨live, history, s, template, rendered, hread, hplan, hrendered, htext⟩ :=
      exists_planned_of_previewed hdry
    obtain ⟨-, applied, hselect, happlied, htemplate⟩ := exists_applied_of_planned hplan
    obtain ⟨hspace, hname⟩ := hplace live (exists_template_of_history hread).1
    exact ⟨live, history, s, applied, template, rendered, hread, hselect, happlied, htemplate,
      hrendered, htext, installs_of_planned hm hkind hspace hname seconds hread hplan rfl⟩
  · have hplan : planned live history order.target = .error e := by
      obtain hselect | ⟨s, hselect, happlied⟩ := hfails
      · rw [planned, hselect]
        rfl
      · rw [planned, hselect]
        show (live.atRevision s >>= _) = _
        rw [happlied]
        rfl
    have hresult : ∀ dryRun, (m.rolledBack seconds w { order with dryRun }).result = .error e := by
      intro dryRun
      obtain ⟨asked, hends, -⟩ := endsReading_of_planned_error { order with dryRun } hread hplan
      exact (rolledBack_of_endsIn seconds hkind hends).1
    exact ⟨hresult true, hresult false⟩

/-- A template with one container. -/
def webTemplate (image : Text) : Fields Json :=
  [("spec", .obj [("containers", .arr [.obj [("name", .str "web"), ("image", .str image)]])])]

/-- The specification of a daemon set. -/
def webSpec : Fields Json :=
  [("selector", .obj [("matchLabels", .obj [("app", .str "web")])]),
   ("template", .obj (webTemplate "web:2"))]

/-- A daemon set. -/
def webSet : Fields Json :=
  [("metadata", .obj [("name", .str "web"), ("namespace", .str "default"), ("uid", .str "u-1")]),
   ("spec", .obj webSpec)]

/-- A revision of it. -/
def webRevision (revision : Int) (data : Json) : Json :=
  .obj [("metadata", .obj [("name", .str "web-1"), ("namespace", .str "default"),
      ("ownerReferences", .arr [.obj [("uid", .str "u-1"), ("controller", .bool true)]])]),
    ("revision", .int revision), ("data", data)]

/-- A cluster that holds the daemon set and its revisions. -/
def webCluster (revisions : List Json) : Memory :=
  { Memory.empty with
    workloads := [⟨.daemonSet, "default", "web", .obj webSet⟩]
    revisions := some revisions }

/-- The daemon set as it is named to a rollback. -/
def webWorkload : Workload := ⟨.daemonSet, "default", "web", "u-1", webSet⟩

/-- A patch that changes the image and adds a container. -/
def webPatch : Json :=
  .obj [("spec", .obj [("template", .obj [("spec", .obj [("containers", .arr [
    .obj [("name", .str "web"), ("image", .str "web:1")], .obj [("name", .str "log")]])])])])]

theorem preview_is_installed_web :
    let m := webCluster [webRevision 1 webPatch]
    ∃ text template, (m.rolledBack 0 webWorkload ⟨1, true, [], false⟩).result = .ok (.previewed text)
      ∧ Installs m (m.rolledBack 0 webWorkload ⟨1, false, [], false⟩) .daemonSet "default" "web"
        template := by
  intro m
  have hshown : ((m.rolledBack 0 webWorkload ⟨1, true, [], false⟩).result.toOption.map
      Ending.status) = some ("previewed" : Text) := by
    decide +kernel
  have hplace : ∀ live, workloadRead .daemonSet "default" "web"
      (m.answer (.read .daemonSet "default" "web")) = .ok live →
      live.space = "default" ∧ live.name = "web" := by
    intro live h
    cases h
    exact ⟨rfl, rfl⟩
  have hpreview := preview_is_installed m rfl webWorkload nofun hplace 0 ⟨1, true, [], false⟩
  cases hdry : (m.rolledBack 0 webWorkload ⟨1, true, [], false⟩).result with
  | error e =>
    rw [hdry] at hshown
    cases hshown
  | ok ending =>
    rw [hdry] at hshown
    have hstatus : ending.status = ("previewed" : Text) := Option.some.inj hshown
    cases ending with
    | previewed text =>
      obtain ⟨_, _, _, _, template, _, _, _, _, _, _, _, hinstalls⟩ := hpreview.1 text hdry
      exact ⟨text, template, rfl, hinstalls⟩
    | _ => exact absurd hstatus (by simp only [Ending.status]; decide)

end Rollback
end Rollout
