import Rollout.Api.Adapter
import Rollout.Api.Memory
import Rollout.Proofs.Program.Run

/-!
# The cluster in memory as the core sees it

A request of the core is at most one call, so that a program of the core can be followed
request by request: the cluster replies to each with a value and is left in a state
(`Memory.reply`), and the calls made in the end are those of the requests, one after the
other (`Memory.run_talk`). A cluster in memory is changed by nothing but a patch that
it accepts (`Memory.reply_state_of_not_isMutating`).
-/

namespace Rollout
namespace Api

/-- The calls that a request comes to. A patch that is no document is not sent. -/
def callsOf (timeoutSeconds : Int) : Backend.Request → List Call
  | .getWorkload kind space name => [.read kind space name]
  | .listSnapshots space query => [.listRevisions space query]
  | .listReplicaSets space query => [.listReplicaSets space query]
  | .patchWorkload kind space name patch =>
    match Json.decode patch with
    | .error _ => []
    | .ok body => [.patch kind space name body]
  | .eventWatermark space => [.listEvents space]
  | .rollBackDeployment space name revision annotations =>
    [.post (rollbackPath space name) (rollbackBody name revision annotations)]
  | .watchEvents space watermark => [watchAfter timeoutSeconds space watermark]
  | .stopWatch => [.stopWatch]

/-- The call patches an object. -/
def Call.isPatch : Call → Bool
  | .patch .. => true
  | _ => false

/-- **Requests that change nothing come to no patch.** -/
theorem filter_isPatch_callsOf {timeoutSeconds : Int} {asked : List Backend.Request}
    (h : ∀ q ∈ asked, q.isMutating = false) :
    (asked.flatMap (callsOf timeoutSeconds)).filter Call.isPatch = [] := by
  refine List.filter_eq_nil_iff.mpr fun c hc => ?_
  obtain ⟨q, hq, hc⟩ := List.mem_flatMap.mp hc
  have hmutating := h q hq
  cases q with
  | patchWorkload => cases hmutating
  | rollBackDeployment => cases hmutating
  | _ =>
    obtain rfl := List.mem_singleton.mp hc
    exact Bool.false_ne_true

namespace Memory

variable {α : Type}

/-- **The reply to a request of the core**, and the cluster afterwards. -/
def reply (m : Memory) : (q : Backend.Request) → q.Answer × Memory
  | .getWorkload kind space name =>
    (workloadRead kind space name (m.answer (.read kind space name)), m)
  | .listSnapshots space query => (snapshotsListed space (m.answer (.listRevisions space query)), m)
  | .listReplicaSets space query =>
    (replicaSetsListed space (m.answer (.listReplicaSets space query)), m)
  | .patchWorkload kind space name patch =>
    match Json.decode patch with
    | .error .tooDeep => (.error .malformed, m)
    | .error .noDocument => (Outcome.fail (.patch (.notADocument kind space name)), m)
    | .ok body =>
      (workloadPatched kind space name (m.answer (.patch kind space name body)),
        m.after (.patch kind space name body) (m.answer (.patch kind space name body)))
  | .eventWatermark space => (watermarkListed space (m.answer (.listEvents space)), m)
  | .rollBackDeployment space name revision annotations =>
    (rollbackPosted space name
      (m.answer (.post (rollbackPath space name) (rollbackBody name revision annotations))), m)
  | .watchEvents space watermark =>
    -- how long is waited plays no part in what is delivered
    ((expected (m.answer (watchAfter 0 space watermark))).map Feed.turns, m)
  | .stopWatch => (expected (m.answer .stopWatch), m)

/-- **A program of the core run against the cluster** runs as it would against one that
replies to its requests. -/
theorem run_talk (m : Memory) (timeoutSeconds : Int) (p : Backend.Talk α) :
    m.run (talk timeoutSeconds p) =
      let r := p.run reply m
      ⟨r.result, r.state, r.notes, r.asked.flatMap (callsOf timeoutSeconds)⟩ := by
  refine Program.run_through (fun m q => ?_) p m
  cases q with
  | patchWorkload kind space name patch =>
    simp only [Api.answer, reply, callsOf]
    cases hd : Json.decode patch with
    | ok body => rfl
    | error e => cases e <;> rfl
  | _ => rfl

/-- A request that changes nothing leaves the cluster as it is. -/
theorem reply_state_of_not_isMutating (m : Memory) {q : Backend.Request}
    (h : q.isMutating = false) : (m.reply q).2 = m := by
  cases q <;> first | rfl | cases h

/-- Where no call was made to fail, none is refused without a reason of its own. -/
theorem answer_of_faultless {m : Memory} (h : m.faults = []) (c : Call) :
    m.answer c = m.content c := by
  rw [answer, h]
  rfl

/-- **A patch that applies to what is stored** is answered with the patched object. -/
theorem answer_patch {m : Memory} (h : m.faults = []) {kind : Kind} {space name : Text}
    {object body : Json} {fs : Fields Json} (hfind : m.find? kind space name = some object)
    (happlied : Patch.appliedDocument object body.reread = .ok fs) :
    m.answer (.patch kind space name body) = .ok (.obj fs) := by
  rw [answer_of_faultless h]
  show m.patched kind space name body = _
  rw [patched, hfind]
  simp only [happlied]

/-! ## What is stored -/

theorem isAt_iff {kind : Kind} {space name : Text} {s : Stored} :
    isAt kind space name s = true ↔ s.kind = kind ∧ s.space = space ∧ s.name = name := by
  rw [isAt, Bool.and_eq_true, Bool.and_eq_true, decide_eq_true_eq, decide_eq_true_eq,
    decide_eq_true_eq, and_assoc]

theorem find?_placed (s : Stored) (stored : List Stored) (kind : Kind) (space name : Text) :
    (placed s stored).find? (isAt kind space name) =
      if isAt kind space name s then some s else stored.find? (isAt kind space name) := by
  induction stored with
  | nil =>
    rw [placed, List.find?_singleton]
    rfl
  | cons t rest ih =>
    rw [placed]
    split
    · rename_i ht
      rw [List.find?_cons, List.find?_cons]
      cases hs : isAt kind space name s with
      | true => rfl
      | false =>
        -- what is replaced stood at the same place
        have ht' : isAt kind space name t = false := by
          refine Bool.eq_false_iff.mpr fun h => Bool.eq_false_iff.mp hs ?_
          obtain ⟨h₁, h₂, h₃⟩ := isAt_iff.mp ht
          obtain ⟨h₁', h₂', h₃'⟩ := isAt_iff.mp h
          exact isAt_iff.mpr ⟨h₁ ▸ h₁', h₂ ▸ h₂', h₃ ▸ h₃'⟩
        rw [ht']
        rfl
    · rename_i ht
      rw [List.find?_cons, List.find?_cons]
      cases ht' : isAt kind space name t with
      | false => exact ih
      | true =>
        have hs : isAt kind space name s = false := by
          refine Bool.eq_false_iff.mpr fun hs => ht ?_
          obtain ⟨h₁, h₂, h₃⟩ := isAt_iff.mp hs
          obtain ⟨h₁', h₂', h₃'⟩ := isAt_iff.mp ht'
          exact isAt_iff.mpr ⟨h₁'.trans h₁.symm, h₂'.trans h₂.symm, h₃'.trans h₃.symm⟩
        rw [hs]
        rfl

/-- **What is found after an object was stored**: the object at its place, and what was
there at every other. -/
theorem find?_put (m : Memory) (s : Stored) (kind : Kind) (space name : Text) :
    (m.put s).find? kind space name =
      if isAt kind space name s then some s.object else m.find? kind space name := by
  show ((placed s m.workloads).find? _).map _ = _
  rw [find?_placed]
  split <;> rfl

theorem placed_placed (kind : Kind) (space name : Text) (a b : Json) (stored : List Stored) :
    placed ⟨kind, space, name, b⟩ (placed ⟨kind, space, name, a⟩ stored)
      = placed ⟨kind, space, name, b⟩ stored := by
  have hself : isAt kind space name ⟨kind, space, name, a⟩ = true := isAt_iff.mpr ⟨rfl, rfl, rfl⟩
  induction stored with
  | nil => exact if_pos hself
  | cons t rest ih =>
    rw [placed, placed]
    split
    · exact if_pos hself
    · rename_i ht
      rw [placed, if_neg ht, ih]

/-- **What is stored twice** in one place is what was stored last. -/
theorem put_put (m : Memory) (kind : Kind) (space name : Text) (a b : Json) :
    (m.put ⟨kind, space, name, a⟩).put ⟨kind, space, name, b⟩ = m.put ⟨kind, space, name, b⟩ := by
  unfold put
  rw [placed_placed]

/-- To store what is there changes nothing. -/
theorem put_of_find? {m : Memory} {kind : Kind} {space name : Text} {object : Json}
    (h : m.find? kind space name = some object) : m.put ⟨kind, space, name, object⟩ = m := by
  have hplaced : ∀ stored : List Stored,
      (stored.find? (isAt kind space name)).map Stored.object = some object →
      placed ⟨kind, space, name, object⟩ stored = stored := by
    intro stored hfind
    induction stored with
    | nil => cases hfind
    | cons t rest ih =>
      rw [List.find?_cons] at hfind
      rw [placed]
      cases ht : isAt kind space name t with
      | true =>
        rw [ht] at hfind
        obtain ⟨rfl, rfl, rfl⟩ := isAt_iff.mp ht
        obtain rfl := Option.some.inj hfind
        rfl
      | false =>
        rw [ht] at hfind
        exact congrArg (t :: ·) (ih hfind)
  unfold put
  rw [hplaced m.workloads h]

/-- The object that was stored is found. -/
theorem find?_put_self (m : Memory) (kind : Kind) (space name : Text) (object : Json) :
    (m.put ⟨kind, space, name, object⟩).find? kind space name = some object := by
  rw [find?_put]
  exact if_pos (isAt_iff.mpr ⟨rfl, rfl, rfl⟩)

end Memory
end Api
end Rollout
