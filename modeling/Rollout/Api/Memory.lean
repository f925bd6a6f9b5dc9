import Rollout.Api.Request
import Rollout.Json.Shape
import Rollout.Patch.Document

/-!
# A cluster in memory

A cluster that holds its objects in memory and answers the API's calls. It
merges a patch by the same strategic merge as the library, so that a patched
object is the merged one; listing looks at the namespace and not at the
query; posting changes nothing. A watch delivers the same list each time it
is opened.

Nothing says that what is listed are objects, or that it is a list at all: a
listing finds out, and cannot be answered if they are not.

Any call can be made to fail (`Memory.faults`), by its name.
-/

namespace Rollout
namespace Api

/-- A stored workload and what it is stored under. -/
structure Stored where
  kind : Kind
  space : Text
  name : Text
  object : Json
deriving Repr

/-- **A cluster in memory.** -/
structure Memory where
  workloads : List Stored
  /-- The recorded revisions, `none` if there is no list of them. -/
  revisions : Option (List Json)
  /-- The replica sets, `none` if there is no list of them. -/
  replicaSets : Option (List Json)
  deliveries : List Delivery
  /-- The version of the list of events. -/
  watermark : Json
  /-- How a call fails, by the call's name. -/
  faults : Fields CallError
  /-- Why the server cannot be looked up. -/
  unreachable : Option Text
deriving Repr

namespace Memory

/-- A cluster that holds nothing. -/
def empty : Memory := ⟨[], some [], some [], [], .str "4242", [], none⟩

/-- The object is stored under the kind, namespace and name. -/
def isAt (kind : Kind) (space name : Text) (s : Stored) : Bool :=
  s.kind = kind && s.space = space && s.name = name

/-- The object stored under a kind, namespace and name. -/
def find? (m : Memory) (kind : Kind) (space name : Text) : Option Json :=
  (m.workloads.find? (isAt kind space name)).map Stored.object

/-- An object stored in its place, or behind all others. -/
def placed (s : Stored) : List Stored → List Stored
  | [] => [s]
  | t :: rest => if isAt s.kind s.space s.name t then s :: rest else t :: placed s rest

/-- An object stored. -/
def put (m : Memory) (s : Stored) : Memory :=
  { m with workloads := placed s m.workloads }

/-- The object is in a namespace. -/
def isIn (space : Text) (j : Json) : Outcome Bool := do
  let metadata ← Fields.section? (← j.fields) "metadata"
  match Fields.get? metadata "namespace" with
  | some (.str s) => return s = space
  | _ => return false

/-- The objects of a namespace. -/
def inSpace (space : Text) : List Json → Outcome (List Json)
  | [] => .ok []
  | j :: rest => do
    let here ← isIn space j
    let others ← inSpace space rest
    return if here then j :: others else others

/-- **The answer to a listing.** -/
def listed (space : Text) (items : Option (List Json)) : Except CallError (List Json) :=
  (Outcome.ofOption items >>= inSpace space).mapError fun _ => .malformed

/-- The refusal of a call about an object that does not exist. -/
def absent : CallError := .refused (.int 404) "Not Found"

/-- The refusal of a patch that does not apply. -/
def unprocessable : CallError := .refused (.int 422) "Unprocessable Entity"

/-- **The object with a patch applied to it.** The body is read from the bytes
it comes in. -/
def patched (m : Memory) (kind : Kind) (space name : Text) (body : Json) :
    Except CallError Json :=
  match m.find? kind space name with
  | none => .error absent
  | some object =>
    match Patch.appliedDocument object body.reread with
    | .ok fs => .ok (.obj fs)
    | .error (.rollout _) => .error unprocessable
    | .error .malformed => .error .malformed

/-- The way to the server, unless there is none. -/
def reached (m : Memory) : Except CallError Unit :=
  match m.unreachable with
  | some reason => .error (.unreachable reason)
  | none => .ok ()

/-- What a call comes to, unless it was made to fail. -/
def content (m : Memory) : (c : Call) → c.Answer
  | .loadInClusterConfig => m.reached
  | .loadKubeConfig _ _ => m.reached
  | .read kind space name =>
    match m.find? kind space name with
    | some object => .ok object
    | none => .error absent
  | .patch kind space name body => m.patched kind space name body
  | .listRevisions space _ => listed space m.revisions
  | .listReplicaSets space _ => listed space m.replicaSets
  | .listEvents _ => .ok m.watermark
  | .post _ _ => .ok ()
  | .watch _ _ _ => .ok m.deliveries
  | .stopWatch => .ok ()
  | .close => .ok ()

/-- **The answer to a call**, or the refusal if it was made to fail. -/
def answer (m : Memory) (c : Call) : c.Answer :=
  match Fields.get? m.faults c.name with
  | some e => .error e
  | none => m.content c

/-- The cluster after a call: a patch leaves the patched object. -/
def after (m : Memory) : (c : Call) → c.Answer → Memory
  | .patch kind space name _, .ok object => m.put ⟨kind, space, name, object⟩
  | _, _ => m

/-- **The answer to a call and the cluster afterwards.** -/
def serve (m : Memory) (c : Call) : c.Answer × Memory :=
  (m.answer c, m.after c (m.answer c))

/-- A program run against the cluster. -/
def run {α : Type} (m : Memory) (p : Talk α) : Program.Run Call Memory α :=
  p.run serve m

end Memory
end Api
end Rollout
