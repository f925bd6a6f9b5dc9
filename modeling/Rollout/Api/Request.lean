import Rollout.Program

/-!
# The calls of the API

What is sent to the API server, and what comes back: stored objects as
documents, lists of them, or a refusal. The way to the server is looked up
first, in the surroundings of the process or in a file; the client is closed
at the end.

A watch is opened by one call that answers with everything the server will
deliver on it, and is stopped by another. Any call can fail.
-/

namespace Rollout
namespace Api

/-- **Why a call gave no answer.** -/
inductive CallError where
  /-- The server refused it, with a status that is null if it gave none. -/
  | refused (status : Json) (reason : Text)
  /-- The way to the server cannot be found. -/
  | unreachable (reason : Text)
  /-- Its content could not be dealt with at all. -/
  | malformed
deriving Repr

/-- **What a watch delivers.** -/
inductive Delivery where
  /-- An object; the one who waits may be interrupted just before. -/
  | object (value : Json) (interrupted : Bool)
  /-- Nothing any more. -/
  | silence
  /-- A refusal. -/
  | refused (status : Json) (reason : Text)
  /-- The client has waited too long. -/
  | timedOut
  /-- Something that is no delivery. -/
  | malformed
deriving Repr

/-- **A call.** -/
inductive Call where
  /-- The server of the cluster the process runs in. -/
  | loadInClusterConfig
  /-- The server named in a file. -/
  | loadKubeConfig (file context : Option Text)
  | read (kind : Kind) (space name : Text)
  | patch (kind : Kind) (space name : Text) (body : Json)
  | listRevisions (space query : Text)
  | listReplicaSets (space query : Text)
  | listEvents (space : Text)
  | post (path : Text) (body : Json)
  | watch (space : Text) (after : Option Text) (timeoutSeconds : Int)
  | stopWatch
  | close
deriving Repr

/-- What a call's answer holds. Listing events answers with the version of
the list. -/
abbrev Call.Content : Call → Type
  | loadInClusterConfig => Unit
  | loadKubeConfig .. => Unit
  | read .. => Json
  | patch .. => Json
  | listRevisions .. => List Json
  | listReplicaSets .. => List Json
  | listEvents _ => Json
  | post .. => Unit
  | watch .. => List Delivery
  | stopWatch => Unit
  | close => Unit

/-- The type of a call's answer. -/
abbrev Call.Answer (c : Call) : Type := Except CallError c.Content

namespace Call

/-- The call's name. -/
def name : Call → Text
  | loadInClusterConfig => "load_incluster_config"
  | loadKubeConfig .. => "load_kube_config"
  | read .. => "read"
  | patch .. => "patch"
  | listRevisions .. => "list_revisions"
  | listReplicaSets .. => "list_replica_sets"
  | listEvents _ => "list_events"
  | post .. => "post"
  | watch .. => "watch"
  | stopWatch => "stop_watch"
  | close => "close"

end Call

/-- A program that calls the API. -/
abbrev Talk (α : Type) := Program Call Call.Answer α

end Api
end Rollout
