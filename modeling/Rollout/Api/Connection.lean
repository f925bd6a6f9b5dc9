import Rollout.Api.Adapter
import Rollout.Config

/-!
# The way to the server

Before anything is asked, the server is looked up: in the surroundings of the
process or in a file. Afterwards the client is closed, whatever came of it
(`connected`).
-/

namespace Rollout
namespace Api

/-- A text that is given. -/
def orNone (t : Text) : Option Text :=
  if t = "" then none else some t

/-- A line about the lookup. -/
def lookupLine (event : Text) (fields : Fields Json) : Talk Unit :=
  Program.log "backend.kubernetes" event .debug fields

/-- **The server looked up.** -/
def connect (config : ClusterConfig) : Talk Unit :=
  if config.inCluster then
    .ask .loadInClusterConfig fun
      | .ok () => lookupLine "k8s client configured from in-cluster service account" []
      | .error e => .done (.error (unexpected e))
  else
    .ask (.loadKubeConfig (orNone config.kubeconfig) (orNone config.context)) fun
      | .ok () =>
        lookupLine "k8s client configured from kubeconfig"
          [("context", .str (if config.context = "" then "<current>" else config.context))]
      | .error e => .done (.error (unexpected e))

/-- The client closed. -/
def close : Talk Unit :=
  .ask .close fun a => .done (expected a)

/-- **A program of the core carried out over the API**, from looking up the
server to closing the client. -/
def connected {α : Type} (config : ClusterConfig) (p : Backend.Talk α) : Talk α := do
  connect config
  (talk config.watchTimeoutSeconds p).thenAlways close

end Api
end Rollout
