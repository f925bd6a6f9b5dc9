import Rollout.Error

/-!
# Registries

What can be done with a workload is done by someone for each kind, and who
does it is registered under the kind. Whoever is asked for a kind looks it up
in this way, and refuses what designates none.
-/

namespace Rollout

/-- **Who is registered for a kind.** A kind that nobody is registered for
would be malformed. -/
def registered {α : Type} (capability : Capability) (registry : List (Kind × α))
    (kind : Kind.Designation) : Outcome α :=
  match kind.kind? with
  | some k => Outcome.ofOption (registry.lookup k)
  | none => Outcome.fail (.unsupportedKind capability kind.text)

end Rollout
