import Rollout.Text.Blank
import Rollout.Text.Lines
import Rollout.Text.LowerCase

/-!
# Kinds of workload

The three controllers that roll out updates, and how a user may spell them:
an alias in any case, alone or together with the API group that serves the
kind, written before it with slashes (`apps/v1/Deployment`) or behind it
with a dot (`deploy.apps`). A slash takes precedence over a dot. A group
that does not serve the kind makes the spelling that of some other kind.
Whoever is asked for a kind is given the kind or a spelling of it
(`Kind.Designation`).
-/

namespace Rollout

/-- **A kind of workload.** -/
inductive Kind where
  | deployment
  | daemonSet
  | statefulSet
deriving DecidableEq, Repr, Inhabited

namespace Kind

/-- The kind's name in documents. -/
def name : Kind → Text
  | deployment => "Deployment"
  | daemonSet => "DaemonSet"
  | statefulSet => "StatefulSet"

/-- The kind's name in messages and on the command line. -/
def lowerName : Kind → Text
  | deployment => "deployment"
  | daemonSet => "daemonset"
  | statefulSet => "statefulset"

/-- **The kind of a name in documents**, spelled as it is there. -/
def named? (t : Text) : Option Kind :=
  [deployment, daemonSet, statefulSet].find? (fun k => k.name = t)

/-- The spellings of each kind, in small letters. -/
def aliases : List (Text × Kind) := [
  ("deployment", deployment),
  ("deployments", deployment),
  ("deploy", deployment),
  ("daemonset", daemonSet),
  ("daemonsets", daemonSet),
  ("ds", daemonSet),
  ("statefulset", statefulSet),
  ("statefulsets", statefulSet),
  ("sts", statefulSet)]

/-- The API groups that serve a kind; the empty one stands for any. -/
def groups : Kind → List Text
  | deployment => ["", "apps", "extensions"]
  | daemonSet => ["", "apps", "extensions"]
  | statefulSet => ["", "apps"]

/-- The kind an alias stands for, in any case. -/
def ofAlias? (word : Text) : Option Kind :=
  aliases.lookup (asciiLower word)

/-- The kind an alias stands for, if the group serves it. -/
def inGroup? (group word : Text) : Option Kind :=
  (ofAlias? word).filter (fun k => k.groups.contains (asciiLower group))

/-- The text up to the first slash, all of it if there is none. -/
def upToSlash (t : Text) : Text :=
  match cut? (.char '/') t with
  | some (front, _) => front
  | none => t

/-- The kind a spelling without blanks around it names. -/
def ofWord? (t : Text) : Option Kind :=
  match cutLast? (.char '/') t with
  | some (path, word) => inGroup? (upToSlash path) word
  | none =>
    match cut? (.char '.') t with
    | some (word, group) => inGroup? group word
    | none => inGroup? [] t

/-- **The kind a spelling names**, if it names one. -/
def parse? (spelling : Text) : Option Kind :=
  ofWord? (trim spelling)

/-- **What designates a kind**: the kind itself, or a spelling. -/
inductive Designation where
  | kind (k : Kind)
  | spelling (t : Text)
deriving Repr

/-- The kind that is designated, if one is. -/
def Designation.kind? : Designation → Option Kind
  | kind k => some k
  | spelling t => parse? t

/-- A designation in words. -/
def Designation.text : Designation → Text
  | kind k => k.name
  | spelling t => t

@[simp] theorem named?_name (k : Kind) : named? k.name = some k := by
  cases k <;> decide

example : parse? " Deploy.apps " = some deployment := by decide +kernel
example : parse? "apps/v1/DaemonSet" = some daemonSet := by decide +kernel
example : parse? "sts.extensions" = none := by decide +kernel

end Kind
end Rollout
