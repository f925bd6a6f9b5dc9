import Rollout.Json.Basic
import Rollout.Workload.Kind

/-!
# Notes

What a run leaves behind beside its result: lines for the log and counters
that move. A log line belongs to a component, names an event and carries
fields; a counter is one of three families, told apart by labels.
-/

namespace Rollout

/-- How much a log line matters. -/
inductive Level where
  | debug
  | info
  | warning
  | error
  | critical
deriving DecidableEq, Repr, Inhabited

namespace Level

/-- The level's name. -/
def name : Level → Text
  | debug => "debug"
  | info => "info"
  | warning => "warning"
  | error => "error"
  | critical => "critical"

/-- The level's rank; higher matters more. -/
def rank : Level → Nat
  | debug => 10
  | info => 20
  | warning => 30
  | error => 40
  | critical => 50

end Level

/-- **A line for the log.** -/
structure LogLine where
  component : Text
  event : Text
  level : Level
  fields : Fields Json
deriving Repr, Inhabited

/-- **A counter.** -/
inductive Counter where
  /-- Rollbacks by kind and how they ended. -/
  | rollbacks (kind : Kind) (ending : Text)
  /-- Looks at a history by kind. -/
  | historyViews (kind : Kind)
  /-- Events that ended a watch, by reason. -/
  | rollbackEvents (reason : Text)
deriving DecidableEq, Repr

/-- The counter's name with its labels. -/
def Counter.key : Counter → Text
  | rollbacks kind ending =>
    "kuberollback_rollbacks_total\x7bkind=" ++ kind.name ++ ",outcome=" ++ ending ++ "\x7d"
  | historyViews kind => "kuberollback_history_views_total\x7bkind=" ++ kind.name ++ "\x7d"
  | rollbackEvents reason =>
    "kuberollback_rollback_events_total\x7breason=" ++ reason ++ "\x7d"

/-- **What a run notes down**: a line, or one more of something. -/
inductive Note where
  | log (entry : LogLine)
  | count (counter : Counter)
deriving Repr

end Rollout
