import Rollout.Note
import Rollout.Number.Integer
import Rollout.Revision.Basic

/-!
# Settings

Settings come from environment variables. Those that have a grammar are
checked, one after the other, and the first that is wrong is reported; a
number of seconds below one counts as one.
-/

namespace Rollout

/-- The environment: variables with their values. -/
abbrev Environment := Fields Text

/-- How log lines are written. -/
inductive LogFormat where
  /-- As the terminal suggests. -/
  | auto
  | json
  | console
deriving DecidableEq, Repr

namespace LogFormat

/-- The format's name. -/
def name : LogFormat → Text
  | auto => "auto"
  | json => "json"
  | console => "console"

/-- Whether lines are written as documents, if that is settled. -/
def asJson? : LogFormat → Option Bool
  | auto => none
  | json => some true
  | console => some false

/-- All formats. -/
def all : List LogFormat := [auto, json, console]

/-- The format of a name in any case. -/
def parse? (t : Text) : Option LogFormat :=
  all.find? (fun f => f.name = asciiLower t)

end LogFormat

/-- How the cluster is reached. -/
structure ClusterConfig where
  kubeconfig : Text := ""
  context : Text := ""
  inCluster : Bool := false
  watchTimeoutSeconds : Int := 300
deriving Repr, DecidableEq

/-- **The settings.** -/
structure Config where
  cluster : ClusterConfig
  /-- The annotation that says why a revision was made. -/
  causeKey : Text
  logLevel : Level
  logFormat : LogFormat
deriving Repr

/-- **What is wrong with a setting.** -/
inductive ConfigError where
  | badInteger (name text : Text)
  | badAnnotationKey (text : Text)
  | notAmong (setting text : Text) (choices : List Text)
deriving Repr, DecidableEq

/-- The message. -/
def ConfigError.message : ConfigError → Text
  | badInteger name text => "Invalid integer for " ++ name ++ ": " ++ quoted text
  | badAnnotationKey text => "Invalid annotation key: " ++ quoted text
  | notAmong setting text choices =>
    "Invalid " ++ setting ++ ": " ++ text ++ ". Must be one of \x7b" ++
      (", " : Text).intercalate (choices.map quoted) ++ "\x7d"

namespace Config

/-- The name of one of the program's variables. -/
def variableName (key : Text) : Text :=
  "KUBEROLLBACK_" ++ key

/-- The variables that make the settings. -/
def variableNames : List Text :=
  "KUBECONFIG" :: (["KUBECONFIG", "CONTEXT", "IN_CLUSTER", "WATCH_TIMEOUT",
    "CHANGE_CAUSE_ANNOTATION", "LOG_LEVEL", "LOG_FORMAT"] : List Text).map variableName

/-- The value of one of the program's variables. -/
def get (env : Environment) (key fallback : Text) : Text :=
  (Fields.get? env (variableName key)).getD fallback

/-- A truth value: true only if the text says so. -/
def flag (env : Environment) (key : Text) : Bool :=
  (["true", "1", "yes"] : List Text).contains (asciiLower (get env key "false"))

/-- An integer of at least `least`. -/
def integerAtLeast (env : Environment) (key : Text) (fallback least : Int) :
    Except ConfigError Int :=
  let text := get env key (.ofInt fallback)
  match integer? text with
  | some n => .ok (max n least)
  | none => .error (.badInteger (variableName key) text)

/-- **A text that can be an annotation's key**: not empty, and with at most
one slash, which stands inside. -/
def isAnnotationKey (t : Text) : Bool :=
  let slash := CodePoint.char '/'
  !t.isEmpty && t.count slash ≤ 1 && t.head? != some slash && t.getLast? != some slash

/-- An annotation's key. -/
def annotationKey (text : Text) : Except ConfigError Text :=
  if isAnnotationKey text then .ok text else .error (.badAnnotationKey text)

/-- The levels a log can be set to. -/
def levels : List Level := [.debug, .info, .warning, .error]

/-- The level of a name in any case. -/
def level (text : Text) : Except ConfigError Level :=
  match levels.find? (fun l => l.name = asciiLower text) with
  | some l => .ok l
  | none => .error (.notAmong "log level" text (levels.map Level.name))

/-- The format of a name in any case. -/
def format (text : Text) : Except ConfigError LogFormat :=
  match LogFormat.parse? text with
  | some f => .ok f
  | none => .error (.notAmong "log format" text (LogFormat.all.map LogFormat.name))

/-- **The settings that the environment makes.** -/
def load (env : Environment) : Except ConfigError Config := do
  let timeout ← integerAtLeast env "WATCH_TIMEOUT" 300 1
  let cause ← annotationKey (get env "CHANGE_CAUSE_ANNOTATION" changeCauseKey)
  let logLevel ← level (get env "LOG_LEVEL" "warning")
  let logFormat ← format (get env "LOG_FORMAT" "auto")
  return {
    cluster := {
      kubeconfig := get env "KUBECONFIG" ((Fields.get? env "KUBECONFIG").getD "")
      context := get env "CONTEXT" ""
      inCluster := flag env "IN_CLUSTER"
      watchTimeoutSeconds := timeout }
    causeKey := cause
    logLevel := logLevel
    logFormat := logFormat }

end Config
end Rollout
