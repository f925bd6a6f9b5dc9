import Rollout.CommandLine.Option

/-!
# From arguments to a plan

A command line says how to reach the cluster, what to do there and with which
workload. Reading it has an order that shows when several things are wrong:
first the common options and the command's name, then the settings, then the
command's own options, then the workload. A wrong usage ends the reading;
what has been settled about logging by then is part of what it ends with.
-/

namespace Rollout
namespace CommandLine

/-- Where the file with the cluster's address is. -/
def kubeconfigOption : Opt := ⟨"--kubeconfig", none, .text⟩

/-- Which of the file's contexts is meant. -/
def contextOption : Opt := ⟨"--context", none, .text⟩

/-- How much is logged. -/
def logLevelOption : Opt := ⟨"--log-level", none, .choice (Config.levels.map Level.name)⟩

/-- The workload's namespace. -/
def namespaceOption : Opt := ⟨"--namespace", some (.char 'n'), .text⟩

/-- The revision to show. -/
def revisionOption : Opt := ⟨"--revision", none, .integer 0⟩

/-- The revision to go back to. -/
def toRevisionOption : Opt := ⟨"--to-revision", none, .integer 0⟩

/-- Nothing is to be changed. -/
def dryRunOption : Opt := ⟨"--dry-run", none, .flag⟩

/-- Why a deployment is rolled back. -/
def changeCauseOption : Opt := ⟨"--change-cause", none, .text⟩

/-- The options before the command. -/
def commonOptions : List Opt := [kubeconfigOption, contextOption, logLevelOption, helpOption]

/-- The commands. -/
inductive Command where
  | history
  | undo
deriving DecidableEq, Repr

namespace Command

/-- The command's name. -/
def name : Command → Text
  | history => "history"
  | undo => "undo"

/-- All commands. -/
def all : List Command := [history, undo]

/-- The command of a name. -/
def parse? (name : Text) : Option Command :=
  all.find? (fun c => c.name = name)

/-- The command's own options. -/
def options : Command → List Opt
  | history => [namespaceOption, revisionOption, helpOption]
  | undo => [namespaceOption, toRevisionOption, dryRunOption, changeCauseOption, helpOption]

end Command

/-- What is done with the workload. -/
inductive Task where
  /-- Its history is shown, or one revision if the number is above zero. -/
  | show (revision : Int)
  /-- It is rolled back. -/
  | undo (target : Int) (dryRun : Bool) (cause : Text)
deriving DecidableEq, Repr

/-- **A plan**: the settings, the task and the workload. -/
structure Plan where
  config : Config
  task : Task
  kind : Kind
  space : Text
  name : Text
deriving Repr

/-- How the log is set up: its level, and the format if that is settled. -/
abbrev LogSetup := Level × Option Bool

/-- Why there is no plan. -/
inductive Stop where
  /-- Help was asked for. -/
  | help
  | usage (cause : UsageError)
deriving Repr

/-- **The workload that one or two arguments name**: kind and name with a
slash between them, the last one if there are several, or kind and name. -/
def resource (text : Text) (name : Option Text) : Except UsageError (Kind × Text) :=
  match name with
  | some name => named text name
  | none =>
    match cutLast? (.char '/') text with
    | some (kind, name) =>
      if kind.isEmpty || name.isEmpty then .error (.badResource text)
      else named kind name
    | none => .error (.badResource text)
where
  /-- The workload of a kind's spelling and a name. -/
  named (kind name : Text) : Except UsageError (Kind × Text) :=
    match Kind.parse? kind with
    | some k => .ok (k, name)
    | none => .error (.badKind kind)

/-- The settings with those of the command line over them. -/
def configured (config : Config) (common : Scan) : Config :=
  let cluster := config.cluster
  { config with
    cluster := { cluster with
      kubeconfig := (common.nonEmpty? kubeconfigOption).getD cluster.kubeconfig
      context := (common.nonEmpty? contextOption).getD cluster.context }
    logLevel :=
      match (common.last? logLevelOption).bind
          (fun s => Config.levels.find? (fun l => l.name = s)) with
      | some l => l
      | none => config.logLevel }

/-- A reading that may stop. -/
def orStop {α : Type} : Except UsageError α → Except Stop α
  | .ok a => .ok a
  | .error e => .error (.usage e)

/-- The options of a command or before it, unless help is asked for. -/
def checkedScan (opts : List Opt) (mixed : Bool) (args : List Text) : Except Stop Scan := do
  let s ← orStop (scan opts mixed args)
  if s.has helpOption then throw .help
  orStop s.check
  return s

/-- The command's name and arguments, with the options before it. -/
def common (args : List Text) : Except Stop (Scan × Command × List Text) := do
  if args.isEmpty then throw (.usage .nothing)
  let s ← checkedScan commonOptions false args
  match s.rest with
  | [] => throw (.usage .missingCommand)
  | name :: rest =>
    match Command.parse? name with
    | some c => return (s, c, rest)
    | none =>
      -- A name behind two dashes may look like an option, and is then read as one.
      if looksLikeOption name then let _ ← checkedScan commonOptions false s.rest
      throw (.usage (.noSuchCommand name (lookalikes name (Command.all.map Command.name))))

/-- The task that a command's options make of it. -/
def task (c : Command) (s : Scan) : Task :=
  match c with
  | .history => .show (s.integer revisionOption)
  | .undo =>
    .undo (s.integer toRevisionOption) (s.has dryRunOption) ((s.last? changeCauseOption).getD "")

/-- The plan that a command's arguments make. -/
def commandPlan (config : Config) (c : Command) (args : List Text) : Except Stop Plan := do
  let s ← checkedScan c.options true args
  let (text, name) ←
    match s.rest with
    | [] => throw (.usage (.missingArgument "RESOURCE"))
    | [text] => pure (text, none)
    | [text, name] => pure (text, some name)
    | _ :: _ :: extra => throw (.usage (.extraArguments extra))
  let (kind, name) ← orStop (resource text name)
  return {
    config := config
    task := task c s
    kind := kind
    space := (s.last? namespaceOption).getD "default"
    name := name }

/-- What reading a command line came to: how the log was set up, and the plan
or why there is none. -/
structure Reading where
  logging : List LogSetup
  plan : Except Stop Plan

/-- **A command line read.** -/
def read (env : Environment) (args : List Text) : Reading :=
  match common args with
  | .error stop => ⟨[], .error stop⟩
  | .ok (s, c, rest) =>
    match Config.load env with
    | .error e => ⟨[], .error (.usage (.config e))⟩
    | .ok config =>
      let config := configured config s
      ⟨[(config.logLevel, config.logFormat.asJson?)], commandPlan config c rest⟩

end CommandLine
end Rollout
