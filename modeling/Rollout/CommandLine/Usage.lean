import Rollout.Config
import Rollout.Text.Similarity

/-!
# Wrong usage

What a command line can be told off for. Nothing has been asked of a cluster
when one of these is found.
-/

namespace Rollout

/-- **Why a command line is not understood.** -/
inductive UsageError where
  /-- There is no such option; these look alike. -/
  | noSuchOption (name : Text) (lookalikes : List Text)
  /-- The option's value is missing. -/
  | needsValue (option : Text)
  /-- The option has no value. -/
  | takesNoValue (option : Text)
  /-- A value is no integer. -/
  | notInteger (option text : Text)
  /-- A value is below the least. -/
  | tooSmall (option : Text) (value least : Int)
  /-- A value is none of the choices. -/
  | notAmong (option text : Text) (choices : List Text)
  /-- An argument is missing. -/
  | missingArgument (name : Text)
  /-- There are more arguments than places. -/
  | extraArguments (arguments : List Text)
  /-- There is no such command; these look alike. -/
  | noSuchCommand (name : Text) (lookalikes : List Text)
  /-- No command is given. -/
  | missingCommand
  /-- No argument is given at all. -/
  | nothing
  /-- A setting is wrong. -/
  | config (cause : ConfigError)
  /-- A resource is not named as kind and name. -/
  | badResource (text : Text)
  /-- A kind has no rollout history. -/
  | badKind (text : Text)
deriving Repr, DecidableEq

namespace UsageError

/-- What is said about words that look alike. -/
def suggestion : List Text → Text
  | [] => ""
  | [one] => " Did you mean " ++ quoted one ++ "?"
  | several => " (Did you mean one of: " ++ (", " : Text).intercalate (several.map quoted) ++ "?)"

/-- The message. -/
def message : UsageError → Text
  | noSuchOption name alike => "No such option " ++ quoted name ++ "." ++ suggestion alike
  | needsValue option => "Option " ++ quoted option ++ " requires an argument."
  | takesNoValue option => "Option " ++ quoted option ++ " does not take a value."
  | notInteger option text =>
    "Invalid value for '" ++ option ++ "': " ++ quoted text ++ " is not a valid integer range."
  | tooSmall option value least =>
    "Invalid value for '" ++ option ++ "': " ++ .ofInt value ++ " is not in the range x>=" ++
      .ofInt least ++ "."
  | notAmong option text choices =>
    "Invalid value for '" ++ option ++ "': " ++ quoted text ++ " is not one of " ++
      (", " : Text).intercalate (choices.map quoted) ++ "."
  | missingArgument name => "Missing argument '" ++ name ++ "'."
  | extraArguments [one] => "Got unexpected extra argument (" ++ one ++ ")"
  | extraArguments several =>
    "Got unexpected extra arguments (" ++ (" " : Text).intercalate several ++ ")"
  | noSuchCommand name alike => "No such command " ++ quoted name ++ "." ++ suggestion alike
  | missingCommand => "Missing command."
  | nothing => ""
  | config cause => cause.message
  | badResource text => "expected KIND/NAME or KIND NAME, got " ++ quoted text
  | badKind text =>
    quoted text ++ " does not support rollout history; use deployment, daemonset or statefulset"

/-- What is written to the error channel: nothing but the help if there was
nothing to understand. -/
def report : UsageError → Text
  | nothing => ""
  | e => "Error: " ++ e.message ++ "\n"

end UsageError
end Rollout
