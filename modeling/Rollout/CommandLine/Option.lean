import Rollout.CommandLine.Usage

/-!
# Options

Options start with two dashes and a name, or with one dash and a letter. The
value of an option follows it, in the same argument behind `=` (behind the
letter for a short one) or as the next argument, whatever that looks like.
Two dashes alone end the options. Where arguments and options may be mixed,
an argument between options is kept; where not, the first argument ends the
options.

Values are checked after all options have been found: each option once, in
the order of its first occurrence and with its last value.
-/

namespace Rollout
namespace CommandLine

/-- What an option's value has to be. -/
inductive ValueKind where
  | flag
  | text
  | choice (among : List Text)
  | integer (least : Int)
deriving DecidableEq, Repr

/-- **An option.** -/
structure Opt where
  /-- Its name with two dashes. -/
  long : Text
  /-- Its letter. -/
  short : Option CodePoint := none
  value : ValueKind := .text
deriving DecidableEq, Repr

/-- The option that asks for help. -/
def helpOption : Opt := ⟨"--help", none, .flag⟩

/-- An option as it was found: what it was called, and the value in the same
argument. -/
structure Found where
  opt : Opt
  called : Text
  inline : Option Text

/-- What was found in the arguments: options with their values, in order,
and the arguments that are left. -/
structure Scan where
  given : List (Opt × Text)
  rest : List Text

/-- The argument can be an option. -/
def looksLikeOption : Text → Bool
  | .char '-' :: _ :: _ => true
  | _ => false

/-- An argument cut at its first `=`. -/
def cutValue (arg : Text) : Text × Option Text :=
  match cut? (.char '=') arg with
  | some (name, value) => (name, some value)
  | none => (arg, none)

/-- The option of a letter, the rest of the argument being its value. -/
def findShort (opts : List Opt) (letter : CodePoint) (more : Text) : Except UsageError Found :=
  let called : Text := [.char '-', letter]
  match opts.find? (fun o => o.short = some letter) with
  | some o => .ok ⟨o, called, if more.isEmpty then none else some more⟩
  | none => .error (.noSuchOption called [])

/-- **The option an argument is.** -/
def findOption (opts : List Opt) (arg : Text) : Except UsageError Found :=
  let (name, inline) := cutValue arg
  match opts.find? (fun o => o.long = name) with
  | some o => .ok ⟨o, name, inline⟩
  | none =>
    match arg with
    | .char '-' :: .char '-' :: _ =>
      .error (.noSuchOption name (lookalikes name (opts.map Opt.long)))
    | .char '-' :: letter :: more => findShort opts letter more
    | _ => .error (.noSuchOption name [])

/-- An option put in front of what was found. -/
def Scan.with (s : Scan) (o : Opt) (value : Text) : Scan :=
  { s with given := (o, value) :: s.given }

/-- **The options among the arguments.** -/
def scan (opts : List Opt) (mixed : Bool) : List Text → Except UsageError Scan
  | [] => .ok ⟨[], []⟩
  | arg :: rest =>
    if arg = "--" then .ok ⟨[], rest⟩
    else if looksLikeOption arg then
      match findOption opts arg with
      | .error e => .error e
      | .ok ⟨o, called, inline⟩ =>
        match o.value, inline with
        | .flag, none => (scan opts mixed rest).map (·.with o "")
        | .flag, some _ => .error (.takesNoValue called)
        | _, some value => (scan opts mixed rest).map (·.with o value)
        | _, none =>
          match rest with
          | [] => .error (.needsValue called)
          | value :: rest => (scan opts mixed rest).map (·.with o value)
    else if mixed then (scan opts mixed rest).map (fun s => { s with rest := arg :: s.rest })
    else .ok ⟨[], arg :: rest⟩

/-- The last value given for an option. -/
def Scan.last? (s : Scan) (o : Opt) : Option Text :=
  (s.given.reverse.find? (fun g => g.1 = o)).map Prod.snd

/-- The option was given. -/
def Scan.has (s : Scan) (o : Opt) : Bool :=
  s.given.any (fun g => g.1 = o)

/-- A value is what the option's value has to be. -/
def checkValue (o : Opt) (value : Text) : Except UsageError Unit :=
  match o.value with
  | .choice among => if among.contains value then .ok () else .error (.notAmong o.long value among)
  | .integer least =>
    match integer? value with
    | none => .error (.notInteger o.long value)
    | some n => if n < least then .error (.tooSmall o.long n least) else .ok ()
  | _ => .ok ()

/-- The options given, each once, in the order of first occurrence. -/
def Scan.options (s : Scan) : List Opt :=
  s.given.foldl (fun os g => if os.contains g.1 then os else os ++ [g.1]) []

/-- **All values given are what they have to be.** -/
def Scan.check (s : Scan) : Except UsageError Unit :=
  s.options.forM fun o => checkValue o ((s.last? o).getD "")

/-- The value of an option with a text, if it is not empty. -/
def Scan.nonEmpty? (s : Scan) (o : Opt) : Option Text :=
  (s.last? o).filter (fun v => !v.isEmpty)

/-- The value of an option with an integer, zero if it is not given. -/
def Scan.integer (s : Scan) (o : Opt) : Int :=
  ((s.last? o).bind integer?).getD 0

end CommandLine
end Rollout
