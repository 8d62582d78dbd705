import LiveTokens.CommandLine.EditArgument
import LiveTokens.Text.Control

/-!
# Command-line arguments

One argument is the file to tokenize. The others are options, which may stand in any order: edits, a
settings file, and requests for more logging. A value follows its option, or is written right behind
it; one-letter options without a value may share a dash with the next one.
-/

namespace LiveTokens

/-- What the command line asks for. -/
structure Arguments where
  input : String
  edits : List Replacement
  settings : Option String
  verbosity : Nat
deriving Repr

/-- Why a command line is refused. -/
inductive UsageError where
  | invalidEdit (value : String) (error : EditArgumentError)
  | missingValue (option : String)
  | unexpected (argument : String)
  | repeated (option : String)
  | noInput
deriving DecidableEq, Repr

/-- An argument as messages quote it. -/
def cited (argument : String) : String :=
  String.ofList (Text.withoutControls argument.toList)

/-- The wording of a refusal. -/
def UsageError.message : UsageError → String
  | .invalidEdit value error =>
    s!"invalid value '{cited value}' for '--edit <START..END=TEXT>': {error.message}"
  | .missingValue option => s!"a value is required for '{option}' but none was supplied"
  | .unexpected argument => s!"unexpected argument '{cited argument}' found"
  | .repeated option => s!"the argument '{option}' cannot be used multiple times"
  | .noInput => "the following required arguments were not provided:\n  <PATH>"

namespace Arguments

/-- The options that have been read so far. -/
structure Options where
  input : Option String := none
  edits : List Replacement := []
  settings : Option String := none
  verbosity : Nat := 0
deriving Repr

/-- The options that take a value. -/
inductive Valued where
  | edit
  | settings
deriving DecidableEq, Repr

/-- How an option that takes a value is called in messages. -/
def Valued.name : Valued → String
  | .edit => "--edit <START..END=TEXT>"
  | .settings => "--config <CONFIG>"

namespace Options

/-- Takes the value of an option. -/
def give (options : Options) (option : Valued) (value : Text) : Except UsageError Options :=
  match option with
  | .edit =>
    match EditArgument.parse value with
    | .ok edit => .ok { options with edits := options.edits ++ [edit] }
    | .error error => .error (.invalidEdit (String.ofList value) error)
  | .settings =>
    if options.settings.isSome then .error (.repeated option.name)
    else .ok { options with settings := some (String.ofList value) }

/-- Takes an argument that is no option. -/
def takeInput (options : Options) (argument : Text) : Except UsageError Options :=
  match options.input with
  | none => .ok { options with input := some (String.ofList argument) }
  | some _ => .error (.unexpected (String.ofList argument))

/-- Takes one-letter options that share a dash. The second part of the answer is an option whose
value is the next argument. -/
def takeLetters (options : Options) : Text → Except UsageError (Options × Option Valued)
  | [] => .ok (options, none)
  | c :: rest =>
    if c = 'v' then
      takeLetters { options with verbosity := options.verbosity + 1 } rest
    else if c = 'e' ∨ c = 'c' then
      let option := if c = 'e' then Valued.edit else Valued.settings
      match rest with
      | [] => .ok (options, some option)
      | '=' :: value => do return (← options.give option value, none)
      | value => do return (← options.give option value, none)
    else
      .error (.unexpected (String.ofList ['-', c]))

/-- Takes an option that is written out. -/
def takeLong (options : Options) (argument : Text) :
    Except UsageError (Options × Option Valued) := do
  if argument = "verbose".toList then
    return ({ options with verbosity := options.verbosity + 1 }, none)
  else if argument = "edit".toList then
    return (options, some .edit)
  else if argument = "config".toList then
    return (options, some .settings)
  else
    match EditArgument.splitText argument with
    | some (name, value) =>
      if name = "edit".toList then
        return (← options.give .edit value, none)
      else if name = "config".toList then
        return (← options.give .settings value, none)
      else
        .error (.unexpected ("--" ++ String.ofList name))
    | none => .error (.unexpected ("--" ++ String.ofList argument))

/-- Takes arguments none of which is an option. -/
def takeInputs (options : Options) : List Text → Except UsageError Options
  | [] => .ok options
  | argument :: rest => do takeInputs (← options.takeInput argument) rest

/-- An argument looks like an option if there is something behind its dash. -/
def isOption : Text → Bool
  | '-' :: _ :: _ => true
  | _ => false

/-- Takes arguments, the first of which may be the value of an option. -/
def takeAll (options : Options) (waiting : Option Valued) :
    List Text → Except UsageError Options
  | [] =>
    match waiting with
    | none => .ok options
    | some option => .error (.missingValue option.name)
  | argument :: rest =>
    match waiting with
    | some option =>
      if isOption argument then .error (.missingValue option.name)
      else do takeAll (← options.give option argument) none rest
    | none =>
      match argument with
      | ['-', '-'] => options.takeInputs rest
      | '-' :: '-' :: name => do
        let (options, waiting) ← options.takeLong name
        takeAll options waiting rest
      | '-' :: c :: letters => do
        let (options, waiting) ← options.takeLetters (c :: letters)
        takeAll options waiting rest
      | _ => do takeAll (← options.takeInput argument) none rest

end Options

/-- Reads a command line. -/
def parse (arguments : List String) : Except UsageError Arguments := do
  let options ← Options.takeAll {} none (arguments.map String.toList)
  match options.input with
  | none => .error .noInput
  | some input =>
    return {
      input := input
      edits := options.edits
      settings := options.settings
      verbosity := options.verbosity }

end Arguments

end LiveTokens
