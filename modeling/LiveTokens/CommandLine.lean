import LiveTokens.Assembly
import LiveTokens.CommandLine.Arguments
import LiveTokens.Settings.File
import LiveTokens.Text.Quoted
import LiveTokens.Tokenizer

/-!
# The command line

The program tokenizes a file of assembly source, replays edits against it one at a time, and prints
the tokens that result, each with its position, its class and its text. In the end it compares them
with a lexing of the edited text.

The settings file of the user and a function from paths to texts stand for the file system, so that
a whole run is a value.
-/

namespace LiveTokens

/-- What a run leaves behind. -/
structure Report where
  code : Nat
  output : String := ""
  errors : String := ""
  /-- Lines for the log, as far as they were asked for. -/
  log : List String := []
deriving DecidableEq, Repr

namespace CommandLine

/-- Why a run comes to nothing. -/
inductive RunError where
  | settings (error : SettingsError)
  | input (error : ReadError)
  | lex (error : UpdateError)
  | change (error : ChangeError)
  | follow (error : FollowError)
  | store (error : StoreError)
  | comparison (error : LexError)
  | inexact
deriving DecidableEq, Repr

/-- The wording of a run error. -/
def RunError.message {ε : Type} : RunError → Outcome ε String
  | .settings error => return error.message
  | .input error => return error.message
  | .lex error => error.message
  | .change error => return error.message
  | .follow error => error.message
  | .store error => error.message
  | .comparison error => return error.message
  | .inexact => return "incremental result differs from a full lex"

/-- A text at the right end of a field. -/
def padLeft (width : Nat) (text : String) : String :=
  String.ofList (List.replicate (width - text.length) ' ') ++ text

/-- A text at the left end of a field. -/
def padRight (width : Nat) (text : String) : String :=
  text ++ String.ofList (List.replicate (width - text.length) ' ')

/-- The line of a token: start, size, class and text. -/
def tokenLine (tokenizer : Tokenizer) (token : Token) (text : Text) : String :=
  padLeft 6 (toString token.span.start) ++ " " ++
    padLeft 4 (toString token.span.length) ++ " " ++
    padRight 12 (tokenizer.classOf token.kind).name ++ " " ++
    String.ofList (Text.quoted text) ++ "\n"

/-- The lines of tokens, whose text is read from a cursor on. A token outside of the document has
none. -/
def tokenLines (tokenizer : Tokenizer) (cursor : Document.Cursor) :
    List Token → Outcome RunError (List String)
  | [] => return []
  | token :: tokens => do
    let (text, cursor) := (← tokenizer.document.sliceFrom? cursor token.span).getD ([], cursor)
    return tokenLine tokenizer token text :: (← tokenLines tokenizer cursor tokens)

/-- A run in progress. -/
structure Session where
  slot : Slot Document
  tokenizer : Tokenizer
  log : List (LogLevel × String) := []

/-- Steps of a run. -/
abbrev Step (α : Type) : Type :=
  Work Session RunError α

/-- Warnings and errors are always logged, everything else on request. -/
def isAskedFor (verbosity : Nat) : LogLevel → Bool
  | .error => true
  | .warn => true
  | .info => decide (1 ≤ verbosity)
  | .debug => decide (2 ≤ verbosity)

/-- Adds a line to the log. -/
def note (level : LogLevel) (text : String) : Step Unit :=
  modify fun session => { session with log := session.log ++ [(level, s!"{level.name} {text}")] }

/-- Adds the new events of a tokenizer to the log. -/
def noteEvents (old new : Tokenizer) : Step Unit :=
  (new.log.drop old.log.length).forM fun event => do
    note event.level (← Work.ofOutcome event.text)

/-- Makes one edit and has the tokenizer follow it. -/
def replay (edit : Replacement) : Step Unit := do
  let session ← get
  let (result, slot) := session.slot.replace session.slot.current edit.target edit.text
  let transition ← Work.ofOutcome (result.wrap .change)
  let (result, tokenizer) := session.tokenizer.followTransition transition
  set { session with slot := slot, tokenizer := tokenizer }
  noteEvents session.tokenizer tokenizer
  Work.ofOutcome (result.wrap .follow)
  let spans ← Work.ofOutcome
    (tokenizer.publications.current.updated.mapM fun token => token.span.render)
  let updated := String.intercalate ", " spans
  note .info s!"applied edit generation={tokenizer.document.generation} updated={updated}"

/-- The lines of all tokens, their number and whether they are those of the whole text. -/
def summarise : Step (String × Nat × Bool) := do
  let tokenizer := (← get).tokenizer
  let tokens ← Work.ofOutcome (tokenizer.store.toList.wrap .store)
  let lines ← Work.ofOutcome (tokenLines tokenizer tokenizer.document.start tokens)
  let expected ← Work.ofOutcome ((tokenizer.lexer.lex tokenizer.document.text).wrap .comparison)
  return (String.join lines, tokens.length, tokens = expected)

/-- A tokenizer for the input, with the settings that hold. -/
def start (userSettings : FileText) (read : String → FileText) (arguments : Arguments) :
    Outcome RunError Session := do
  let settings := match arguments.settings with
    | some path => Settings.load (read path)
    | none => Settings.loadUser {} userSettings
  match settings with
  | .error error => Outcome.fail (.settings error)
  | .ok settings =>
    match read arguments.input with
    | .error error => Outcome.fail (.input error)
    | .ok text =>
      let document := Document.ofText 1 text
      let tokenizer ← (Tokenizer.create Assembly.lexer settings document 1).wrap .lex
      return { slot := .holding document, tokenizer := tokenizer }

/-- The report of a run that failed. -/
def failureReport (error : RunError) : Report :=
  match (error.message : Outcome Empty String) with
  | .ok message => { code := 1, errors := s!"error: {message}\n" }
  | .error _ => { code := 101 }

/-- Runs a command line that has been understood. -/
def runArguments (userSettings : FileText) (read : String → FileText) (arguments : Arguments) :
    Report :=
  match start userSettings read arguments with
  | .error .overflow => { code := 101 }
  | .error (.cause error) => failureReport error
  | .ok session =>
    let work : Step (String × Nat × Bool) := do
      arguments.edits.forM replay
      summarise
    let (result, session) := work.outcome session
    let asked := session.log.filter fun (level, _) => isAskedFor arguments.verbosity level
    let log := asked.map (·.2)
    match result with
    | .error .overflow => { code := 101, log := log }
    | .error (.cause error) => { failureReport error with log := log }
    | .ok (output, count, exact) =>
      let verdict := if exact then "matches full lex" else "DIFFERS FROM FULL LEX"
      let summary := s!"{count} tokens, {session.tokenizer.fallbacks} fallbacks, {verdict}\n"
      if exact then
        { code := 0, output := output, errors := summary, log := log }
      else
        let failure := failureReport .inexact
        { failure with output := output, errors := summary ++ failure.errors, log := log }

/-- Runs a command line. -/
def run (userSettings : FileText) (read : String → FileText) (arguments : List String) : Report :=
  match Arguments.parse arguments with
  | .ok arguments => runArguments userSettings read arguments
  | .error error =>
    { code := 2
      errors := s!"error: {error.message}\n\nFor more information, try '--help'.\n" }

end CommandLine

end LiveTokens
