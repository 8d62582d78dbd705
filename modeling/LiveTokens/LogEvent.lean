import LiveTokens.Update

/-!
# Log events

What a tokenizer says about its work, for those who want to follow it. An event is kept as a value;
its line is written when it is asked for.
-/

namespace LiveTokens

/-- How far an update has come. -/
inductive Phase where
  | idle
  | invalidating
  | relexing
  | merging
deriving DecidableEq, Repr

/-- The written name of a phase. -/
def Phase.name : Phase → String
  | .idle => "Idle"
  | .invalidating => "Invalidating"
  | .relexing => "Relexing"
  | .merging => "Merging"

/-- How much an event matters. -/
inductive LogLevel where
  | error
  | warn
  | info
  | debug
deriving DecidableEq, Repr

/-- The written name of a level. -/
def LogLevel.name : LogLevel → String
  | .error => "ERROR"
  | .warn => "WARN"
  | .info => "INFO"
  | .debug => "DEBUG"

/-- What a tokenizer writes into its log. -/
inductive LogEvent where
  | invalidated (removed : Nat) (span : Span)
  | relexed (produced superseded : Nat) (scanned : Span)
  | merged (removed added : Nat)
  /-- The incremental way was given up in some phase. -/
  | abandoned (phase : Phase) (error : UpdateError)
  /-- An incremental result differs from a full lex. -/
  | differs (generation : Nat)
  | rescanFailed (error : UpdateError)
deriving DecidableEq, Repr

namespace LogEvent

/-- How much an event matters. -/
def level : LogEvent → LogLevel
  | .invalidated _ _ => .debug
  | .relexed _ _ _ => .debug
  | .merged _ _ => .debug
  | .abandoned _ _ => .warn
  | .differs _ => .error
  | .rescanFailed _ => .error

/-- What an event says. -/
def text {ε : Type} : LogEvent → Outcome ε String
  | .invalidated removed span => return s!"invalidated removed={removed} span={← span.render}"
  | .relexed produced superseded scanned =>
    return s!"relexed produced={produced} superseded={superseded} scanned={← scanned.render}"
  | .merged removed added => return s!"merged removed={removed} added={added}"
  | .abandoned phase error => do
    let message ← error.message
    return s!"incremental tokenization failed, rescanning phase={phase.name} error={message}"
  | .differs generation =>
    return "incremental tokens differ from a full lex, adopting the full lex " ++
      s!"generation={generation}"
  | .rescanFailed error => return s!"full rescan failed error={← error.message}"

/-- The line of an event. -/
def render {ε : Type} (event : LogEvent) : Outcome ε String := do
  return s!"{event.level.name} {← event.text}"

end LogEvent

end LiveTokens
