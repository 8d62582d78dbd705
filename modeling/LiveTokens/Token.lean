import LiveTokens.EditLog

/-!
# Tokens

A lexer gives tokens: a kind, which only the lexer's own grammar can read, and a span. A tracked
token also remembers the generation its span was measured in, its origin, and has an identity of
its own. It can be located in every later generation that the edit log knows about, until an edit
cuts into it.
-/

namespace LiveTokens

/-- What consumers care about in a token, whatever its grammar. -/
inductive TokenClass where
  | whitespace
  | newline
  | comment
  | identifier
  | number
  | stringLiteral
  | punctuation
  | unknown
deriving DecidableEq, Repr

/-- The written name of a class. -/
def TokenClass.name : TokenClass → String
  | .whitespace => "Whitespace"
  | .newline => "Newline"
  | .comment => "Comment"
  | .identifier => "Identifier"
  | .number => "Number"
  | .stringLiteral => "StringLiteral"
  | .punctuation => "Punctuation"
  | .unknown => "Unknown"

/-- A token in one generation of a document. -/
structure Token where
  /-- The grammar's own code for what the token is. -/
  kind : Nat
  span : Span
deriving DecidableEq, Repr

/-- A token with an identity, whose span is measured at generation `origin`. -/
structure TrackedToken where
  id : Nat
  token : Token
  origin : Nat
deriving DecidableEq, Repr

/-- Why a tracked token has no place in a generation. -/
inductive TrackingError where
  | beforeOrigin (origin generation : Nat)
  | invalidated
  | log (error : LogError)
deriving DecidableEq, Repr

/-- The wording of a tracking error. -/
def TrackingError.message : TrackingError → String
  | .beforeOrigin origin generation =>
    s!"token created at generation {origin} cannot be located at generation {generation}"
  | .invalidated => "token was invalidated by an edit"
  | .log error => error.message

namespace TrackedToken

/-- Where the token lies in a generation. -/
def locate (tracked : TrackedToken) (log : EditLog) (generation : Nat) :
    Outcome TrackingError Span := do
  if generation < tracked.origin then
    Outcome.fail (.beforeOrigin tracked.origin generation)
  else
    match ← (log.carry tracked.token.span tracked.origin generation).wrap .log with
    | (.invalidated, _) => Outcome.fail .invalidated
    | (_, span) => return span

/-- The token as it is in a generation. -/
def inGeneration (tracked : TrackedToken) (log : EditLog) (generation : Nat) :
    Outcome TrackingError Token := do
  return ⟨tracked.token.kind, ← tracked.locate log generation⟩

/-- The same token, measured anew. -/
def rebased (tracked : TrackedToken) (span : Span) (generation : Nat) : TrackedToken :=
  { tracked with token := { tracked.token with span := span }, origin := generation }

@[simp] theorem id_rebased (tracked : TrackedToken) (span : Span) (generation : Nat) :
    (tracked.rebased span generation).id = tracked.id :=
  rfl

/-- Gives consecutive identities to tokens measured at one generation. -/
def number (generation firstId : Nat) : List Token → List TrackedToken
  | [] => []
  | token :: tokens => ⟨firstId, token, generation⟩ :: number generation (firstId + 1) tokens

@[simp] theorem length_number (generation firstId : Nat) (tokens : List Token) :
    (number generation firstId tokens).length = tokens.length := by
  induction tokens generalizing firstId with
  | nil => rfl
  | cons token tokens ih => simp [number, ih]

end TrackedToken

end LiveTokens
