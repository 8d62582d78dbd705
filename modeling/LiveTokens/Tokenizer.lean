import LiveTokens.Cancellation
import LiveTokens.LogEvent
import LiveTokens.Settings
import LiveTokens.Update.Excision
import LiveTokens.Update.Realignment

/-!
# Tokenizers

A tokenizer keeps the tokens of a live document current. An edit is handled incrementally: the
tokens it touches are taken out, the text in their place is lexed until it lines up with the old
tokens, and the new tokens are put in. All of that happens on a copy of the store. If anything does
not fit, the whole document is lexed again, and if that fails as well, the tokenizer is left
without tokens until a later edit.

Each update cancels the tickets of the updates before it, and publishes exactly one result: to
whoever waits for it, and to every observer in turn.
-/

namespace LiveTokens

/-- Why a tokenizer could not follow a change. -/
inductive FollowError where
  /-- There were no replacements, but the text changed anyway. -/
  | emptyChange
  /-- The whole document could not be lexed. There are no tokens now. -/
  | rebuild (error : UpdateError)
deriving DecidableEq, Repr

namespace FollowError

/-- The wording of the error that is behind this one. -/
def source {ε : Type} : FollowError → Outcome ε (Option String)
  | .emptyChange => return none
  | .rebuild error => return some (← error.message)

/-- The wording of an error. -/
def message {ε : Type} : FollowError → Outcome ε String
  | .emptyChange => return "text changed without any replacements"
  | .rebuild error => return s!"full rescan failed: {← error.message}"

end FollowError

/-- What consumers see after an update. -/
structure Publication where
  document : Document
  store : TokenStore
  /-- The tokens that the update added; all of them if the whole document was lexed. -/
  updated : List Token
deriving Repr

instance : Versioned Publication where
  version publication := publication.document.version

/-- The tokens in a range of the published document. -/
def Publication.tokensIn (publication : Publication) (span : Span) :
    Outcome StoreError (List Token) := do
  publication.store.inRange (← publication.store.version) span

/-- A publication as one observer was told of it. -/
structure Delivery where
  observer : Nat
  publication : Publication
  ticket : Ticket
  /-- The ticket had been cancelled before the observer was told. -/
  cancelled : Bool
deriving Repr

/-- What an attempt at an update changes even if it fails. -/
structure Progress where
  phase : Phase := .idle
  /-- How many times the incremental way had to be abandoned. -/
  fallbacks : Nat := 0
  nextId : Nat
  log : List LogEvent := []
deriving Repr

/-- A tokenizer and everything it has announced. -/
structure Tokenizer extends Progress where
  lexer : Lexer
  settings : Settings
  document : Document
  store : TokenStore
  cancellation : Cancellation := {}
  observers : List Nat := []
  publications : Slot Publication
  deliveries : List Delivery := []

/-- Steps of an attempt at an update. -/
abbrev Attempt (α : Type) : Type :=
  Work Progress UpdateError α

namespace Attempt

/-- Goes on to a phase. -/
def enter (phase : Phase) : Attempt Unit :=
  modify fun progress => { progress with phase := phase }

/-- Writes into the log. -/
def note (event : LogEvent) : Attempt Unit :=
  modify fun progress => { progress with log := progress.log ++ [event] }

/-- Counts one more time that the incremental way was of no use. -/
def countFallback : Attempt Unit :=
  modify fun progress => { progress with fallbacks := progress.fallbacks + 1 }

/-- Revises a copy of a store. Token numbers are used up even if that fails. -/
def revise {α : Type} (store : TokenStore) (revision : Revision α) : Attempt (α × TokenStore) := do
  let progress ← get
  let (result, workspace) := revision.outcome ⟨store, progress.nextId⟩
  set { progress with nextId := workspace.nextId }
  return (← Work.ofOutcome result, workspace.store)

/-- Numbers the tokens of a new store. -/
def number (generation : Nat) (tokens : List Token) : Attempt TokenStore := do
  let progress ← get
  let (result, nextId) := TokenStore.ofTokens generation progress.nextId tokens
  set { progress with nextId := nextId }
  Work.ofOutcome (result.wrap .store)

end Attempt

namespace Tokenizer

/-- Follows tokens from a position on, each of which has to start where the one before it ended and
may not be empty, to the end of the last one. -/
def tileFrom (position : Nat) : List Token → Outcome UpdateError Nat
  | [] => return position
  | token :: tokens =>
    if token.span.start ≠ position ∨ token.span.length = 0 then
      Outcome.fail (.divergence position token.span.start)
    else do
      tileFrom (← token.span.stop) tokens

/-- The tokens of a whole document. They have to cover it from its start to its end. -/
def lexAll (lexer : Lexer) (document : Document) : Outcome UpdateError (List Token) := do
  let tokens ← (lexer.lex document.text).wrap .lexer
  let stop ← tileFrom 0 tokens
  if stop ≠ document.size then
    Outcome.fail (.divergence document.size stop)
  else
    return tokens

/-- A store with the tokens of a whole document, and these tokens. -/
def storeOf (lexer : Lexer) (document : Document) : Attempt (TokenStore × List Token) := do
  let tokens ← Work.ofOutcome (lexAll lexer document)
  let store ← Attempt.number document.generation tokens
  return (store, tokens)

/-- A tokenizer for a document, with its first result. -/
def create (lexer : Lexer) (settings : Settings) (document : Document) (nextId : Nat) :
    Outcome UpdateError Tokenizer :=
  match (storeOf lexer document).outcome { nextId := nextId } with
  | (.error failure, _) => .error failure
  | (.ok (store, updated), progress) =>
    .ok {
      toProgress := progress
      lexer := lexer
      settings := settings
      document := document
      store := store
      publications := Slot.holding ⟨document, store, updated⟩ }

/-- Forgets the edits of a store once there are too many of them. -/
def compactBeyond (settings : Settings) (store : TokenStore) : Outcome StoreError TokenStore :=
  if settings.logBound ≤ store.log.length then store.compact else return store

/-- Compares the result of an update with a full lex, which is adopted if the two differ. -/
def verify (lexer : Lexer) (after : Document) (store : TokenStore) (updated : List Token) :
    Attempt (TokenStore × List Token) := do
  Work.ofOutcome (store.check.wrap .store)
  let expected ← Work.ofOutcome ((lexer.lex after.text).wrap .lexer)
  let tokens ← Work.ofOutcome (store.toList.wrap .store)
  if tokens = expected then
    return (store, updated)
  else
    Attempt.note (.differs after.generation)
    Attempt.countFallback
    let store ← Attempt.number after.generation expected
    return (store, expected)

/-- Brings a copy of the store up to date with `after`, and tells which tokens are new. -/
def incremental (tokenizer : Tokenizer) (before after : Document)
    (replacements : List Replacement) : Attempt (TokenStore × List Token) := do
  let version ← Work.ofOutcome tokenizer.store.version
  if before.version.lineage ≠ tokenizer.document.version.lineage ∨ before.generation ≠ version then
    Work.fail (.versionSkew version before.generation)
  else
    let edit ← Work.ofOutcome ((Edit.join replacements).wrap .join)
    Attempt.enter .invalidating
    let (excision, store) ← Attempt.revise tokenizer.store (excise before after edit)
    Attempt.note (.invalidated excision.removed.length excision.span)
    Attempt.enter .relexing
    let realignment ← Work.ofOutcome (realign store tokenizer.lexer after excision.span)
    Attempt.note
      (.relexed realignment.tokens.length realignment.superseded.length realignment.scanned)
    Attempt.enter .merging
    let ((), store) ← Attempt.revise store (merge realignment)
    let store ← Work.ofOutcome ((compactBeyond tokenizer.settings store).wrap .store)
    Attempt.note
      (.merged (excision.removed.length + realignment.superseded.length) realignment.tokens.length)
    if tokenizer.settings.verifyIncremental then
      verify tokenizer.lexer after store realignment.tokens
    else
      return (store, realignment.tokens)

/-- Publishes the present tokens and tells every observer. -/
def publish (tokenizer : Tokenizer) (updated : List Token) (ticket : Ticket) : Tokenizer :=
  let publication := ⟨tokenizer.document, tokenizer.store, updated⟩
  { tokenizer with
    publications := tokenizer.publications.publish publication
    deliveries := tokenizer.deliveries ++ tokenizer.observers.map fun observer =>
      ⟨observer, publication, ticket, tokenizer.cancellation.isCancelled ticket⟩ }

/-- Takes over a new document together with the outcome of the work that gave its tokens. -/
def adopt (tokenizer : Tokenizer) (document : Document) (store : TokenStore)
    (progress : Progress) : Tokenizer :=
  { tokenizer with
    toProgress := { progress with phase := .idle }
    document := document
    store := store }

/-- Throws all tokens away and lexes a whole document. -/
def rebuild (tokenizer : Tokenizer) (document : Document) (ticket : Ticket) :
    Outcome FollowError Unit × Tokenizer :=
  match (storeOf tokenizer.lexer document).outcome tokenizer.toProgress with
  | (.ok (store, updated), progress) =>
    (.ok (), (tokenizer.adopt document store progress).publish updated ticket)
  | (.error .overflow, progress) => (Outcome.overflow, { tokenizer with toProgress := progress })
  | (.error (.cause error), progress) =>
    let progress := { progress with log := progress.log ++ [.rescanFailed error] }
    let store := TokenStore.empty document.generation
    (Outcome.fail (.rebuild error),
      (tokenizer.adopt document store progress).publish [] ticket)

/-- Follows a document whose text has not changed. -/
def follow (tokenizer : Tokenizer) (after : Document) : Tokenizer :=
  if after.version.lineage = tokenizer.document.version.lineage then
    let log := tokenizer.store.log
    let missing := after.generation - (log.base + log.length)
    { tokenizer with
      document := after
      store := (List.replicate missing Edit.identity).foldl TokenStore.advance tokenizer.store }
  else
    { tokenizer with document := after }

/-- Cancels the tickets of all earlier updates. -/
def supersede (tokenizer : Tokenizer) : Ticket × Tokenizer :=
  let (ticket, cancellation) := tokenizer.cancellation.supersede
  (ticket, { tokenizer with cancellation := cancellation })

/-- Brings the tokens from `before` up to date with `after`, where the replacements turned one into
the other. -/
def followChange (tokenizer : Tokenizer) (before after : Document)
    (replacements : List Replacement) : Outcome FollowError Unit × Tokenizer :=
  if replacements = [] then
    if before.text = after.text then (.ok (), tokenizer.follow after)
    else (Outcome.fail .emptyChange, tokenizer)
  else
    let (ticket, tokenizer) := tokenizer.supersede
    let attempt := tokenizer.incremental before after replacements
    match attempt.outcome tokenizer.toProgress with
    | (.ok (store, updated), progress) =>
      (.ok (), (tokenizer.adopt after store progress).publish updated ticket)
    | (.error .overflow, progress) => (Outcome.overflow, { tokenizer with toProgress := progress })
    | (.error (.cause error), progress) =>
      let progress := { progress with
        log := progress.log ++ [.abandoned progress.phase error]
        fallbacks := progress.fallbacks + 1 }
      rebuild { tokenizer with toProgress := progress } after ticket

/-- Follows a transition of the document. -/
def followTransition (tokenizer : Tokenizer) (transition : Transition Document ChangeSet) :
    Outcome FollowError Unit × Tokenizer :=
  tokenizer.followChange transition.before transition.after transition.change.replacements

/-- Throws all tokens away and lexes the present document. -/
def rescan (tokenizer : Tokenizer) : Outcome FollowError Unit × Tokenizer :=
  let (ticket, tokenizer) := tokenizer.supersede
  tokenizer.rebuild tokenizer.document ticket

/-- Adds an observer, who will be told of every publication from now on. -/
def subscribe (tokenizer : Tokenizer) (observer : Nat) : Tokenizer :=
  { tokenizer with observers := tokenizer.observers ++ [observer] }

/-- The tokens in a range of the present document. -/
def tokensIn (tokenizer : Tokenizer) (span : Span) : Outcome StoreError (List Token) := do
  tokenizer.store.inRange (← tokenizer.store.version) span

/-- The class of a kind of token. -/
def classOf (tokenizer : Tokenizer) (kind : Nat) : TokenClass :=
  tokenizer.lexer.classify kind

end Tokenizer

end LiveTokens
