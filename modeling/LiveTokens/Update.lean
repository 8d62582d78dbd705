import LiveTokens.Document
import LiveTokens.Lexer
import LiveTokens.TokenStore

/-!
# Updating a token store

Bringing a token store from one generation of a document to the next takes several steps, and each
of them may find that it cannot go on. This module has the reasons for that, and the workspace the
steps share: the store that is being revised and the next free token number.
-/

namespace LiveTokens

/-- Why the tokens of a document could not be brought up to date. -/
inductive UpdateError where
  | join (error : JoinError)
  /-- The edit does not start from the generation that the tokens describe. -/
  | versionSkew (expected found : Nat)
  /-- The edit touches text that no token covers. -/
  | uncovered (region : Span)
  | outOfBounds (span : Span) (size : Nat)
  | store (error : StoreError)
  | lexer (error : LexError)
  /-- The tokens of the lexer do not follow one another. -/
  | divergence (expected found : Nat)
deriving DecidableEq, Repr

/-- The wording of an update error. -/
def UpdateError.message {ε : Type} : UpdateError → Outcome ε String
  | .join error => return error.message
  | .versionSkew expected found =>
    return s!"expected an edit from generation {expected}, got one from generation {found}"
  | .uncovered region => return s!"edit at {← region.render} is not covered by any token"
  | .outOfBounds span size =>
    return s!"{← span.render} lies outside of a document of length {size}"
  | .store error => error.message
  | .lexer error => return error.message
  | .divergence expected found =>
    return s!"lexer output does not line up: expected offset {expected}, found {found}"

/-- A store under revision, and the next free token number. -/
structure Workspace where
  store : TokenStore
  nextId : Nat
deriving Repr

/-- Steps of a revision. -/
abbrev Revision (α : Type) : Type :=
  Work Workspace UpdateError α

namespace Revision

/-- Asks the store. -/
def query {α : Type} (question : TokenStore → Outcome StoreError α) : Revision α := do
  Work.ofOutcome ((question (← get).store).wrap .store)

/-- Changes the store, or leaves it as it is if that fails. -/
def update (change : TokenStore → Outcome StoreError TokenStore) : Revision Unit := do
  let store ← query change
  modify fun workspace => { workspace with store := store }

/-- A new tracked token. Its number is used up, whatever becomes of it. -/
def track (token : Token) (origin : Nat) : Revision TrackedToken := do
  let workspace ← get
  set { workspace with nextId := workspace.nextId + 1 }
  return ⟨workspace.nextId, token, origin⟩

end Revision

end LiveTokens
