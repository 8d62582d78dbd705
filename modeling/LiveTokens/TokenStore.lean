import LiveTokens.Bisection
import LiveTokens.Token

/-!
# Token stores

A token store holds the tokens of one generation of a document, in order and without overlaps,
together with the edit log that locates each of them. Positions are searched by bisection, so an
unlocatable token is only met if the search looks at it.

What changes a store is work on it that asks first and writes at its end, so that no operation that
fails changes the store.
-/

namespace LiveTokens

/-- The tokens of the log's newest generation. -/
structure TokenStore where
  tokens : List TrackedToken := []
  log : EditLog
deriving DecidableEq, Repr

/-- Why a store refuses. -/
inductive StoreError where
  /-- A token has no place in the generation asked for. -/
  | tracking (id : Nat) (error : TrackingError)
  /-- The new token would overlap one that is there. -/
  | overlap (existing added : Span)
  | notFound (id : Nat)
  /-- A token starts in front of the end of the one before it. -/
  | outOfOrder (index : Nat) (previous next : Span)
deriving DecidableEq, Repr

/-- The wording of a store error. -/
def StoreError.message {ε : Type} : StoreError → Outcome ε String
  | .tracking id error => return s!"token #{id}: {error.message}"
  | .overlap existing added => do
    let added ← added.render
    return s!"token at {added} would overlap existing token at {← existing.render}"
  | .notFound id => return s!"token #{id} is not in the collection"
  | .outOfOrder index previous next => do
    let next ← next.render
    return s!"token {index} at {next} does not follow the token at {← previous.render}"

/-- Spans that were located, in order, and the failure that ended the search for more of them. -/
structure Walk where
  located : List (TrackedToken × Span)
  failure : Option (Failure StoreError)
deriving Repr

namespace TokenStore

/-- The store without tokens. -/
def empty (generation : Nat) : TokenStore :=
  { log := EditLog.startingAt generation }

/-- The generation that the store describes. -/
def version {ε : Type} (store : TokenStore) : Outcome ε Nat :=
  store.log.head

/-- Number of tokens. -/
def size (store : TokenStore) : Nat :=
  store.tokens.length

/-- Moves the store on by one generation. Tokens the edit cuts into can no longer be located. -/
def advance (store : TokenStore) (edit : Edit) : TokenStore :=
  { store with log := store.log.push edit }

/-- Where a token lies in a generation. -/
def locate (store : TokenStore) (tracked : TrackedToken) (version : Nat) :
    Outcome StoreError Span :=
  (tracked.locate store.log version).wrap (.tracking tracked.id)

/-- Spans have to come in order: each starts at or behind the end of the one before it. -/
def checkOrder (index : Nat) (previous : Option Span) :
    List (Outcome StoreError Span) → Outcome StoreError Unit
  | [] => return ()
  | located :: rest => do
    let span ← located
    match previous with
    | none => checkOrder (index + 1) (some span) rest
    | some before =>
      if span.start < (← before.stop) then
        Outcome.fail (.outOfOrder index before span)
      else
        checkOrder (index + 1) (some span) rest

/-- A store of the given tokens, numbered from `firstId`, and the next free number. Tokens in front
of one that is out of order have used up their numbers. -/
def ofTokens (generation firstId : Nat) (tokens : List Token) :
    Outcome StoreError TokenStore × Nat :=
  match checkOrder 0 none (tokens.map fun token => .ok token.span) with
  | .ok () =>
    (.ok { empty generation with tokens := TrackedToken.number generation firstId tokens },
      firstId + tokens.length)
  | .error (.cause (.outOfOrder index previous next)) =>
    (Outcome.fail (.outOfOrder index previous next), firstId + index)
  | .error failure => (.error failure, firstId)

/-- The index behind the tokens whose spans satisfy `holds`. -/
def indexBehind (store : TokenStore) (version : Nat)
    (holds : Span → Outcome StoreError Bool) : Outcome StoreError Nat :=
  bisect (fun tracked => do holds (← store.locate tracked version)) store.tokens

/-- The index behind the tokens that start in front of a position. -/
def indexOf (store : TokenStore) (version position : Nat) : Outcome StoreError Nat :=
  store.indexBehind version fun span => return decide (span.start < position)

/-- The tokens in front of the first one that does not intersect `span`. -/
def intersecting (store : TokenStore) (version : Nat) (span : Span) :
    List TrackedToken → Outcome StoreError (List (TrackedToken × Span))
  | [] => return []
  | tracked :: rest => do
    let located ← store.locate tracked version
    if ← located.intersects span then
      return (tracked, located) :: (← store.intersecting version span rest)
    else
      return []

/-- The tokens that intersect or touch a span, in order. -/
def overlapping (store : TokenStore) (version : Nat) (span : Span) :
    Outcome StoreError (List (TrackedToken × Span)) := do
  let first ← store.indexBehind version fun located =>
    return decide ((← located.stop) < span.start)
  store.intersecting version span (store.tokens.drop first)

/-- A token counts for a span if they share a byte, or if the span is an empty place inside it. -/
def touches (located span : Span) : Outcome StoreError Bool := do
  if ← located.overlaps span then
    return true
  else if span.isEmpty then
    located.includes span.start
  else
    return false

/-- The tokens that share a byte with a span; for an empty span, the token around its position. -/
def inRange (store : TokenStore) (version : Nat) (span : Span) :
    Outcome StoreError (List Token) := do
  let candidates ← store.overlapping version span
  let hits ← candidates.filterM fun (_, located) => touches located span
  return hits.map fun (tracked, located) => ⟨tracked.token.kind, located⟩

/-- Locates tokens one after the other, as far as they can be located. -/
def walk (store : TokenStore) (version : Nat) : List TrackedToken → Walk
  | [] => ⟨[], none⟩
  | tracked :: rest =>
    match store.locate tracked version with
    | .ok span =>
      let walk := store.walk version rest
      { walk with located := (tracked, span) :: walk.located }
    | .error failure => ⟨[], some failure⟩

/-- The tokens that start at or behind a position, in order. -/
def following (store : TokenStore) (version position : Nat) : Outcome StoreError Walk := do
  let first ← store.indexOf version position
  return store.walk version (store.tokens.drop first)

/-- A walk under way. The next token to be located is the one at the index. -/
structure Cursor where
  store : TokenStore
  version : Nat
  index : Nat

/-- A cursor in front of the first token that starts at or behind a position. -/
def cursorAt (store : TokenStore) (version position : Nat) : Outcome StoreError Cursor := do
  return ⟨store, version, ← store.indexOf version position⟩

namespace Cursor

/-- Hands out the next token. A token that cannot be located is the last one. -/
def next (cursor : Cursor) : Option (Outcome StoreError (TrackedToken × Span)) × Cursor :=
  match cursor.store.tokens[cursor.index]? with
  | none => (none, cursor)
  | some tracked =>
    match cursor.store.locate tracked cursor.version with
    | .ok span => (some (.ok (tracked, span)), { cursor with index := cursor.index + 1 })
    | .error failure =>
      (some (.error failure), { cursor with index := cursor.store.tokens.length })

/-- What the cursor hands out when it has been asked `count` times before. -/
def answer (cursor : Cursor) : Nat → Option (Outcome StoreError (TrackedToken × Span))
  | 0 => cursor.next.1
  | count + 1 => cursor.next.2.answer count

end Cursor

/-- The token in front of a new span has to end at or in front of its start. -/
def checkPrevious (store : TokenStore) (version : Nat) (span : Span) :
    Option TrackedToken → Outcome StoreError Unit
  | none => return ()
  | some tracked => do
    let previous ← store.locate tracked version
    if span.start < (← previous.stop) then
      Outcome.fail (.overlap previous span)

/-- The token behind a new span has to start at or behind its end. -/
def checkNext (store : TokenStore) (version : Nat) (span : Span) :
    Option TrackedToken → Outcome StoreError Unit
  | none => return ()
  | some tracked => do
    let next ← store.locate tracked version
    if next.start < (← span.stop) then
      Outcome.fail (.overlap next span)

/-- Puts a token in its place, if it fits between its neighbours. -/
def putIn (tracked : TrackedToken) : Work TokenStore StoreError Unit := do
  let store ← get
  let version ← Work.ofOutcome store.version
  let span ← Work.ofOutcome (store.locate tracked version)
  let index ← Work.ofOutcome (store.indexOf version span.start)
  Work.ofOutcome (store.checkPrevious version span
    (if index = 0 then none else store.tokens[index - 1]?))
  Work.ofOutcome (store.checkNext version span store.tokens[index]?)
  modify fun store => { store with tokens := store.tokens.insertIdx index tracked }

/-- The store with one more token. -/
def add (store : TokenStore) (tracked : TrackedToken) : Outcome StoreError TokenStore :=
  (putIn tracked).result store

theorem add_eq_do (store : TokenStore) (tracked : TrackedToken) :
    store.add tracked = do
      let version ← store.version
      let span ← store.locate tracked version
      let index ← store.indexOf version span.start
      store.checkPrevious version span (if index = 0 then none else store.tokens[index - 1]?)
      store.checkNext version span store.tokens[index]?
      return { store with tokens := store.tokens.insertIdx index tracked } := by
  simp only [add, putIn, Work.result_get_bind, Work.result_ofOutcome_bind, Work.result_modify]
  rfl

/-- The index at which the position of a token leads to the token itself. A stale token has no
position, or leads elsewhere. -/
def indexByPosition? (store : TokenStore) (tracked : TrackedToken) :
    Outcome StoreError (Option Nat) := do
  let version ← store.version
  let index := do
    let span ← store.locate tracked version
    store.indexOf version span.start
  match index with
  | .error .overflow => Outcome.overflow
  | .error (.cause _) => return none
  | .ok index =>
    if store.tokens[index]?.map (·.id) = some tracked.id then
      return some index
    else
      return none

/-- The index of the first token with the given identity. -/
def indexById? (store : TokenStore) (id : Nat) : Option Nat :=
  store.tokens.findIdx? (·.id == id)

/-- Takes out the token with the same identity, wherever it is. -/
def takeOut (tracked : TrackedToken) : Work TokenStore StoreError Unit := do
  let store ← get
  let byPosition ← Work.ofOutcome (store.indexByPosition? tracked)
  match byPosition <|> store.indexById? tracked.id with
  | none => Work.fail (.notFound tracked.id)
  | some index => modify fun store => { store with tokens := store.tokens.eraseIdx index }

/-- The store with one token less. -/
def remove (store : TokenStore) (tracked : TrackedToken) : Outcome StoreError TokenStore :=
  (takeOut tracked).result store

theorem remove_eq_do (store : TokenStore) (tracked : TrackedToken) :
    store.remove tracked = do
      let byPosition ← store.indexByPosition? tracked
      match byPosition <|> store.indexById? tracked.id with
      | none => Outcome.fail (.notFound tracked.id)
      | some index => return { store with tokens := store.tokens.eraseIdx index } := by
  simp only [remove, takeOut, Work.result_get_bind, Work.result_ofOutcome_bind]
  refine congrArg _ (funext fun byPosition => ?_)
  split <;> rfl

/-- Every token where it lies in the store's generation. -/
def toList (store : TokenStore) : Outcome StoreError (List Token) := do
  let version ← store.version
  store.tokens.mapM fun tracked => do
    return ⟨tracked.token.kind, ← store.locate tracked version⟩

/-- Every token can be located in the store's generation, and they come in order. -/
def check (store : TokenStore) : Outcome StoreError Unit := do
  let version ← store.version
  checkOrder 0 none (store.tokens.map (store.locate · version))

/-- Measures every token anew in the store's generation and forgets the edit log. -/
def measureAnew : Work TokenStore StoreError Unit := do
  let store ← get
  let version ← Work.ofOutcome store.version
  let tokens ← Work.ofOutcome (store.tokens.mapM fun tracked => do
    return tracked.rebased (← store.locate tracked version) version)
  modify fun store => { store with tokens := tokens }
  modify fun store => { store with log := EditLog.startingAt version }

/-- The store with every token measured anew and no edits to remember. -/
def compact (store : TokenStore) : Outcome StoreError TokenStore :=
  measureAnew.result store

theorem compact_eq_do (store : TokenStore) :
    store.compact = do
      let version ← store.version
      let tokens ← store.tokens.mapM fun tracked => do
        return tracked.rebased (← store.locate tracked version) version
      return { tokens := tokens, log := EditLog.startingAt version } := by
  simp only [compact, measureAnew, Work.result_get_bind, Work.result_ofOutcome_bind,
    Work.result_modify_bind, Work.result_modify]
  rfl

end TokenStore

end LiveTokens
