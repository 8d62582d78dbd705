import LiveTokens.Update

/-!
# Realignment

The second step of an update lexes the invalidated text, and as many of the old tokens behind it as
it takes until the new tokens end where an old one ended. From there on the old tokens are right
again. The third step puts the new tokens in the place of the old ones that they replace.

The lexer is fed the invalidated text first and then the text of one old token per request. An old
token whose text cannot be had ends the feed; that only matters if the lexer asks for it. Most edits
take only a few old tokens, so a lexer first gets a few, and is run again with more of them if it
has asked for more.
-/

namespace LiveTokens

/-- An old token behind the invalidated text, where it ends now, and its text. -/
structure Candidate where
  tracked : TrackedToken
  stop : Nat
  text : Text
deriving Repr

/-- The old tokens that can be fed to the lexer, and what befalls whoever asks for one more. -/
structure Feed where
  candidates : List Candidate
  failure : Option (Failure UpdateError)
deriving Repr

namespace Feed

/-- Fetches the text of located tokens, as far as it can be had, reading on from a cursor. -/
def ofLocated (after : Document) (failure : Option (Failure UpdateError))
    (cursor : Document.Cursor) : List (TrackedToken × Span) → Feed
  | [] => ⟨[], failure⟩
  | (tracked, span) :: rest =>
    match after.sliceFrom? cursor span with
    | .error failure => ⟨[], some failure⟩
    | .ok none => ⟨[], some (.cause (.outOfBounds span after.size))⟩
    | .ok (some (text, cursor)) =>
      let feed := ofLocated after failure cursor rest
      { feed with candidates := ⟨tracked, span.start + span.length, text⟩ :: feed.candidates }

/-- The feed from a walk over the tokens of a store. -/
def ofWalk (after : Document) (walk : Walk) : Feed :=
  ofLocated after
    (walk.failure.map fun
      | .overflow => .overflow
      | .cause error => .cause (.store error))
    after.start walk.located

/-- The candidates handed out by so many requests, the first of which got the invalidated text. -/
def handedOut (feed : Feed) (requests : Nat) : List Candidate :=
  feed.candidates.take (requests - 1)

/-- What befell the lexer if it made that many requests. -/
def failureAt (feed : Feed) (requests : Nat) : Option (Failure UpdateError) :=
  if feed.candidates.length + 1 < requests then feed.failure else none

/-- An overflow while a token's text is fetched stops the lexer in the middle of a request. -/
def checkOverflow (feed : Feed) (requests : Nat) : Outcome UpdateError Unit :=
  match feed.failureAt requests with
  | some .overflow => Outcome.overflow
  | _ => return ()

/-- A failure that the lexer took for the end of the text. -/
def checkFailure (feed : Feed) (requests : Nat) : Outcome UpdateError Unit :=
  match feed.failureAt requests with
  | some failure => .error failure
  | none => return ()

end Feed

/-- New tokens, and where the last of them ends. -/
structure Reading where
  tokens : List Token
  stop : Nat
deriving Repr

/-- New tokens, the old tokens they replace, and all the text that was lexed for them. -/
structure Realignment where
  tokens : List Token
  superseded : List TrackedToken
  scanned : Span
deriving DecidableEq, Repr

namespace Realignment

/-- A place to stop: the end of the invalidated text, or behind it the end of an old token. -/
def isBoundary (feed : Feed) (invalidStop position requests : Nat) : Bool :=
  let stops := (feed.handedOut requests).map (·.stop)
  position == invalidStop ||
    (decide (invalidStop < position) && holdsKey stops position 0 stops.length)

/-- Reads tokens until one of them ends at a boundary, or there are no more. Each token has to start
where the one before it ended, and may not be empty. The state is the number of requests made. -/
def read (feed : Feed) (invalidStop : Nat) (requests : Nat) (position : Nat) :
    List LexItem → Work Nat UpdateError Reading
  | [] => do
    set requests
    Work.ofOutcome (feed.checkOverflow requests)
    return ⟨[], position⟩
  | item :: items => do
    set item.requests
    Work.ofOutcome (feed.checkOverflow item.requests)
    let token ← Work.ofOutcome (item.result.wrap .lexer)
    if token.span.start ≠ position ∨ token.span.length = 0 then
      Work.fail (.divergence position token.span.start)
    else
      let stop ← Work.ofOutcome token.span.stop
      if isBoundary feed invalidStop stop item.requests then
        return ⟨[token], stop⟩
      else
        let reading ← read feed invalidStop requests stop items
        return { reading with tokens := token :: reading.tokens }

/-- What a reading amounts to. It has to end at a boundary. -/
def ofReading (feed : Feed) (invalid : Span) (invalidStop requests : Nat) (reading : Reading) :
    Outcome UpdateError Realignment := do
  feed.checkFailure requests
  let candidates := feed.handedOut requests
  if reading.stop = invalidStop ∨ candidates.any (·.stop = reading.stop) then
    return {
      tokens := reading.tokens
      superseded := (candidates.takeWhile (·.stop ≤ reading.stop)).map (·.tracked)
      scanned := Span.ofBounds invalid.start reading.stop }
  else
    Outcome.fail (.divergence invalidStop reading.stop)

/-- The outcome with what is in the feed, and the number of requests made for it. -/
def ofFeed (lexer : Lexer) (invalid : Span) (invalidStop : Nat) (text : Text) (feed : Feed) :
    Outcome UpdateError Realignment × Nat :=
  let lexing := lexer.run invalid.start (text :: feed.candidates.map (·.text))
  let (reading, requests) :=
    (read feed invalidStop lexing.requests invalid.start lexing.items).outcome 0
  (reading.bind (ofReading feed invalid invalidStop requests), requests)

/-- An attempt with `count` of `total` old tokens at hand. If it made a request for one that was
held back, twice as many are tried. -/
def withEnough (total : Nat) (attempt : Nat → Outcome UpdateError Realignment × Nat)
    (count : Nat) : Outcome UpdateError Realignment :=
  let (result, requests) := attempt count
  if count < total ∧ count + 1 < requests then
    withEnough total attempt (2 * count + 1)
  else
    result
termination_by total - count

end Realignment

/-- Lexes the invalidated span of `after`, and what follows it until the tokens line up again with
those of the store. -/
def realign (store : TokenStore) (lexer : Lexer) (after : Document) (invalid : Span) :
    Outcome UpdateError Realignment := do
  let version ← store.version
  match ← after.slice? invalid with
  | none => Outcome.fail (.outOfBounds invalid after.size)
  | some text =>
    let invalidStop ← invalid.stop
    let first ← (store.indexOf version invalidStop).wrap .store
    let following := store.tokens.drop first
    let attempt := fun count =>
      let feed := Feed.ofWalk after (store.walk version (following.take count))
      Realignment.ofFeed lexer invalid invalidStop text feed
    Realignment.withEnough following.length attempt 4

/-- Puts the new tokens in the place of the old ones. -/
def merge (realignment : Realignment) : Revision Unit := do
  let version ← Revision.query (·.version)
  realignment.superseded.forM fun tracked => Revision.update (·.remove tracked)
  realignment.tokens.forM fun token => do
    let tracked ← Revision.track token version
    Revision.update (·.add tracked)

end LiveTokens
