import LiveTokens.Update

/-!
# Excision

The first step of an update takes the tokens that an edit intersects or touches out of the store,
and moves the store on to the next generation. Their text, as it is now, is what has to be lexed
again.

Every byte belongs to some token, so an edit that reaches outside of the tokens it touches is a sign
that store and document do not fit together.
-/

namespace LiveTokens

/-- What an edit took out of a store, and where the text in its place lies afterwards. -/
structure Excision where
  removed : List TrackedToken
  span : Span
deriving DecidableEq, Repr

namespace Excision

/-- Where the text of the touched tokens lies after the edit. The first of them starts where it did,
and the last one ends where it did plus the change in length. Without any tokens there may not have
been any text. -/
def extent (before after : Document) (edit : Edit) (touched : List Span) :
    Outcome UpdateError Span :=
  match touched.head?, touched.getLast? with
  | some first, some last => do
    if edit.region.start < first.start then
      Outcome.fail (.uncovered edit.region)
    else
      let stop ← last.stop
      if stop < (← edit.region.stop) then
        Outcome.fail (.uncovered edit.region)
      else
        match (shift? stop edit.delta).bind (Span.between? first.start) with
        | some span => return span
        | none => Outcome.fail (.outOfBounds last after.size)
  | _, _ =>
    if before.text = [] then return ⟨0, after.size⟩
    else Outcome.fail (.uncovered edit.region)

end Excision

/-- Takes out the tokens that the edit from `before` to `after` touches. -/
def excise (before after : Document) (edit : Edit) : Revision Excision := do
  let touched ← Revision.query (·.overlapping before.generation edit.region)
  touched.forM fun (tracked, _) => Revision.update (·.remove tracked)
  modify fun workspace => { workspace with store := workspace.store.advance edit }
  let version ← Revision.query (·.version)
  if version ≠ after.generation then
    Work.fail (.versionSkew after.generation version)
  else
    let span ← Work.ofOutcome (Excision.extent before after edit (touched.map (·.2)))
    let stop ← Work.ofOutcome span.stop
    if after.size < stop then
      Work.fail (.outOfBounds span after.size)
    else
      return ⟨touched.map (·.1), span⟩

end LiveTokens
