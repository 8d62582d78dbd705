import LiveTokens.Span
import LiveTokens.Text

/-!
# Edits

A replacement puts a text in the place of a span. An edit forgets the text and keeps what matters
for positions: the region that was replaced and by how many bytes the document grew or shrank. An
ordered list of replacements joins into one edit over the region from the first to the last.

An edit carries spans from the generation before it to the generation after it: spans in front stay,
spans behind move along, and spans that the edit cuts into are lost.
-/

namespace LiveTokens

/-- Puts `text` in the place of `target`, a span of the document before the change. -/
structure Replacement where
  target : Span
  text : Text
deriving DecidableEq, Repr

namespace Replacement

/-- By how many bytes the document grows. Sizes of `2 ^ 63` bytes and more have no delta. -/
def delta? (replacement : Replacement) : Option Int :=
  if Text.size replacement.text < deltaBound ∧ replacement.target.length < deltaBound then
    some ((Text.size replacement.text : Int) - replacement.target.length)
  else
    none

end Replacement

/-- One contiguous change: `region` gave way to a text that is `delta` bytes longer. -/
structure Edit where
  region : Span
  delta : Int
deriving DecidableEq, Repr

/-- What became of a span that was carried over an edit. -/
inductive Fate where
  /-- The span lies in front of every change, or nothing changed its position. -/
  | unmoved
  /-- The span lies behind a change and was shifted. -/
  | moved
  /-- A change cut into the span. -/
  | invalidated
deriving DecidableEq, Repr

/-- Why replacements do not join into one edit. -/
inductive JoinError where
  | empty
  | unordered
  | overflow
deriving DecidableEq, Repr

/-- The wording of a join error. -/
def JoinError.message : JoinError → String
  | .empty => "no replacements to join"
  | .unordered => "replacements are out of order or overlap"
  | .overflow => "net length change overflows"

namespace Edit

variable {ε : Type}

/-- The sum of two deltas, if it is a delta. -/
def addDelta? (total delta : Int) : Option Int :=
  if -deltaBound ≤ total + delta ∧ total + delta < deltaBound then some (total + delta) else none

/-- Joins the replacements that follow position `reached` onto a change by `total` bytes: the end of
the last one, and the delta of all of them. -/
def joinFrom (reached : Nat) (total : Int) : List Replacement → Outcome JoinError (Nat × Int)
  | [] => return (reached, total)
  | replacement :: rest => do
    if replacement.target.start < reached then
      Outcome.fail .unordered
    else
      let stop ← replacement.target.stop
      match replacement.delta?.bind (addDelta? total) with
      | none => Outcome.fail .overflow
      | some total => joinFrom stop total rest

/-- One edit from the start of the first replacement to the end of the last, with the sum of their
deltas. The replacements have to be in order and may not overlap. -/
def join : List Replacement → Outcome JoinError Edit
  | [] => Outcome.fail .empty
  | first :: rest => do
    let (stop, delta) ← joinFrom 0 0 (first :: rest)
    return ⟨Span.ofBounds first.target.start stop, delta⟩

/-- The edit that changes nothing. -/
def identity : Edit :=
  ⟨Span.emptyAt 0, 0⟩

/-- Nothing was replaced, and the length is the same. -/
def isIdentity (edit : Edit) : Bool :=
  edit.region.isEmpty && edit.delta == 0

/-- Where the new text lies in the generation after the edit, if its length is a length. -/
def newRegion? (edit : Edit) : Option Span :=
  (shift? edit.region.length edit.delta).map fun length => ⟨edit.region.start, length⟩

/-- Carries a span from the generation before the edit to the one after it. A span that is
invalidated is left as it was. -/
@[inline] def carry (edit : Edit) (span : Span) : Outcome ε (Fate × Span) := do
  if (← span.stop) ≤ edit.region.start then
    return (.unmoved, span)
  else if (← edit.region.stop) ≤ span.start then
    if edit.delta = 0 then
      return (.unmoved, span)
    else
      match span.shifted? edit.delta with
      | some moved => return (.moved, moved)
      | none => return (.invalidated, span)
  else
    return (.invalidated, span)

end Edit

end LiveTokens
