import LiveTokens.Outcome

/-!
# Spans

A span is a half-open byte range `[start, start + length)` in one generation of a document. The end
is computed on demand, and a span whose end is no position overflows as soon as it is asked for it.
The comparisons ask for the ends in a fixed order and only when they need them.
-/

namespace LiveTokens

/-- The half-open byte range `[start, start + length)`. -/
structure Span where
  start : Nat
  length : Nat
deriving DecidableEq, Repr

namespace Span

variable {ε : Type}

/-- The position just behind the span. -/
@[inline] def stop (span : Span) : Outcome ε Nat :=
  advance span.start span.length

theorem stop_eq_ok {span : Span} (h : span.start + span.length < positionBound) :
    (span.stop : Outcome ε Nat) = .ok (span.start + span.length) :=
  advance_eq_ok h

/-- The span from `start` up to `stop`, if they are in order. -/
def between? (start stop : Nat) : Option Span :=
  if start ≤ stop then some ⟨start, stop - start⟩ else none

/-- The span from `start` up to `stop`, empty if `stop` comes first. -/
def ofBounds (start stop : Nat) : Span :=
  ⟨start, stop - start⟩

/-- The empty span at a position. -/
def emptyAt (position : Nat) : Span :=
  ⟨position, 0⟩

/-- A span without any byte. -/
def isEmpty (span : Span) : Bool :=
  span.length == 0

@[simp] theorem isEmpty_iff {span : Span} : span.isEmpty = true ↔ span.length = 0 := by
  simp [isEmpty]

/-- The spans share a position, or one ends where the other starts. -/
def intersects (span other : Span) : Outcome ε Bool := do
  if other.start ≤ (← span.stop) then
    return decide (span.start ≤ (← other.stop))
  else
    return false

/-- The spans share a byte. -/
def overlaps (span other : Span) : Outcome ε Bool := do
  let spanStop ← span.stop
  let otherStop ← other.stop
  return decide (max span.start other.start < min spanStop otherStop)

/-- Every byte of `other` lies in the span. -/
def contains (span other : Span) : Outcome ε Bool := do
  if span.start ≤ other.start then
    let otherStop ← other.stop
    return decide (otherStop ≤ (← span.stop))
  else
    return false

/-- The byte at `position` lies in the span. -/
def includes (span : Span) (position : Nat) : Outcome ε Bool := do
  if span.start ≤ position then
    return decide (position < (← span.stop))
  else
    return false

/-- The span moved by `delta` bytes, if its start stays a position. -/
def shifted? (span : Span) (delta : Int) : Option Span :=
  (shift? span.start delta).map fun start => ⟨start, span.length⟩

/-- A span is written with its two ends, as in `[3, 7)`. -/
def render (span : Span) : Outcome ε String := do
  return s!"[{span.start}, {← span.stop})"

end Span

end LiveTokens
