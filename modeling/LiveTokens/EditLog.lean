import LiveTokens.Edit

/-!
# Edit logs

An edit log remembers the edits that led from one generation, its base, to its head. It carries a
span from any generation in that window to any later one, edit by edit. Old edits can be forgotten,
which moves the base; nothing that starts at the new base or later changes by it.
-/

namespace LiveTokens

/-- The edits after generation `base`: the first of them leads to generation `base + 1`. -/
structure EditLog where
  base : Nat
  edits : List Edit := []
deriving DecidableEq, Repr

/-- Why the log has no answer. -/
inductive LogError where
  /-- The log does not reach back to that generation. -/
  | forgotten (generation base : Nat)
  /-- The generation has not happened yet. -/
  | future (generation head : Nat)
  /-- Spans are carried forward only. -/
  | backwards (origin target : Nat)
deriving DecidableEq, Repr

/-- The wording of a log error. -/
def LogError.message : LogError → String
  | .forgotten generation base => s!"generation {generation} predates the edit log (base {base})"
  | .future generation head => s!"generation {generation} is newer than the edit log (head {head})"
  | .backwards origin target => s!"cannot port from generation {origin} back to {target}"

namespace EditLog

variable {ε : Type}

/-- The log that starts at a generation. -/
def startingAt (generation : Nat) : EditLog :=
  { base := generation }

/-- Number of edits the log remembers. -/
def length (log : EditLog) : Nat :=
  log.edits.length

/-- The newest generation. -/
def head (log : EditLog) : Outcome ε Nat :=
  advance log.base log.length

/-- Adds the edit that led to the next generation. -/
def push (log : EditLog) (edit : Edit) : EditLog :=
  { log with edits := log.edits ++ [edit] }

/-- The edits that lead from generation `origin` to generation `target`. -/
def window (log : EditLog) (origin target : Nat) : Outcome LogError (List Edit) := do
  if target < origin then
    Outcome.fail (.backwards origin target)
  else if origin < log.base then
    Outcome.fail (.forgotten origin log.base)
  else
    let head ← log.head
    if head < target then
      Outcome.fail (.future target head)
    else
      return (log.edits.drop (origin - log.base)).take (target - origin)

/-- Carries a span over edits in order, until one of them invalidates it. The span has moved if one
of the edits moved it. -/
def carryAll (fate : Fate) (span : Span) : List Edit → Outcome ε (Fate × Span)
  | [] => return (fate, span)
  | edit :: edits => do
    match ← edit.carry span with
    | (.unmoved, span) => carryAll fate span edits
    | (.moved, span) => carryAll .moved span edits
    | (.invalidated, span) => return (.invalidated, span)

/-- Carries a span from generation `origin` to generation `target`. A span that is invalidated is
left where the last edit before put it. -/
def carry (log : EditLog) (span : Span) (origin target : Nat) :
    Outcome LogError (Fate × Span) := do
  carryAll .unmoved span (← log.window origin target)

/-- Forgets the edits that led up to a generation, which becomes the base. -/
def forget (generation : Nat) : Work EditLog LogError Unit := do
  let log ← get
  let head ← Work.ofOutcome log.head
  if head < generation then
    Work.fail (.future generation head)
  else if generation ≤ log.base then
    return ()
  else
    modify fun log => { log with edits := log.edits.drop (generation - log.base) }
    modify fun log => { log with base := generation }

/-- The log without the edits that led up to a generation. -/
def forgetUpTo (log : EditLog) (generation : Nat) : Outcome LogError EditLog :=
  (forget generation).result log

theorem forgetUpTo_eq_do (log : EditLog) (generation : Nat) :
    log.forgetUpTo generation = do
      let head ← log.head
      if head < generation then
        Outcome.fail (.future generation head)
      else if generation ≤ log.base then
        return log
      else
        return { base := generation, edits := log.edits.drop (generation - log.base) } := by
  simp only [forgetUpTo, forget, Work.result_get_bind, Work.result_ofOutcome_bind]
  refine congrArg _ (funext fun head => ?_)
  split
  · rfl
  · split <;> rfl

end EditLog

end LiveTokens
