import LiveTokens.Slot

/-!
# Counters

The smallest editable object: a 32-bit number that changes add to. A sum that does not fit is
refused.
-/

namespace LiveTokens

/-- A number below `2 ^ 32` with its version. -/
structure Counter where
  value : Nat
  version : Version
deriving DecidableEq, Repr

namespace Counter

/-- The only reason to refuse an addition: the sum does not fit. -/
inductive AddError where
  | overflow
deriving DecidableEq, Repr

/-- Adds an amount, if the sum fits into 32 bits. The amount hands itself back, both for another
attempt and as the record of what was done. -/
def add (amount : Nat) : Work Counter AddError (Nat × Nat) := do
  let counter ← get
  if counter.value + amount < 1 <<< 32 then
    modify fun counter => { counter with value := counter.value + amount }
    return (amount, amount)
  else
    Work.fail .overflow

instance : Editable Counter Nat Nat AddError where
  version counter := counter.version
  apply := add
  modifyVersion step counter := { counter with version := step counter.version }

end Counter

end LiveTokens
