import LiveTokens.Outcome

/-!
# Bisection

Two searches that halve a range of indices. Which elements they look at is part of what they do: a
question that cannot be answered for an element only matters if the search asks it.
-/

namespace LiveTokens

/-- Bisects the first `count` elements of a list that stands behind `first` others: the index at
which `holds` is false for the first time, provided that it holds in front of that index and nowhere
behind it. -/
def bisectFrom {ε α : Type} (holds : α → Outcome ε Bool) (first : Nat) (elements : List α)
    (count : Nat) : Outcome ε Nat := do
  if count = 0 then
    return first
  else
    match elements.drop (count / 2) with
    | [] => return first
    | element :: rest =>
      if ← holds element then
        bisectFrom holds (first + count / 2 + 1) rest (count - count / 2 - 1)
      else
        bisectFrom holds first elements (count / 2)
termination_by count

/-- Bisects a whole list. -/
def bisect {ε α : Type} (holds : α → Outcome ε Bool) (elements : List α) : Outcome ε Nat :=
  bisectFrom holds 0 elements elements.length

/-- Looks for `key` among `count` numbers from index `first` on, which ascend. The range is halved
until one number is left, and that one is compared. -/
def holdsKey (numbers : List Nat) (key first count : Nat) : Bool :=
  if 1 < count then
    let middle := first + count / 2
    if numbers[middle]?.any (key < ·) then
      holdsKey numbers key first (count - count / 2)
    else
      holdsKey numbers key middle (count - count / 2)
  else
    decide (numbers[first]? = some key)
termination_by count

end LiveTokens
