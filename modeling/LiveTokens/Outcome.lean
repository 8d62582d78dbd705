/-!
# Outcomes

Positions are byte offsets below `2 ^ 64`. An operation that would form a larger one is abandoned
at that point, and whatever called it is abandoned with it. An `Outcome` is therefore a value, a
cause of failure that the operation reports, or an overflow.

Operations that can only overflow are polymorphic in the cause, so that they compose with every
other operation without a conversion.
-/

namespace LiveTokens

/-- Why an operation gave no value. -/
inductive Failure (ε : Type) where
  /-- A position would have left the 64-bit range. -/
  | overflow
  /-- The operation reports a cause of its own. -/
  | cause (error : ε)
deriving DecidableEq, Repr

/-- The result of an operation that may fail for a cause in `ε` or overflow. -/
abbrev Outcome (ε α : Type) : Type :=
  Except (Failure ε) α

namespace Outcome

variable {ε δ α : Type}

/-- The operation reports a cause. -/
def fail (error : ε) : Outcome ε α :=
  .error (.cause error)

/-- The operation overflows. -/
def overflow : Outcome ε α :=
  .error .overflow

/-- Reports every cause as part of a wider one. An overflow stays an overflow. -/
def wrap (f : ε → δ) : Outcome ε α → Outcome δ α
  | .ok value => .ok value
  | .error .overflow => .error .overflow
  | .error (.cause error) => .error (.cause (f error))

@[simp] theorem wrap_ok (f : ε → δ) (value : α) :
    wrap f (.ok value) = .ok value :=
  rfl

@[simp] theorem wrap_overflow (f : ε → δ) :
    wrap f (overflow : Outcome ε α) = overflow :=
  rfl

@[simp] theorem wrap_fail (f : ε → δ) (error : ε) :
    wrap f (fail error : Outcome ε α) = fail (f error) :=
  rfl

end Outcome

/-- Work on a state in several steps. When a step fails, what the ones before it did remains. -/
abbrev Work (σ ε α : Type) : Type :=
  EStateM (Failure ε) σ α

namespace Work

variable {σ ε α : Type}

/-- A step that looks at nothing and changes nothing. -/
def ofOutcome : Outcome ε α → Work σ ε α
  | .ok value => pure value
  | .error failure => throw failure

/-- A step that reports a cause. -/
def fail (error : ε) : Work σ ε α :=
  throw (.cause error)

/-- The outcome of some work, and the state it leaves. -/
def outcome (work : Work σ ε α) (state : σ) : Outcome ε α × σ :=
  match work.run state with
  | .ok value state => (.ok value, state)
  | .error failure state => (.error failure, state)

/-- The state behind some work that gives a value. -/
def result (work : Work σ ε α) (state : σ) : Outcome ε σ :=
  match work.run state with
  | .ok _ state => .ok state
  | .error failure _ => .error failure

@[simp] theorem result_get_bind (next : σ → Work σ ε α) (state : σ) :
    (get >>= next).result state = (next state).result state :=
  rfl

@[simp] theorem result_ofOutcome_bind {β : Type} (first : Outcome ε α) (next : α → Work σ ε β)
    (state : σ) :
    (ofOutcome first >>= next).result state = first >>= fun value => (next value).result state := by
  cases first <;> rfl

@[simp] theorem result_modify_bind (f : σ → σ) (next : PUnit → Work σ ε α) (state : σ) :
    (modify f >>= next).result state = (next ⟨⟩).result (f state) :=
  rfl

@[simp] theorem result_modify (f : σ → σ) (state : σ) :
    (modify f : Work σ ε PUnit).result state = .ok (f state) :=
  rfl

end Work

/-- Positions stay below this bound. -/
def positionBound : Nat := 1 <<< 64

/-- Length changes lie between minus this bound and this bound, the upper end excluded. -/
def deltaBound : Nat := 1 <<< 63

/-- The position `length` bytes after `start`. -/
@[inline] def advance {ε : Type} (start length : Nat) : Outcome ε Nat :=
  if start + length < positionBound then .ok (start + length) else Outcome.overflow

theorem advance_eq_ok {ε : Type} {start length : Nat} (h : start + length < positionBound) :
    (advance start length : Outcome ε Nat) = .ok (start + length) := by
  simp [advance, h]

theorem advance_eq_ok_iff {ε : Type} {start length stop : Nat} :
    (advance start length : Outcome ε Nat) = .ok stop ↔
      start + length = stop ∧ stop < positionBound := by
  unfold advance
  split
  · simp only [Except.ok.injEq]
    omega
  · simp only [Outcome.overflow, reduceCtorEq, false_iff]
    omega

/-- The position `delta` bytes after `start`, if it is a position at all. -/
def shift? (start : Nat) (delta : Int) : Option Nat :=
  if 0 ≤ start + delta ∧ start + delta < positionBound then some (start + delta).toNat else none

end LiveTokens
