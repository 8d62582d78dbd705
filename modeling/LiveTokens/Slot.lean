import LiveTokens.Outcome
import LiveTokens.Version
import LiveTokens.Waiters

/-!
# Slots

A slot holds the current snapshot of an object that others may replace at any time. A change is
made on a copy of the snapshot that was loaded and swapped in only if the slot has not been written
in the meantime; a swap that is lost starts over from the new snapshot, with the change that the
attempt before has handed back. Each successful change and each publication wakes whoever waits for
an update.

What other parties do between a load and the swap that follows it is an argument: `changeAmid` takes
the changes of rivals, of which each attempt meets the next one.
-/

namespace LiveTokens

/-- Objects that evolve by changes of type `κ`. Each of them leaves a record in `ρ`, or is refused
for a reason in `ε`. -/
class Editable (α : Type) (κ ρ ε : outParam Type) extends Versioned α where
  /-- Makes a change. What it hands back is the change that another attempt is to make, and the
  record of this one. -/
  apply : κ → Work α ε (κ × ρ)
  /-- Changes the version in place. -/
  modifyVersion : (Version → Version) → α → α

/-- What a successful change reports: the snapshots on both sides of it, and the change as it was
recorded. -/
structure Transition (α ρ : Type) where
  before : α
  after : α
  change : ρ
deriving Repr

/-- A place for the current snapshot, with a count of its writes and those who wait for one. -/
structure Slot (α : Type) where
  current : α
  writes : Nat := 0
  waiters : Waiters := {}
deriving Repr

namespace Slot

variable {α κ ρ ε : Type}

/-- A slot with its first snapshot. -/
def holding (initial : α) : Slot α :=
  { current := initial }

/-- Writes a snapshot without telling anyone. -/
def write (slot : Slot α) (object : α) : Slot α :=
  { slot with current := object, writes := slot.writes + 1 }

/-- Writes a snapshot and wakes everyone who waits for an update. -/
def publish (slot : Slot α) (object : α) : Slot α :=
  { slot.write object with waiters := slot.waiters.wakeAll }

/-- Publishes a snapshot, provided that the slot has not been written since `ticket` was read. -/
def publishIf (slot : Slot α) (ticket : Nat) (object : α) : Option (Slot α) :=
  if slot.writes = ticket then some (slot.publish object) else none

/-- Asks for a snapshot of another version than `awaited`. If there is none yet, the waker will be
woken by the next write. One look is enough: a second look behind the enrolment is for a write that
came between the two, and here nothing comes between them, so that it would find what the first look
has found. -/
def poll [Versioned α] (slot : Slot α) (awaited : Version) (waker : Nat) : Option α × Slot α :=
  if Versioned.version slot.current = awaited then
    (none, { slot with waiters := slot.waiters.enrol waker })
  else
    (some slot.current, slot)

variable [Editable α κ ρ ε]

/-- What a change has made of a copy of a snapshot, and what it has handed back. -/
structure Draft (α κ ρ : Type) where
  object : α
  again : κ
  record : ρ

/-- A change made on a copy of a snapshot. The copy then moves on from the version that the change
has left it with. If the change is refused, the copy is of no use. -/
def draft (object : α) (change : κ) : Outcome ε (Draft α κ ρ) :=
  match (Editable.apply change).outcome object with
  | (.error failure, _) => .error failure
  | (.ok (again, record), object) =>
    .ok ⟨Editable.modifyVersion Version.successor object, again, record⟩

/-- How one attempt at a change ended. -/
inductive Swap (α κ ρ ε : Type) where
  /-- The change has its result. -/
  | settled (result : Outcome ε (Transition α ρ))
  /-- The slot had been written, and what was handed back is to be tried again. -/
  | lost (again : κ)

/-- One attempt at a change that loaded `old` under `ticket`. -/
def swap (slot : Slot α) (ticket : Nat) (old : α) (change : κ) : Swap α κ ρ ε × Slot α :=
  match draft old change with
  | .error failure => (.settled (.error failure), slot)
  | .ok new =>
    match slot.publishIf ticket new.object with
    | none => (.lost new.again, slot)
    | some slot => (.settled (.ok ⟨old, new.object, new.record⟩), slot)

/-- A change that nobody interferes with. -/
def change (slot : Slot α) (change : κ) : Outcome ε (Transition α ρ) × Slot α :=
  match draft slot.current change with
  | .error failure => (.error failure, slot)
  | .ok new => (.ok ⟨slot.current, new.object, new.record⟩, slot.publish new.object)

/-- How a change went: its result, the slot as it is left, the number of attempts it took, and the
results of the rivals that it met. -/
structure Run (α ρ ε : Type) where
  result : Outcome ε (Transition α ρ)
  slot : Slot α
  attempts : Nat
  rivals : List (Outcome ε (Transition α ρ))

/-- A change amid rivals: each attempt loads the snapshot, the next rival makes its change, and then
the attempt tries to swap. If it loses, another one is made with the change that it has handed back.
Without further rivals the attempt cannot lose. -/
def changeAmid (slot : Slot α) (wanted : κ) : List κ → Run α ρ ε
  | [] =>
    let (result, slot) := slot.change wanted
    ⟨result, slot, 1, []⟩
  | rival :: rivals =>
    let (told, disturbed) := slot.change rival
    match disturbed.swap slot.writes slot.current wanted with
    | (.settled result, slot) => ⟨result, slot, 1, [told]⟩
    | (.lost again, slot) =>
      let run := slot.changeAmid again rivals
      { run with attempts := run.attempts + 1, rivals := told :: run.rivals }

end Slot

end LiveTokens
