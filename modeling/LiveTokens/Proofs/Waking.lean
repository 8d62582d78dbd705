import LiveTokens.Waiters

/-!
# When wakers are due

Two kinds of events matter to those who wait: a poll has been left pending, or there
was something to tell.  A history is a list of such events, the newest first.

A waker awaits the next notification if it has had a pending poll since the last one.
It is due to be woken once by each notification that it has awaited, however many
pending polls it had.

The waiters of a history are those who await the next notification, and each waker has
been woken as often as it was due.
-/

namespace LiveTokens

namespace Waiters

/-- What matters to those who wait. -/
inductive Event where
  /-- A poll was left pending, to be woken by the waker. -/
  | pending (waker : Nat)
  /-- Everyone who waits was to be told. -/
  | notified
deriving DecidableEq, Repr

section History

/-- The waker has had a pending poll since the last notification. -/
def Awaits
    (waker : Nat) : List Event → Prop
  | [] => False
  | .notified :: _ => False
  | .pending other :: earlier => waker = other ∨ Awaits waker earlier

instance decidableAwaits
    (waker : Nat) : (events : List Event) → Decidable (Awaits waker events)
  | [] => inferInstanceAs (Decidable False)
  | .notified :: _ => inferInstanceAs (Decidable False)
  | .pending other :: earlier =>
      have := decidableAwaits waker earlier
      inferInstanceAs (Decidable (waker = other ∨ Awaits waker earlier))

/-- The number of notifications that the waker has awaited. -/
def dueWakes
    (waker : Nat) : List Event → Nat
  | [] => 0
  | .notified :: earlier => dueWakes waker earlier + if Awaits waker earlier then 1 else 0
  | .pending _ :: earlier => dueWakes waker earlier

/-- Only notifications make anyone due. -/
theorem dueWakes_append
    {recent earlier : List Event}
    (hrecent : .notified ∉ recent)
    (waker : Nat) :
    dueWakes waker (recent ++ earlier) = dueWakes waker earlier := by
  induction recent with
  | nil =>
      rfl
  | cons event recent ih =>
      rw [List.mem_cons, not_or] at hrecent
      obtain ⟨hevent, hrest⟩ := hrecent
      cases event with
      | pending other => exact ih hrest
      | notified => exact absurd rfl hevent

end History

variable {waiters : Waiters}
variable {events : List Event}

/-- Those who wait are those who await the next notification, and all others have been woken when
they were due. -/
structure Records
    (waiters : Waiters)
    (events : List Event) : Prop where
  nodup : waiters.enrolled.Nodup
  mem_iff : ∀ waker, waker ∈ waiters.enrolled ↔ Awaits waker events
  wakeCount_eq : ∀ waker, waiters.wakeCount waker = dueWakes waker events

namespace Records

theorem started :
    Records {} [] where
  nodup := List.nodup_nil
  mem_iff _ := List.mem_nil_iff _
  wakeCount_eq _ := rfl

/-- A pending poll wakes nobody, and a waker that waits already goes on waiting. -/
theorem pending
    (h : Records waiters events)
    (waker : Nat) :
    Records (waiters.enrol waker) (.pending waker :: events) where
  nodup := nodup_enrolled_enrol h.nodup waker
  mem_iff other := by
    rw [mem_enrolled_enrol, h.mem_iff, or_comm]
    rfl
  wakeCount_eq other := by
    rw [wakeCount_enrol, h.wakeCount_eq]
    rfl

/-- A notification wakes a waker that awaits it, once, and no other. -/
theorem wakeCount_wakeAll_eq
    (h : Records waiters events)
    (waker : Nat) :
    waiters.wakeAll.wakeCount waker =
      waiters.wakeCount waker + if Awaits waker events then 1 else 0 := by
  rw [wakeCount_wakeAll, h.nodup.count]
  simp only [h.mem_iff]

theorem notified
    (h : Records waiters events) :
    Records waiters.wakeAll (.notified :: events) where
  nodup := List.nodup_nil
  mem_iff waker := List.mem_nil_iff waker
  wakeCount_eq waker := by
    rw [h.wakeCount_wakeAll_eq, h.wakeCount_eq]
    rfl

end Records

end Waiters

end LiveTokens
