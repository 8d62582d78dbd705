/-!
# Waiters

Tasks that wait for some shared state to change enrol a waker. A notification wakes every enrolled
waker once and forgets all of them; a waker that wants to hear of the next change enrols again.

A waker is given as a number, which stands for all wakers that are found to wake the same task when
two of them are compared. The comparison is made with best effort: if it finds two wakers to be
alike, they do wake the same task, but two wakers of one task may go unrecognized. Those have two
numbers here, and each of them is enrolled and woken by itself. The record of all wake-ups so far
stays with the waiters.
-/

namespace LiveTokens

/-- The wakers that wait, in the order in which they enrolled, and every wake-up so far. -/
structure Waiters where
  enrolled : List Nat := []
  woken : List Nat := []
deriving DecidableEq, Repr

namespace Waiters

/-- Adds a waker, unless one that is found to wake the same task already waits. Both have the same
number then, so it does not matter that the one that came first is kept. -/
def enrol (waiters : Waiters) (waker : Nat) : Waiters :=
  if waker ∈ waiters.enrolled then waiters
  else { waiters with enrolled := waiters.enrolled ++ [waker] }

/-- Wakes every waker that waits. -/
def wakeAll (waiters : Waiters) : Waiters :=
  { enrolled := [], woken := waiters.woken ++ waiters.enrolled }

/-- Gives the waiters up for a fresh collection. Nobody is left waiting for what is gone. -/
def replace (waiters : Waiters) : Waiters :=
  waiters.wakeAll

/-- How often a waker has been woken. -/
def wakeCount (waiters : Waiters) (waker : Nat) : Nat :=
  waiters.woken.count waker

@[simp] theorem wakeCount_enrol (waiters : Waiters) (waker other : Nat) :
    (waiters.enrol waker).wakeCount other = waiters.wakeCount other := by
  unfold enrol wakeCount
  split <;> rfl

@[simp] theorem wakeCount_wakeAll (waiters : Waiters) (waker : Nat) :
    waiters.wakeAll.wakeCount waker =
      waiters.wakeCount waker + waiters.enrolled.count waker := by
  simp [wakeAll, wakeCount]

theorem mem_enrolled_enrol {waiters : Waiters} {waker other : Nat} :
    other ∈ (waiters.enrol waker).enrolled ↔ other ∈ waiters.enrolled ∨ other = waker := by
  unfold enrol
  split
  next h => exact ⟨Or.inl, fun hor => hor.elim id fun heq => heq ▸ h⟩
  next => simp

/-- No waker ever waits twice. -/
theorem nodup_enrolled_enrol {waiters : Waiters} (h : waiters.enrolled.Nodup) (waker : Nat) :
    (waiters.enrol waker).enrolled.Nodup := by
  unfold enrol
  split
  next => exact h
  next hmem =>
    refine List.nodup_append.mpr ⟨h, by simp, ?_⟩
    rintro a ha b hb rfl
    simp only [List.mem_singleton] at hb
    exact hmem (hb ▸ ha)

end Waiters

end LiveTokens
