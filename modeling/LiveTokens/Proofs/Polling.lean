import LiveTokens.Proofs.Awaiting
import LiveTokens.Proofs.Contention
import LiveTokens.Proofs.Waking

/-!
# Who is woken by a slot

A slot is polled, published to and changed in any order.  A change may lose its swap
any number of times.  Between the load and the swap of an attempt, there may be polls,
publications and other changes, of which each may be overtaken in its turn.  For that
reason an attempt can also come alone: it swaps what was loaded at some time before,
under a ticket that may be good or not.

Each operation reports what came of it.  The reports tell which snapshot the slot holds:
the one that was published or made by an accepted change last.  They also tell who has
been woken.  Each publication and each accepted change is a notification, and each poll
that is left pending makes its waker await the next one.  Nothing else matters to those
who wait: refused changes and lost attempts are reported as well, and change nothing.

**Results.**  `woken_as_due`.
-/

namespace LiveTokens

theorem Version.ne_iff
    {version other : Version} :
    version ≠ other ↔
      version.lineage ≠ other.lineage ∨ version.generation ≠ other.generation := by
  obtain ⟨lineage, generation⟩ := version
  obtain ⟨lineage', generation'⟩ := other
  rw [Ne, Version.mk.injEq, Decidable.not_and_iff_not_or_not]

namespace Slot

variable {α κ ρ ε : Type}

section Operations

/-- What is done to a slot.  An attempt is the second half of a change: it swaps in a successor of
some snapshot that was loaded under some ticket, whatever has been done in between. -/
inductive Operation (α κ : Type) where
  | poll (awaited : Version) (waker : Nat)
  | publish (object : α)
  | change (wanted : κ) (rivals : List κ)
  | attempt (ticket : Nat) (old : α) (wanted : κ)

/-- What is reported of an operation. -/
inductive Report (α κ ρ ε : Type) where
  /-- The waker has polled, and was handed a snapshot or left pending. -/
  | polled (waker : Nat) (found : Option α)
  | published (object : α)
  | changed (result : Outcome ε (Transition α ρ))
  | lost (again : κ)

namespace Report

/-- What a report means to those who wait. -/
def event? : Report α κ ρ ε → Option Waiters.Event
  | .polled waker none => some (.pending waker)
  | .published _ => some .notified
  | .changed (.ok _) => some .notified
  | _ => none

/-- The snapshot that has come to the slot. -/
def installed? : Report α κ ρ ε → Option α
  | .published object => some object
  | .changed (.ok transition) => some transition.after
  | _ => none

/-- The report is of a poll, of a failed change or of a lost attempt. -/
def Quiet : Report α κ ρ ε → Prop
  | .polled _ _ => True
  | .published _ => False
  | .changed (.ok _) => False
  | .changed (.error _) => True
  | .lost _ => True

theorem Quiet.installed?_eq
    {report : Report α κ ρ ε}
    (h : report.Quiet) :
    report.installed? = none := by
  rcases report with ⟨waker, found⟩ | object | (failure | transition) | again
  · rfl
  · cases h
  · rfl
  · cases h
  · rfl

theorem Quiet.event?_ne
    {report : Report α κ ρ ε}
    (h : report.Quiet) :
    report.event? ≠ some .notified := by
  rcases report with ⟨waker, _ | found⟩ | object | (failure | transition) | again
  · rintro ⟨⟩
  · rintro ⟨⟩
  · cases h
  · rintro ⟨⟩
  · cases h
  · rintro ⟨⟩

end Report

variable [Editable α κ ρ ε]

/-- The reports of an operation, the newest one first, and the slot that it leaves.  A change
reports the results of the rivals that it has met, and then its own. -/
def Operation.perform
    (slot : Slot α) : Operation α κ → List (Report α κ ρ ε) × Slot α
  | .poll awaited waker =>
    ([.polled waker (slot.poll awaited waker).1], (slot.poll awaited waker).2)
  | .publish object => ([.published object], slot.publish object)
  | .change wanted rivals =>
    (.changed (slot.changeAmid wanted rivals).result ::
      ((slot.changeAmid wanted rivals).rivals.map .changed).reverse,
      (slot.changeAmid wanted rivals).slot)
  | .attempt ticket old wanted =>
    match slot.swap ticket old wanted with
    | (.settled result, slot) => ([.changed result], slot)
    | (.lost again, slot) => ([.lost again], slot)

/-- A slot, and all reports of what was done to it, the newest one first. -/
structure Watched (α κ ρ ε : Type) where
  slot : Slot α
  reports : List (Report α κ ρ ε) := []

namespace Watched

def perform
    (watched : Watched α κ ρ ε)
    (operation : Operation α κ) : Watched α κ ρ ε :=
  ⟨(operation.perform watched.slot).2, (operation.perform watched.slot).1 ++ watched.reports⟩

/-- A slot with its first snapshot after some operations, the first one first. -/
def run
    (initial : α)
    (operations : List (Operation α κ)) : Watched α κ ρ ε :=
  operations.foldl perform ⟨holding initial, []⟩

theorem run_concat
    (initial : α)
    (operations : List (Operation α κ))
    (operation : Operation α κ) :
    run initial (operations ++ [operation]) = (run initial operations).perform operation := by
  rw [run, List.foldl_append]
  rfl

/-- What has mattered to those who wait, the newest event first. -/
def events
    (watched : Watched α κ ρ ε) : List Waiters.Event :=
  watched.reports.filterMap Report.event?

/-- The snapshot that has come to the slot last, or else the one that it had at first. -/
def newest
    (initial : α)
    (watched : Watched α κ ρ ε) : α :=
  (watched.reports.findSome? Report.installed?).getD initial

end Watched

end Operations

variable [Editable α κ ρ ε]
variable {slot : Slot α}
variable {reports : List (Report α κ ρ ε)}
variable {report : Report α κ ρ ε}
variable {transition : Transition α ρ}
variable {made : Draft α κ ρ}
variable {initial object : α}
variable {wanted : κ}
variable {rivals : List κ}

/-- The transition is what some change has made of its first snapshot. -/
def Made
    (transition : Transition α ρ) : Prop :=
  ∃ wanted again,
    draft transition.before wanted = .ok ⟨transition.after, again, transition.change⟩

section Kept

/-- The reports tell who waits and who has been woken, and which snapshot there is. -/
structure Kept
    (initial : α)
    (watched : Watched α κ ρ ε) : Prop where
  records : watched.slot.waiters.Records watched.events
  current_eq : watched.slot.current = watched.newest initial
  made : ∀ transition, .changed (.ok transition) ∈ watched.reports → Made transition

namespace Kept

theorem started
    (initial : α) :
    Kept initial (⟨holding initial, []⟩ : Watched α κ ρ ε) where
  records := .started
  current_eq := rfl
  made _ h := absurd h List.not_mem_nil

theorem made_cons
    (h : Kept initial ⟨slot, reports⟩)
    (hne : ∀ transition, report ≠ .changed (.ok transition))
    (hmem : .changed (.ok transition) ∈ report :: reports) :
    Made transition :=
  h.made transition (List.mem_of_ne_of_mem (hne transition).symm hmem)

/-- A report that means nothing to those who wait leaves all as it is. -/
theorem pass
    (h : Kept initial ⟨slot, reports⟩)
    (hevent : report.event? = none)
    (hinstalled : report.installed? = none) :
    Kept initial ⟨slot, report :: reports⟩ where
  records := by
    rw [Watched.events, List.filterMap_cons_none hevent]
    exact h.records
  current_eq := by
    rw [Watched.newest, List.findSome?_cons, hinstalled]
    exact h.current_eq
  made transition := h.made_cons fun made hsame => by
    rw [hsame] at hevent
    cases hevent

theorem publish
    (h : Kept initial ⟨slot, reports⟩)
    (object : α) :
    Kept initial ⟨slot.publish object, .published object :: reports⟩ where
  records := h.records.notified
  current_eq := rfl
  made transition := h.made_cons (by rintro made ⟨⟩)

theorem accept
    (h : Kept initial ⟨slot, reports⟩)
    {old : α}
    (hmade : draft old wanted = .ok made) :
    Kept initial ⟨slot.publish made.object,
      .changed (.ok ⟨old, made.object, made.record⟩) :: reports⟩ where
  records := h.records.notified
  current_eq := rfl
  made transition hmem := by
    rcases List.mem_cons.mp hmem with hsame | hmem
    · cases hsame
      exact ⟨wanted, made.again, hmade⟩
    · exact h.made transition hmem

theorem poll
    (h : Kept initial ⟨slot, reports⟩)
    (awaited : Version)
    (waker : Nat) :
    Kept initial ⟨(slot.poll awaited waker).2,
      .polled waker (slot.poll awaited waker).1 :: reports⟩ := by
  rw [Slot.poll]
  by_cases hversion : Versioned.version slot.current = awaited
  · rw [if_pos hversion]
    exact ⟨h.records.pending waker, h.current_eq, fun transition => h.made_cons (by rintro made ⟨⟩)⟩
  · rw [if_neg hversion]
    exact h.pass rfl rfl

theorem change
    (h : Kept initial ⟨slot, reports⟩)
    (wanted : κ) :
    Kept initial ⟨(slot.change wanted).2, .changed (slot.change wanted).1 :: reports⟩ := by
  cases hwanted : draft slot.current wanted with
  | error failure =>
      rw [change_of_error hwanted]
      exact h.pass rfl rfl
  | ok made =>
      rw [change_of_ok hwanted]
      exact h.accept hwanted

theorem swap
    (h : Kept initial ⟨slot, reports⟩)
    (ticket : Nat)
    (old : α)
    (wanted : κ) :
    Kept initial (Watched.perform ⟨slot, reports⟩ (.attempt ticket old wanted)) := by
  rw [Watched.perform, Operation.perform]
  dsimp only
  cases hwanted : draft old wanted with
  | error failure =>
      rw [swap_of_error hwanted]
      exact h.pass rfl rfl
  | ok made =>
      by_cases hticket : slot.writes = ticket
      · rw [swap_of_ok hwanted hticket]
        exact h.accept hwanted
      · rw [swap_of_written hwanted hticket]
        exact h.pass rfl rfl

/-- A change amid rivals adds the results of those that it has met, and its own. -/
theorem fares
    {run : Run α ρ ε}
    (h : Kept initial ⟨slot, reports⟩)
    (hfares : Fares wanted slot rivals run) :
    Kept initial ⟨run.slot,
      .changed run.result :: (run.rivals.map .changed).reverse ++ reports⟩ := by
  induction hfares generalizing reports with
  | alone =>
      exact h.change _
  | refused hwanted =>
      exact (h.change _).pass rfl rfl
  | undisturbed hwanted hrival =>
      exact Kept.accept (h.pass rfl rfl) hwanted
  | lost hwanted hrival hrun ih =>
      have hlater := ih (h.accept hrival)
      rw [List.map_cons, List.reverse_cons, List.cons_append, List.append_assoc]
      exact hlater

theorem perform
    {watched : Watched α κ ρ ε}
    (h : Kept initial watched)
    (operation : Operation α κ) :
    Kept initial (watched.perform operation) := by
  obtain ⟨slot, reports⟩ := watched
  cases operation with
  | poll awaited waker =>
      exact h.poll awaited waker
  | publish object =>
      exact h.publish object
  | change wanted rivals =>
      exact h.fares (fares_changeAmid slot wanted rivals)
  | attempt ticket old wanted =>
      exact h.swap ticket old wanted

end Kept

theorem kept_run
    (initial : α)
    (operations : List (Operation α κ)) :
    Kept initial (Watched.run initial operations : Watched α κ ρ ε) :=
  List.foldlRecOn operations Watched.perform (.started initial)
    fun _ h operation _ => h.perform operation

end Kept

section Quiet

variable {watched : Watched α κ ρ ε}
variable {operation : Operation α κ}

/-- Without a publication or an accepted change, there is no newer snapshot. -/
theorem newest_perform
    (hquiet : ∀ report ∈ (operation.perform watched.slot).1, report.Quiet) :
    (watched.perform operation).newest initial = watched.newest initial := by
  have hnone : (operation.perform watched.slot).1.findSome? Report.installed? = none :=
    List.findSome?_eq_none_iff.mpr fun report hreport => (hquiet report hreport).installed?_eq
  rw [Watched.newest, Watched.perform, List.findSome?_append, hnone, Option.none_or]
  rfl

/-- Without a publication or an accepted change, nobody is due. -/
theorem dueWakes_perform
    (hquiet : ∀ report ∈ (operation.perform watched.slot).1, report.Quiet)
    (waker : Nat) :
    Waiters.dueWakes waker (watched.perform operation).events =
      Waiters.dueWakes waker watched.events := by
  rw [Watched.events, Watched.perform, List.filterMap_append]
  refine Waiters.dueWakes_append (fun hmem => ?_) waker
  obtain ⟨report, hreport, hevent⟩ := List.mem_filterMap.mp hmem
  exact (hquiet report hreport).event?_ne hevent

end Quiet

/-- The current snapshot is the one that was published last or made by the last accepted change.  A
poll hands it out exactly if it is of another version than the one that is waited on.  A waker has
been woken once by each publication and each accepted change that it has awaited.  What reports no
more than polls, failed changes and lost attempts wakes nobody. -/
theorem woken_as_due
    (initial : α)
    (operations : List (Operation α κ)) :
    (Watched.run initial operations).slot.current =
      (Watched.run initial operations).newest initial ∧
    (∀ transition, .changed (.ok transition) ∈ (Watched.run initial operations).reports →
      Made transition) ∧
    (∀ awaited waker object,
      ((Watched.run initial operations).slot.poll awaited waker).1 = some object ↔
        (Watched.run initial operations).slot.current = object ∧
        ((Versioned.version object).lineage ≠ awaited.lineage ∨
          (Versioned.version object).generation ≠ awaited.generation)) ∧
    (∀ waker,
      (Watched.run initial operations).slot.waiters.wakeCount waker =
        Waiters.dueWakes waker (Watched.run initial operations).events) ∧
    ∀ operation : Operation α κ,
      (∀ report ∈ (operation.perform (Watched.run initial operations).slot).1, report.Quiet) →
        (Watched.run initial (operations ++ [operation])).slot.current =
          (Watched.run initial operations).slot.current ∧
        ∀ waker,
          (Watched.run initial (operations ++ [operation])).slot.waiters.wakeCount waker =
            (Watched.run initial operations).slot.waiters.wakeCount waker := by
  have hkept := kept_run initial operations
  refine ⟨hkept.current_eq, hkept.made, ?_, hkept.records.wakeCount_eq, ?_⟩
  · intro awaited waker object
    rw [poll_eq_some_iff, ← Version.ne_iff]
    constructor
    · rintro ⟨rfl, hversion⟩
      exact ⟨rfl, hversion⟩
    · rintro ⟨rfl, hversion⟩
      exact ⟨rfl, hversion⟩
  · intro operation hquiet
    have hlater := kept_run initial (operations ++ [operation])
    constructor
    · rw [hlater.current_eq, hkept.current_eq, Watched.run_concat]
      exact newest_perform hquiet
    · intro waker
      rw [hlater.records.wakeCount_eq, hkept.records.wakeCount_eq, Watched.run_concat]
      exact dueWakes_perform hquiet waker

/-- The first of two writes wakes a waker with two pending polls once.  The second one does not wake
it again, and neither does an attempt that loses its swap. -/
theorem woken_as_due_of_lost_attempt :
    ∃ operations : List (Operation Counter Nat),
      operations = [.poll ⟨0, 0⟩ 3, .poll ⟨0, 0⟩ 3, .change 5 [1]] ∧
      (Watched.run ⟨0, ⟨0, 0⟩⟩ operations).newest ⟨0, ⟨0, 0⟩⟩ = ⟨6, ⟨0, 2⟩⟩ ∧
      (Watched.run ⟨0, ⟨0, 0⟩⟩ operations).slot.current = ⟨6, ⟨0, 2⟩⟩ ∧
      (Watched.run ⟨0, ⟨0, 0⟩⟩ operations).slot.waiters.wakeCount 3 = 1 ∧
      ((Operation.attempt 0 ⟨0, ⟨0, 0⟩⟩ 7).perform (Watched.run ⟨0, ⟨0, 0⟩⟩ operations).slot).1 =
        [.lost 7] ∧
      (Watched.run ⟨0, ⟨0, 0⟩⟩
        (operations ++ [.attempt 0 ⟨0, ⟨0, 0⟩⟩ 7])).slot.waiters.wakeCount 3 = 1 := by
  obtain ⟨hcurrent, -, -, hwoken, hquiet⟩ := woken_as_due (⟨0, ⟨0, 0⟩⟩ : Counter)
    [.poll ⟨0, 0⟩ 3, .poll ⟨0, 0⟩ 3, .change 5 [1]]
  have hlost : ∀ report ∈ ((Operation.attempt 0 ⟨0, ⟨0, 0⟩⟩ 7).perform
      (Watched.run (⟨0, ⟨0, 0⟩⟩ : Counter)
        [.poll ⟨0, 0⟩ 3, .poll ⟨0, 0⟩ 3, .change 5 [1]]).slot).1, report.Quiet := by
    intro report hreport
    rw [List.mem_singleton.mp hreport]
    trivial
  exact ⟨_, rfl, rfl, hcurrent.trans rfl, (hwoken 3).trans rfl, rfl,
    ((hquiet _ hlost).2 3).trans ((hwoken 3).trans rfl)⟩

end Slot

end LiveTokens
