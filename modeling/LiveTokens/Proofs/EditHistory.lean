import LiveTokens.Proofs.Survival

/-!
# A log is a window on all edits

Edits are pushed to a log and forgotten in any order.  Had nothing been forgotten,
the log would hold all edits since the generation that it started at; it is a
*window* on them.  It still holds those from its base on, and between generations
that it remembers it carries every span like the log that has forgotten nothing.

What it means to carry a span is a matter of single edits: they act on it one at a
time, and the first that invalidates it ends the journey.

**Results.**  `faithful_of_operations`.
-/

namespace LiveTokens

namespace EditLog

section Journeys

variable {span middle final : Span}
variable {edit : Edit}
variable {edits more : List Edit}
variable {fate first : Fate}
variable {fates : List Fate}

/-- The edits act on the span one at a time.  None of them invalidates it, and `fates` tells for
each of them what becomes of the span. -/
inductive Travels : Span → List Edit → List Fate → Span → Prop
  | nil
      {span : Span} :
      Travels span [] [] span
  | cons
      {span next final : Span}
      {edit : Edit}
      {edits : List Edit}
      {fate : Fate}
      {fates : List Fate}
      (hcarry : (edit.carry span : Outcome LogError _) = .ok (fate, next))
      (halive : fate ≠ .invalidated)
      (hrest : Travels next edits fates final) :
      Travels span (edit :: edits) (fate :: fates) final

/-- Where a journey ends.  A span that no edit invalidates has moved if some edit moved it, and a
span that is invalidated stays where the last edit before has left it. -/
inductive Arrives
    (span : Span)
    (edits : List Edit) : Fate → Span → Prop
  | through
      {fates : List Fate}
      {final : Span}
      (htravels : Travels span edits fates final) :
      Arrives span edits (if Fate.moved ∈ fates then .moved else .unmoved) final
  | invalidated
      {earlier later : List Edit}
      {edit : Edit}
      {fates : List Fate}
      {final next : Span}
      (hedits : edits = earlier ++ edit :: later)
      (htravels : Travels span earlier fates final)
      (hcarry : (edit.carry final : Outcome LogError _) = .ok (.invalidated, next)) :
      Arrives span edits .invalidated final

/-- Wherever the edits carry the span, its end and that of the next region are positions. -/
def EndsFit : Span → List Edit → Prop
  | _, [] => True
  | span, edit :: edits =>
    span.Fits ∧ edit.region.Fits ∧
      ∀ carried, (edit.carry span : Outcome LogError _) = .ok carried →
        carried.1 ≠ .invalidated → EndsFit carried.2 edits

instance decidableEndsFit : (span : Span) → (edits : List Edit) → Decidable (EndsFit span edits)
  | _, [] => isTrue trivial
  | span, edit :: edits =>
    have (carried : Fate × Span) : Decidable (EndsFit carried.2 edits) :=
      decidableEndsFit carried.2 edits
    inferInstanceAs (Decidable (span.Fits ∧ edit.region.Fits ∧
      ∀ carried, (edit.carry span : Outcome LogError _) = .ok carried →
        carried.1 ≠ .invalidated → EndsFit carried.2 edits))

theorem Travels.carryAll_append
    (h : Travels span edits fates final)
    (hfirst : first ≠ .invalidated) :
    (carryAll first span (edits ++ more) : Outcome LogError _) =
      carryAll (if Fate.moved ∈ fates then .moved else first) final more := by
  induction h generalizing first with
  | nil =>
      simp
  | @cons span next final edit edits fate fates hcarry halive hrest ih =>
      have hboth : first.andThen fate ≠ .invalidated := by
        simp [hfirst, halive]
      rw [List.cons_append, carryAll_cons_of_alive hfirst hcarry halive, ih hboth]
      cases fate with
      | unmoved =>
          simp
      | moved =>
          simp [Fate.andThen_moved hfirst]
      | invalidated =>
          exact absurd rfl halive

theorem Arrives.cons
    (hcarry : (edit.carry span : Outcome LogError _) = .ok (fate, middle))
    (halive : fate ≠ .invalidated)
    {reached : Fate}
    (h : Arrives middle edits reached final) :
    Arrives span (edit :: edits) (fate.andThen reached) final := by
  cases h with
  | @through fates _ htravels =>
      have hfate : fate.andThen (if Fate.moved ∈ fates then .moved else .unmoved) =
          if Fate.moved ∈ fate :: fates then .moved else .unmoved := by
        cases fate with
        | unmoved =>
            simp
        | moved =>
            by_cases hmoved : Fate.moved ∈ fates <;> simp [hmoved, Fate.andThen_moved]
        | invalidated =>
            exact absurd rfl halive
      rw [hfate]
      exact .through (.cons hcarry halive htravels)
  | @invalidated earlier later edit' fates _ next hedits htravels hcut =>
      rw [Fate.andThen_invalidated, hedits]
      exact .invalidated rfl (.cons hcarry halive htravels) hcut

/-- Carrying a span over edits is what the edits do to it one at a time. -/
theorem carryAll_eq_ok_iff_arrives :
    (carryAll .unmoved span edits : Outcome LogError _) = .ok (fate, final) ↔
      Arrives span edits fate final := by
  constructor
  · intro h
    induction edits generalizing span fate with
    | nil =>
        cases h
        exact .through .nil
    | cons edit edits ih =>
        cases hcarry : (edit.carry span : Outcome LogError _) with
        | error failure =>
            rw [carryAll, hcarry] at h
            cases h
        | ok carried =>
            obtain ⟨step, middle⟩ := carried
            by_cases halive : step = .invalidated
            · subst halive
              rw [carryAll_cons_of_invalidated hcarry] at h
              cases h
              exact .invalidated (List.nil_append _).symm .nil hcarry
            · rw [carryAll_cons_of_alive (by simp) hcarry halive, Fate.unmoved_andThen,
                carryAll_eq_andThen halive] at h
              obtain ⟨⟨reached, _⟩, hreached, hfate⟩ := Outcome.bind_eq_ok_iff.mp h
              cases hfate
              exact .cons hcarry halive (ih hreached)
  · intro h
    cases h with
    | through htravels =>
        rw [← List.append_nil edits, htravels.carryAll_append (by simp)]
        rfl
    | invalidated hedits htravels hcut =>
        rw [hedits, htravels.carryAll_append (by simp), carryAll_cons_of_invalidated hcut]

theorem EndsFit.exists_carryAll
    (h : EndsFit span edits) :
    ∃ fate final, (carryAll .unmoved span edits : Outcome LogError _) = .ok (fate, final) := by
  induction edits generalizing span with
  | nil =>
      exact ⟨_, _, rfl⟩
  | cons edit edits ih =>
      obtain ⟨hspan, hregion, hrest⟩ := h
      obtain ⟨fate, middle, hcarry⟩ := Edit.exists_carry (ε := LogError) hspan hregion
      by_cases halive : fate = .invalidated
      · subst halive
        exact ⟨_, _, carryAll_cons_of_invalidated hcarry⟩
      · obtain ⟨reached, final, hreached⟩ := ih (hrest _ hcarry halive)
        rw [carryAll_cons_of_alive (by simp) hcarry halive, Fate.unmoved_andThen,
          carryAll_eq_andThen halive, hreached]
        exact ⟨_, _, rfl⟩

end Journeys

/-- What is done to a log. -/
inductive Operation where
  | push (edit : Edit)
  | forgetUpTo (generation : Nat)
deriving DecidableEq, Repr

/-- The edits that an operation adds. -/
def Operation.pushed : Operation → List Edit
  | .push edit => [edit]
  | .forgetUpTo _ => []

/-- The work on the log that an operation is. -/
def Operation.work : Operation → Work EditLog LogError Unit
  | .push edit => modify (·.push edit)
  | .forgetUpTo generation => forget generation

/-- The log that an operation leaves, whether it succeeds or fails. -/
def carryOut
    (log : EditLog)
    (operation : Operation) : EditLog :=
  (operation.work.outcome log).2

/-- A log that does not forget is the same as before. -/
theorem atomic_forget
    (generation : Nat) :
    (forget generation).Atomic := by
  refine Work.Atomic.get_bind fun log => ?_
  refine Work.Atomic.ofOutcome_bind fun head => ?_
  split
  · exact Work.atomic_fail _
  · split
    · exact Work.atomic_pure _
    · exact Work.atomic_of_ok fun _ => ⟨_, rfl⟩

/-- The log after forgetting, which is the same one if that fails. -/
theorem carryOut_forgetUpTo
    (log : EditLog)
    (generation : Nat) :
    log.carryOut (.forgetUpTo generation) =
      match log.forgetUpTo generation with
      | .ok log => log
      | .error _ => log := by
  rw [carryOut, Operation.work, (atomic_forget generation).snd_outcome, forgetUpTo]
  cases (forget generation).result log <;> rfl

/-- The log that operations make of one that starts at a generation. -/
def after
    (generation : Nat)
    (operations : List Operation) : EditLog :=
  operations.foldl carryOut (startingAt generation)

/-- Carries a span to `middle` and from there to `target`.  A span that does not get to `middle`
alive is not carried on. -/
def carryVia
    (log : EditLog)
    (span : Span)
    (origin middle target : Nat) : Outcome LogError (Fate × Span) := do
  let (first, reached) ← log.carry span origin middle
  if first = .invalidated then
    return (first, reached)
  else
    let (second, final) ← log.carry reached middle target
    return (first.andThen second, final)

/-- The edits that lead from a generation that the log remembers to another one. -/
def stretch
    (log : EditLog)
    (origin target : Nat) : List Edit :=
  (log.edits.drop (origin - log.base)).take (target - origin)

/-- The log holds those of the edits since `generation` that its base is not behind. -/
structure Windows
    (log : EditLog)
    (generation : Nat)
    (all : List Edit) : Prop where
  generation_le : generation ≤ log.base
  base_le : log.base ≤ generation + all.length
  edits : log.edits = all.drop (log.base - generation)

/-- A log answers like one that has forgotten nothing of the edits since `generation`, as long as
it is asked about generations from its base on. -/
structure Faithful
    (log : EditLog)
    (generation : Nat)
    (all : List Edit) : Prop where
  head : (log.head : Outcome LogError Nat) = .ok (generation + all.length)
  /-- A span is carried by the edits from `origin` to `target` one at a time. -/
  arrives : ∀ span origin target,
    log.base ≤ origin →
    origin ≤ target →
    target ≤ generation + all.length →
    ∀ fate final,
      log.carry span origin target = .ok (fate, final) ↔
        Arrives span ((all.drop (origin - generation)).take (target - origin)) fate final
  answers : ∀ span origin target,
    log.base ≤ origin →
    origin ≤ target →
    target ≤ generation + all.length →
    EndsFit span ((all.drop (origin - generation)).take (target - origin)) →
    ∃ fate final, log.carry span origin target = .ok (fate, final)
  unforgotten : ∀ span origin target,
    log.base ≤ origin →
    log.carry span origin target = (EditLog.mk generation all).carry span origin target
  forgets : ∀ generation' log',
    log.forgetUpTo generation' = .ok log' →
    ∀ span origin target,
      log'.base ≤ origin →
      log'.carry span origin target = log.carry span origin target
  composes : ∀ span origin middle target,
    log.base ≤ origin →
    origin ≤ middle →
    middle ≤ target →
    target ≤ generation + all.length →
    log.carryVia span origin middle target = log.carry span origin target
  backwards : ∀ span origin target,
    target < origin →
    log.carry span origin target = Outcome.fail (.backwards origin target)
  forgotten : ∀ span origin target,
    origin ≤ target →
    origin < log.base →
    log.carry span origin target = Outcome.fail (.forgotten origin log.base)
  future : ∀ span origin target,
    log.base ≤ origin →
    origin ≤ target →
    generation + all.length < target →
    log.carry span origin target = Outcome.fail (.future target (generation + all.length))
  forgetBeyond : ∀ generation',
    generation + all.length < generation' →
    log.forgetUpTo generation' = Outcome.fail (.future generation' (generation + all.length)) ∧
    log.carryOut (.forgetUpTo generation') = log
  forgetAgain : ∀ generation',
    generation' ≤ log.base →
    log.forgetUpTo generation' = .ok log
  forgetUpTo : ∀ generation',
    log.base ≤ generation' →
    generation' ≤ generation + all.length →
    ∃ log', log.forgetUpTo generation' = .ok log' ∧ log'.base = generation'

variable {ε : Type}
variable {log log' : EditLog}
variable {generation generation' origin middle target : Nat}
variable {all : List Edit}
variable {span : Span}

theorem stretch_append
    (log : EditLog)
    (hbase : log.base ≤ origin)
    (hmiddle : origin ≤ middle)
    (htarget : middle ≤ target) :
    log.stretch origin target = log.stretch origin middle ++ log.stretch middle target := by
  have hsum : target - origin = middle - origin + (target - middle) := by
    omega
  have hdrop : origin - log.base + (middle - origin) = middle - log.base := by
    omega
  rw [stretch, hsum, List.take_add, List.drop_drop, hdrop]
  rfl

theorem windows_all
    (generation : Nat)
    (all : List Edit) :
    (EditLog.mk generation all).Windows generation all :=
  ⟨Nat.le_refl _, Nat.le_add_right _ _, by simp⟩

namespace Windows

variable (h : log.Windows generation all)

include h

theorem base_add_length :
    log.base + log.length = generation + all.length := by
  have hgeneration := h.generation_le
  have hbase := h.base_le
  rw [length, h.edits, List.length_drop]
  omega

theorem head_eq
    (hbound : generation + all.length < positionBound) :
    (log.head : Outcome ε Nat) = .ok (generation + all.length) :=
  head_eq_ok_iff.mpr ⟨h.base_add_length, hbound⟩

theorem push
    (edit : Edit) :
    (log.push edit).Windows generation (all ++ [edit]) := by
  have hgeneration := h.generation_le
  have hbase := h.base_le
  refine ⟨hgeneration, ?_, ?_⟩
  · rw [base_push, List.length_append]
    omega
  · rw [base_push, List.drop_append_of_le_length (by omega), ← h.edits]
    rfl

/-- What is left after forgetting. -/
theorem forgetUpTo_eq
    (hbound : generation + all.length < positionBound)
    (hle : generation' ≤ generation + all.length) :
    log.forgetUpTo generation' =
      .ok ⟨max log.base generation', all.drop (max log.base generation' - generation)⟩ := by
  have hgeneration := h.generation_le
  rw [forgetUpTo_eq_do, h.head_eq hbound, Outcome.ok_bind, if_neg (by omega)]
  by_cases hbase : generation' ≤ log.base
  · rw [if_pos hbase, Nat.max_eq_left hbase, ← h.edits]
    rfl
  · have hdrop : log.base - generation + (generation' - log.base) = generation' - generation := by
      omega
    rw [if_neg hbase, Nat.max_eq_right (by omega), h.edits, List.drop_drop, hdrop]
    rfl

theorem forgetUpTo_beyond
    (hbound : generation + all.length < positionBound)
    (hbeyond : generation + all.length < generation') :
    log.forgetUpTo generation' =
      Outcome.fail (.future generation' (generation + all.length)) := by
  rw [forgetUpTo_eq_do, h.head_eq hbound, Outcome.ok_bind, if_pos hbeyond]

/-- What an operation leaves is a window on the edits, with the new one if there is one. -/
theorem carryOut
    (hbound : generation + all.length < positionBound)
    (operation : Operation) :
    (log.carryOut operation).Windows generation (all ++ operation.pushed) := by
  cases operation with
  | push edit =>
      exact h.push edit
  | forgetUpTo generation' =>
      rw [Operation.pushed, List.append_nil, carryOut_forgetUpTo]
      rcases Nat.lt_or_ge (generation + all.length) generation' with hbeyond | hle
      · rw [h.forgetUpTo_beyond hbound hbeyond]
        exact h
      · have hgeneration := h.generation_le
        have hbase := h.base_le
        rw [h.forgetUpTo_eq hbound hle]
        exact ⟨by dsimp only; omega, by dsimp only; omega, rfl⟩

theorem foldl
    (operations : List Operation)
    (hbound : generation + (all ++ operations.flatMap Operation.pushed).length < positionBound) :
    (operations.foldl EditLog.carryOut log).Windows generation
      (all ++ operations.flatMap Operation.pushed) := by
  induction operations generalizing log all with
  | nil =>
      rw [List.flatMap_nil, List.append_nil]
      exact h
  | cons operation operations ih =>
      rw [List.flatMap_cons, ← List.append_assoc] at hbound ⊢
      refine ih (h.carryOut ?_ operation) hbound
      simp only [List.length_append] at hbound
      omega

/-- The newest generation is the same as if nothing had been forgotten, or overflows as well. -/
theorem head_eq_all :
    (log.head : Outcome ε Nat) = (EditLog.mk generation all).head := by
  have hsum := h.base_add_length
  unfold head LiveTokens.advance
  rw [hsum]
  rfl

/-- The window on edits that it still holds is the same as if it had forgotten none. -/
theorem window_eq
    (hbase : log.base ≤ origin) :
    log.window origin target = (EditLog.mk generation all).window origin target := by
  have hgeneration := h.generation_le
  have hdrop : log.base - generation + (origin - log.base) = origin - generation := by
    omega
  unfold window
  rw [h.head_eq_all, h.edits, List.drop_drop, hdrop]
  simp only [if_neg (Nat.not_lt.mpr hbase),
    if_neg (Nat.not_lt.mpr (Nat.le_trans hgeneration hbase))]

theorem carry_eq
    (hbase : log.base ≤ origin) :
    log.carry span origin target = (EditLog.mk generation all).carry span origin target := by
  rw [carry, h.window_eq hbase, carry]

theorem carry_eq_carryAll
    (hbound : generation + all.length < positionBound)
    (hbase : log.base ≤ origin)
    (horigin : origin ≤ target)
    (htarget : target ≤ generation + all.length) :
    log.carry span origin target =
      carryAll .unmoved span ((all.drop (origin - generation)).take (target - origin)) := by
  have hgeneration := h.generation_le
  rw [h.carry_eq hbase, carry, window, if_neg (by omega), if_neg (by dsimp only; omega),
    (windows_all generation all).head_eq hbound, Outcome.ok_bind, if_neg (by omega)]
  rfl

/-- Between two generations, a span can be carried by way of any generation between them. -/
theorem carryVia_eq
    (hbound : generation + all.length < positionBound)
    (hbase : log.base ≤ origin)
    (hmiddle : origin ≤ middle)
    (htarget : middle ≤ target)
    (hhead : target ≤ generation + all.length) :
    log.carryVia span origin middle target = log.carry span origin target := by
  have hgeneration := h.generation_le
  have hjoined : (all.drop (origin - generation)).take (target - origin) =
      (all.drop (origin - generation)).take (middle - origin) ++
        (all.drop (middle - generation)).take (target - middle) :=
    stretch_append (EditLog.mk generation all) (Nat.le_trans hgeneration hbase) hmiddle htarget
  rw [carryVia, h.carry_eq_carryAll hbound hbase hmiddle (Nat.le_trans htarget hhead),
    h.carry_eq_carryAll hbound hbase (Nat.le_trans hmiddle htarget) hhead, hjoined,
    carryAll_append_eq (by simp)]
  refine congrArg _ (funext fun (first, reached) => ?_)
  by_cases hfirst : first = .invalidated
  · simp [hfirst]
  · dsimp only
    rw [if_neg hfirst, if_neg hfirst,
      h.carry_eq_carryAll hbound (Nat.le_trans hbase hmiddle) htarget hhead,
      carryAll_eq_andThen hfirst]
    rfl

theorem faithful
    (hbound : generation + all.length < positionBound) :
    log.Faithful generation all where
  head := h.head_eq hbound
  arrives := by
    intro span origin target hbase horigin htarget fate final
    rw [h.carry_eq_carryAll hbound hbase horigin htarget]
    exact carryAll_eq_ok_iff_arrives
  answers := by
    intro span origin target hbase horigin htarget hfit
    rw [h.carry_eq_carryAll hbound hbase horigin htarget]
    exact hfit.exists_carryAll
  unforgotten := fun _ _ _ hbase => h.carry_eq hbase
  forgets := by
    intro generation' log' hforget span origin target hbase
    have hgeneration := h.generation_le
    rcases Nat.lt_or_ge (generation + all.length) generation' with hbeyond | hle
    · rw [h.forgetUpTo_beyond hbound hbeyond] at hforget
      cases hforget
    · have hlater := h.carryOut hbound (.forgetUpTo generation')
      rw [carryOut_forgetUpTo, hforget, Operation.pushed, List.append_nil] at hlater
      rw [h.forgetUpTo_eq hbound hle] at hforget
      cases hforget
      rw [hlater.carry_eq hbase, h.carry_eq (Nat.le_trans (Nat.le_max_left _ _) hbase)]
  composes := fun _ _ _ _ hbase hmiddle htarget hhead =>
    h.carryVia_eq hbound hbase hmiddle htarget hhead
  backwards := by
    intro span origin target hlt
    rw [carry, window, if_pos hlt]
    rfl
  forgotten := by
    intro span origin target hle hbase
    rw [carry, window, if_neg (Nat.not_lt.mpr hle), if_pos hbase]
    rfl
  future := by
    intro span origin target hbase hle hfuture
    rw [carry, window, if_neg (Nat.not_lt.mpr hle), if_neg (Nat.not_lt.mpr hbase),
      h.head_eq hbound, Outcome.ok_bind, if_pos hfuture]
    rfl
  forgetBeyond := by
    intro generation' hbeyond
    have hfail := h.forgetUpTo_beyond hbound hbeyond
    refine ⟨hfail, ?_⟩
    rw [carryOut_forgetUpTo, hfail]
    rfl
  forgetAgain := by
    intro generation' hle
    rw [h.forgetUpTo_eq hbound (Nat.le_trans hle h.base_le), Nat.max_eq_left hle, ← h.edits]
  forgetUpTo := by
    intro generation' hbase hle
    exact ⟨_, h.forgetUpTo_eq hbound hle, Nat.max_eq_right hbase⟩

end Windows

/-- Whatever has been pushed to a log and forgotten, it answers for all edits from its base on. -/
theorem faithful_of_operations
    (operations : List Operation)
    (hbound : generation + (operations.flatMap Operation.pushed).length < positionBound) :
    (after generation operations).Faithful generation (operations.flatMap Operation.pushed) := by
  have hstart : (startingAt generation).Windows generation [] := windows_all generation []
  exact (hstart.foldl operations hbound).faithful hbound

/-- Three edits, the first of which is forgotten.  The last one moves one span and cuts into
another, and a generation that has not happened yet is not forgotten. -/
theorem faithful_of_forgetting :
    ∃ log,
      log = after 10 [.push ⟨⟨0, 0⟩, 3⟩, .push ⟨⟨20, 5⟩, -5⟩, .forgetUpTo 11, .forgetUpTo 99,
        .push ⟨⟨0, 1⟩, 1⟩] ∧
      log.Faithful 10 [⟨⟨0, 0⟩, 3⟩, ⟨⟨20, 5⟩, -5⟩, ⟨⟨0, 1⟩, 1⟩] ∧
      log.base = 11 ∧
      EndsFit ⟨8, 4⟩ [⟨⟨20, 5⟩, -5⟩, ⟨⟨0, 1⟩, 1⟩] ∧
      Arrives ⟨8, 4⟩ [⟨⟨20, 5⟩, -5⟩, ⟨⟨0, 1⟩, 1⟩] .moved ⟨9, 4⟩ ∧
      Arrives ⟨0, 2⟩ [⟨⟨20, 5⟩, -5⟩, ⟨⟨0, 1⟩, 1⟩] .invalidated ⟨0, 2⟩ ∧
      log.carry ⟨8, 4⟩ 10 13 = Outcome.fail (.forgotten 10 11) := by
  have hfaithful : (after 10 [.push ⟨⟨0, 0⟩, 3⟩, .push ⟨⟨20, 5⟩, -5⟩, .forgetUpTo 11,
      .forgetUpTo 99, .push ⟨⟨0, 1⟩, 1⟩]).Faithful 10 _ :=
    faithful_of_operations _ (by decide)
  refine ⟨_, rfl, hfaithful, rfl, by decide, ?_, ?_, ?_⟩
  · exact (hfaithful.arrives ⟨8, 4⟩ 11 13 (by decide) (by decide) (by decide) _ _).mp rfl
  · exact (hfaithful.arrives ⟨0, 2⟩ 11 13 (by decide) (by decide) (by decide) _ _).mp rfl
  · exact hfaithful.forgotten ⟨8, 4⟩ 10 13 (by decide) (by decide)

end EditLog

end LiveTokens
