import LiveTokens.Proofs.Outcome
import LiveTokens.Token

/-!
# Carrying spans over the edits of a log

A span *fits* if its end is a position, and it *precedes* another one if it fits
and ends at or in front of the start of the other.

An edit leaves the spans in front of it where they are and slides the spans
behind it by its delta.  It keeps the order of the spans that it does not cut
into.  Over a list of edits, a span is carried as over its parts, one after the
other.  A token that can be located in the newest generation of a log can therefore
be located after one more edit, provided that the edit does not cut into it.
-/

namespace LiveTokens

namespace Span

variable {ε : Type}

/-- The end of the span is a position. -/
def Fits
    (span : Span) : Prop :=
  span.start + span.length < positionBound

instance (span : Span) : Decidable span.Fits :=
  inferInstanceAs (Decidable (span.start + span.length < positionBound))

theorem fits_mk
    {start length : Nat} :
    Fits ⟨start, length⟩ ↔ start + length < positionBound := by
  rfl

theorem fits_of_lt_deltaBound
    {span : Span}
    (h : span.start + span.length < deltaBound) :
    span.Fits :=
  Nat.lt_trans h (by decide)

/-- The span ends at or in front of the start of the other. -/
def Precedes
    (span other : Span) : Prop :=
  span.start + span.length ≤ other.start ∧ span.Fits

instance (span other : Span) : Decidable (span.Precedes other) :=
  inferInstanceAs (Decidable (_ ∧ _))

/-- The span `delta` bytes further on. -/
def slide
    (delta : Int)
    (span : Span) : Span :=
  ⟨(span.start + delta).toNat, span.length⟩

@[simp] theorem slide_zero
    (span : Span) :
    span.slide 0 = span := by
  simp [slide]

theorem Fits.stop_eq
    {span : Span}
    (h : span.Fits) :
    (span.stop : Outcome ε Nat) = .ok (span.start + span.length) :=
  stop_eq_ok h

theorem stop_eq_ok_iff
    {span : Span}
    {stop : Nat} :
    (span.stop : Outcome ε Nat) = .ok stop ↔ span.start + span.length = stop ∧ span.Fits := by
  rw [Span.stop, advance_eq_ok_iff, Fits]
  constructor
  · rintro ⟨rfl, h⟩
    exact ⟨rfl, h⟩
  · rintro ⟨rfl, h⟩
    exact ⟨rfl, h⟩

theorem Precedes.trans
    {first second third : Span}
    (h : first.Precedes second)
    (h' : second.Precedes third) :
    first.Precedes third := by
  obtain ⟨hle, hfits⟩ := h
  obtain ⟨hle', -⟩ := h'
  exact ⟨by omega, hfits⟩

theorem Precedes.start_le
    {span other : Span}
    (h : span.Precedes other) :
    span.start ≤ other.start := by
  have := h.1
  omega

end Span

namespace Edit

variable {ε : Type}
variable {edit : Edit}
variable {span : Span}

/-- The edit does not remove more than its region. -/
def Plausible
    (edit : Edit) : Prop :=
  0 ≤ edit.region.length + edit.delta

/-- The edit lies behind the span, which stays where it is. -/
def Spares
    (edit : Edit)
    (span : Span) : Prop :=
  span.start + span.length ≤ edit.region.start

/-- The edit lies in front of the span, and the span still fits after it. -/
def Slides
    (edit : Edit)
    (span : Span) : Prop :=
  edit.region.start + edit.region.length < span.start ∧
    0 ≤ span.start + edit.delta ∧
    span.start + span.length + edit.delta < positionBound

theorem carry_of_spares
    (hfits : span.Fits)
    (h : edit.Spares span) :
    (edit.carry span : Outcome ε (Fate × Span)) = .ok (.unmoved, span) := by
  simp only [carry, hfits.stop_eq, Outcome.ok_bind]
  exact if_pos h

theorem carry_of_slides
    (hfits : span.Fits)
    (h : edit.Slides span) :
    ∃ fate, fate ≠ .invalidated ∧
      (edit.carry span : Outcome ε (Fate × Span)) = .ok (fate, span.slide edit.delta) := by
  obtain ⟨hbehind, hnonneg, hbound⟩ := h
  have hregion : edit.region.Fits := by
    unfold Span.Fits at hfits ⊢
    omega
  simp only [carry, hfits.stop_eq, hregion.stop_eq, Outcome.ok_bind]
  rw [if_neg (by omega), if_pos (by omega)]
  by_cases hdelta : edit.delta = 0
  · rw [if_pos hdelta, hdelta, Span.slide_zero]
    exact ⟨.unmoved, by simp, rfl⟩
  · have hshift : shift? span.start edit.delta = some (span.start + edit.delta).toNat := by
      unfold shift?
      rw [if_pos ⟨hnonneg, by omega⟩]
    rw [if_neg hdelta]
    simp only [Span.shifted?, hshift, Option.map_some]
    exact ⟨.moved, by simp, rfl⟩

/-- The edit that changes nothing leaves every span where it is. -/
theorem carry_identity
    (hfits : span.Fits) :
    (identity.carry span : Outcome ε (Fate × Span)) = .ok (.unmoved, span) := by
  by_cases hempty : span.start + span.length = 0
  · exact carry_of_spares hfits (Nat.le_of_eq hempty)
  · have hregion : identity.region.Fits := by
      simp [Span.Fits, identity, Span.emptyAt, positionBound]
    simp only [carry, hfits.stop_eq, hregion.stop_eq, Outcome.ok_bind]
    rw [if_neg (by simpa [identity, Span.emptyAt] using hempty),
      if_pos (by simp [identity, Span.emptyAt])]
    simp [identity]

/-- Where a span lies after an edit that does not cut into it. -/
def carried
    (edit : Edit)
    (span : Span) : Span :=
  if span.start + span.length ≤ edit.region.start then span else span.slide edit.delta

/-- The edit does not cut into the span, which stays or moves along. -/
def Preserves
    (edit : Edit)
    (span : Span) : Prop :=
  edit.Spares span ∨
    edit.region.start + edit.region.length ≤ span.start ∧ 0 ≤ span.start + edit.delta

theorem carried_of_spares
    (h : edit.Spares span) :
    edit.carried span = span :=
  if_pos h

theorem carried_of_not_spares
    (h : ¬ edit.Spares span) :
    edit.carried span = span.slide edit.delta :=
  if_neg h

theorem carried_identity
    (span : Span) :
    identity.carried span = span := by
  by_cases h : identity.Spares span
  · exact carried_of_spares h
  · exact (carried_of_not_spares h).trans span.slide_zero

theorem exists_carry
    (hspan : span.Fits)
    (hregion : edit.region.Fits) :
    ∃ fate next, (edit.carry span : Outcome ε (Fate × Span)) = .ok (fate, next) := by
  simp only [carry, hspan.stop_eq, hregion.stop_eq, Outcome.ok_bind]
  split
  · exact ⟨_, _, rfl⟩
  · split
    · split
      · exact ⟨_, _, rfl⟩
      · split <;> exact ⟨_, _, rfl⟩
    · exact ⟨_, _, rfl⟩

/-- A span that is carried over an edit alive is one that the edit does not cut into. -/
theorem carried_of_carry
    {fate : Fate}
    {next : Span}
    (h : (edit.carry span : Outcome ε (Fate × Span)) = .ok (fate, next))
    (halive : fate ≠ .invalidated) :
    next = edit.carried span ∧ edit.Preserves span := by
  unfold carry at h
  obtain ⟨stop, hstop, h⟩ := Outcome.bind_eq_ok_iff.mp h
  obtain ⟨rfl, -⟩ := Span.stop_eq_ok_iff.mp hstop
  split at h
  next hfront =>
    cases h
    exact ⟨(carried_of_spares hfront).symm, .inl hfront⟩
  next hfront =>
    rw [carried_of_not_spares hfront]
    obtain ⟨stop, hstop, h⟩ := Outcome.bind_eq_ok_iff.mp h
    obtain ⟨rfl, -⟩ := Span.stop_eq_ok_iff.mp hstop
    split at h
    next hbehind =>
      split at h
      next hdelta =>
        cases h
        rw [hdelta, Span.slide_zero]
        exact ⟨rfl, .inr ⟨hbehind, by omega⟩⟩
      next =>
        split at h
        next moved hmoved =>
          cases h
          obtain ⟨start, hstart, rfl⟩ := Option.map_eq_some_iff.mp hmoved
          unfold shift? at hstart
          split at hstart
          next hrange =>
            cases hstart
            exact ⟨rfl, .inr ⟨hbehind, hrange.1⟩⟩
          next =>
            cases hstart
        next =>
          cases h
          exact absurd rfl halive
    next =>
      cases h
      exact absurd rfl halive

/-- A span that an edit invalidates stays where it is. -/
theorem eq_of_carry_invalidated
    {final : Span}
    (h : (edit.carry span : Outcome ε _) = .ok (.invalidated, final)) :
    final = span := by
  unfold Edit.carry at h
  obtain ⟨stop, -, hfront⟩ := Outcome.bind_eq_ok_iff.mp h
  split at hfront
  next =>
    cases hfront
  next =>
    obtain ⟨stop, -, hbehind⟩ := Outcome.bind_eq_ok_iff.mp hfront
    split at hbehind
    next =>
      split at hbehind
      next =>
        cases hbehind
      next =>
        split at hbehind
        next =>
          cases hbehind
        next =>
          cases hbehind
          rfl
    next =>
      cases hbehind
      rfl

/-- Spans that an edit does not cut into stay in order.  An edit has at most one of the two on
either side of it. -/
theorem precedes_carried
    {other : Span}
    (hedit : edit.Plausible)
    (hspan : edit.Preserves span)
    (hother : edit.Preserves other)
    (hfits : (edit.carried span).Fits)
    (h : span.Precedes other) :
    (edit.carried span).Precedes (edit.carried other) := by
  refine ⟨?_, hfits⟩
  have hle := h.1
  unfold Plausible at hedit
  unfold Preserves Spares at hspan hother
  unfold carried Span.slide
  split
  · split
    · exact hle
    · dsimp only
      omega
  · split
    · dsimp only
      omega
    · dsimp only
      omega

end Edit

namespace Fate

/-- What becomes of a span on two parts of its way: it is lost if it is lost on one of them, and
otherwise has moved if it has moved on one of them. -/
def andThen : Fate → Fate → Fate
  | .invalidated, _ => .invalidated
  | first, .unmoved => first
  | _, second => second

@[simp] theorem andThen_unmoved
    (first : Fate) :
    first.andThen .unmoved = first := by
  cases first <;> rfl

@[simp] theorem unmoved_andThen
    (second : Fate) :
    andThen .unmoved second = second := by
  cases second <;> rfl

@[simp] theorem andThen_invalidated
    (first : Fate) :
    first.andThen .invalidated = .invalidated := by
  cases first <;> rfl

theorem andThen_moved
    {first : Fate}
    (halive : first ≠ .invalidated) :
    first.andThen .moved = .moved := by
  cases first with
  | unmoved | moved =>
      rfl
  | invalidated =>
      exact absurd rfl halive

theorem andThen_assoc
    (first second third : Fate) :
    (first.andThen second).andThen third = first.andThen (second.andThen third) := by
  cases first <;> cases second <;> cases third <;> rfl

@[simp] theorem andThen_eq_invalidated_iff
    {first second : Fate} :
    first.andThen second = .invalidated ↔ first = .invalidated ∨ second = .invalidated := by
  cases first <;> cases second <;> simp [andThen]

end Fate

namespace EditLog

variable {ε : Type}

section CarryAll

variable {span middle final : Span}
variable {edit : Edit}
variable {edits more : List Edit}
variable {fate first : Fate}

theorem carryAll_cons_of_alive
    (hfirst : first ≠ .invalidated)
    (hcarry : (edit.carry span : Outcome ε _) = .ok (fate, middle))
    (halive : fate ≠ .invalidated) :
    (carryAll first span (edit :: edits) : Outcome ε _) =
      carryAll (first.andThen fate) middle edits := by
  rw [carryAll, hcarry, Outcome.ok_bind]
  cases fate with
  | unmoved =>
      rw [Fate.andThen_unmoved]
  | moved =>
      rw [Fate.andThen_moved hfirst]
  | invalidated =>
      exact absurd rfl halive

theorem carryAll_cons_of_invalidated
    (hcarry : (edit.carry span : Outcome ε _) = .ok (.invalidated, final)) :
    (carryAll first span (edit :: edits) : Outcome ε _) = .ok (.invalidated, span) := by
  rw [carryAll, hcarry, Edit.eq_of_carry_invalidated hcarry]
  rfl

/-- What became of the span earlier makes no difference to where it is carried. -/
theorem carryAll_eq_andThen
    (hfirst : first ≠ .invalidated)
    (span : Span)
    (edits : List Edit) :
    (carryAll first span edits : Outcome ε _) =
      carryAll .unmoved span edits >>= fun (second, final) =>
        .ok (first.andThen second, final) := by
  induction edits generalizing first span with
  | nil =>
      simp [carryAll]
  | cons edit edits ih =>
      cases hcarry : (edit.carry span : Outcome ε _) with
      | error failure =>
          simp only [carryAll, hcarry, Outcome.error_bind]
      | ok carried =>
          obtain ⟨fate, middle⟩ := carried
          by_cases halive : fate = .invalidated
          · subst halive
            rw [carryAll_cons_of_invalidated hcarry, carryAll_cons_of_invalidated hcarry]
            simp
          · have hboth : first.andThen fate ≠ .invalidated := by
              simp [hfirst, halive]
            rw [carryAll_cons_of_alive hfirst hcarry halive,
              carryAll_cons_of_alive (by simp) hcarry halive, Fate.unmoved_andThen, ih hboth,
              ih halive]
            cases (carryAll .unmoved middle edits : Outcome ε (Fate × Span)) <;>
              simp [Fate.andThen_assoc]

/-- A journey over two lists of edits ends where the second part ends, or in the first part. -/
theorem carryAll_append_eq
    (hfirst : first ≠ .invalidated) :
    (carryAll first span (edits ++ more) : Outcome ε _) =
      carryAll first span edits >>= fun (reached, middle) =>
        if reached = .invalidated then .ok (reached, middle) else carryAll reached middle more := by
  induction edits generalizing first span with
  | nil =>
      simp [carryAll, hfirst]
  | cons edit edits ih =>
      cases hcarry : (edit.carry span : Outcome ε _) with
      | error failure =>
          simp only [List.cons_append, carryAll, hcarry, Outcome.error_bind]
      | ok carried =>
          obtain ⟨fate, next⟩ := carried
          rw [List.cons_append]
          by_cases hfate : fate = .invalidated
          · subst hfate
            rw [carryAll_cons_of_invalidated hcarry, carryAll_cons_of_invalidated hcarry]
            rfl
          · rw [carryAll_cons_of_alive hfirst hcarry hfate,
              carryAll_cons_of_alive hfirst hcarry hfate]
            exact ih (by simp [hfirst, hfate])

end CarryAll

/-- The newest generation of a log, where it is a generation at all. -/
theorem head_eq_ok_iff
    {log : EditLog}
    {generation : Nat} :
    (log.head : Outcome ε Nat) = .ok generation ↔
      log.base + log.length = generation ∧ generation < positionBound :=
  advance_eq_ok_iff

@[simp] theorem length_push
    (log : EditLog)
    (edit : Edit) :
    (log.push edit).length = log.length + 1 := by
  simp [push, length]

@[simp] theorem base_push
    (log : EditLog)
    (edit : Edit) :
    (log.push edit).base = log.base := by
  rfl

/-- One more edit leads to the next generation. -/
theorem head_push
    {log : EditLog}
    {edit : Edit}
    {head : Nat}
    (hhead : (log.head : Outcome ε Nat) = .ok head)
    (hbound : head + 1 < positionBound) :
    ((log.push edit).head : Outcome ε Nat) = .ok (head + 1) := by
  obtain ⟨hsum, -⟩ := head_eq_ok_iff.mp hhead
  rw [head_eq_ok_iff, length_push, base_push]
  exact ⟨by omega, hbound⟩

/-- The edits from a remembered generation to the newest one are all that follow it. -/
theorem window_head
    {log : EditLog}
    {origin head : Nat}
    (hhead : (log.head : Outcome LogError Nat) = .ok head)
    (hbase : log.base ≤ origin)
    (horigin : origin ≤ head) :
    log.window origin head = .ok (log.edits.drop (origin - log.base)) := by
  obtain ⟨hsum, -⟩ := head_eq_ok_iff.mp hhead
  unfold window
  rw [if_neg (by omega), if_neg (by omega), hhead]
  simp only [Outcome.ok_bind]
  rw [if_neg (by omega)]
  simp only [Outcome.pure_eq_ok, Except.ok.injEq]
  apply List.take_of_length_le
  rw [List.length_drop]
  unfold length at hsum
  omega

end EditLog

namespace TrackedToken

variable {tracked : TrackedToken}
variable {log : EditLog}
variable {head : Nat}

/-- A token is found in the newest generation by carrying it over all edits since its origin. -/
theorem locate_head
    (hhead : (log.head : Outcome LogError Nat) = .ok head)
    (hbase : log.base ≤ tracked.origin)
    (horigin : tracked.origin ≤ head) :
    tracked.locate log head =
      ((EditLog.carryAll .unmoved tracked.token.span
        (log.edits.drop (tracked.origin - log.base))).wrap .log >>= fun
        | (.invalidated, _) => Outcome.fail .invalidated
        | (_, span) => return span) := by
  unfold locate EditLog.carry
  rw [if_neg (by omega), EditLog.window_head hhead hbase horigin]
  rfl

/-- A token that was located lies in the window of the log. -/
theorem window_of_locate
    {generation : Nat}
    {span : Span}
    (h : tracked.locate log generation = .ok span) :
    log.base ≤ tracked.origin ∧ tracked.origin ≤ generation := by
  unfold locate EditLog.carry EditLog.window at h
  split at h
  next =>
    simp [Outcome.fail] at h
  next horigin =>
    obtain ⟨_, hcarry, -⟩ := Outcome.bind_eq_ok_iff.mp h
    rw [Outcome.wrap_eq_ok_iff] at hcarry
    obtain ⟨_, hwindow, -⟩ := Outcome.bind_eq_ok_iff.mp hcarry
    split at hwindow
    next =>
      simp [Outcome.fail] at hwindow
    next hbase =>
      omega

/-- A token that was measured in the newest generation lies where it was measured. -/
theorem locate_origin
    (hhead : (log.head : Outcome LogError Nat) = .ok tracked.origin) :
    tracked.locate log tracked.origin = .ok tracked.token.span := by
  obtain ⟨hsum, -⟩ := EditLog.head_eq_ok_iff.mp hhead
  have hnone : log.edits.drop (tracked.origin - log.base) = [] := by
    apply List.drop_of_length_le
    unfold EditLog.length at hsum
    omega
  rw [locate_head hhead (by omega) (Nat.le_refl _), hnone]
  rfl

/-- One more edit carries a located token on, if it leaves the token alive. -/
theorem locate_push
    {edit : Edit}
    {fate : Fate}
    {span next : Span}
    (hhead : (log.head : Outcome LogError Nat) = .ok head)
    (hbound : head + 1 < positionBound)
    (hlocate : tracked.locate log head = .ok span)
    (halive : fate ≠ .invalidated)
    (hcarry : (edit.carry span : Outcome LogError _) = .ok (fate, next)) :
    tracked.locate (log.push edit) (head + 1) = .ok next := by
  obtain ⟨hbase, horigin⟩ := window_of_locate hlocate
  obtain ⟨hsum, -⟩ := EditLog.head_eq_ok_iff.mp hhead
  have hdrop : (log.push edit).edits.drop (tracked.origin - log.base) =
      log.edits.drop (tracked.origin - log.base) ++ [edit] := by
    apply List.drop_append_of_le_length
    unfold EditLog.length at hsum
    omega
  rw [locate_head hhead hbase horigin] at hlocate
  obtain ⟨⟨reached, middle⟩, hreached, hmiddle⟩ := Outcome.bind_eq_ok_iff.mp hlocate
  rw [Outcome.wrap_eq_ok_iff] at hreached
  have hmiddle : reached ≠ .invalidated ∧ middle = span := by
    cases reached <;> simp_all [Outcome.fail]
  obtain ⟨hreachedAlive, rfl⟩ := hmiddle
  rw [locate_head (EditLog.head_push hhead hbound) hbase (by omega), EditLog.base_push, hdrop,
    EditLog.carryAll_append_eq (by simp), hreached, Outcome.ok_bind]
  dsimp only
  have hboth : reached.andThen fate ≠ .invalidated := by
    simp [hreachedAlive, halive]
  rw [if_neg hreachedAlive, EditLog.carryAll_cons_of_alive hreachedAlive hcarry halive,
    EditLog.carryAll]
  cases hfate : reached.andThen fate with
  | unmoved | moved =>
      rfl
  | invalidated =>
      exact absurd hfate hboth

end TrackedToken

end LiveTokens
