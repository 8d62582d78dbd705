import LiveTokens.Proofs.Announcements

/-!
# Waiting for the next result

Whoever waits for the successor of a result is woken by the next announcement,
whatever it is of.  But then only versions of the document are compared.  The
successor is handed out exactly if the newest result is of another version than
the one that was waited on.

A rescan publishes a result of the present document, so that its waiters are
woken and find nothing.
-/

namespace LiveTokens

namespace Slot

variable {α : Type}
variable [Versioned α]
variable {slot : Slot α}
variable {awaited : Version}
variable {waker : Nat}

theorem poll_eq_some_iff
    {object : α} :
    (slot.poll awaited waker).1 = some object ↔
      slot.current = object ∧ Versioned.version slot.current ≠ awaited := by
  unfold poll
  split
  next hversion =>
    exact ⟨nofun, fun h => absurd hversion h.2⟩
  next hversion =>
    exact ⟨fun h => ⟨Option.some.inj h, hversion⟩, fun h => congrArg some h.1⟩

theorem poll_eq_none_iff :
    (slot.poll awaited waker).1 = none ↔
      Versioned.version slot.current = awaited := by
  unfold poll
  split
  next hversion =>
    exact ⟨fun _ => hversion, fun _ => rfl⟩
  next hversion =>
    exact ⟨nofun, fun h => absurd h hversion⟩

/-- Waiting wakes nobody and keeps everybody who waits. -/
theorem waiters_poll
    (slot : Slot α)
    (awaited : Version)
    (waker : Nat) :
    (slot.poll awaited waker).2.waiters.woken = slot.waiters.woken ∧
    ∀ waiting ∈ slot.waiters.enrolled,
      waiting ∈ (slot.poll awaited waker).2.waiters.enrolled := by
  unfold poll
  split
  · refine ⟨?_, fun waiting hwaiting => Waiters.mem_enrolled_enrol.mpr (.inl hwaiting)⟩
    unfold Waiters.enrol
    split
    · rfl
    · rfl
  · exact ⟨rfl, fun waiting hwaiting => hwaiting⟩

end Slot

namespace Tokenizer

variable {start tokenizer : Tokenizer}
variable {announcements : List Announcement}

/-- Whoever has waited at the start goes on waiting until the first announcement, and has been woken
from then on. -/
theorem waits_or_woken_of_transcript
    (h : Transcript start announcements tokenizer)
    {waiting : Nat}
    (hwaiting : waiting ∈ start.publications.waiters.enrolled) :
    announcements = [] ∧ waiting ∈ tokenizer.publications.waiters.enrolled ∨
      waiting ∈ tokenizer.publications.waiters.woken := by
  induction h with
  | started =>
      exact .inl ⟨rfl, hwaiting⟩
  | announced htranscript hpublishes hreturns ih =>
      right
      rw [(announces_perform hpublishes hreturns).publications_eq]
      rcases ih with ⟨-, hwaits⟩ | hwoken
      · exact List.mem_append_right _ hwaits
      · exact List.mem_append_left _ hwoken
  | passed htranscript hsilent ih =>
      rw [(silent_perform hsilent).publications_eq]
      exact ih
  | subscribed htranscript observer ih =>
      exact ih
  | @awaited announcements tokenizer htranscript version waker ih =>
      obtain ⟨hwoken, hwaits⟩ := tokenizer.publications.waiters_poll version waker
      dsimp only
      rw [hwoken]
      exact ih.imp_left (And.imp_right (hwaits waiting))
  | watched htranscript ticket waker ih =>
      exact ih
  | outnumbered htranscript count ih =>
      exact ih

/-- Each announcement reaches those who wait for it, but the newest result is handed out exactly if
it is of another version of the document than the result that was waited on. -/
theorem handed_out_iff
    (h : Transcript start announcements tokenizer)
    (waker : Nat) :
    (announcements = [] →
      (tokenizer.publications.poll (Versioned.version start.publications.current) waker).1 =
        none) ∧
    ∀ newest older, announcements = newest :: older →
      (∀ waiting ∈ start.publications.waiters.enrolled,
        waiting ∈ tokenizer.publications.waiters.woken) ∧
      tokenizer.publications.current = newest.publication ∧
      ((tokenizer.publications.poll (Versioned.version start.publications.current) waker).1 =
          some newest.publication ↔
        newest.document.version ≠ start.publications.current.document.version) := by
  have hrecorded := recorded_of_transcript h
  refine ⟨?_, ?_⟩
  · rintro rfl
    exact Slot.poll_eq_none_iff.mpr (congrArg Versioned.version hrecorded.current_eq)
  · rintro newest older rfl
    have hcurrent : tokenizer.publications.current = newest.publication := hrecorded.current_eq
    have hdocument : newest.publication.document = newest.document :=
      hrecorded.documents newest List.mem_cons_self
    refine ⟨fun waiting hwaiting => ?_, hcurrent, ?_⟩
    · rcases waits_or_woken_of_transcript h hwaiting with ⟨hnone, -⟩ | hwoken
      · cases hnone
      · exact hwoken
    · rw [Slot.poll_eq_some_iff, hcurrent, ← hdocument]
      exact and_iff_right rfl

/-- A waiter for the successor of the first result is woken by a change, and handed its result. -/
theorem handed_out_of_appending :
    ∃ created start changed,
      create stubborn {} ⟨['a'], ⟨0, 0⟩⟩ 0 = .ok created ∧
      start = { created with publications := (created.publications.poll ⟨0, 0⟩ 3).2 } ∧
      changed = (start.perform appending).2 ∧
      3 ∈ changed.publications.waiters.woken ∧
      (changed.publications.poll ⟨0, 0⟩ 3).1 = some changed.publications.current := by
  obtain ⟨created, start, hcreate, hstart, hversion, hwaits, hreturns⟩ : ∃ created start,
      create stubborn {} ⟨['a'], ⟨0, 0⟩⟩ 0 = .ok created ∧
      start = { created with publications := (created.publications.poll ⟨0, 0⟩ 3).2 } ∧
      start.publications.current.document.version = ⟨0, 0⟩ ∧
      3 ∈ start.publications.waiters.enrolled ∧
      (start.perform appending).1.Returns :=
    ⟨_, _, rfl, rfl, rfl, by decide +kernel, by decide +kernel⟩
  have hpublishes : appending.Publishes := List.cons_ne_nil _ _
  have htranscript := Transcript.started.announced hpublishes hreturns
  obtain ⟨hwoken, hcurrent, hhanded⟩ := (handed_out_iff htranscript 3).2 _ _ rfl
  refine ⟨created, start, _, hcreate, hstart, rfl, hwoken 3 hwaits, ?_⟩
  rw [hcurrent, ← hversion]
  refine hhanded.mpr ?_
  rw [hversion]
  exact nofun

/-- A rescan publishes another result, with tokens of its own, and whoever waits for it waits on. -/
theorem not_handed_out_of_rescan :
    ∃ start,
      create stubborn {} ⟨['a'], ⟨0, 0⟩⟩ 0 = .ok start ∧
      (start.perform .rescan).1 = .ok () ∧
      (start.perform .rescan).2.publications.writes = start.publications.writes + 1 ∧
      (start.perform .rescan).2.publications.current.store ≠ start.publications.current.store ∧
      ∀ waker,
        ((start.perform .rescan).2.publications.poll
          (Versioned.version start.publications.current) waker).1 = none :=
  ⟨_, rfl, by decide +kernel, by decide +kernel, by decide +kernel,
    fun _ => Slot.poll_eq_none_iff.mpr rfl⟩

end Tokenizer

end LiveTokens
