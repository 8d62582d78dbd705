import LiveTokens.Proofs.Order

/-!
# One announcement for each update

A change with replacements and a rescan publish exactly one result, however they
end, and tell every observer of it, in the order in which they have subscribed.
A change without replacements announces nothing, whether it is accepted or not.

Each of these updates cancels the tickets of all updates before it.  Of the
tickets that observers have been handed, those of the newest announcement are
alive, and all others are cancelled.
-/

namespace LiveTokens

namespace Tokenizer

variable {start tokenizer tokenizer' : Tokenizer}
variable {document : Document}
variable {ticket : Ticket}
variable {call : Call}

namespace Call

/-- The call is an update: it is not a change without replacements. -/
def Publishes : Call → Prop
  | .change _ _ replacements => replacements ≠ []
  | .rescan => True

/-- The document that a call leads to. -/
def target
    (tokenizer : Tokenizer) : Call → Document
  | .change _ after _ => after
  | .rescan => tokenizer.document

theorem publishes_rescan :
    Publishes .rescan :=
  trivial

end Call

/-- A result, the document that it was published for, and who was told of it with which ticket. -/
structure Announcement where
  document : Document
  observers : List Nat
  publication : Publication
  ticket : Ticket

/-- What the observers are told, one after the other, while the ticket is alive. -/
def Announcement.deliveries
    (announcement : Announcement) : List Delivery :=
  announcement.observers.map fun observer =>
    ⟨observer, announcement.publication, announcement.ticket, false⟩

/-- What there is to announce of a call: the result that it leaves, to the present observers, with a
new ticket. -/
def announcement
    (tokenizer : Tokenizer)
    (call : Call) : Announcement where
  document := call.target tokenizer
  observers := tokenizer.observers
  publication := (tokenizer.perform call).2.publications.current
  ticket := tokenizer.cancellation.supersede.1

/-- Exactly this has been announced between two states of a tokenizer. -/
structure Announces
    (tokenizer tokenizer' : Tokenizer)
    (announcement : Announcement) : Prop where
  publications_eq :
    tokenizer'.publications = tokenizer.publications.publish announcement.publication
  deliveries_eq : tokenizer'.deliveries = tokenizer.deliveries ++ announcement.deliveries
  observers_eq : tokenizer'.observers = tokenizer.observers
  cancellation_eq : tokenizer'.cancellation = tokenizer.cancellation.supersede.2
  document_eq : tokenizer'.document = announcement.document
  publication_document : announcement.publication.document = tokenizer'.document
  publication_store : announcement.publication.store = tokenizer'.store

/-- Nothing has been announced between two states of a tokenizer, and no ticket has been
cancelled. -/
structure Silent
    (tokenizer tokenizer' : Tokenizer) : Prop where
  publications_eq : tokenizer'.publications = tokenizer.publications
  deliveries_eq : tokenizer'.deliveries = tokenizer.deliveries
  observers_eq : tokenizer'.observers = tokenizer.observers
  cancellation_eq : tokenizer'.cancellation = tokenizer.cancellation

section Step

/-- A rebuild that returns publishes a store with a new log. -/
theorem exists_rebuild_eq
    (hreturns : (tokenizer.rebuild document ticket).1.Returns) :
    ∃ store progress updated,
      (tokenizer.rebuild document ticket).2 =
        (tokenizer.adopt document store progress).publish updated ticket ∧
      store.log = EditLog.startingAt document.generation := by
  rcases htokens : lexAll tokenizer.lexer document with (_ | error) | tokens
  · rw [rebuild_of_lexAll_overflow htokens] at hreturns
    exact absurd rfl hreturns
  · rw [rebuild_of_lexAll_error htokens]
    exact ⟨_, _, _, rfl, rfl⟩
  · rw [rebuild_of_lexAll htokens]
    exact ⟨_, _, _, rfl, rfl⟩

/-- However an update ends, it has taken over its document and published once.  Its store is that of
an incremental update, or has a new log. -/
theorem exists_perform_eq
    (hpublishes : call.Publishes)
    (hreturns : (tokenizer.perform call).1.Returns) :
    ∃ store progress updated,
      (tokenizer.perform call).2 =
        (tokenizer.supersede.2.adopt (call.target tokenizer) store progress).publish updated
          tokenizer.supersede.1 ∧
      (store.log = EditLog.startingAt (call.target tokenizer).generation ∨
        ∃ before replacements,
          (tokenizer.incremental before (call.target tokenizer) replacements).outcome
            tokenizer.toProgress = (.ok (store, updated), progress)) := by
  cases call with
  | rescan =>
      obtain ⟨store, progress, updated, hrebuild, hlog⟩ := exists_rebuild_eq hreturns
      exact ⟨store, progress, updated, hrebuild, .inl hlog⟩
  | change before after replacements =>
      have hsome : replacements ≠ [] := hpublishes
      rw [perform] at hreturns ⊢
      rcases hattempt : (tokenizer.supersede.2.incremental before after replacements).outcome
        tokenizer.toProgress with ⟨(_ | error) | ⟨store, updated⟩, progress⟩
      · rw [followChange_of_overflow hsome hattempt] at hreturns
        exact absurd rfl hreturns
      · rw [followChange_of_cause hsome hattempt] at hreturns ⊢
        obtain ⟨store, progress', updated, hrebuild, hlog⟩ := exists_rebuild_eq hreturns
        exact ⟨store, progress', updated, hrebuild, .inl hlog⟩
      · rw [followChange_of_ok hsome hattempt]
        exact ⟨store, progress, updated, rfl, .inr ⟨before, replacements, hattempt⟩⟩

theorem announces_perform
    (hpublishes : call.Publishes)
    (hreturns : (tokenizer.perform call).1.Returns) :
    Announces tokenizer (tokenizer.perform call).2 (tokenizer.announcement call) := by
  obtain ⟨store, progress, updated, hperform, -⟩ := exists_perform_eq hpublishes hreturns
  have hannouncement : tokenizer.announcement call =
      ⟨call.target tokenizer, tokenizer.observers, ⟨call.target tokenizer, store, updated⟩,
        tokenizer.supersede.1⟩ := by
    rw [announcement, hperform]
    rfl
  have halive : tokenizer.supersede.2.cancellation.isCancelled tokenizer.supersede.1 = false :=
    bne_self_eq_false _
  rw [hannouncement, hperform]
  refine ⟨rfl, ?_, rfl, rfl, rfl, rfl, rfl⟩
  rw [publish, Announcement.deliveries, ← halive]
  rfl

theorem silent_perform
    (hsilent : ¬ call.Publishes) :
    Silent tokenizer (tokenizer.perform call).2 := by
  cases call with
  | rescan =>
      exact absurd Call.publishes_rescan hsilent
  | change before after replacements =>
      obtain rfl : replacements = [] := Decidable.not_not.mp hsilent
      rw [perform]
      by_cases htext : before.text = after.text
      · rw [followChange_of_nil htext]
        obtain ⟨store, hfollow⟩ := tokenizer.exists_follow_eq after
        rw [hfollow]
        exact ⟨rfl, rfl, rfl, rfl⟩
      · rw [followChange_of_nil_ne htext]
        exact ⟨rfl, rfl, rfl, rfl⟩

end Step

section Run

variable {announcements : List Announcement}

/-- A tokenizer after calls that have returned, and what was announced of them, the newest first.
In between, others have subscribed, have waited for results and updates, or have used up numbers. -/
inductive Transcript
    (start : Tokenizer) : List Announcement → Tokenizer → Prop
  | started :
      Transcript start [] start
  | announced
      {announcements : List Announcement}
      {tokenizer : Tokenizer}
      {call : Call}
      (htranscript : Transcript start announcements tokenizer)
      (hpublishes : call.Publishes)
      (hreturns : (tokenizer.perform call).1.Returns) :
      Transcript start (tokenizer.announcement call :: announcements) (tokenizer.perform call).2
  | passed
      {announcements : List Announcement}
      {tokenizer : Tokenizer}
      {call : Call}
      (htranscript : Transcript start announcements tokenizer)
      (hsilent : ¬ call.Publishes) :
      Transcript start announcements (tokenizer.perform call).2
  | subscribed
      {announcements : List Announcement}
      {tokenizer : Tokenizer}
      (htranscript : Transcript start announcements tokenizer)
      (observer : Nat) :
      Transcript start announcements (tokenizer.subscribe observer)
  | awaited
      {announcements : List Announcement}
      {tokenizer : Tokenizer}
      (htranscript : Transcript start announcements tokenizer)
      (version : Version)
      (waker : Nat) :
      Transcript start announcements
        { tokenizer with publications := (tokenizer.publications.poll version waker).2 }
  | watched
      {announcements : List Announcement}
      {tokenizer : Tokenizer}
      (htranscript : Transcript start announcements tokenizer)
      (ticket : Ticket)
      (waker : Nat) :
      Transcript start announcements
        { tokenizer with cancellation := (tokenizer.cancellation.poll ticket waker).2 }
  | outnumbered
      {announcements : List Announcement}
      {tokenizer : Tokenizer}
      (htranscript : Transcript start announcements tokenizer)
      (count : Nat) :
      Transcript start announcements { tokenizer with nextId := tokenizer.nextId + count }

/-- Waiting for an object changes nothing that others can see. -/
theorem current_poll
    {α : Type}
    [Versioned α]
    {slot : Slot α}
    {version : Version}
    {waker : Nat} :
    (slot.poll version waker).2.current = slot.current ∧
    (slot.poll version waker).2.writes = slot.writes := by
  unfold Slot.poll
  split
  · exact ⟨rfl, rfl⟩
  · exact ⟨rfl, rfl⟩

theorem generation_poll
    {cancellation : Cancellation}
    {waker : Nat} :
    (cancellation.poll ticket waker).2.generation = cancellation.generation := by
  unfold Cancellation.poll
  split
  · rfl
  · rfl

/-- The results, the deliveries and the tickets since the start are those of the announcements. -/
structure Recorded
    (start : Tokenizer)
    (announcements : List Announcement)
    (tokenizer : Tokenizer) : Prop where
  deliveries_eq : tokenizer.deliveries =
    start.deliveries ++ announcements.reverse.flatMap Announcement.deliveries
  writes_eq : tokenizer.publications.writes = start.publications.writes + announcements.length
  current_eq : tokenizer.publications.current =
    announcements.head?.elim start.publications.current Announcement.publication
  generation_eq : tokenizer.cancellation.generation =
    announcements.head?.elim start.cancellation.generation fun newest => newest.ticket.generation
  descending : announcements.Pairwise fun newer older =>
    older.ticket.generation < newer.ticket.generation
  bounded : ∀ announcement ∈ announcements,
    announcement.ticket.generation ≤ tokenizer.cancellation.generation
  documents : ∀ announcement ∈ announcements,
    announcement.publication.document = announcement.document

namespace Recorded

theorem started :
    Recorded start [] start where
  deliveries_eq := (List.append_nil _).symm
  writes_eq := rfl
  current_eq := rfl
  generation_eq := rfl
  descending := .nil
  bounded _ hmem := absurd hmem List.not_mem_nil
  documents _ hmem := absurd hmem List.not_mem_nil

/-- Each announcement has a newer ticket than all before it. -/
theorem announced
    {announcement : Announcement}
    (h : Recorded start announcements tokenizer)
    (hticket : announcement.ticket = tokenizer.cancellation.supersede.1)
    (hannounces : Announces tokenizer tokenizer' announcement) :
    Recorded start (announcement :: announcements) tokenizer' where
  deliveries_eq := by
    rw [hannounces.deliveries_eq, h.deliveries_eq, List.reverse_cons, List.flatMap_append,
      List.flatMap_singleton, List.append_assoc]
  writes_eq := by
    rw [hannounces.publications_eq, List.length_cons, ← Nat.add_assoc, ← h.writes_eq]
    rfl
  current_eq := by
    rw [hannounces.publications_eq]
    rfl
  generation_eq := by
    rw [hannounces.cancellation_eq, List.head?_cons, Option.elim_some, hticket]
    rfl
  descending := by
    refine List.pairwise_cons.mpr ⟨fun older holder => ?_, h.descending⟩
    rw [hticket]
    exact Nat.lt_succ_of_le (h.bounded older holder)
  bounded := by
    rw [hannounces.cancellation_eq]
    refine List.forall_mem_cons.mpr ⟨?_, fun older holder => ?_⟩
    · rw [hticket]
      exact Nat.le_refl _
    · exact Nat.le_succ_of_le (h.bounded older holder)
  documents :=
    List.forall_mem_cons.mpr
      ⟨hannounces.publication_document.trans hannounces.document_eq, h.documents⟩

/-- What is not announced leaves the record as it is. -/
theorem unchanged
    (h : Recorded start announcements tokenizer)
    (hdeliveries : tokenizer'.deliveries = tokenizer.deliveries)
    (hwrites : tokenizer'.publications.writes = tokenizer.publications.writes)
    (hcurrent : tokenizer'.publications.current = tokenizer.publications.current)
    (hgeneration : tokenizer'.cancellation.generation = tokenizer.cancellation.generation) :
    Recorded start announcements tokenizer' where
  deliveries_eq := hdeliveries.trans h.deliveries_eq
  writes_eq := hwrites.trans h.writes_eq
  current_eq := hcurrent.trans h.current_eq
  generation_eq := hgeneration.trans h.generation_eq
  descending := h.descending
  bounded := hgeneration ▸ h.bounded
  documents := h.documents

end Recorded

theorem recorded_of_transcript
    (h : Transcript start announcements tokenizer) :
    Recorded start announcements tokenizer := by
  induction h with
  | started =>
      exact .started
  | announced htranscript hpublishes hreturns ih =>
      exact ih.announced rfl (announces_perform hpublishes hreturns)
  | passed htranscript hsilent ih =>
      obtain ⟨hpublications, hdeliveries, -, hcancellation⟩ := silent_perform hsilent
      exact ih.unchanged hdeliveries (congrArg Slot.writes hpublications)
        (congrArg Slot.current hpublications) (congrArg Cancellation.generation hcancellation)
  | subscribed htranscript observer ih =>
      exact ih.unchanged rfl rfl rfl rfl
  | awaited htranscript version waker ih =>
      exact ih.unchanged rfl current_poll.2 current_poll.1 rfl
  | watched htranscript ticket waker ih =>
      exact ih.unchanged rfl rfl rfl generation_poll
  | outnumbered htranscript count ih =>
      exact ih.unchanged rfl rfl rfl rfl

/-- The change of the text `a` to `ab`, of which a stubborn lexer finds only the first byte. -/
def appending : Call :=
  .change ⟨['a'], ⟨0, 0⟩⟩ ⟨['a', 'b'], ⟨0, 1⟩⟩ [⟨⟨1, 0⟩, ['b']⟩]

end Run

end Tokenizer

end LiveTokens
