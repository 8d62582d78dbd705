import LiveTokens.Proofs.Coverage

/-!
# Updates that leave nothing half-done

An incremental update works on a copy of the store.  If it is abandoned, the
tokenizer goes on with the store it had, of which the rebuild keeps nothing: its
tokens are those of a full lexing, under numbers that no token has had before, or
there are none.  A change that is refused leaves everything as it was.

A tokenizer is *attainable* if it comes about in any way: by calls with whatever
arguments and whatever answers, while others wait for it, listen to it, or use up
numbers for tokens of their own.
-/

namespace LiveTokens

namespace Tokenizer

open TokenStore

variable {tokenizer : Tokenizer}
variable {before after document : Document}
variable {replacements : List Replacement}
variable {ticket : Ticket}
variable {error : UpdateError}
variable {progress : Progress}

section Attainable

/-- The tokenizers that come about. -/
inductive Attainable : Tokenizer → Prop
  | created
      {lexer : Lexer}
      {settings : Settings}
      {document : Document}
      {nextId : Nat}
      {tokenizer : Tokenizer}
      (hcreate : create lexer settings document nextId = .ok tokenizer) :
      Attainable tokenizer
  | performed
      {tokenizer : Tokenizer}
      (hattainable : Attainable tokenizer)
      (call : Call) :
      Attainable (tokenizer.perform call).2
  | subscribed
      {tokenizer : Tokenizer}
      (hattainable : Attainable tokenizer)
      (observer : Nat) :
      Attainable (tokenizer.subscribe observer)
  | awaited
      {tokenizer : Tokenizer}
      (hattainable : Attainable tokenizer)
      (version : Version)
      (waker : Nat) :
      Attainable
        { tokenizer with publications := (tokenizer.publications.poll version waker).2 }
  | watched
      {tokenizer : Tokenizer}
      (hattainable : Attainable tokenizer)
      (ticket : Ticket)
      (waker : Nat) :
      Attainable
        { tokenizer with cancellation := (tokenizer.cancellation.poll ticket waker).2 }
  | outnumbered
      {tokenizer : Tokenizer}
      (hattainable : Attainable tokenizer)
      (count : Nat) :
      Attainable { tokenizer with nextId := tokenizer.nextId + count }

/-- The store has distinct numbers, and the tokenizer gives none of them again. -/
def Numbered
    (tokenizer : Tokenizer) : Prop :=
  tokenizer.store.Numbered tokenizer.nextId

theorem numbered_rebuild
    (h : tokenizer.Numbered) :
    (tokenizer.rebuild document ticket).2.Numbered := by
  rcases htokens : lexAll tokenizer.lexer document with (_ | error) | tokens
  · rw [rebuild_of_lexAll_overflow htokens]
    exact h
  · rw [rebuild_of_lexAll_error htokens]
    exact numbered_empty
  · rw [rebuild_of_lexAll htokens]
    exact numbered_fresh

theorem numbered_followChange
    (h : tokenizer.Numbered) :
    (tokenizer.followChange before after replacements).2.Numbered := by
  by_cases hsome : replacements = []
  · subst hsome
    by_cases htext : before.text = after.text
    · rw [followChange_of_nil htext]
      have hids : (tokenizer.follow after).store.ids = tokenizer.store.ids := ids_follow
      unfold Numbered
      rw [toProgress_follow]
      exact TokenStore.Numbered.sublist h (hids ▸ List.Sublist.refl _)
    · rw [followChange_of_nil_ne htext]
      exact h
  · rcases hattempt : (tokenizer.supersede.2.incremental before after replacements).outcome
      tokenizer.toProgress with ⟨(_ | error) | ⟨store, updated⟩, progress⟩
    · rw [followChange_of_overflow hsome hattempt]
      exact TokenStore.Numbered.mono h (nextId_le_of_incremental hattempt)
    · rw [followChange_of_cause hsome hattempt]
      have hle : tokenizer.nextId ≤ progress.nextId := nextId_le_of_incremental hattempt
      exact numbered_rebuild (TokenStore.Numbered.mono h hle)
    · rw [followChange_of_ok hsome hattempt]
      have hsuperseded : tokenizer.supersede.2.store.Numbered tokenizer.nextId := h
      exact numbered_incremental hsuperseded hattempt

/-- No tokenizer that comes about has two tokens of one number, or will have. -/
theorem Attainable.numbered
    (h : Attainable tokenizer) :
    tokenizer.Numbered := by
  induction h with
  | created hcreate =>
      obtain ⟨tokens, -, rfl⟩ := create_eq_ok_iff.mp hcreate
      exact numbered_fresh
  | performed hattainable call ih =>
      cases call with
      | change before after replacements =>
          exact numbered_followChange ih
      | rescan =>
          exact numbered_rebuild ih
  | subscribed hattainable observer ih =>
      exact ih
  | awaited hattainable version waker ih =>
      exact ih
  | watched hattainable ticket waker ih =>
      exact ih
  | outnumbered hattainable count ih =>
      exact TokenStore.Numbered.mono ih (Nat.le_add_right _ count)

end Attainable

section Rebuilt

/-- The tokenizer has followed to a document as a rebuild does: it has the tokens of a full lexing
and has published all of them, or it has reported why there are none. -/
structure Rebuilt
    (lexer : Lexer)
    (document : Document)
    (result : Outcome FollowError Unit × Tokenizer) : Prop where
  document_eq : result.2.document = document
  phase_eq : result.2.phase = .idle
  tokens_eq :
    (∃ tokens,
      result.1 = .ok () ∧
      lexer.lex document.text = .ok tokens ∧
      result.2.store.toList = .ok tokens ∧
      (result.2.store.version : Outcome StoreError Nat) = .ok document.generation ∧
      result.2.publications.current = ⟨document, result.2.store, tokens⟩) ∨
    ∃ error,
      result.1 = Outcome.fail (.rebuild error) ∧
      lexAll lexer document = Outcome.fail error ∧
      result.2.store = .empty document.generation ∧
      result.2.publications.current = ⟨document, result.2.store, []⟩

theorem rebuilt_rebuild
    (hlexer : tokenizer.lexer.LexesBelow document.text positionBound)
    (hbound : document.generation < positionBound) :
    Rebuilt tokenizer.lexer document (tokenizer.rebuild document ticket) := by
  rcases htokens : lexAll tokenizer.lexer document with (_ | error) | tokens
  · exact absurd htokens (returns_lexAll hlexer)
  · rw [rebuild_of_lexAll_error htokens]
    exact ⟨rfl, rfl, .inr ⟨error, rfl, htokens, rfl, rfl⟩⟩
  · obtain ⟨hlex, htiles⟩ := lexAll_eq_ok_iff.mp htokens
    have hlayout : Layout (fresh document.generation tokenizer.nextId tokens) document.generation
        ((TrackedToken.number document.generation tokenizer.nextId tokens).map
          TrackedToken.entry) :=
      layout_fresh hbound htiles.ordered fun token htoken => (htiles.bounds_of_mem htoken).2.2.2
    rw [rebuild_of_lexAll htokens]
    refine ⟨rfl, rfl, .inl ⟨tokens, rfl, hlex, ?_, hlayout.version_eq, rfl⟩⟩
    exact hlayout.toList_eq.trans (congrArg Except.ok map_placed_number)

/-- A rebuild gives numbers that are free. -/
theorem le_of_mem_ids_rebuild
    {id : Nat}
    (hlexer : tokenizer.lexer.LexesBelow document.text positionBound)
    (hid : id ∈ (tokenizer.rebuild document ticket).2.store.ids) :
    tokenizer.nextId ≤ id := by
  rcases htokens : lexAll tokenizer.lexer document with (_ | error) | tokens
  · exact absurd htokens (returns_lexAll hlexer)
  · rw [rebuild_of_lexAll_error htokens] at hid
    exact absurd hid List.not_mem_nil
  · rw [rebuild_of_lexAll htokens] at hid
    have hfresh : id ∈ (fresh document.generation tokenizer.nextId tokens).ids := hid
    rw [ids_fresh, List.mem_range'_1] at hfresh
    exact hfresh.1

theorem rebuild_ne_emptyChange :
    (tokenizer.rebuild document ticket).1 ≠ Outcome.fail .emptyChange := by
  rcases htokens : lexAll tokenizer.lexer document with (_ | error) | tokens
  · rw [rebuild_of_lexAll_overflow htokens]
    exact nofun
  · rw [rebuild_of_lexAll_error htokens]
    exact nofun
  · rw [rebuild_of_lexAll htokens]
    exact nofun

/-- Only a change without replacements is refused. -/
theorem followChange_eq_self_of_emptyChange
    (h : (tokenizer.followChange before after replacements).1 = Outcome.fail .emptyChange) :
    (tokenizer.followChange before after replacements).2 = tokenizer := by
  by_cases hsome : replacements = []
  · subst hsome
    by_cases htext : before.text = after.text
    · rw [followChange_of_nil htext] at h
      cases h
    · rw [followChange_of_nil_ne htext]
  · rcases hattempt : (tokenizer.supersede.2.incremental before after replacements).outcome
      tokenizer.toProgress with ⟨(_ | error) | ⟨store, updated⟩, progress⟩
    · rw [followChange_of_overflow hsome hattempt] at h
      cases h
    · rw [followChange_of_cause hsome hattempt] at h
      exact absurd h rebuild_ne_emptyChange
    · rw [followChange_of_ok hsome hattempt] at h
      cases h

/-- An update that is abandoned at whatever stage ends as a rebuild does, and a change that is
refused has no effect at all. -/
theorem atomic_of_attainable
    (h : Attainable tokenizer)
    (hverify : tokenizer.settings.verifyIncremental = false) :
    (∀ before after replacements error progress,
      replacements ≠ [] →
      after.generation < positionBound →
      tokenizer.lexer.LexesBelow after.text positionBound →
      tokenizer.Abandons before after replacements error progress →
      tokenizer.FallsBack before after replacements ∧
      Rebuilt tokenizer.lexer after (tokenizer.followChange before after replacements) ∧
      ∀ id ∈ tokenizer.store.ids,
        id ∉ (tokenizer.followChange before after replacements).2.store.ids) ∧
    ∀ before after replacements,
      (tokenizer.followChange before after replacements).1 = Outcome.fail .emptyChange →
      (tokenizer.followChange before after replacements).2 = tokenizer := by
  refine ⟨?_, fun _ _ _ => followChange_eq_self_of_emptyChange⟩
  intro before after replacements error progress hsome hbound hlexer habandons
  have hfollow : tokenizer.followChange before after replacements =
      (tokenizer.supersede.2.abandoned error progress).rebuild after tokenizer.supersede.1 :=
    followChange_of_cause hsome habandons
  have hlexer' : (tokenizer.supersede.2.abandoned error progress).lexer.LexesBelow after.text
      positionBound := hlexer
  refine ⟨fallsBack_of_abandons hsome hverify habandons, ?_, ?_⟩
  · rw [hfollow]
    exact rebuilt_rebuild hlexer' hbound
  · intro id hold hnew
    rw [hfollow] at hnew
    have hfree : progress.nextId ≤ id := le_of_mem_ids_rebuild hlexer' hnew
    have hused := h.numbered.used id hold
    have hle := (habandons.numbering hverify).1
    omega

theorem atomic_of_stubborn_growth :
    ∃ tokenizer error progress,
      create stubborn {} growth.before 0 = .ok tokenizer ∧
      tokenizer.Abandons growth.before growth.after growth.change.replacements error progress ∧
      Rebuilt stubborn growth.after
        (tokenizer.followChange growth.before growth.after growth.change.replacements) := by
  obtain ⟨tokenizer, hcreate, hlexer, hsettings, hanswer⟩ : ∃ tokenizer,
      create stubborn {} growth.before 0 = .ok tokenizer ∧
      tokenizer.lexer = stubborn ∧
      tokenizer.settings.verifyIncremental = false ∧
      ((tokenizer.incremental growth.before growth.after growth.change.replacements).outcome
        tokenizer.toProgress).1 = Outcome.fail (.divergence 2 1) :=
    ⟨_, rfl, rfl, rfl, by decide +kernel⟩
  have habandons : tokenizer.Abandons growth.before growth.after growth.change.replacements
      (.divergence 2 1) _ := Prod.ext hanswer rfl
  have hbelow : tokenizer.lexer.LexesBelow growth.after.text positionBound :=
    hlexer ▸ fits_stubborn.lexesBelow (by decide)
  obtain ⟨-, hrebuilt, -⟩ := (atomic_of_attainable (.created hcreate) hsettings).1 _ _ _ _ _
    (by decide) (by decide) hbelow habandons
  exact ⟨tokenizer, _, _, hcreate, habandons, hlexer ▸ hrebuilt⟩

end Rebuilt

end Tokenizer

end LiveTokens
