import LiveTokens.Proofs.Feeds

/-!
# Forgetting edits shows nowhere

When a store forgets its edits is a matter of the settings.  Two tokenizers that
differ in nothing else hold stores that look alike, or the very same store after
the whole document has been lexed: every stage of an update agrees on them, with
the same numbers used up, and so does the update as a whole.  By induction over
their calls, two such tokenizers cannot be told apart.
-/

namespace LiveTokens

open TokenStore

namespace TokenStore

variable {store store' : TokenStore}
variable {nextId version : Nat}
variable {span : Span}

/-- The stores are the same or look alike. -/
def Alike
    (nextId : Nat)
    (store store' : TokenStore) : Prop :=
  store = store' ∨ ∃ version, Workspace.Alike version ⟨store, nextId⟩ ⟨store', nextId⟩

theorem Alike.ids_eq
    (h : Alike nextId store store') :
    store.ids = store'.ids := by
  obtain rfl | ⟨version, -, view, view', hview, hview', hfaces⟩ := h
  · rfl
  · rw [hview.layout.ids_eq, hview'.layout.ids_eq, hfaces]

theorem Alike.version_eq
    (h : Alike nextId store store') :
    (store.version : Outcome StoreError Nat) = store'.version := by
  obtain rfl | ⟨version, -, view, view', hview, hview', -⟩ := h
  · rfl
  · rw [hview.layout.version_eq, hview'.layout.version_eq]

theorem Alike.toList_eq
    (h : Alike nextId store store') :
    store.toList = store'.toList := by
  obtain rfl | ⟨version, -, view, view', hview, hview', hfaces⟩ := h
  · rfl
  · rw [hview.layout.toList_eq, hview'.layout.toList_eq, map_placed_of_map_face hfaces]

theorem Alike.inRange_eq
    (h : Alike nextId store store')
    (span : Span)
    (hversion : (store.version : Outcome StoreError Nat) = .ok version) :
    store.inRange version span = store'.inRange version span := by
  obtain rfl | ⟨current, -, view, view', hview, hview', hfaces⟩ := h
  · rfl
  · obtain rfl : current = version := by
      rw [hview.layout.version_eq] at hversion
      exact Except.ok.inj hversion
    exact inRange_eq_of_map_face hview.layout hview'.layout hfaces span

end TokenStore

namespace Attempt

variable {α β : Type}
variable {progress : Progress}
variable {version : Nat}

/-- Two attempts have made the same progress, and have failed for the same reason or succeeded with
values that are related. -/
abbrev Agree
    (related : Nat → α → β → Prop) :
    Outcome UpdateError α × Progress → Outcome UpdateError β × Progress → Prop :=
  Work.Agree
    (fun value progress value' progress' =>
      progress = progress' ∧ related progress.nextId value value')
    Eq

/-- Revisions that agree make attempts that agree. -/
theorem agree_revise
    {related : α → α → Prop}
    {store store' : TokenStore}
    {revision revision' : Revision α}
    {firstId : Nat}
    (h : Revision.Agree version related (revision.outcome ⟨store, firstId⟩)
      (revision'.outcome ⟨store', firstId⟩))
    (hfirst : progress.nextId = firstId) :
    Agree
      (fun nextId result result' =>
        related result.1 result'.1 ∧
        Workspace.Alike version ⟨result.2, nextId⟩ ⟨result'.2, nextId⟩)
      ((revise store revision).outcome progress) ((revise store' revision').outcome progress) := by
  rw [outcome_revise, outcome_revise, hfirst]
  revert h
  rcases revision.outcome ⟨store, firstId⟩ with ⟨failure | value, left, nextId⟩ <;>
    rcases revision'.outcome ⟨store', firstId⟩ with ⟨failure' | value', left', nextId'⟩ <;>
    intro h
  · obtain ⟨rfl, hnextId⟩ := h
    obtain rfl : nextId = nextId' := hnextId
    exact ⟨rfl, rfl⟩
  · exact h.elim
  · exact h.elim
  · obtain ⟨hrelated, halike⟩ := h
    obtain rfl : nextId = nextId' := halike.nextId_eq
    exact ⟨rfl, hrelated, halike⟩

end Attempt

namespace Tokenizer

variable {first second : Tokenizer}
variable {before after document : Document}
variable {replacements : List Replacement}
variable {progress : Progress}
variable {ticket : Ticket}
variable {version : Nat}

section Incremental

variable {lexer : Lexer}
variable {workspace workspace' : Workspace}
variable {store store' : TokenStore}
variable {updated : List Token}

/-- Whether the edits are forgotten or not, the stores look alike. -/
theorem agree_compactBeyond
    (settings settings' : Settings)
    (h : workspace.Alike version workspace') :
    Outcome.Agree
      (fun store store' =>
        Workspace.Alike version ⟨store, workspace.nextId⟩ ⟨store', workspace'.nextId⟩)
      (compactBeyond settings workspace.store) (compactBeyond settings' workspace'.store) := by
  obtain ⟨hnextId, view, view', hview, hview', hfaces⟩ := h
  obtain ⟨store, compacted, hcompact, hcompacted, hkept⟩ := orderly_compactBeyond settings hview
  obtain ⟨store', compacted', hcompact', hcompacted', hkept'⟩ :=
    orderly_compactBeyond settings' hview'
  rw [hcompact, hcompact']
  exact ⟨hnextId, compacted, compacted', hcompacted, hcompacted', by rw [hkept, hkept', hfaces]⟩

/-- A verification asks for nothing but the tokens and where they lie. -/
theorem agree_verify
    (h : Workspace.Alike version ⟨store, progress.nextId⟩ ⟨store', progress.nextId⟩) :
    Attempt.Agree
      (fun nextId result result' => result.2 = result'.2 ∧ Alike nextId result.1 result'.1)
      ((verify lexer after store updated).outcome progress)
      ((verify lexer after store' updated).outcome progress) := by
  have halike : Alike progress.nextId store store' := .inr ⟨version, h⟩
  obtain ⟨-, view, view', hview, hview', -⟩ := h
  unfold verify
  rw [hview.layout.check_eq, hview'.layout.check_eq, ← halike.toList_eq]
  refine Work.agree_ofOutcome_bind (Outcome.agree_of_eq rfl) rfl fun _ _ _ => ?_
  refine Work.agree_ofOutcome_bind (Outcome.agree_of_eq rfl) rfl fun expected _ hexpected => ?_
  subst hexpected
  refine Work.agree_ofOutcome_bind (Outcome.agree_of_eq rfl) rfl fun tokens _ htokens => ?_
  subst htokens
  split
  · exact ⟨rfl, rfl, halike⟩
  · exact Work.agree_refl (fun result _ => ⟨rfl, rfl, .inl rfl⟩) (fun _ => rfl) _

/-- An update of stores that look alike agrees in all of its stages.  The number of tokens that the
excision takes out goes into the log, and only the last stage looks at the threshold. -/
theorem agree_incremental
    (hlexer : first.lexer = second.lexer)
    (hverify : first.settings.verifyIncremental = second.settings.verifyIncremental)
    (hdocument : first.document = second.document)
    (hstores : Workspace.Alike version ⟨first.store, progress.nextId⟩
      ⟨second.store, progress.nextId⟩)
    (hrange : first.store.InRange replacements) :
    Attempt.Agree
      (fun nextId result result' => result.2 = result'.2 ∧ Alike nextId result.1 result'.1)
      ((first.incremental before after replacements).outcome progress)
      ((second.incremental before after replacements).outcome progress) := by
  have hversions : (first.store.version : Outcome UpdateError Nat) = .ok version ∧
      (second.store.version : Outcome UpdateError Nat) = .ok version := by
    obtain ⟨-, view, view', hview, hview', -⟩ := hstores
    exact ⟨hview.layout.version_eq, hview'.layout.version_eq⟩
  unfold incremental
  rw [hversions.1, hversions.2, ← hdocument, ← hlexer, ← hverify]
  refine Work.agree_bind_of_ok (Work.outcome_ofOutcome _ _) (Work.outcome_ofOutcome _ _) ?_
  split
  next =>
    exact ⟨rfl, rfl⟩
  next hguard =>
    obtain rfl : before.generation = version := Decidable.not_not.mp (not_or.mp hguard).2
    rcases hjoin : Edit.join replacements with (_ | error) | edit
    · exact ⟨rfl, rfl⟩
    · exact ⟨rfl, rfl⟩
    refine Work.agree_bind_of_ok (Work.outcome_ofOutcome _ _) (Work.outcome_ofOutcome _ _) ?_
    refine Work.agree_bind_of_ok (Attempt.outcome_enter _) (Attempt.outcome_enter _) ?_
    refine (Attempt.agree_revise (Revision.agree_excise hstores hrange hjoin) ?_).bind ?_
    · rfl
    rintro ⟨excision, store⟩ progress ⟨excision', store'⟩ _ ⟨rfl, hexcision, hexcised⟩
    obtain ⟨hspan, hremoved, hfits⟩ := hexcision
    dsimp only at hspan hremoved hfits hexcised ⊢
    rw [← hspan, ← hremoved]
    refine Work.agree_bind_of_ok (Attempt.outcome_note _) (Attempt.outcome_note _) ?_
    refine Work.agree_bind_of_ok (Attempt.outcome_enter _) (Attempt.outcome_enter _) ?_
    refine Work.agree_ofOutcome_bind (Realignment.agree_merge_of_realign hexcised hfits) rfl ?_
    rintro realignment realignment' ⟨⟨htokens, hscanned, hsuperseded⟩, hmerge⟩
    rw [← htokens, ← hscanned, ← hsuperseded]
    refine Work.agree_bind_of_ok (Attempt.outcome_note _) (Attempt.outcome_note _) ?_
    refine Work.agree_bind_of_ok (Attempt.outcome_enter _) (Attempt.outcome_enter _) ?_
    refine (Attempt.agree_revise hmerge ?_).bind ?_
    · rfl
    rintro ⟨_, merged⟩ progress ⟨_, merged'⟩ _ ⟨rfl, -, hmerged⟩
    dsimp only at hmerged ⊢
    have hcompact := agree_compactBeyond first.settings second.settings hmerged
    refine Work.agree_ofOutcome_bind hcompact.wrap rfl fun store store' halike => ?_
    refine Work.agree_bind_of_ok (Attempt.outcome_note _) (Attempt.outcome_note _) ?_
    split
    · exact agree_verify halike
    · exact ⟨rfl, rfl, .inr ⟨_, halike⟩⟩

end Incremental

end Tokenizer

end LiveTokens
