import LiveTokens.Proofs.Numbering
import LiveTokens.Proofs.Order
import LiveTokens.Proofs.Patching
import LiveTokens.Proofs.Returning

/-!
# Coverage with any lexer

A tokenizer that is told of every change of its host, and whose lexer may return
whatever it likes, has tokens that cover the document after each call that
succeeds, and none after one that fails.  Between the calls its store is orderly,
and either covers the document or is empty.

An empty store over a text that is not empty has nothing to patch: an edit there
touches text that no token covers, so that the next change is a rebuild.
-/

namespace LiveTokens

namespace Tokenizer

open TokenStore

variable {lexer : Lexer}
variable {settings : Settings}
variable {tokenizer : Tokenizer}
variable {before after document : Document}
variable {replacements : List Replacement}
variable {ticket : Ticket}
variable {view : List (TrackedToken × Span)}

/-- The tokens follow one another from the start of the document to its end, and none is empty. -/
def Covers
    (tokenizer : Tokenizer) : Prop :=
  ∃ tokens,
    tokenizer.store.toList = .ok tokens ∧
    Tiles 0 tokens tokenizer.document.size

/-- A call has brought the tokenizer to a document: it has succeeded and the tokens cover it, or it
has reported why there is no lexing of it, and there are no tokens. -/
def Accounts
    (document : Document)
    (result : Outcome FollowError Unit × Tokenizer) : Prop :=
  result.2.document = document ∧
  (result.1 = .ok () ∧ result.2.Covers ∨
    ∃ error,
      result.1 = Outcome.fail (.rebuild error) ∧
      result.2.store = .empty document.generation)

/-- The store is orderly at the generation of the document, and covers it or has no tokens. -/
structure Steady
    (tokenizer : Tokenizer)
    (document : Document) : Prop where
  document_eq : tokenizer.document = document
  entries : ∃ view,
    Workspace.Orderly ⟨tokenizer.store, tokenizer.nextId⟩ document.generation view ∧
    (view = [] ∨ Tiles 0 (view.map placed) document.size)

namespace Steady

theorem consistent
    (h : tokenizer.Steady document)
    (hdocument : document.InRange) :
    tokenizer.Consistent document := by
  obtain ⟨heq, view, horderly, hview⟩ := h
  refine ⟨heq, view, horderly, fun entry hentry => ?_⟩
  rcases hview with rfl | htiles
  · exact absurd hentry List.not_mem_nil
  · exact Nat.lt_of_le_of_lt (htiles.bounds_of_entry hentry).2.1 hdocument.size

theorem of_tiles
    (hdocument : tokenizer.document = document)
    (h : Workspace.Orderly ⟨tokenizer.store, tokenizer.nextId⟩ document.generation view)
    (htiles : Tiles 0 (view.map placed) document.size) :
    tokenizer.Covers ∧ tokenizer.Steady document := by
  refine ⟨⟨_, h.layout.toList_eq, ?_⟩, hdocument, view, h, .inr htiles⟩
  rwa [hdocument]

end Steady

section Rebuild

theorem steady_fresh
    {tokens : List Token}
    {firstId : Nat}
    (hbound : document.generation < positionBound)
    (hdocument : tokenizer.document = document)
    (hstore : tokenizer.store = fresh document.generation firstId tokens)
    (hnextId : tokenizer.nextId = firstId + tokens.length)
    (htiles : Tiles 0 tokens document.size) :
    tokenizer.Covers ∧ tokenizer.Steady document := by
  have horderly := orderly_fresh firstId hbound htiles.ordered fun token htoken =>
    (htiles.bounds_of_mem htoken).2.2.2
  rw [← hstore, ← hnextId] at horderly
  refine Steady.of_tiles hdocument horderly ?_
  rwa [map_placed_number]

/-- A rebuild accounts for its document, if no token of the lexing ends beyond the last position. -/
theorem accounts_rebuild
    (hlexer : tokenizer.lexer.LexesBelow document.text positionBound)
    (hbound : document.generation < positionBound) :
    Accounts document (tokenizer.rebuild document ticket) ∧
    (tokenizer.rebuild document ticket).2.Steady document := by
  rcases htokens : lexAll tokenizer.lexer document with (_ | error) | tokens
  · exact absurd htokens (returns_lexAll hlexer)
  · rw [rebuild_of_lexAll_error htokens]
    exact ⟨⟨rfl, .inr ⟨error, rfl, rfl⟩⟩, rfl, [],
      ⟨layout_empty hbound, fun _ hid => absurd hid List.not_mem_nil⟩, .inl rfl⟩
  · rw [rebuild_of_lexAll htokens]
    have htiles := (lexAll_eq_ok_iff.mp htokens).2
    refine ⟨⟨rfl, .inl ⟨rfl, ?_⟩⟩, ?_⟩
    · exact (steady_fresh hbound rfl rfl rfl htiles).1
    · exact (steady_fresh hbound rfl rfl rfl htiles).2

theorem accounts_rescan
    (hlexer : tokenizer.lexer.LexesBelow tokenizer.document.text positionBound)
    (hbound : tokenizer.document.generation < positionBound) :
    Accounts tokenizer.document tokenizer.rescan ∧
    tokenizer.rescan.2.Steady tokenizer.document := by
  have hsuperseded : tokenizer.supersede.2.lexer.LexesBelow tokenizer.document.text
      positionBound := hlexer
  exact accounts_rebuild hsuperseded hbound

end Rebuild

section Change

theorem steady_follow
    (h : tokenizer.Steady before)
    (hturns : before.Turns after [])
    (hbound : after.generation < positionBound) :
    (tokenizer.follow after).Steady after := by
  obtain ⟨rfl, view, horderly, hview⟩ := h
  have hfollowed := orderly_follow_of_turns horderly rfl hturns hbound
  have hsize : after.size = tokenizer.document.size := by
    rw [Document.size, Document.size, hturns.text_eq]
  exact ⟨document_follow, view, hfollowed, hsize ▸ hview⟩

/-- An excision from an empty store only succeeds over an empty text. -/
theorem text_eq_nil_of_stages
    {firstId : Nat}
    (stages : Stages tokenizer before after replacements firstId)
    (h : Workspace.Orderly ⟨tokenizer.store, firstId⟩ before.generation []) :
    before.text = [] := by
  have hlayout : Layout tokenizer.store before.generation ([] ++ [] ++ []) := h.layout
  have hdivided : Divided stages.edit.region [] [] [] := ⟨nofun, nofun, nofun⟩
  have hexcise := stages.excise
  rw [Excision.outcome_excise hlayout (Edit.plausible_of_join stages.join).1 hdivided,
    Prod.mk.injEq] at hexcise
  obtain ⟨-, -, hextent, -⟩ := Excision.settle_eq_ok_iff.mp hexcise.1
  simp only [Excision.extent, List.map_nil, List.head?_nil] at hextent
  split at hextent
  next hempty =>
    exact hempty
  next =>
    cases hextent

/-- An update of a steady tokenizer that succeeds leaves tokens that cover the next generation. -/
theorem covers_of_incremental
    {store : TokenStore}
    {updated : List Token}
    {progress : Progress}
    (hverify : tokenizer.settings.verifyIncremental = false)
    (h : tokenizer.Steady before)
    (hturns : before.Turns after replacements)
    (hafter : after.size < positionBound)
    (hok : (tokenizer.incremental before after replacements).outcome tokenizer.toProgress =
      (.ok (store, updated), progress)) :
    ∃ view,
      Workspace.Orderly ⟨store, progress.nextId⟩ after.generation view ∧
      Tiles 0 (view.map placed) after.size := by
  obtain ⟨-, view, horderly, hview⟩ := h
  obtain ⟨stages⟩ := exists_stages hok
  have htiles : Tiles 0 (view.map placed) before.size := by
    rcases hview with rfl | htiles
    · rw [Document.size, text_eq_nil_of_stages stages horderly]
      rfl
    · exact htiles
  obtain ⟨-, -, -, -, view', -, -, horderly', -, htiles'⟩ :=
    exists_patched stages horderly htiles hturns hafter
  rw [outcome_incremental stages, conclude, if_neg (by simp [hverify])] at hok
  cases hok
  exact ⟨view', horderly', htiles'⟩

/-- Without tokens over a text, an update is abandoned. -/
theorem exists_abandoned_of_empty
    (hlexer : tokenizer.lexer.Fits)
    (h : tokenizer.Steady before)
    (hturns : before.Turns after replacements)
    (hsome : replacements ≠ [])
    (hbefore : before.InRange)
    (hafter : after.InRange)
    (hempty : tokenizer.store.tokens = [])
    (htext : before.text ≠ []) :
    ∃ error progress, tokenizer.Abandons before after replacements error progress := by
  have hreturns := returns_incremental hlexer (h.consistent hbefore) hturns hsome hbefore hafter
  rcases hattempt : (tokenizer.incremental before after replacements).outcome
    tokenizer.toProgress with ⟨(_ | error) | result, progress⟩
  · rw [hattempt] at hreturns
    exact absurd rfl hreturns
  · exact ⟨error, progress, hattempt⟩
  · obtain ⟨stages⟩ := exists_stages hattempt
    obtain ⟨-, view, horderly, -⟩ := h
    have hview : view = [] := by
      have hmap := horderly.layout.tokens
      rw [hempty] at hmap
      exact List.map_eq_nil_iff.mp hmap
    exact absurd (text_eq_nil_of_stages stages (hview ▸ horderly)) htext

/-- A change with replacements accounts for the next generation. -/
theorem accounts_followChange
    (hlexer : tokenizer.lexer.Fits)
    (hverify : tokenizer.settings.verifyIncremental = false)
    (h : tokenizer.Steady before)
    (hturns : before.Turns after replacements)
    (hsome : replacements ≠ [])
    (hbefore : before.InRange)
    (hafter : after.InRange) :
    Accounts after (tokenizer.followChange before after replacements) ∧
    (tokenizer.followChange before after replacements).2.Steady after := by
  have hreturns := returns_incremental hlexer (h.consistent hbefore) hturns hsome hbefore hafter
  rcases hattempt : (tokenizer.incremental before after replacements).outcome
    tokenizer.toProgress with ⟨(_ | error) | ⟨store, updated⟩, progress⟩
  · rw [hattempt] at hreturns
    exact absurd rfl hreturns
  · rw [followChange_of_cause hsome hattempt]
    exact accounts_rebuild (hlexer.lexesBelow hafter.size) hafter.generation
  · obtain ⟨view, horderly, htiles⟩ :=
      covers_of_incremental hverify h hturns hafter.size_lt hattempt
    rw [followChange_of_ok hsome hattempt]
    refine ⟨⟨rfl, .inl ⟨rfl, ?_⟩⟩, ?_⟩
    · exact (Steady.of_tiles rfl horderly htiles).1
    · exact (Steady.of_tiles rfl horderly htiles).2

end Change

section Run

variable {slot slot' : Slot Document}
variable {wanted : ChangeSet}
variable {transition : Transition Document ChangeSet}

/-- A host, and a tokenizer that was created over it, has been told of each of its changes since,
and may have been asked to lex the document anew. -/
inductive Attended
    (lexer : Lexer)
    (settings : Settings) : Slot Document → Tokenizer → Prop
  | created
      {slot : Slot Document}
      {nextId : Nat}
      {tokenizer : Tokenizer}
      (hrange : slot.current.InRange)
      (hcreate : create lexer settings slot.current nextId = .ok tokenizer) :
      Attended lexer settings slot tokenizer
  | followed
      {slot slot' : Slot Document}
      {tokenizer : Tokenizer}
      {wanted : ChangeSet}
      {transition : Transition Document ChangeSet}
      (hattended : Attended lexer settings slot tokenizer)
      (hchange : slot.change wanted = (.ok transition, slot'))
      (hrange : slot'.current.InRange) :
      Attended lexer settings slot' (tokenizer.followTransition transition).2
  | rescanned
      {slot : Slot Document}
      {tokenizer : Tokenizer}
      (hattended : Attended lexer settings slot tokenizer) :
      Attended lexer settings slot tokenizer.rescan.2

namespace Attended

theorem inRange
    (h : Attended lexer settings slot tokenizer) :
    slot.current.InRange := by
  induction h with
  | created hrange hcreate =>
      exact hrange
  | followed hattended hchange hrange ih =>
      exact hrange
  | rescanned hattended ih =>
      exact ih

theorem fixed
    (h : Attended lexer settings slot tokenizer) :
    tokenizer.lexer = lexer ∧ tokenizer.settings = settings := by
  induction h with
  | created hrange hcreate =>
      obtain ⟨tokens, -, rfl⟩ := create_eq_ok_iff.mp hcreate
      exact ⟨rfl, rfl⟩
  | followed hattended hchange hrange ih =>
      exact ⟨fixed_followChange.1.trans ih.1, fixed_followChange.2.trans ih.2⟩
  | rescanned hattended ih =>
      exact ⟨fixed_rebuild.1.trans ih.1, fixed_rebuild.2.trans ih.2⟩

/-- Between the calls of a run, the tokenizer is steady. -/
theorem steady
    (h : Attended lexer settings slot tokenizer)
    (hlexer : lexer.Fits)
    (hverify : settings.verifyIncremental = false) :
    tokenizer.Steady slot.current := by
  induction h with
  | created hrange hcreate =>
      obtain ⟨tokens, htokens, rfl⟩ := create_eq_ok_iff.mp hcreate
      exact (steady_fresh hrange.generation rfl rfl rfl (lexAll_eq_ok_iff.mp htokens).2).2
  | @followed slot slot' tokenizer wanted transition hattended hchange hrange ih =>
      obtain ⟨rfl, rfl⟩ := hattended.fixed
      have hbefore := hattended.inRange
      obtain ⟨-, hturns, hold, rfl, rfl⟩ := Slot.change_eq_ok_iff.mp hchange
      rw [← hold] at hturns hbefore ih
      by_cases hsome : transition.change.replacements = []
      · rw [hsome] at hturns
        rw [followTransition, hsome, followChange_of_nil hturns.text_eq]
        exact steady_follow ih hturns hrange.generation
      · exact (accounts_followChange hlexer hverify ih hturns hsome hbefore hrange).2
  | @rescanned slot tokenizer hattended ih =>
      obtain ⟨rfl, -⟩ := hattended.fixed
      have hrange := hattended.inRange
      rw [← ih.document_eq] at hrange ⊢
      exact (accounts_rescan (hlexer.lexesBelow hrange.size) hrange.generation).2

end Attended

/-- Whatever the lexer returns, each call of a run accounts for the document of the host, and where
there are no tokens over a text, the next change is a rebuild. -/
theorem accounts_of_attended
    (hlexer : lexer.Fits)
    (hverify : settings.verifyIncremental = false) :
    (∀ (slot : Slot Document) (nextId : Nat) (tokenizer : Tokenizer),
      slot.current.InRange →
      create lexer settings slot.current nextId = .ok tokenizer →
      tokenizer.document = slot.current ∧ tokenizer.Covers) ∧
    ∀ slot tokenizer,
      Attended lexer settings slot tokenizer →
      Accounts slot.current tokenizer.rescan ∧
      ∀ wanted transition slot',
        slot.change wanted = (.ok transition, slot') →
        wanted.replacements ≠ [] →
        slot'.current.InRange →
        Accounts slot'.current (tokenizer.followTransition transition) ∧
        (tokenizer.store.tokens = [] →
          slot.current.text ≠ [] →
          tokenizer.FallsBack transition.before transition.after
            transition.change.replacements) := by
  constructor
  · intro slot nextId tokenizer hrange hcreate
    obtain ⟨tokens, htokens, rfl⟩ := create_eq_ok_iff.mp hcreate
    exact ⟨rfl, (steady_fresh hrange.generation rfl rfl rfl (lexAll_eq_ok_iff.mp htokens).2).1⟩
  · intro slot tokenizer h
    obtain ⟨rfl, rfl⟩ := h.fixed
    have hbefore := h.inRange
    have hsteady := h.steady hlexer hverify
    constructor
    · rw [← hsteady.document_eq] at hbefore ⊢
      exact (accounts_rescan (hlexer.lexesBelow hbefore.size) hbefore.generation).1
    · intro wanted transition slot' hchange hsome hafter
      obtain ⟨-, hturns, hold, rfl, rfl⟩ := Slot.change_eq_ok_iff.mp hchange
      rw [← hold] at hturns hbefore hsteady ⊢
      refine ⟨(accounts_followChange hlexer hverify hsteady hturns hsome hbefore hafter).1, ?_⟩
      intro hempty htext
      obtain ⟨error, progress, habandons⟩ := exists_abandoned_of_empty hlexer hsteady hturns hsome
        hbefore hafter hempty htext
      exact fallsBack_of_abandons hsome hverify habandons

theorem fits_stubborn :
    stubborn.Fits := by
  intro offset segments hbound item hitem
  obtain rfl := List.mem_singleton.mp hitem
  refine ⟨Outcome.returns_ok _, ?_⟩
  intro token htoken
  cases htoken
  unfold deltaBound at hbound
  unfold positionBound
  dsimp only
  omega

/-- The change of `a` to `ab`, of which a stubborn lexer only ever finds the first byte. -/
def growth : Transition Document ChangeSet where
  before := ⟨['a'], ⟨0, 0⟩⟩
  after := ⟨['a', 'b'], ⟨0, 1⟩⟩
  change := ⟨0, [⟨⟨1, 0⟩, ['b']⟩]⟩

/-- The change back to `a`. -/
def shrinkage : Transition Document ChangeSet where
  before := ⟨['a', 'b'], ⟨0, 1⟩⟩
  after := ⟨['a'], ⟨0, 2⟩⟩
  change := ⟨1, [⟨⟨1, 1⟩, []⟩]⟩

theorem accounts_after_stubborn_growth :
    ∃ tokenizer,
      create stubborn {} growth.before 0 = .ok tokenizer ∧
      Accounts growth.after (tokenizer.followTransition growth) ∧
      (tokenizer.followTransition growth).2.FallsBack shrinkage.before shrinkage.after
        shrinkage.change.replacements := by
  have hrun := (@accounts_of_attended stubborn {} fits_stubborn rfl).2
  obtain ⟨tokenizer, hcreate, hempty⟩ : ∃ tokenizer,
      create stubborn {} growth.before 0 = .ok tokenizer ∧
      (tokenizer.followTransition growth).2.store.tokens = [] :=
    ⟨_, rfl, by decide +kernel⟩
  have hcreated : Attended stubborn {} (Slot.holding growth.before) tokenizer :=
    .created ⟨by decide, by decide⟩ hcreate
  have hgrowth : (Slot.holding growth.before).change growth.change =
      (.ok growth, (Slot.holding growth.before).publish growth.after) := rfl
  have hrange : ((Slot.holding growth.before).publish growth.after).current.InRange :=
    ⟨by decide, by decide⟩
  have hshrinkage : ((Slot.holding growth.before).publish growth.after).change shrinkage.change =
      (.ok shrinkage,
        ((Slot.holding growth.before).publish growth.after).publish shrinkage.after) := rfl
  obtain ⟨-, hfirst⟩ := hrun _ _ hcreated
  obtain ⟨-, hsecond⟩ := hrun _ _ (hcreated.followed hgrowth hrange)
  refine ⟨tokenizer, hcreate, (hfirst _ _ _ hgrowth (by decide) hrange).1, ?_⟩
  exact (hsecond _ _ _ hshrinkage (by decide) ⟨by decide, by decide⟩).2 hempty (by decide)

end Run

end Tokenizer

end LiveTokens
