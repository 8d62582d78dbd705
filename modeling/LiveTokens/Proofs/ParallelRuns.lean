import LiveTokens.Proofs.Compaction

/-!
# Parallel runs

Two tokenizers of the same document that are told of the same changes run in
parallel.  If they forget their edits at different times, but have everything
else in common, each call finds them alike and leaves them alike.  What they
answer, and what consumers see of them, is the same throughout.
-/

namespace LiveTokens

namespace Tokenizer

open TokenStore

variable {lexer : Lexer}
variable {settings settings' : Settings}
variable {first second : Tokenizer}
variable {before after document : Document}
variable {replacements : List Replacement}
variable {ticket ticket' : Ticket}
variable {call : Call}

/-- Apart from how many edits are remembered, and what the tokens were measured in, two tokenizers
are in the same state. -/
structure Alike
    (first second : Tokenizer) : Prop where
  progress : first.toProgress = second.toProgress
  lexer : first.lexer = second.lexer
  verify : first.settings.verifyIncremental = second.settings.verifyIncremental
  document : first.document = second.document
  stores : TokenStore.Alike first.nextId first.store second.store
  updated : first.publications.current.updated = second.publications.current.updated

/-- As long as no position leaves its range, the stores have layouts of the same faces. -/
theorem Alike.exists_workspaces
    (h : first.Alike second)
    (hintact : first.store.Intact first.nextId)
    (hrange : first.store.InRange replacements) :
    ∃ version,
      Workspace.Alike version ⟨first.store, first.nextId⟩ ⟨second.store, first.nextId⟩ := by
  rcases h.stores with hsame | halike
  · obtain ⟨version, view, hview⟩ := exists_orderly_of_intact hintact hrange
    exact ⟨version, rfl, view, view, hview, hsame ▸ hview, rfl⟩
  · exact halike

theorem alike_create
    (lexer : Lexer)
    (document : Document)
    (nextId : Nat)
    (hverify : settings.verifyIncremental = settings'.verifyIncremental) :
    Outcome.Agree Alike (create lexer settings document nextId)
      (create lexer settings' document nextId) := by
  unfold create
  rcases (storeOf lexer document).outcome { nextId := nextId } with ⟨failure | result, progress⟩
  · rfl
  · exact ⟨rfl, rfl, hverify, rfl, .inl rfl, rfl⟩

/-- A rebuild forgets whatever the stores were. -/
theorem alike_rebuild
    (hprogress : first.toProgress = second.toProgress)
    (hlexer : first.lexer = second.lexer)
    (hverify : first.settings.verifyIncremental = second.settings.verifyIncremental) :
    (first.rebuild document ticket).1 = (second.rebuild document ticket').1 ∧
    ((first.rebuild document ticket).1.Returns →
      (first.rebuild document ticket).2.Alike (second.rebuild document ticket').2) := by
  unfold rebuild
  rw [← hlexer, ← hprogress]
  rcases (storeOf first.lexer document).outcome first.toProgress with
    ⟨(_ | error) | ⟨store, updated⟩, progress⟩
  · exact ⟨rfl, fun hreturns => absurd rfl hreturns⟩
  · exact ⟨rfl, fun _ => ⟨rfl, hlexer, hverify, rfl, .inl rfl, rfl⟩⟩
  · exact ⟨rfl, fun _ => ⟨rfl, hlexer, hverify, rfl, .inl rfl, rfl⟩⟩

theorem alike_follow
    (h : first.Alike second)
    (hintact : first.store.Intact first.nextId)
    (hrange : first.store.InRange replacements)
    (hbound : after.generation < positionBound) :
    (first.follow after).Alike (second.follow after) := by
  have hstores : TokenStore.Alike first.nextId (first.follow after).store
      (second.follow after).store := by
    have hdocument := h.document
    by_cases hlineage : after.version.lineage = first.document.version.lineage
    · obtain ⟨version, -, view, view', hview, hview', hfaces⟩ :=
        h.exists_workspaces hintact hrange
      have hfollowed := orderly_follow hview hlineage hbound
      rw [hdocument] at hlineage
      rw [h.progress] at hview'
      have hfollowed' := orderly_follow hview' hlineage hbound
      rw [toProgress_follow] at hfollowed hfollowed'
      rw [← h.progress] at hfollowed'
      exact .inr ⟨_, rfl, view, view', hfollowed, hfollowed', hfaces⟩
    · rw [store_follow_of_lineage_ne hlineage]
      rw [hdocument] at hlineage
      rw [store_follow_of_lineage_ne hlineage]
      exact h.stores
  obtain ⟨store, hfollow⟩ := first.exists_follow_eq after
  obtain ⟨store', hfollow'⟩ := second.exists_follow_eq after
  rw [hfollow, hfollow'] at hstores ⊢
  exact ⟨h.progress, h.lexer, h.verify, rfl, hstores, h.updated⟩

theorem alike_followChange
    (h : first.Alike second)
    (hintact : first.store.Intact first.nextId)
    (hrange : first.store.InRange replacements)
    (hbound : after.generation < positionBound) :
    (first.followChange before after replacements).1 =
      (second.followChange before after replacements).1 ∧
    ((first.followChange before after replacements).1.Returns →
      (first.followChange before after replacements).2.Alike
        (second.followChange before after replacements).2) := by
  by_cases hsome : replacements = []
  · subst hsome
    by_cases htext : before.text = after.text
    · rw [followChange_of_nil htext, followChange_of_nil htext]
      exact ⟨rfl, fun _ => alike_follow h hintact hrange hbound⟩
    · rw [followChange_of_nil_ne htext, followChange_of_nil_ne htext]
      exact ⟨rfl, fun _ => h⟩
  obtain ⟨version, hworkspaces⟩ := h.exists_workspaces hintact hrange
  have hupdate : Attempt.Agree
      (fun nextId result result' =>
        result.2 = result'.2 ∧ TokenStore.Alike nextId result.1 result'.1)
      ((first.supersede.2.incremental before after replacements).outcome first.toProgress)
      ((second.supersede.2.incremental before after replacements).outcome first.toProgress) :=
    agree_incremental h.lexer h.verify h.document hworkspaces hrange
  rw [h.progress] at hupdate
  rcases hupdate.cases with ⟨_ | error, progress, _, hfailed, hfailed', rfl⟩ |
    ⟨⟨store, updated⟩, progress, ⟨store', updated'⟩, _, hgiven, hgiven', rfl, hupdated, hstores⟩
  · rw [← h.progress] at hfailed
    rw [followChange_of_overflow hsome hfailed, followChange_of_overflow hsome hfailed']
    exact ⟨rfl, fun hreturns => absurd rfl hreturns⟩
  · rw [← h.progress] at hfailed
    rw [followChange_of_cause hsome hfailed, followChange_of_cause hsome hfailed']
    exact alike_rebuild rfl h.lexer h.verify
  · rw [← h.progress] at hgiven
    rw [followChange_of_ok hsome hgiven, followChange_of_ok hsome hgiven']
    exact ⟨rfl, fun _ => ⟨rfl, h.lexer, h.verify, rfl, hstores, hupdated⟩⟩

/-- A call gives the same answer and leaves the tokenizers alike. -/
theorem alike_perform
    (h : first.Alike second)
    (hsettled : first.Settled)
    (hrange : call.InRange first) :
    (first.perform call).1 = (second.perform call).1 ∧
    ((first.perform call).1.Returns → (first.perform call).2.Alike (second.perform call).2) := by
  cases call with
  | change before after replacements =>
      exact alike_followChange h hsettled.intact hrange.2 hrange.1
  | rescan =>
      have hdocument : first.supersede.2.document = second.supersede.2.document := h.document
      rw [perform, perform, rescan, rescan]
      dsimp only
      rw [hdocument]
      exact alike_rebuild h.progress h.lexer h.verify

/-- Two tokenizers that have started with the same document and the same next number, and have since
answered the same calls. -/
inductive Parallel
    (lexer : Lexer)
    (settings settings' : Settings) : Tokenizer → Tokenizer → Prop
  | created
      {document : Document}
      {nextId : Nat}
      {first second : Tokenizer}
      (hbound : document.generation < positionBound)
      (hfirst : create lexer settings document nextId = .ok first)
      (hsecond : create lexer settings' document nextId = .ok second) :
      Parallel lexer settings settings' first second
  | performed
      {first second : Tokenizer}
      {call : Call}
      (hparallel : Parallel lexer settings settings' first second)
      (hrange : call.InRange first)
      (hreturns : (first.perform call).1.Returns) :
      Parallel lexer settings settings' (first.perform call).2 (second.perform call).2

theorem alike_of_parallel
    (hverify : settings.verifyIncremental = settings'.verifyIncremental)
    (h : Parallel lexer settings settings' first second) :
    first.Alike second ∧ first.Settled := by
  induction h with
  | @created document nextId first second hbound hfirst hsecond =>
      have halike := alike_create lexer document nextId hverify
      rw [hfirst, hsecond] at halike
      exact ⟨halike, settled_create hbound hfirst⟩
  | performed hparallel hrange hreturns ih =>
      obtain ⟨halike, hsettled⟩ := ih
      exact ⟨(alike_perform halike hsettled hrange).2 hreturns,
        settled_perform hsettled hrange hreturns⟩

/-- What can be told of two tokenizers from outside is the same: the tokens and their identities,
the version that they describe, those that the last update added, the answers to questions about a
range, and the progress, which has the count of fallbacks, the next number and the log. -/
structure Indistinct
    (first second : Tokenizer) : Prop where
  document : first.document = second.document
  progress : first.toProgress = second.toProgress
  version : (first.store.version : Outcome StoreError Nat) = second.store.version
  tokens : first.store.toList = second.store.toList
  ids : first.store.ids = second.store.ids
  updated : first.publications.current.updated = second.publications.current.updated
  tokensIn : ∀ span, span.Fits → first.tokensIn span = second.tokensIn span

theorem Alike.indistinct
    (h : first.Alike second) :
    first.Indistinct second where
  document := h.document
  progress := h.progress
  version := h.stores.version_eq
  tokens := h.stores.toList_eq
  ids := h.stores.ids_eq
  updated := h.updated
  tokensIn span _ := by
    have hversions := h.stores.version_eq
    rw [Tokenizer.tokensIn, Tokenizer.tokensIn, ← hversions]
    rcases hversion : (first.store.version : Outcome StoreError Nat) with failure | version
    · rfl
    · exact h.stores.inRange_eq span hversion

/-- When edits are forgotten is a matter of the threshold, and shows nowhere else: two tokenizers
that differ in it fail to be created for the same reason or cannot be told apart, now and after any
calls, to which they give the same answers. -/
theorem indistinct_of_parallel
    (lexer : Lexer)
    (threshold threshold' : Nat)
    (verifyIncremental : Bool) :
    (∀ document nextId,
      Outcome.Agree Indistinct (create lexer ⟨threshold, verifyIncremental⟩ document nextId)
        (create lexer ⟨threshold', verifyIncremental⟩ document nextId)) ∧
    ∀ first second,
      Parallel lexer ⟨threshold, verifyIncremental⟩ ⟨threshold', verifyIncremental⟩ first second →
      first.Indistinct second ∧
      ∀ call, call.InRange first → (first.perform call).1 = (second.perform call).1 := by
  have hverify : (Settings.mk threshold verifyIncremental).verifyIncremental =
      (Settings.mk threshold' verifyIncremental).verifyIncremental := rfl
  constructor
  · intro document nextId
    exact (alike_create lexer document nextId hverify).imp fun _ _ _ _ halike => halike.indistinct
  · intro first second hparallel
    obtain ⟨halike, hsettled⟩ := alike_of_parallel hverify hparallel
    exact ⟨halike.indistinct, fun call hrange => (alike_perform halike hsettled hrange).1⟩

/-- The change of the text `a` to `b`. -/
def retyping : Call :=
  .change ⟨['a'], ⟨0, 0⟩⟩ ⟨['b'], ⟨0, 1⟩⟩ [⟨⟨0, 1⟩, ['b']⟩]

/-- Of two tokenizers that have followed a change, one has forgotten the edit and the other has
not. -/
theorem indistinct_after_stubborn_retyping :
    ∃ first second,
      create stubborn ⟨1, false⟩ ⟨['a'], ⟨0, 0⟩⟩ 0 = .ok first ∧
      create stubborn ⟨32, false⟩ ⟨['a'], ⟨0, 0⟩⟩ 0 = .ok second ∧
      (first.perform retyping).1 = (second.perform retyping).1 ∧
      (first.perform retyping).2.store.log.length = 0 ∧
      (second.perform retyping).2.store.log.length = 1 ∧
      (first.perform retyping).2.Indistinct (second.perform retyping).2 := by
  obtain ⟨first, hfirst, hrange, hreturns, hforgotten⟩ : ∃ first,
      create stubborn ⟨1, false⟩ ⟨['a'], ⟨0, 0⟩⟩ 0 = .ok first ∧
      retyping.InRange first ∧
      (first.perform retyping).1.Returns ∧
      (first.perform retyping).2.store.log.length = 0 := by
    refine ⟨_, rfl, ⟨by decide, ?_⟩, by decide +kernel, by decide +kernel⟩
    intro version tracked span hversion htracked hlocate
    obtain rfl := List.mem_singleton.mp htracked
    cases hversion
    cases hlocate
    refine ⟨by decide, ?_⟩
    intro edit hjoin hbehind
    cases hjoin
    exact absurd hbehind (by decide)
  obtain ⟨second, hsecond, hremembered⟩ : ∃ second,
      create stubborn ⟨32, false⟩ ⟨['a'], ⟨0, 0⟩⟩ 0 = .ok second ∧
      (second.perform retyping).2.store.log.length = 1 :=
    ⟨_, rfl, by decide +kernel⟩
  obtain ⟨-, hparallel⟩ := indistinct_of_parallel stubborn 1 32 false
  have hcreated : Parallel stubborn ⟨1, false⟩ ⟨32, false⟩ first second :=
    .created (by decide) hfirst hsecond
  obtain ⟨-, hanswers⟩ := hparallel _ _ hcreated
  obtain ⟨hindistinct, -⟩ := hparallel _ _ (hcreated.performed hrange hreturns)
  exact ⟨first, second, hfirst, hsecond, hanswers _ hrange, hforgotten, hremembered, hindistinct⟩

end Tokenizer

end LiveTokens
