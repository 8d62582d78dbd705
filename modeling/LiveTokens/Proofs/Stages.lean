import LiveTokens.Proofs.Merge

/-!
# The stages of an incremental update

An incremental update that gets as far as its verification has gone through a
fixed row of stages, each of which has succeeded.  They are collected in one
structure, and what the update gives is read off from it.
-/

namespace LiveTokens

namespace Attempt

variable {progress progress' : Progress}

theorem outcome_enter
    (phase : Phase) :
    (enter phase).outcome progress = (.ok (), { progress with phase := phase }) := by
  rfl

theorem outcome_note
    (event : LogEvent) :
    (note event).outcome progress = (.ok (), { progress with log := progress.log ++ [event] }) := by
  rfl

theorem outcome_countFallback :
    countFallback.outcome progress =
      (.ok (), { progress with fallbacks := progress.fallbacks + 1 }) := by
  rfl

theorem outcome_revise
    {α : Type}
    (store : TokenStore)
    (revision : Revision α) :
    (revise store revision).outcome progress =
      match revision.outcome ⟨store, progress.nextId⟩ with
      | (.ok value, workspace) =>
        (.ok (value, workspace.store), { progress with nextId := workspace.nextId })
      | (.error failure, workspace) =>
        (.error failure, { progress with nextId := workspace.nextId }) := by
  unfold revise
  rw [Work.outcome_bind_of_ok (Work.outcome_get progress)]
  dsimp only
  rw [Work.outcome_bind_of_ok (Work.outcome_set _ _), Work.outcome_bind, Work.outcome_ofOutcome]
  rcases revision.outcome ⟨store, progress.nextId⟩ with ⟨failure | value, workspace⟩
  · rfl
  · rfl

theorem outcome_revise_of_ok
    {α : Type}
    {store : TokenStore}
    {revision : Revision α}
    {value : α}
    {workspace : Workspace}
    {firstId : Nat}
    (h : revision.outcome ⟨store, firstId⟩ = (.ok value, workspace))
    (hfirst : progress.nextId = firstId) :
    (revise store revision).outcome progress =
      (.ok (value, workspace.store), { progress with nextId := workspace.nextId }) := by
  rw [outcome_revise, hfirst, h]

theorem returns_revise_iff
    {α : Type}
    {store : TokenStore}
    {revision : Revision α} :
    Outcome.Returns ((revise store revision).outcome progress).1 ↔
      Outcome.Returns (revision.outcome ⟨store, progress.nextId⟩).1 := by
  rw [outcome_revise]
  rcases revision.outcome ⟨store, progress.nextId⟩ with ⟨failure | value, workspace⟩
  · simp [Outcome.Returns]
  · simp

theorem exists_of_outcome_revise
    {α : Type}
    {store : TokenStore}
    {revision : Revision α}
    {result : α × TokenStore}
    (h : (revise store revision).outcome progress = (.ok result, progress')) :
    ∃ workspace,
      revision.outcome ⟨store, progress.nextId⟩ = (.ok result.1, workspace) ∧
      result.2 = workspace.store ∧
      progress' = { progress with nextId := workspace.nextId } := by
  rw [outcome_revise] at h
  cases hrevision : revision.outcome ⟨store, progress.nextId⟩ with
  | mk answer workspace =>
      rw [hrevision] at h
      cases answer with
      | error failure =>
          cases h
      | ok value =>
          cases h
          exact ⟨workspace, rfl, rfl, rfl⟩

end Attempt

/-- The results of the stages up to the verification, each with what it is the result of. -/
structure Stages
    (tokenizer : Tokenizer)
    (before after : Document)
    (replacements : List Replacement)
    (firstId : Nat) where
  edit : Edit
  excision : Excision
  excised : Workspace
  realignment : Realignment
  merged : Workspace
  store : TokenStore
  lineage : before.version.lineage = tokenizer.document.version.lineage
  version : (tokenizer.store.version : Outcome UpdateError Nat) = .ok before.generation
  join : Edit.join replacements = .ok edit
  excise : (excise before after edit).outcome ⟨tokenizer.store, firstId⟩ = (.ok excision, excised)
  realign : realign excised.store tokenizer.lexer after excision.span = .ok realignment
  merge : (merge realignment).outcome excised = (.ok (), merged)
  compact : Tokenizer.compactBeyond tokenizer.settings merged.store = .ok store

namespace Tokenizer

variable {tokenizer : Tokenizer}
variable {before after : Document}
variable {replacements : List Replacement}
variable {progress progress' : Progress}

/-- The last stage of an incremental update. -/
def conclude
    (tokenizer : Tokenizer)
    (after : Document)
    (store : TokenStore)
    (updated : List Token) : Attempt (TokenStore × List Token) :=
  if tokenizer.settings.verifyIncremental then
    verify tokenizer.lexer after store updated
  else
    return (store, updated)

/-- How far the stages in front of the verification have come. -/
def reached
    (stages : Stages tokenizer before after replacements progress.nextId) : Progress where
  phase := .merging
  fallbacks := progress.fallbacks
  nextId := stages.merged.nextId
  log := progress.log ++
    [.invalidated stages.excision.removed.length stages.excision.span] ++
    [.relexed stages.realignment.tokens.length stages.realignment.superseded.length
      stages.realignment.scanned] ++
    [.merged (stages.excision.removed.length + stages.realignment.superseded.length)
      stages.realignment.tokens.length]

theorem outcome_incremental
    (stages : Stages tokenizer before after replacements progress.nextId) :
    (tokenizer.incremental before after replacements).outcome progress =
      (tokenizer.conclude after stages.store stages.realignment.tokens).outcome
        (reached stages) := by
  unfold incremental
  rw [stages.version, Work.outcome_bind_of_ok (Work.outcome_ofOutcome _ _)]
  rw [if_neg (by simp [stages.lineage])]
  rw [stages.join, Outcome.wrap_ok, Work.outcome_bind_of_ok (Work.outcome_ofOutcome _ _)]
  rw [Work.outcome_bind_of_ok (Attempt.outcome_enter _)]
  refine (Work.outcome_bind_of_ok (Attempt.outcome_revise_of_ok stages.excise ?_)).trans ?_
  · rfl
  dsimp only
  rw [Work.outcome_bind_of_ok (Attempt.outcome_note _)]
  rw [Work.outcome_bind_of_ok (Attempt.outcome_enter _)]
  rw [stages.realign, Work.outcome_bind_of_ok (Work.outcome_ofOutcome _ _)]
  rw [Work.outcome_bind_of_ok (Attempt.outcome_note _)]
  rw [Work.outcome_bind_of_ok (Attempt.outcome_enter _)]
  refine (Work.outcome_bind_of_ok (Attempt.outcome_revise_of_ok stages.merge ?_)).trans ?_
  · rfl
  dsimp only
  rw [stages.compact, Outcome.wrap_ok, Work.outcome_bind_of_ok (Work.outcome_ofOutcome _ _)]
  rw [Work.outcome_bind_of_ok (Attempt.outcome_note _)]
  rfl

/-- An incremental update that gives a result has gone through all stages. -/
theorem exists_stages
    {result : TokenStore × List Token}
    (h : (tokenizer.incremental before after replacements).outcome progress =
      (.ok result, progress')) :
    Nonempty (Stages tokenizer before after replacements progress.nextId) := by
  unfold incremental at h
  obtain ⟨version, _, hversion, h⟩ := Work.outcome_bind_eq_ok_iff.mp h
  rw [Work.outcome_ofOutcome, Prod.mk.injEq] at hversion
  obtain ⟨hversion, rfl⟩ := hversion
  split at h
  next =>
    cases h
  next hguard =>
    obtain ⟨hlineage, hgeneration⟩ := not_or.mp hguard
    rw [Decidable.not_not] at hlineage hgeneration
    subst hgeneration
    obtain ⟨edit, _, hjoin, h⟩ := Work.outcome_bind_eq_ok_iff.mp h
    rw [Work.outcome_ofOutcome, Prod.mk.injEq, Outcome.wrap_eq_ok_iff] at hjoin
    obtain ⟨hjoin, rfl⟩ := hjoin
    rw [Work.outcome_bind_of_ok (Attempt.outcome_enter _)] at h
    obtain ⟨⟨excision, _⟩, _, hrevise, h⟩ := Work.outcome_bind_eq_ok_iff.mp h
    obtain ⟨excised, hexcise, rfl, rfl⟩ := Attempt.exists_of_outcome_revise hrevise
    dsimp only at h
    rw [Work.outcome_bind_of_ok (Attempt.outcome_note _),
      Work.outcome_bind_of_ok (Attempt.outcome_enter _)] at h
    obtain ⟨realignment, _, hrealign, h⟩ := Work.outcome_bind_eq_ok_iff.mp h
    rw [Work.outcome_ofOutcome, Prod.mk.injEq] at hrealign
    obtain ⟨hrealign, rfl⟩ := hrealign
    rw [Work.outcome_bind_of_ok (Attempt.outcome_note _),
      Work.outcome_bind_of_ok (Attempt.outcome_enter _)] at h
    obtain ⟨⟨_, _⟩, _, hrevise', h⟩ := Work.outcome_bind_eq_ok_iff.mp h
    obtain ⟨merged, hmerge, rfl, rfl⟩ := Attempt.exists_of_outcome_revise hrevise'
    dsimp only at h
    obtain ⟨store, _, hcompact, -⟩ := Work.outcome_bind_eq_ok_iff.mp h
    rw [Work.outcome_ofOutcome, Prod.mk.injEq, Outcome.wrap_eq_ok_iff] at hcompact
    exact ⟨{
      edit := edit
      excision := excision
      excised := excised
      realignment := realignment
      merged := merged
      store := store
      lineage := hlineage
      version := hversion
      join := hjoin
      excise := hexcise
      realign := hrealign
      merge := hmerge
      compact := hcompact.1 }⟩

/-- Forgetting the edits of a store in time keeps its tokens, and where they are. -/
theorem orderly_compactBeyond
    {workspace : Workspace}
    {version : Nat}
    {view : List (TrackedToken × Span)}
    (settings : Settings)
    (h : workspace.Orderly version view) :
    ∃ store view',
      compactBeyond settings workspace.store = .ok store ∧
      Workspace.Orderly ⟨store, workspace.nextId⟩ version view' ∧
      view'.map TokenStore.face = view.map TokenStore.face := by
  unfold compactBeyond
  split
  next =>
    have hlayout := h.layout.compact
    have hids : TokenStore.ids ⟨(view.map (TokenStore.remeasured version)).map Prod.fst,
        EditLog.startingAt version⟩ = workspace.store.ids := by
      rw [TokenStore.ids, TokenStore.ids, ← h.layout.tokens, List.map_map, List.map_map,
        List.map_map]
      rfl
    refine ⟨_, _, h.layout.compact_eq, ⟨hlayout, ?_⟩, ?_⟩
    · rw [hids]
      exact h.numbered
    · rw [List.map_map]
      rfl
  next =>
    exact ⟨workspace.store, view, rfl, h, rfl⟩

/-- Through all stages of an update, the workspace stays orderly. -/
theorem orderly_of_stages
    {view : List (TrackedToken × Span)}
    (stages : Stages tokenizer before after replacements progress.nextId)
    (h : Workspace.Orderly ⟨tokenizer.store, progress.nextId⟩ before.generation view)
    (hrange : ∀ entry ∈ view,
      stages.edit.region.start + stages.edit.region.length < entry.2.start →
      entry.2.start + entry.2.length + stages.edit.delta < positionBound) :
    ∃ view', Workspace.Orderly ⟨stages.store, stages.merged.nextId⟩ after.generation view' := by
  obtain ⟨touched, excised, hexcise, -, hexcised⟩ := h.exists_excised after stages.join hrange
  rw [stages.excise, Prod.mk.injEq] at hexcise
  obtain ⟨hsettle, rfl⟩ := hexcise
  obtain ⟨hgeneration, hbound, -, hfits, -, -⟩ := Excision.settle_eq_ok_iff.mp hsettle.symm
  rw [hgeneration] at hexcised
  obtain ⟨excisedView, hexcisedView⟩ := hexcised hbound
  obtain ⟨-, hmerge⟩ := Revision.orderly_merge_of_realign hexcisedView hfits stages.realign
  obtain ⟨mergedView, hmerged⟩ := hmerge _ stages.merge
  obtain ⟨store, view', hcompact, hcompacted, -⟩ :=
    orderly_compactBeyond tokenizer.settings hmerged
  rw [stages.compact] at hcompact
  cases hcompact
  exact ⟨view', hcompacted⟩

section Verify

variable {lexer : Lexer}
variable {store : TokenStore}
variable {updated : List Token}

/-- A verification that gives a result keeps the store if it holds the tokens of a full lexing,
and otherwise makes a new store of these, provided that they come in order. -/
theorem verify_eq_ok
    {result : TokenStore × List Token}
    (h : (verify lexer after store updated).outcome progress = (.ok result, progress')) :
    store.check = .ok () ∧
    ∃ expected,
      lexer.lex after.text = .ok expected ∧
      (store.toList = .ok expected ∧ result = (store, updated) ∧ progress' = progress ∨
        (expected.map (·.span)).Pairwise Span.Precedes ∧
        result = (TokenStore.fresh after.generation progress.nextId expected, expected) ∧
        progress'.nextId = progress.nextId + expected.length) := by
  unfold verify at h
  obtain ⟨_, _, hcheck, h⟩ := Work.outcome_bind_eq_ok_iff.mp h
  rw [Work.outcome_ofOutcome, Prod.mk.injEq, Outcome.wrap_eq_ok_iff] at hcheck
  obtain ⟨hcheck, rfl⟩ := hcheck
  obtain ⟨expected, _, hlex, h⟩ := Work.outcome_bind_eq_ok_iff.mp h
  rw [Work.outcome_ofOutcome, Prod.mk.injEq, Outcome.wrap_eq_ok_iff] at hlex
  obtain ⟨hlex, rfl⟩ := hlex
  obtain ⟨tokens, _, htokens, h⟩ := Work.outcome_bind_eq_ok_iff.mp h
  rw [Work.outcome_ofOutcome, Prod.mk.injEq, Outcome.wrap_eq_ok_iff] at htokens
  obtain ⟨htokens, rfl⟩ := htokens
  refine ⟨hcheck, expected, hlex, ?_⟩
  split at h
  next heq =>
    cases h
    exact .inl ⟨heq ▸ htokens, rfl, rfl⟩
  next =>
    rw [Work.outcome_bind_of_ok (Attempt.outcome_note _),
      Work.outcome_bind_of_ok Attempt.outcome_countFallback] at h
    obtain ⟨adopted, _, hadopted, h⟩ := Work.outcome_bind_eq_ok_iff.mp h
    cases h
    unfold Attempt.number at hadopted
    rw [Work.outcome_bind_of_ok (Work.outcome_get _)] at hadopted
    cases hstore : TokenStore.ofTokens after.generation progress.nextId expected with
    | mk answer nextId =>
        rw [hstore] at hadopted
        rw [Work.outcome_bind_of_ok (Work.outcome_set _ _), Work.outcome_ofOutcome,
          Prod.mk.injEq, Outcome.wrap_eq_ok_iff] at hadopted
        obtain ⟨rfl, rfl⟩ := hadopted
        obtain ⟨hordered, rfl, rfl⟩ := TokenStore.ofTokens_eq_ok_iff.mp hstore
        exact .inr ⟨hordered, rfl, rfl⟩

end Verify

end Tokenizer

end LiveTokens
