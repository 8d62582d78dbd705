import LiveTokens.Proofs.Exactness
import LiveTokens.Proofs.Order

/-!
# Tokenizers that are up to date

A tokenizer is up to date if its store describes its document.  With a
well-behaved grammar, a tokenizer is up to date from its creation on, and every
rebuild makes it so.  It stays up to date over a change from its document to the
next generation, and then no fallback is needed.
-/

namespace LiveTokens

open TokenStore

namespace Tokenizer

variable {grammar : Grammar}
variable {classify : Nat → TokenClass}
variable {tokenizer : Tokenizer}
variable {before after document : Document}
variable {replacements : List Replacement}
variable {ticket : Ticket}

/-- The tokenizer holds the tokens of the document, which it reads by the grammar. -/
structure UpToDate
    (grammar : Grammar)
    (classify : Nat → TokenClass)
    (tokenizer : Tokenizer)
    (document : Document) : Prop where
  lexer_eq : tokenizer.lexer = .ofGrammar grammar classify
  document_eq : tokenizer.document = document
  describes : ∃ view,
    Workspace.Describes ⟨tokenizer.store, tokenizer.nextId⟩ grammar document view

section Readings

/-- What can be read from a store that describes a document. -/
theorem readings_of_describes
    {store : TokenStore}
    {nextId : Nat}
    {view : List (TrackedToken × Span)}
    (hgrammar : grammar.WellBehaved)
    (classify : Nat → TokenClass)
    (h : Workspace.Describes ⟨store, nextId⟩ grammar document view)
    (hbound : document.size < positionBound) :
    (store.version : Outcome StoreError Nat) = .ok document.generation ∧
    store.check = .ok () ∧
    ∃ tokens,
      store.toList = .ok tokens ∧
      (Lexer.ofGrammar grammar classify).lex document.text = .ok tokens := by
  refine ⟨h.orderly.layout.version_eq, h.orderly.layout.check_eq, _,
    h.orderly.layout.toList_eq, ?_⟩
  exact Lexer.lex_eq_ok hgrammar.prefixStable classify hbound h.scans

/-- A verification has nothing to object to. -/
theorem outcome_verify_of_describes
    {store : TokenStore}
    {nextId : Nat}
    {view : List (TrackedToken × Span)}
    {updated : List Token}
    {progress : Progress}
    (hgrammar : grammar.WellBehaved)
    (h : Workspace.Describes ⟨store, nextId⟩ grammar document view)
    (hbound : document.size < positionBound) :
    (verify (.ofGrammar grammar classify) document store updated).outcome progress =
      (.ok (store, updated), progress) := by
  obtain ⟨-, hcheck, tokens, htokens, hlex⟩ :=
    readings_of_describes hgrammar classify h hbound
  unfold verify
  rw [hcheck, Outcome.wrap_ok, Work.outcome_bind_of_ok (Work.outcome_ofOutcome _ _), hlex,
    Outcome.wrap_ok, Work.outcome_bind_of_ok (Work.outcome_ofOutcome _ _), htokens,
    Outcome.wrap_ok, Work.outcome_bind_of_ok (Work.outcome_ofOutcome _ _), if_pos rfl]
  rfl

end Readings

section Rebuild

theorem exists_lexAll
    (hgrammar : grammar.WellBehaved)
    (classify : Nat → TokenClass)
    (hdocument : document.InRange) :
    ∃ tokens,
      lexAll (.ofGrammar grammar classify) document = .ok tokens ∧
      Scans grammar 0 document.text [] tokens ∧
      Tiles 0 tokens document.size := by
  have hbound : Text.size document.text < positionBound := hdocument.size_lt
  obtain ⟨tokens, htokens⟩ := Lexer.exists_scans hgrammar.prefixStable hbound
  have htiles := htokens.tiles (by omega)
  rw [Nat.zero_add] at htiles
  have hlex := Lexer.lex_eq_ok hgrammar.prefixStable classify hbound htokens
  exact ⟨tokens, lexAll_eq_ok_iff.mpr ⟨hlex, htiles⟩, htokens, htiles⟩

theorem describes_fresh
    {tokens : List Token}
    (hdocument : document.InRange)
    (hscans : Scans grammar 0 document.text [] tokens)
    (htiles : Tiles 0 tokens document.size)
    (firstId : Nat) :
    Workspace.Describes ⟨fresh document.generation firstId tokens, firstId + tokens.length⟩ grammar
      document
      ((TrackedToken.number document.generation firstId tokens).map TrackedToken.entry) where
  orderly := orderly_fresh firstId hdocument.generation htiles.ordered fun token htoken =>
    (htiles.bounds_of_mem htoken).2.2.2
  scans := by
    rw [map_placed_number]
    exact hscans

theorem upToDate_rebuild
    (hgrammar : grammar.WellBehaved)
    (hlexer : tokenizer.lexer = .ofGrammar grammar classify)
    (hdocument : document.InRange) :
    (tokenizer.rebuild document ticket).1 = .ok () ∧
    (tokenizer.rebuild document ticket).2.UpToDate grammar classify document := by
  obtain ⟨tokens, htokens, hscans, htiles⟩ := exists_lexAll hgrammar classify hdocument
  rw [← hlexer] at htokens
  rw [rebuild_of_lexAll htokens]
  exact ⟨rfl, hlexer, rfl, _, describes_fresh hdocument hscans htiles tokenizer.nextId⟩

theorem exists_create
    (hgrammar : grammar.WellBehaved)
    (classify : Nat → TokenClass)
    (settings : Settings)
    (hdocument : document.InRange)
    (nextId : Nat) :
    ∃ tokenizer,
      create (.ofGrammar grammar classify) settings document nextId = .ok tokenizer ∧
      tokenizer.UpToDate grammar classify document ∧
      tokenizer.fallbacks = 0 := by
  obtain ⟨tokens, htokens, hscans, htiles⟩ := exists_lexAll hgrammar classify hdocument
  exact ⟨_, create_eq_ok_iff.mpr ⟨tokens, htokens, rfl⟩,
    ⟨rfl, rfl, _, describes_fresh hdocument hscans htiles nextId⟩, rfl⟩

end Rebuild

section Change

theorem upToDate_follow
    (h : tokenizer.UpToDate grammar classify before)
    (hturns : before.Turns after [])
    (hafter : after.InRange) :
    (tokenizer.follow after).UpToDate grammar classify after := by
  obtain ⟨view, hdescribes⟩ := h.describes
  have horderly :=
    orderly_follow_of_turns hdescribes.orderly h.document_eq hturns hafter.generation
  refine ⟨?_, document_follow, view, horderly, ?_⟩
  · rw [lexer_follow]
    exact h.lexer_eq
  · rw [← hturns.text_eq]
    exact hdescribes.scans

/-- A change to the next generation is followed without a fallback. -/
theorem exists_followChange
    (hgrammar : grammar.WellBehaved)
    (h : tokenizer.UpToDate grammar classify before)
    (hturns : before.Turns after replacements)
    (hbefore : before.InRange)
    (hafter : after.InRange) :
    ∃ tokenizer',
      tokenizer.followChange before after replacements = (.ok (), tokenizer') ∧
      tokenizer'.UpToDate grammar classify after ∧
      tokenizer'.fallbacks = tokenizer.fallbacks := by
  by_cases hsome : replacements = []
  · subst hsome
    refine ⟨_, followChange_of_nil hturns.text_eq, upToDate_follow h hturns hafter, ?_⟩
    rw [toProgress_follow]
  · obtain ⟨view, hdescribes⟩ := h.describes
    have hsuperseded : tokenizer.supersede.2.UpToDate grammar classify before :=
      ⟨h.lexer_eq, h.document_eq, view, hdescribes⟩
    have hlineage : before.version.lineage = tokenizer.supersede.2.document.version.lineage := by
      rw [hsuperseded.document_eq]
    obtain ⟨stages, view', hstages⟩ :
        ∃ stages : Stages tokenizer.supersede.2 before after replacements tokenizer.nextId,
        ∃ view', Workspace.Describes ⟨stages.store, stages.merged.nextId⟩ grammar after view' :=
      exists_describing_stages hgrammar hsuperseded.lexer_eq hdescribes hlineage hturns hsome
        hbefore hafter
    have hconclude : (tokenizer.supersede.2.conclude after stages.store
        stages.realignment.tokens).outcome (reached stages) =
          (.ok (stages.store, stages.realignment.tokens), reached stages) := by
      unfold conclude
      split
      next =>
        rw [show tokenizer.supersede.2.lexer = .ofGrammar grammar classify from h.lexer_eq]
        exact outcome_verify_of_describes hgrammar hstages hafter.size_lt
      next =>
        rfl
    have hincremental := (outcome_incremental stages).trans hconclude
    exact ⟨_, followChange_of_ok hsome hincremental, ⟨h.lexer_eq, rfl, view', hstages⟩, rfl⟩

/-- A change from another version leads to a rebuild. -/
theorem upToDate_followChange_of_skew
    (hgrammar : grammar.WellBehaved)
    (h : tokenizer.UpToDate grammar classify document)
    (hskew : before.version ≠ document.version)
    (hsome : replacements ≠ [])
    (hafter : after.InRange) :
    (tokenizer.followChange before after replacements).1 = .ok () ∧
    (tokenizer.followChange before after replacements).2.UpToDate grammar classify after := by
  obtain ⟨view, hdescribes⟩ := h.describes
  have hincremental : (tokenizer.supersede.2.incremental before after replacements).outcome
      tokenizer.toProgress =
        (Outcome.fail (.versionSkew document.generation before.generation),
          tokenizer.toProgress) := by
    have hversion : (tokenizer.supersede.2.store.version : Outcome UpdateError Nat) =
        .ok document.generation :=
      hdescribes.orderly.layout.version_eq
    unfold incremental
    have hguard : before.version.lineage ≠ tokenizer.supersede.2.document.version.lineage ∨
        before.generation ≠ document.generation := by
      rw [show tokenizer.supersede.2.document = document from h.document_eq]
      by_cases hlineage : before.version.lineage = document.version.lineage
      · exact .inr fun hgeneration => hskew (Document.version_eq hlineage hgeneration)
      · exact .inl hlineage
    rw [hversion, Work.outcome_bind_of_ok (Work.outcome_ofOutcome _ _), if_pos hguard]
    rfl
  rw [followChange_of_cause hsome hincremental]
  exact upToDate_rebuild hgrammar h.lexer_eq hafter

end Change

end Tokenizer

end LiveTokens
