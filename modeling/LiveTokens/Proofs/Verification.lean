import LiveTokens.Proofs.Coverage
import LiveTokens.Proofs.Session
import LiveTokens.Scanner.Samples

/-!
# Verified updates and rebuilds

A verified update ends with the tokens of a full lexing, as a rebuild does.  But
a rebuild only accepts tokens that tile the text, whereas the verification is
content with tokens that come in order.  For a bounded lexer that is the only
difference between the two.
-/

namespace LiveTokens

open TokenStore

namespace Tokenizer

variable {lexer : Lexer}
variable {settings : Settings}
variable {tokenizer : Tokenizer}
variable {document before after : Document}
variable {replacements : List Replacement}
variable {transition : Transition Document ChangeSet}
variable {tokens : List Token}
variable {view : List (TrackedToken × Span)}
variable {ticket : Ticket}

/-- The tokenizer answers to the transition as if it had lexed the whole document anew. -/
def LikeRebuild
    (tokenizer : Tokenizer)
    (transition : Transition Document ChangeSet) : Prop :=
  match lexAll tokenizer.lexer transition.after with
  | .ok tokens =>
    (tokenizer.followTransition transition).1 = .ok () ∧
    (tokenizer.followTransition transition).2.store.toList = .ok tokens
  | .error (.cause error) =>
    (tokenizer.followTransition transition).1 = Outcome.fail (.rebuild error) ∧
    (tokenizer.followTransition transition).2.store.tokens = []
  | .error .overflow => False

/-- An update gets as far as its verification, where a full lexing has tokens that come in order but
do not tile the text. -/
def Overlooks
    (tokenizer : Tokenizer)
    (transition : Transition Document ChangeSet) : Prop :=
  Nonempty (Stages tokenizer transition.before transition.after transition.change.replacements
    tokenizer.nextId) ∧
  ∃ tokens,
    tokenizer.lexer.lex transition.after.text = .ok tokens ∧
    (tokens.map (·.span)).Pairwise Span.Precedes ∧
    ¬ Tiles 0 tokens transition.after.size

section Verify

variable {store : TokenStore}
variable {updated : List Token}
variable {progress progress' : Progress}

/-- A verified store holds the tokens of a full lexing, which come in order. -/
theorem exists_of_verify
    {result : TokenStore × List Token}
    (hlexer : lexer.Bounded)
    (hdocument : document.InRange)
    (h : Workspace.Orderly ⟨store, progress.nextId⟩ document.generation view)
    (hok : (verify lexer document store updated).outcome progress = (.ok result, progress')) :
    ∃ tokens view',
      lexer.lex document.text = .ok tokens ∧
      (tokens.map (·.span)).Pairwise Span.Precedes ∧
      Workspace.Orderly ⟨result.1, progress'.nextId⟩ document.generation view' ∧
      view'.map placed = tokens := by
  obtain ⟨-, tokens, hlex, hkept | ⟨hordered, rfl, hnextId⟩⟩ := verify_eq_ok hok
  · obtain ⟨htokens, rfl, rfl⟩ := hkept
    rw [h.layout.toList_eq, Except.ok.injEq] at htokens
    refine ⟨tokens, view, hlex, ?_, h, htokens⟩
    rw [← htokens, List.map_map]
    exact List.pairwise_map.mpr h.layout.ordered
  · have hbelow := (lex_below (hlexer.lexesBelow hdocument.size)).2 tokens hlex
    have hfresh := orderly_fresh progress.nextId hdocument.generation hordered
      fun token htoken => Span.fits_of_lt_deltaBound (hbelow token htoken)
    rw [← hnextId] at hfresh
    exact ⟨tokens, _, hlex, hordered, hfresh, map_placed_number⟩

/-- A verification succeeds if a full lexing has tokens that come in order. -/
theorem exists_verify_eq_ok
    (updated : List Token)
    (progress : Progress)
    (h : Workspace.Orderly ⟨store, progress.nextId⟩ document.generation view)
    (hlex : lexer.lex document.text = .ok tokens)
    (hordered : (tokens.map (·.span)).Pairwise Span.Precedes) :
    ∃ result progress',
      (verify lexer document store updated).outcome progress = (.ok result, progress') := by
  rw [verify, h.layout.check_eq, Outcome.wrap_ok,
    Work.outcome_bind_of_ok (Work.outcome_ofOutcome _ _), hlex, Outcome.wrap_ok,
    Work.outcome_bind_of_ok (Work.outcome_ofOutcome _ _), h.layout.toList_eq, Outcome.wrap_ok,
    Work.outcome_bind_of_ok (Work.outcome_ofOutcome _ _)]
  split
  next =>
    exact ⟨_, _, Work.outcome_pure _ _⟩
  next =>
    rw [Work.outcome_bind_of_ok (Attempt.outcome_note _),
      Work.outcome_bind_of_ok Attempt.outcome_countFallback,
      Work.outcome_bind_of_ok (outcome_number_of_ordered hordered)]
    exact ⟨_, _, Work.outcome_pure _ _⟩

end Verify

section Change

/-- An update of a consistent tokenizer leaves an orderly store for the verification. -/
theorem orderly_of_consistent
    (h : tokenizer.Consistent before)
    (hturns : before.Turns after replacements)
    (hafter : after.InRange)
    (stages : Stages tokenizer before after replacements tokenizer.nextId) :
    ∃ view', Workspace.Orderly ⟨stages.store, stages.merged.nextId⟩ after.generation view' := by
  obtain ⟨-, view, horderly, hview⟩ := h
  have hdelta := delta_lt_of_turns hturns stages.join hafter
  refine orderly_of_stages stages horderly fun entry hentry _ => ?_
  have hstop := hview entry hentry
  unfold deltaBound at hstop hdelta
  unfold positionBound
  omega

/-- A rebuild leaves a consistent tokenizer, with or without tokens. -/
theorem consistent_rebuild
    (hlexer : tokenizer.lexer.Bounded)
    (hdocument : document.InRange) :
    (tokenizer.rebuild document ticket).2.Consistent document :=
  (accounts_rebuild (hlexer.fits.lexesBelow hdocument.size) hdocument.generation).2.consistent
    hdocument

theorem consistent_follow
    (h : tokenizer.Consistent before)
    (hturns : before.Turns after [])
    (hafter : after.InRange) :
    (tokenizer.follow after).Consistent after := by
  obtain ⟨rfl, view, horderly, hview⟩ := h
  have hfollowed := orderly_follow_of_turns horderly rfl hturns hafter.generation
  exact ⟨document_follow, view, hfollowed, hview⟩

/-- A verified update that is not abandoned gives the tokens of a full lexing. -/
theorem followChange_of_verified
    {result : TokenStore × List Token}
    {progress : Progress}
    (hlexer : tokenizer.lexer.Bounded)
    (hverify : tokenizer.settings.verifyIncremental = true)
    (h : tokenizer.Consistent before)
    (hturns : before.Turns after replacements)
    (hsome : replacements ≠ [])
    (hafter : after.InRange)
    (hok : (tokenizer.incremental before after replacements).outcome tokenizer.toProgress =
      (.ok result, progress)) :
    (tokenizer.followChange before after replacements).1 = .ok () ∧
    (tokenizer.followChange before after replacements).2.Consistent after ∧
    ∃ tokens,
      tokenizer.lexer.lex after.text = .ok tokens ∧
      (tokens.map (·.span)).Pairwise Span.Precedes ∧
      (tokenizer.followChange before after replacements).2.store.toList = .ok tokens := by
  obtain ⟨stages⟩ := exists_stages hok
  obtain ⟨view, horderly⟩ := orderly_of_consistent h hturns hafter stages
  have hconclude := (outcome_incremental stages).symm.trans hok
  rw [conclude, if_pos hverify] at hconclude
  obtain ⟨tokens, view', hlex, hordered, horderly', rfl⟩ :=
    exists_of_verify hlexer hafter horderly hconclude
  rw [followChange_of_ok hsome hok]
  refine ⟨rfl, ⟨rfl, view', horderly', ?_⟩, _, hlex, hordered, horderly'.layout.toList_eq⟩
  intro entry hentry
  exact (lex_below (hlexer.lexesBelow hafter.size)).2 _ hlex _ (List.mem_map_of_mem hentry)

/-- An update that is abandoned ends like a rebuild, for it is one. -/
theorem likeRebuild_of_abandoned
    {error : UpdateError}
    {progress : Progress}
    (hlexer : tokenizer.lexer.Bounded)
    (hsome : transition.change.replacements ≠ [])
    (hafter : transition.after.InRange)
    (hcause : (tokenizer.incremental transition.before transition.after
      transition.change.replacements).outcome tokenizer.toProgress =
        (.error (.cause error), progress)) :
    tokenizer.LikeRebuild transition := by
  have hfollow : tokenizer.followTransition transition =
      (tokenizer.supersede.2.abandoned error progress).rebuild transition.after
        tokenizer.supersede.1 :=
    followChange_of_cause hsome hcause
  have hlexAll : ∀ outcome,
      lexAll tokenizer.lexer transition.after = outcome →
      lexAll (tokenizer.supersede.2.abandoned error progress).lexer transition.after = outcome :=
    fun _ heq => heq
  unfold LikeRebuild
  rw [hfollow]
  cases htokens : lexAll tokenizer.lexer transition.after with
  | ok tokens =>
      rw [rebuild_of_lexAll (hlexAll _ htokens)]
      have htiles := (lexAll_eq_ok_iff.mp htokens).2
      have hfits : ∀ token ∈ tokens, token.span.Fits := fun token htoken =>
        (htiles.bounds_of_mem htoken).2.2.2
      refine ⟨rfl, (layout_fresh hafter.generation htiles.ordered hfits).toList_eq.trans ?_⟩
      rw [map_placed_number]
  | error failure =>
      cases failure with
      | overflow =>
          exact absurd htokens (returns_lexAll (hlexer.fits.lexesBelow hafter.size))
      | cause error =>
          rw [rebuild_of_lexAll_error (hlexAll _ htokens)]
          exact ⟨rfl, rfl⟩

/-- An update that overlooks something is not abandoned. -/
theorem not_overlooks_of_abandoned
    {error : UpdateError}
    {progress : Progress}
    (hverify : tokenizer.settings.verifyIncremental = true)
    (h : tokenizer.Consistent transition.before)
    (hturns : transition.before.Turns transition.after transition.change.replacements)
    (hafter : transition.after.InRange)
    (hcause : (tokenizer.incremental transition.before transition.after
      transition.change.replacements).outcome tokenizer.toProgress =
        (.error (.cause error), progress)) :
    ¬ tokenizer.Overlooks transition := by
  rintro ⟨⟨stages⟩, tokens, hlex, hordered, -⟩
  obtain ⟨view, horderly⟩ := orderly_of_consistent h hturns hafter stages
  obtain ⟨result, progress', hok⟩ :=
    exists_verify_eq_ok stages.realignment.tokens (reached stages) horderly hlex hordered
  have hincremental := outcome_incremental stages
  rw [conclude, if_pos hverify, hok, hcause] at hincremental
  cases hincremental

/-- A verified update ends like a rebuild unless it overlooks something, and is consistent in any
case. -/
theorem likeRebuild_iff_of_consistent
    (hlexer : tokenizer.lexer.Bounded)
    (hverify : tokenizer.settings.verifyIncremental = true)
    (h : tokenizer.Consistent transition.before)
    (hturns : transition.before.Turns transition.after transition.change.replacements)
    (hsome : transition.change.replacements ≠ [])
    (hbefore : transition.before.InRange)
    (hafter : transition.after.InRange) :
    (tokenizer.LikeRebuild transition ↔ ¬ tokenizer.Overlooks transition) ∧
    (tokenizer.followTransition transition).2.Consistent transition.after := by
  have hreturns := returns_incremental hlexer.fits h hturns hsome hbefore hafter
  rcases hattempt : (tokenizer.incremental transition.before transition.after
    transition.change.replacements).outcome tokenizer.toProgress with
      ⟨(_ | error) | result, progress⟩
  · rw [hattempt] at hreturns
    exact absurd rfl hreturns
  · have hlike := likeRebuild_of_abandoned hlexer hsome hafter hattempt
    have hnot := not_overlooks_of_abandoned hverify h hturns hafter hattempt
    refine ⟨iff_of_true hlike hnot, ?_⟩
    rw [followTransition, followChange_of_cause hsome hattempt]
    exact consistent_rebuild hlexer hafter
  · obtain ⟨hanswer, hconsistent, tokens, hlex, hordered, htoList⟩ :=
      followChange_of_verified hlexer hverify h hturns hsome hafter hattempt
    refine ⟨?_, hconsistent⟩
    unfold LikeRebuild
    by_cases htiles : Tiles 0 tokens transition.after.size
    · refine iff_of_true ?_ ?_
      · rw [lexAll_eq_ok_iff.mpr ⟨hlex, htiles⟩]
        exact ⟨hanswer, htoList⟩
      · rintro ⟨-, tokens', hlex', -, hgap⟩
        rw [hlex, Except.ok.injEq] at hlex'
        exact hgap (hlex' ▸ htiles)
    · have hoverlooks : tokenizer.Overlooks transition :=
        ⟨exists_stages hattempt, tokens, hlex, hordered, htiles⟩
      refine iff_of_false ?_ (not_not_intro hoverlooks)
      intro hlike
      split at hlike
      next tokens' hlexAll =>
        obtain ⟨hlex', htiles'⟩ := lexAll_eq_ok_iff.mp hlexAll
        rw [hlex, Except.ok.injEq] at hlex'
        exact htiles (hlex' ▸ htiles')
      next error _ =>
        have hfail := hanswer.symm.trans hlike.1
        cases hfail
      next =>
        exact hlike

end Change

section Run

variable {slot slot' : Slot Document}
variable {answer : Outcome FollowError Unit}
variable {wanted : ChangeSet}

theorem consistent_of_session
    (hlexer : lexer.Bounded)
    (hverify : settings.verifyIncremental = true)
    (h : Session lexer settings slot answer tokenizer) :
    tokenizer.lexer = lexer ∧
    tokenizer.settings = settings ∧
    tokenizer.Consistent slot.current := by
  induction h with
  | @created slot nextId tokenizer hrange hcreate =>
      obtain ⟨tokens, htokens, rfl⟩ := create_eq_ok_iff.mp hcreate
      have htiles := (lexAll_eq_ok_iff.mp htokens).2
      refine ⟨rfl, rfl, Steady.consistent ?_ hrange⟩
      exact (steady_fresh hrange.generation rfl rfl rfl htiles).2
  | @followed slot slot' answer tokenizer wanted transition hsession hchange hrange ih =>
      obtain ⟨hsameLexer, hsameSettings, hconsistent⟩ := ih
      have hbefore := hsession.inRange
      obtain ⟨-, hturns, hold, rfl, rfl⟩ := Slot.change_eq_ok_iff.mp hchange
      rw [← hold] at hturns hbefore hconsistent
      refine ⟨fixed_followChange.1.trans hsameLexer, fixed_followChange.2.trans hsameSettings, ?_⟩
      by_cases hsome : transition.change.replacements = []
      · rw [hsome] at hturns
        rw [followTransition, hsome, followChange_of_nil hturns.text_eq]
        exact consistent_follow hconsistent hturns hrange
      · rw [← hsameLexer] at hlexer
        rw [← hsameSettings] at hverify
        exact (likeRebuild_iff_of_consistent hlexer hverify hconsistent hturns hsome hbefore
          hrange).2

/-- While a tokenizer that verifies its updates is told of the changes of a host, each update ends
like a rebuild, except where a full lexing has tokens that come in order but do not tile the
text. -/
theorem likeRebuild_iff_not_overlooks
    (hlexer : lexer.Bounded)
    (hverify : settings.verifyIncremental = true)
    (h : Session lexer settings slot answer tokenizer)
    (hchange : slot.change wanted = (.ok transition, slot'))
    (hsome : wanted.replacements ≠ [])
    (hrange : slot'.current.InRange) :
    tokenizer.LikeRebuild transition ↔ ¬ tokenizer.Overlooks transition := by
  obtain ⟨rfl, rfl, hconsistent⟩ := consistent_of_session hlexer hverify h
  have hbefore := h.inRange
  obtain ⟨-, hturns, hold, rfl, rfl⟩ := Slot.change_eq_ok_iff.mp hchange
  rw [← hold] at hturns hbefore hconsistent
  exact (likeRebuild_iff_of_consistent hlexer hverify hconsistent hturns hsome hbefore hrange).1

/-- The change of `a b ` to `a b c`, which has more tokens than `first4` ever finds. -/
def fifthToken : Transition Document ChangeSet where
  before := ⟨['a', ' ', 'b', ' '], ⟨0, 0⟩⟩
  after := ⟨['a', ' ', 'b', ' ', 'c'], ⟨0, 1⟩⟩
  change := ⟨0, [⟨⟨4, 0⟩, ['c']⟩]⟩

theorem bounded_first4 :
    Samples.first4.Bounded := by
  intro offset segments hbound item hitem
  refine Lexer.bounded_ofGrammar Samples.scanRun Samples.unclassified offset segments hbound item ?_
  unfold Samples.first4 Samples.takeItems at hitem
  dsimp only at hitem
  split at hitem
  · exact List.mem_of_mem_take hitem
  · exact hitem

theorem likeRebuild_iff_of_first4 :
    ∃ tokenizer,
      create Samples.first4 { verifyIncremental := true } fifthToken.before 0 = .ok tokenizer ∧
      (tokenizer.LikeRebuild fifthToken ↔ ¬ tokenizer.Overlooks fifthToken) := by
  obtain ⟨tokenizer, hcreate⟩ : ∃ tokenizer,
      create Samples.first4 { verifyIncremental := true } fifthToken.before 0 = .ok tokenizer :=
    ⟨_, create_eq_ok_iff.mpr ⟨[⟨1, ⟨0, 1⟩⟩, ⟨2, ⟨1, 1⟩⟩, ⟨1, ⟨2, 1⟩⟩, ⟨2, ⟨3, 1⟩⟩],
      by decide +kernel, rfl⟩⟩
  have hsession : Session Samples.first4 { verifyIncremental := true }
      (Slot.holding fifthToken.before) (.ok ()) tokenizer :=
    .created ⟨by decide, by decide⟩ hcreate
  have hchange : (Slot.holding fifthToken.before).change fifthToken.change =
      (.ok fifthToken, (Slot.holding fifthToken.before).publish fifthToken.after) := rfl
  exact ⟨tokenizer, hcreate,
    likeRebuild_iff_not_overlooks bounded_first4 rfl hsession hchange (by decide)
      ⟨by decide, by decide⟩⟩

/-- A verified update is accepted although the lexer stops early, where a rebuild is refused. -/
theorem not_likeRebuild_of_first4 :
    lexAll Samples.first4 fifthToken.after = Outcome.fail (.divergence 5 4) ∧
    ∃ tokenizer,
      create Samples.first4 { verifyIncremental := true } fifthToken.before 0 = .ok tokenizer ∧
      (tokenizer.followTransition fifthToken).1 = .ok () ∧
      ¬ tokenizer.LikeRebuild fifthToken := by
  have hlexAll : lexAll Samples.first4 fifthToken.after = Outcome.fail (.divergence 5 4) := by
    decide +kernel
  have hrun : ∃ tokenizer ∈
      (create Samples.first4 { verifyIncremental := true } fifthToken.before 0).toOption,
      (tokenizer.followTransition fifthToken).1 = .ok () := by
    decide +kernel
  obtain ⟨tokenizer, hmem, hanswer⟩ := hrun
  rcases hcreate : create Samples.first4 { verifyIncremental := true } fifthToken.before 0 with
    failure | created
  · rw [hcreate] at hmem
    cases hmem
  · rw [hcreate] at hmem
    obtain rfl : created = tokenizer := Option.some.inj hmem
    refine ⟨hlexAll, created, rfl, hanswer, ?_⟩
    obtain ⟨tokens, -, rfl⟩ := create_eq_ok_iff.mp hcreate
    unfold LikeRebuild
    rw [hlexAll]
    rintro ⟨hfail, -⟩
    have hboth := hanswer.symm.trans hfail
    cases hboth

end Run

end Tokenizer

end LiveTokens
