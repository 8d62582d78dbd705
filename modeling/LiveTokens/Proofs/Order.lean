import LiveTokens.Proofs.Rebuild
import LiveTokens.Proofs.Splice

/-!
# Order is never lost

A store is *intact* if it passes its check and no two of its tokens can be taken
for one another.  Whatever a lexer returns, and whatever change a tokenizer is
told of, the store that a call leaves behind is intact again: an incremental
update works on a layout throughout, and everything else makes a new store or
keeps the old one.
-/

namespace LiveTokens

namespace TokenStore

variable {store : TokenStore}
variable {nextId generation firstId : Nat}
variable {tokens : List Token}

/-- The store passes its check, and the numbers of its tokens are distinct and used up. -/
structure Intact
    (store : TokenStore)
    (nextId : Nat) : Prop where
  checked : store.check = .ok ()
  distinct : store.ids.Nodup
  numbered : ∀ id ∈ store.ids, id < nextId

/-- No token of the store, where it is now or where the replacements move it, ends beyond the last
position. -/
def InRange
    (store : TokenStore)
    (replacements : List Replacement) : Prop :=
  ∀ version tracked span,
    (store.version : Outcome StoreError Nat) = .ok version →
    tracked ∈ store.tokens →
    store.locate tracked version = .ok span →
    span.Fits ∧
    ∀ edit,
      Edit.join replacements = .ok edit →
      edit.region.start + edit.region.length < span.start →
      span.start + span.length + edit.delta < positionBound

theorem intact_of_orderly
    {version : Nat}
    {view : List (TrackedToken × Span)}
    (h : Workspace.Orderly ⟨store, nextId⟩ version view) :
    store.Intact nextId where
  checked := h.layout.check_eq
  distinct := h.layout.distinct
  numbered := h.numbered

/-- Replacements in range move no entry behind them beyond the last position. -/
theorem InRange.of_layout
    {replacements : List Replacement}
    {version : Nat}
    {view : List (TrackedToken × Span)}
    {edit : Edit}
    (h : store.InRange replacements)
    (hlayout : Layout store version view)
    (hjoin : Edit.join replacements = .ok edit) :
    ∀ entry ∈ view,
      edit.region.start + edit.region.length < entry.2.start →
      entry.2.start + entry.2.length + edit.delta < positionBound := by
  intro entry hentry hbehind
  have htoken : entry.1 ∈ store.tokens := by
    rw [← hlayout.tokens]
    exact List.mem_map_of_mem hentry
  obtain ⟨-, hmoved⟩ :=
    h version entry.1 entry.2 hlayout.version_eq htoken (hlayout.located entry hentry)
  exact hmoved edit hjoin hbehind

theorem exists_orderly_of_intact
    {replacements : List Replacement}
    (h : store.Intact nextId)
    (hrange : store.InRange replacements) :
    ∃ version view, Workspace.Orderly ⟨store, nextId⟩ version view := by
  obtain ⟨version, view, hlayout⟩ := Layout.exists_of_check h.checked h.distinct
    fun tracked htracked version span hversion hlocate =>
      (hrange version tracked span hversion htracked hlocate).1
  exact ⟨version, view, hlayout, h.numbered⟩

theorem intact_empty
    (hbound : generation < positionBound) :
    (empty generation).Intact nextId where
  checked := (layout_empty hbound).check_eq
  distinct := List.nodup_nil
  numbered _ hid := absurd hid List.not_mem_nil

theorem intact_fresh
    (hbound : generation < positionBound)
    (hordered : (tokens.map (·.span)).Pairwise Span.Precedes) :
    (fresh generation firstId tokens).Intact (firstId + tokens.length) where
  checked :=
    check_eq_ok_iff.mpr
      ⟨generation, tokens.map (·.span), rfl, hbound, map_locate_fresh hbound, hordered⟩
  distinct := by
    rw [ids_fresh]
    exact List.nodup_range'
  numbered id hid := by
    rw [ids_fresh, List.mem_range'_1] at hid
    exact hid.2

theorem orderly_fresh
    (firstId : Nat)
    (hbound : generation < positionBound)
    (hordered : (tokens.map (·.span)).Pairwise Span.Precedes)
    (hfits : ∀ token ∈ tokens, token.span.Fits) :
    Workspace.Orderly ⟨fresh generation firstId tokens, firstId + tokens.length⟩ generation
      ((TrackedToken.number generation firstId tokens).map TrackedToken.entry) where
  layout := layout_fresh hbound hordered hfits
  numbered := (intact_fresh hbound hordered).numbered

end TokenStore

namespace Tokenizer

open TokenStore

variable {tokenizer : Tokenizer}
variable {before after document : Document}
variable {replacements : List Replacement}
variable {progress progress' : Progress}
variable {ticket : Ticket}

section Incremental

theorem intact_incremental
    {result : TokenStore × List Token}
    (h : tokenizer.store.Intact progress.nextId)
    (hrange : tokenizer.store.InRange replacements)
    (hbound : after.generation < positionBound)
    (hok : (tokenizer.incremental before after replacements).outcome progress =
      (.ok result, progress')) :
    result.1.Intact progress'.nextId := by
  obtain ⟨stages⟩ := exists_stages hok
  obtain ⟨version, view, horderly⟩ := exists_orderly_of_intact h hrange
  have hversion : version = before.generation := by
    have heq := horderly.layout.version_eq (ε := UpdateError)
    rw [stages.version] at heq
    exact (Except.ok.inj heq).symm
  subst hversion
  obtain ⟨view', hcompacted⟩ :=
    orderly_of_stages stages horderly (hrange.of_layout horderly.layout stages.join)
  have hintact := intact_of_orderly hcompacted
  rw [outcome_incremental stages] at hok
  unfold conclude at hok
  split at hok
  next =>
    obtain ⟨-, expected, -, hkept | ⟨hordered, rfl, hnextId⟩⟩ := verify_eq_ok hok
    · obtain ⟨-, rfl, rfl⟩ := hkept
      exact hintact
    · rw [hnextId]
      exact intact_fresh hbound hordered
  next =>
    cases hok
    exact hintact

end Incremental

section Calls

/-- Between two calls, the store is intact and the document has a proper generation. -/
structure Settled
    (tokenizer : Tokenizer) : Prop where
  intact : tokenizer.store.Intact tokenizer.nextId
  dated : tokenizer.document.generation < positionBound

theorem settled_rebuild
    (hbound : document.generation < positionBound)
    (hreturns : (tokenizer.rebuild document ticket).1.Returns) :
    (tokenizer.rebuild document ticket).2.Settled := by
  cases htokens : lexAll tokenizer.lexer document with
  | ok tokens =>
      rw [rebuild_of_lexAll htokens]
      exact ⟨intact_fresh hbound (lexAll_eq_ok_iff.mp htokens).2.ordered, hbound⟩
  | error failure =>
      cases failure with
      | overflow =>
          rw [rebuild_of_lexAll_overflow htokens] at hreturns
          exact absurd rfl hreturns
      | cause error =>
          rw [rebuild_of_lexAll_error htokens]
          exact ⟨intact_empty hbound, hbound⟩

theorem settled_follow
    (h : tokenizer.Settled)
    (hrange : tokenizer.store.InRange [])
    (hbound : after.generation < positionBound) :
    (tokenizer.follow after).Settled := by
  refine ⟨?_, by rwa [document_follow]⟩
  rw [toProgress_follow]
  by_cases hlineage : after.version.lineage = tokenizer.document.version.lineage
  · obtain ⟨version, view, horderly⟩ := exists_orderly_of_intact h.intact hrange
    have hfollowed := orderly_follow horderly hlineage hbound
    rw [toProgress_follow] at hfollowed
    exact intact_of_orderly hfollowed
  · rw [store_follow_of_lineage_ne hlineage]
    exact h.intact

theorem settled_followChange
    (h : tokenizer.Settled)
    (hrange : tokenizer.store.InRange replacements)
    (hbound : after.generation < positionBound)
    (hreturns : (tokenizer.followChange before after replacements).1.Returns) :
    (tokenizer.followChange before after replacements).2.Settled := by
  by_cases hsome : replacements = []
  · subst hsome
    by_cases htext : before.text = after.text
    · rw [followChange_of_nil htext]
      exact settled_follow h hrange hbound
    · rw [followChange_of_nil_ne htext]
      exact h
  · rcases hattempt : (tokenizer.supersede.2.incremental before after replacements).outcome
      tokenizer.toProgress with ⟨(_ | error) | ⟨store, updated⟩, progress⟩
    · rw [followChange_of_overflow hsome hattempt] at hreturns
      exact absurd rfl hreturns
    · rw [followChange_of_cause hsome hattempt] at hreturns ⊢
      exact settled_rebuild hbound hreturns
    · rw [followChange_of_ok hsome hattempt]
      exact ⟨intact_incremental h.intact hrange hbound hattempt, hbound⟩

/-- What a tokenizer can be asked to do, with whatever arguments. -/
inductive Call where
  | change (before after : Document) (replacements : List Replacement)
  | rescan

/-- Carries out a call. -/
def perform
    (tokenizer : Tokenizer) : Call → Outcome FollowError Unit × Tokenizer
  | .change before after replacements => tokenizer.followChange before after replacements
  | .rescan => tokenizer.rescan

/-- The call needs no position and no generation of `2 ^ 64` and more. -/
def Call.InRange
    (tokenizer : Tokenizer) : Call → Prop
  | .change _ after replacements =>
      after.generation < positionBound ∧
      tokenizer.store.InRange replacements
  | .rescan => True

/-- The tokenizers that a run of calls leads to, each of which has returned. -/
inductive Reachable
    (lexer : Lexer)
    (settings : Settings) : Tokenizer → Prop
  | created
      {document : Document}
      {nextId : Nat}
      {tokenizer : Tokenizer}
      (hbound : document.generation < positionBound)
      (hcreate : create lexer settings document nextId = .ok tokenizer) :
      Reachable lexer settings tokenizer
  | performed
      {tokenizer : Tokenizer}
      {call : Call}
      (hreachable : Reachable lexer settings tokenizer)
      (hrange : call.InRange tokenizer)
      (hreturns : (tokenizer.perform call).1.Returns) :
      Reachable lexer settings (tokenizer.perform call).2

theorem settled_create
    {lexer : Lexer}
    {settings : Settings}
    {nextId : Nat}
    (hbound : document.generation < positionBound)
    (hcreate : create lexer settings document nextId = .ok tokenizer) :
    tokenizer.Settled := by
  obtain ⟨tokens, htokens, rfl⟩ := create_eq_ok_iff.mp hcreate
  exact ⟨intact_fresh hbound (lexAll_eq_ok_iff.mp htokens).2.ordered, hbound⟩

theorem settled_perform
    {call : Call}
    (h : tokenizer.Settled)
    (hrange : call.InRange tokenizer)
    (hreturns : (tokenizer.perform call).1.Returns) :
    (tokenizer.perform call).2.Settled := by
  cases call with
  | change before after replacements =>
      exact settled_followChange h hrange.2 hrange.1 hreturns
  | rescan =>
      exact settled_rebuild h.dated hreturns

/-- Whatever the lexer returns and whatever changes are reported, after every call each token can be
located and the tokens come in order. -/
theorem check_of_reachable
    {lexer : Lexer}
    {settings : Settings}
    (h : Reachable lexer settings tokenizer) :
    tokenizer.store.check = .ok () := by
  have hsettled : tokenizer.Settled := by
    induction h with
    | created hbound hcreate =>
        exact settled_create hbound hcreate
    | performed hreachable hrange hreturns ih =>
        exact settled_perform ih hrange hreturns
  exact hsettled.intact.checked

/-- A lexer that finds one token of one byte, whatever the text is. -/
def stubborn : Lexer :=
  ⟨fun offset _ => ⟨[⟨.ok ⟨0, ⟨offset, 1⟩⟩, 1⟩], 1⟩, fun _ => .unknown⟩

theorem check_after_stubborn_change :
    ∃ tokenizer,
      create stubborn {} ⟨['a'], ⟨0, 0⟩⟩ 0 = .ok tokenizer ∧
      (tokenizer.perform
        (.change ⟨['a'], ⟨0, 0⟩⟩ ⟨['b'], ⟨0, 1⟩⟩ [⟨⟨0, 1⟩, ['b']⟩])).2.store.check = .ok () := by
  refine ⟨_, rfl, ?_⟩
  have hcreate : create stubborn {} ⟨['a'], ⟨0, 0⟩⟩ 0 = .ok _ := rfl
  have hcreated := Reachable.created (by decide) hcreate
  refine check_of_reachable (hcreated.performed ?_ ?_)
  · refine ⟨by decide, ?_⟩
    intro version tracked span hversion htracked hlocate
    obtain rfl := List.mem_singleton.mp htracked
    cases hversion
    cases hlocate
    refine ⟨by decide, ?_⟩
    intro edit hjoin hbehind
    cases hjoin
    exact absurd hbehind (by decide)
  · decide +kernel

end Calls

end Tokenizer

end LiveTokens
