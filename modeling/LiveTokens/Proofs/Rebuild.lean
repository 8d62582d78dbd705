import LiveTokens.Proofs.Hosting
import LiveTokens.Proofs.Stages

/-!
# Rebuilding and following

A rebuild depends on the full lexing alone: its tokens become a fresh store, and
if there are none the store is empty.  A change without replacements moves the
store on by edits that change nothing.  A change with replacements is an
incremental update or else a rebuild.
-/

namespace LiveTokens

namespace Tokenizer

open TokenStore

variable {tokenizer : Tokenizer}
variable {before after document : Document}
variable {replacements : List Replacement}
variable {tokens : List Token}
variable {error : UpdateError}
variable {ticket : Ticket}

/-- A tokenizer can be created if the document can be lexed. -/
theorem create_eq_ok_iff
    {lexer : Lexer}
    {settings : Settings}
    {nextId : Nat} :
    create lexer settings document nextId = .ok tokenizer ↔
      ∃ tokens,
        lexAll lexer document = .ok tokens ∧
        tokenizer = {
          nextId := nextId + tokens.length
          lexer := lexer
          settings := settings
          document := document
          store := fresh document.generation nextId tokens
          publications := Slot.holding
            ⟨document, fresh document.generation nextId tokens, tokens⟩ } := by
  unfold create
  rw [outcome_storeOf]
  cases htokens : lexAll lexer document with
  | error failure =>
      constructor
      · intro h
        cases h
      · rintro ⟨tokens, h, -⟩
        cases h
  | ok tokens =>
      constructor
      · intro h
        cases h
        exact ⟨tokens, rfl, rfl⟩
      · rintro ⟨tokens', h, rfl⟩
        cases h
        rfl

theorem rebuild_of_lexAll
    (h : lexAll tokenizer.lexer document = .ok tokens) :
    tokenizer.rebuild document ticket =
      (.ok (),
        (tokenizer.adopt document (fresh document.generation tokenizer.nextId tokens)
          { tokenizer.toProgress with nextId := tokenizer.nextId + tokens.length }).publish
            tokens ticket) := by
  unfold rebuild
  rw [outcome_storeOf, h]

theorem rebuild_of_lexAll_error
    (h : lexAll tokenizer.lexer document = .error (.cause error)) :
    tokenizer.rebuild document ticket =
      (Outcome.fail (.rebuild error),
        (tokenizer.adopt document (TokenStore.empty document.generation)
          { tokenizer.toProgress with log := tokenizer.log ++ [.rescanFailed error] }).publish
            [] ticket) := by
  unfold rebuild
  rw [outcome_storeOf, h]

theorem rebuild_of_lexAll_overflow
    (h : lexAll tokenizer.lexer document = .error .overflow) :
    tokenizer.rebuild document ticket = (Outcome.overflow, tokenizer) := by
  unfold rebuild
  rw [outcome_storeOf, h]

/-- A document with another generation of the same text leaves every token where it is. -/
theorem layout_follow
    {version : Nat}
    {view : List (TrackedToken × Span)}
    (h : Layout tokenizer.store version view)
    (hlineage : after.version.lineage = tokenizer.document.version.lineage)
    (hbound : after.generation < positionBound) :
    Layout (tokenizer.follow after).store (max version after.generation) view := by
  unfold follow
  rw [if_pos hlineage]
  have hversion := h.bound
  have hmax : max version after.generation = version + (after.generation - version) := by omega
  rw [hmax]
  dsimp only
  rw [h.head]
  exact h.advance_identities _ (by omega)

theorem store_follow_of_lineage_ne
    (hlineage : after.version.lineage ≠ tokenizer.document.version.lineage) :
    (tokenizer.follow after).store = tokenizer.store := by
  unfold follow
  rw [if_neg hlineage]

/-- Following a document changes nothing else but the store. -/
theorem exists_follow_eq
    (tokenizer : Tokenizer)
    (after : Document) :
    ∃ store, tokenizer.follow after = { tokenizer with document := after, store := store } := by
  unfold follow
  split
  · exact ⟨_, rfl⟩
  · exact ⟨tokenizer.store, rfl⟩

@[simp] theorem document_follow :
    (tokenizer.follow after).document = after := by
  obtain ⟨store, hfollow⟩ := tokenizer.exists_follow_eq after
  rw [hfollow]

@[simp] theorem lexer_follow :
    (tokenizer.follow after).lexer = tokenizer.lexer := by
  obtain ⟨store, hfollow⟩ := tokenizer.exists_follow_eq after
  rw [hfollow]

@[simp] theorem settings_follow :
    (tokenizer.follow after).settings = tokenizer.settings := by
  obtain ⟨store, hfollow⟩ := tokenizer.exists_follow_eq after
  rw [hfollow]

@[simp] theorem toProgress_follow :
    (tokenizer.follow after).toProgress = tokenizer.toProgress := by
  obtain ⟨store, hfollow⟩ := tokenizer.exists_follow_eq after
  rw [hfollow]

/-- Following a document keeps the tokens, wherever they lie then. -/
@[simp] theorem ids_follow :
    (tokenizer.follow after).store.ids = tokenizer.store.ids := by
  have hadvances : ∀ (edits : List Edit) (store : TokenStore),
      (edits.foldl TokenStore.advance store).ids = store.ids := by
    intro edits
    induction edits with
    | nil =>
        exact fun _ => rfl
    | cons edit edits ih =>
        exact fun store => ih (store.advance edit)
  unfold follow
  split
  · exact hadvances _ _
  · rfl

/-- A document with another generation of the same text leaves the workspace orderly. -/
theorem orderly_follow
    {version : Nat}
    {view : List (TrackedToken × Span)}
    (h : Workspace.Orderly ⟨tokenizer.store, tokenizer.nextId⟩ version view)
    (hlineage : after.version.lineage = tokenizer.document.version.lineage)
    (hbound : after.generation < positionBound) :
    Workspace.Orderly ⟨(tokenizer.follow after).store, (tokenizer.follow after).nextId⟩
      (max version after.generation) view where
  layout := layout_follow h.layout hlineage hbound
  numbered := by
    rw [ids_follow, toProgress_follow]
    exact h.numbered

theorem orderly_follow_of_turns
    {view : List (TrackedToken × Span)}
    (h : Workspace.Orderly ⟨tokenizer.store, tokenizer.nextId⟩ before.generation view)
    (hdocument : tokenizer.document = before)
    (hturns : before.Turns after [])
    (hbound : after.generation < positionBound) :
    Workspace.Orderly ⟨(tokenizer.follow after).store, (tokenizer.follow after).nextId⟩
      after.generation view := by
  subst hdocument
  have hfollowed := orderly_follow h hturns.lineage hbound
  rwa [Nat.max_eq_right (Nat.le_of_lt hturns.generation_lt)] at hfollowed

theorem followChange_of_nil
    (htext : before.text = after.text) :
    tokenizer.followChange before after [] = (.ok (), tokenizer.follow after) := by
  unfold followChange
  rw [if_pos rfl, if_pos htext]

theorem followChange_of_nil_ne
    (htext : before.text ≠ after.text) :
    tokenizer.followChange before after [] = (Outcome.fail .emptyChange, tokenizer) := by
  unfold followChange
  rw [if_pos rfl, if_neg htext]

/-- The tokenizer that an incremental update was abandoned with. -/
def abandoned
    (tokenizer : Tokenizer)
    (error : UpdateError)
    (progress : Progress) : Tokenizer :=
  { tokenizer with toProgress :=
    { progress with
      log := progress.log ++ [.abandoned progress.phase error]
      fallbacks := progress.fallbacks + 1 } }

section Incremental

variable {store : TokenStore}
variable {updated : List Token}
variable {progress : Progress}

/-- A change with replacements is an update, and a rebuild if the update is abandoned. -/
theorem followChange_of_ne_nil
    (hsome : replacements ≠ []) :
    tokenizer.followChange before after replacements =
      match (tokenizer.supersede.2.incremental before after replacements).outcome
        tokenizer.toProgress with
      | (.ok (store, updated), progress) =>
        (.ok (),
          (tokenizer.supersede.2.adopt after store progress).publish updated
            tokenizer.supersede.1)
      | (.error .overflow, progress) =>
        (Outcome.overflow, { tokenizer.supersede.2 with toProgress := progress })
      | (.error (.cause error), progress) =>
        (tokenizer.supersede.2.abandoned error progress).rebuild after tokenizer.supersede.1 := by
  unfold followChange
  rw [if_neg hsome]
  rfl

theorem followChange_of_ok
    (hsome : replacements ≠ [])
    (h : (tokenizer.supersede.2.incremental before after replacements).outcome
      tokenizer.toProgress = (.ok (store, updated), progress)) :
    tokenizer.followChange before after replacements =
      (.ok (),
        (tokenizer.supersede.2.adopt after store progress).publish updated
          tokenizer.supersede.1) := by
  rw [followChange_of_ne_nil hsome, h]

theorem followChange_of_overflow
    (hsome : replacements ≠ [])
    (h : (tokenizer.supersede.2.incremental before after replacements).outcome
      tokenizer.toProgress = (.error .overflow, progress)) :
    tokenizer.followChange before after replacements =
      (Outcome.overflow, { tokenizer.supersede.2 with toProgress := progress }) := by
  rw [followChange_of_ne_nil hsome, h]

theorem followChange_of_cause
    (hsome : replacements ≠ [])
    (h : (tokenizer.supersede.2.incremental before after replacements).outcome
      tokenizer.toProgress = (.error (.cause error), progress)) :
    tokenizer.followChange before after replacements =
      (tokenizer.supersede.2.abandoned error progress).rebuild after tokenizer.supersede.1 := by
  rw [followChange_of_ne_nil hsome, h]

end Incremental

section Fixed

theorem fixed_rebuild :
    (tokenizer.rebuild document ticket).2.lexer = tokenizer.lexer ∧
    (tokenizer.rebuild document ticket).2.settings = tokenizer.settings := by
  rcases htokens : lexAll tokenizer.lexer document with (_ | error) | tokens
  · rw [rebuild_of_lexAll_overflow htokens]
    exact ⟨rfl, rfl⟩
  · rw [rebuild_of_lexAll_error htokens]
    exact ⟨rfl, rfl⟩
  · rw [rebuild_of_lexAll htokens]
    exact ⟨rfl, rfl⟩

/-- No call changes the lexer or the settings. -/
theorem fixed_followChange :
    (tokenizer.followChange before after replacements).2.lexer = tokenizer.lexer ∧
    (tokenizer.followChange before after replacements).2.settings = tokenizer.settings := by
  by_cases hsome : replacements = []
  · subst hsome
    by_cases htext : before.text = after.text
    · rw [followChange_of_nil htext]
      exact ⟨lexer_follow, settings_follow⟩
    · rw [followChange_of_nil_ne htext]
      exact ⟨rfl, rfl⟩
  · rcases hattempt : (tokenizer.supersede.2.incremental before after replacements).outcome
      tokenizer.toProgress with ⟨(_ | error) | ⟨store, updated⟩, progress⟩
    · rw [followChange_of_overflow hsome hattempt]
      exact ⟨rfl, rfl⟩
    · rw [followChange_of_cause hsome hattempt]
      exact fixed_rebuild
    · rw [followChange_of_ok hsome hattempt]
      exact ⟨rfl, rfl⟩

theorem fallbacks_rebuild :
    (tokenizer.rebuild document ticket).2.fallbacks = tokenizer.fallbacks := by
  rcases htokens : lexAll tokenizer.lexer document with (_ | error) | tokens
  · rw [rebuild_of_lexAll_overflow htokens]
  · rw [rebuild_of_lexAll_error htokens]
    rfl
  · rw [rebuild_of_lexAll htokens]
    rfl

end Fixed

end Tokenizer

end LiveTokens
