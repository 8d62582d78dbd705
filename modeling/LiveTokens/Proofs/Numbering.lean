import LiveTokens.Proofs.Rebuild

/-!
# Numbers are used up

Work that fails leaves behind what its steps did before.  A *frame* is something
that holds between a state and every later one, so that it holds however far the
work has come.  In an attempt at an update, numbers of tokens are only ever used
up: those in the store are distinct and lie below the next free one, even where
the attempt stops half-way.
-/

namespace LiveTokens

/-- A relation between a state and the states that steps lead to. -/
structure Frame
    (σ : Type) where
  holds : σ → σ → Prop
  refl : ∀ state, holds state state
  trans : ∀ {first second third}, holds first second → holds second third → holds first third

namespace Work

variable {σ ε α β : Type}
variable {frame : Frame σ}

/-- However the work ends, the frame holds between the state before it and the one after it. -/
def Keeps
    (frame : Frame σ)
    (work : Work σ ε α) : Prop :=
  ∀ state, frame.holds state (work.outcome state).2

theorem keeps_pure
    (value : α) :
    (pure value : Work σ ε α).Keeps frame :=
  fun state => frame.refl state

theorem keeps_fail
    (error : ε) :
    (fail error : Work σ ε α).Keeps frame :=
  fun state => frame.refl state

theorem keeps_ofOutcome
    (result : Outcome ε α) :
    (ofOutcome result : Work σ ε α).Keeps frame := by
  intro state
  rw [outcome_ofOutcome]
  exact frame.refl state

theorem Keeps.bind
    {first : Work σ ε α}
    {next : α → Work σ ε β}
    (hfirst : first.Keeps frame)
    (hnext : ∀ value, (next value).Keeps frame) :
    (first >>= next).Keeps frame := by
  intro state
  have hstep := hfirst state
  rw [outcome_bind]
  rcases hmiddle : first.outcome state with ⟨failure | value, middle⟩
  · rw [hmiddle] at hstep
    exact hstep
  · rw [hmiddle] at hstep
    exact frame.trans hstep (hnext value middle)

theorem keeps_forM
    {elements : List α}
    {work : α → Work σ ε PUnit}
    (h : ∀ element, (work element).Keeps frame) :
    (elements.forM work).Keeps frame := by
  induction elements with
  | nil =>
      exact keeps_pure PUnit.unit
  | cons element rest ih =>
      rw [List.forM]
      exact (h element).bind fun _ => ih

end Work

namespace TokenStore

variable {store store' : TokenStore}
variable {tracked : TrackedToken}
variable {nextId nextId' generation firstId : Nat}
variable {tokens : List Token}

/-- The tokens of the store have different numbers, and none of them is free. -/
structure Numbered
    (store : TokenStore)
    (nextId : Nat) : Prop where
  distinct : store.ids.Nodup
  used : ∀ id ∈ store.ids, id < nextId

namespace Numbered

theorem mono
    (h : store.Numbered nextId)
    (hle : nextId ≤ nextId') :
    store.Numbered nextId' where
  distinct := h.distinct
  used id hid := Nat.lt_of_lt_of_le (h.used id hid) hle

theorem sublist
    (h : store.Numbered nextId)
    (hsub : store'.ids.Sublist store.ids) :
    store'.Numbered nextId where
  distinct := h.distinct.sublist hsub
  used id hid := h.used id (hsub.subset hid)

end Numbered

theorem numbered_empty :
    (empty generation).Numbered nextId where
  distinct := List.nodup_nil
  used _ hid := absurd hid List.not_mem_nil

theorem numbered_fresh :
    (fresh generation firstId tokens).Numbered (firstId + tokens.length) where
  distinct := by
    rw [ids_fresh]
    exact List.nodup_range'
  used id hid := by
    rw [ids_fresh, List.mem_range'_1] at hid
    exact hid.2

theorem sublist_of_remove
    (h : store.remove tracked = .ok store') :
    store'.ids.Sublist store.ids := by
  rw [remove_eq_do] at h
  obtain ⟨found, -, h⟩ := Outcome.bind_eq_ok_iff.mp h
  split at h
  next =>
    cases h
  next =>
    cases h
    exact (List.eraseIdx_sublist _ _).map _

/-- A token that is added is one more, if there is a place for it. -/
theorem perm_of_add
    (h : store.add tracked = .ok store') :
    store'.ids = store.ids ∨ store'.ids.Perm (tracked.id :: store.ids) := by
  rw [add_eq_do] at h
  obtain ⟨version, -, h⟩ := Outcome.bind_eq_ok_iff.mp h
  obtain ⟨span, -, h⟩ := Outcome.bind_eq_ok_iff.mp h
  obtain ⟨index, -, h⟩ := Outcome.bind_eq_ok_iff.mp h
  obtain ⟨_, -, h⟩ := Outcome.bind_eq_ok_iff.mp h
  obtain ⟨_, -, h⟩ := Outcome.bind_eq_ok_iff.mp h
  cases h
  by_cases hindex : index ≤ store.tokens.length
  · exact .inr ((List.perm_insertIdx tracked store.tokens hindex).map _)
  · left
    rw [ids, List.insertIdx_of_length_lt (Nat.lt_of_not_le hindex)]
    rfl

theorem numbered_of_add
    (h : store.Numbered tracked.id)
    (hadd : store.add tracked = .ok store') :
    store'.Numbered (tracked.id + 1) := by
  rcases perm_of_add hadd with hids | hperm
  · exact (h.sublist (hids ▸ List.Sublist.refl _)).mono (Nat.le_succ _)
  · refine ⟨hperm.nodup_iff.mpr (List.nodup_cons.mpr ⟨?_, h.distinct⟩), fun id hid => ?_⟩
    · exact fun hmem => Nat.lt_irrefl _ (h.used _ hmem)
    · rcases List.mem_cons.mp (hperm.mem_iff.mp hid) with rfl | hmem
      · exact Nat.lt_succ_self _
      · exact Nat.lt_succ_of_lt (h.used id hmem)

theorem ids_of_mapM_rebased
    {version : Nat}
    {old new : List TrackedToken}
    (h : old.mapM (fun tracked => do
      return tracked.rebased (← store.locate tracked version) version) =
        (.ok new : Outcome StoreError _)) :
    new.map (·.id) = old.map (·.id) := by
  induction old generalizing new with
  | nil =>
      cases h
      rfl
  | cons tracked rest ih =>
      rw [List.mapM_cons] at h
      obtain ⟨rebased, hrebased, h⟩ := Outcome.bind_eq_ok_iff.mp h
      obtain ⟨others, hothers, h⟩ := Outcome.bind_eq_ok_iff.mp h
      obtain ⟨span, -, hrebased⟩ := Outcome.bind_eq_ok_iff.mp hrebased
      cases hrebased
      cases h
      rw [List.map_cons, List.map_cons, ih hothers, TrackedToken.id_rebased]

/-- Measuring tokens anew keeps their numbers. -/
theorem ids_of_compact
    (h : store.compact = .ok store') :
    store'.ids = store.ids := by
  rw [compact_eq_do] at h
  obtain ⟨version, -, h⟩ := Outcome.bind_eq_ok_iff.mp h
  obtain ⟨tokens, htokens, h⟩ := Outcome.bind_eq_ok_iff.mp h
  cases h
  exact ids_of_mapM_rebased htokens

theorem le_ofTokens :
    firstId ≤ (ofTokens generation firstId tokens).2 := by
  unfold ofTokens
  split
  · exact Nat.le_add_right _ _
  · exact Nat.le_add_right _ _
  · exact Nat.le_refl _

end TokenStore

/-- Numbers are used up, and the numbers in the store stay distinct and used. -/
def Workspace.numbering : Frame Workspace where
  holds first second :=
    first.nextId ≤ second.nextId ∧
    (first.store.Numbered first.nextId → second.store.Numbered second.nextId)
  refl _ := ⟨Nat.le_refl _, id⟩
  trans hfirst hsecond :=
    ⟨Nat.le_trans hfirst.1 hsecond.1, fun h => hsecond.2 (hfirst.2 h)⟩

/-- Numbers are used up, and only a verification counts a fallback. -/
def Progress.numbering
    (verified : Bool) : Frame Progress where
  holds first second :=
    first.nextId ≤ second.nextId ∧
    (verified = false → second.fallbacks = first.fallbacks)
  refl _ := ⟨Nat.le_refl _, fun _ => rfl⟩
  trans hfirst hsecond :=
    ⟨Nat.le_trans hfirst.1 hsecond.1, fun h => (hsecond.2 h).trans (hfirst.2 h)⟩

namespace Revision

open Work

theorem keeps_query
    {α : Type}
    {frame : Frame Workspace}
    (question : TokenStore → Outcome StoreError α) :
    (query question).Keeps frame := by
  intro workspace
  rw [outcome_query]
  exact frame.refl workspace

theorem keeps_update
    {frame : Frame Workspace}
    {change : TokenStore → Outcome StoreError TokenStore}
    (hchange : ∀ workspace store, change workspace.store = .ok store →
      frame.holds workspace ⟨store, workspace.nextId⟩) :
    (update change).Keeps frame := by
  intro workspace
  rw [update, outcome_bind, outcome_query]
  rcases hstore : change workspace.store with (_ | error) | store
  · exact frame.refl workspace
  · exact frame.refl workspace
  · exact hchange workspace store hstore

theorem keeps_remove
    (tracked : TrackedToken) :
    (update (·.remove tracked)).Keeps Workspace.numbering :=
  keeps_update fun _ _ hremove =>
    ⟨Nat.le_refl _, fun h => h.sublist (TokenStore.sublist_of_remove hremove)⟩

theorem keeps_advance
    (edit : Edit) :
    Keeps Workspace.numbering (modify fun workspace =>
      { workspace with store := workspace.store.advance edit } : Revision PUnit) :=
  fun _ => ⟨Nat.le_refl _, fun h => h.sublist (List.Sublist.refl _)⟩

theorem keeps_put
    (version : Nat)
    (token : Token) :
    (put version token).Keeps Workspace.numbering := by
  intro workspace
  rw [put, outcome_bind_of_ok (outcome_track token version), update, outcome_bind, outcome_query]
  dsimp only
  cases hadd : workspace.store.add ⟨workspace.nextId, token, version⟩ with
  | error failure =>
      have hkept : Workspace.numbering.holds workspace ⟨workspace.store, workspace.nextId + 1⟩ :=
        ⟨Nat.le_succ _, fun h => h.mono (Nat.le_succ _)⟩
      rcases failure with _ | error
      · exact hkept
      · exact hkept
  | ok store =>
      exact ⟨Nat.le_succ _, fun h => TokenStore.numbered_of_add h hadd⟩

theorem keeps_excise
    (before after : Document)
    (edit : Edit) :
    (excise before after edit).Keeps Workspace.numbering := by
  unfold excise
  refine (keeps_query _).bind fun touched => ?_
  have hremovals : (touched.forM fun entry => update (·.remove entry.1)).Keeps
      Workspace.numbering :=
    keeps_forM fun entry => keeps_remove entry.1
  refine hremovals.bind fun _ => ?_
  refine (keeps_advance edit).bind fun _ => ?_
  refine (keeps_query _).bind fun version => ?_
  split
  · exact keeps_fail _
  · refine (keeps_ofOutcome _).bind fun span => (keeps_ofOutcome _).bind fun stop => ?_
    split
    · exact keeps_fail _
    · exact keeps_pure _

/-- A merge is made of removals and insertions only. -/
theorem keeps_merge_of
    {frame : Frame Workspace}
    (hremove : ∀ tracked, (update (·.remove tracked)).Keeps frame)
    (hput : ∀ version token, (put version token).Keeps frame)
    (realignment : Realignment) :
    (merge realignment).Keeps frame := by
  unfold merge
  refine (keeps_query _).bind fun version => ?_
  refine (keeps_forM hremove).bind fun _ => ?_
  exact keeps_forM (hput version)

theorem keeps_merge
    (realignment : Realignment) :
    (merge realignment).Keeps Workspace.numbering :=
  keeps_merge_of keeps_remove keeps_put realignment

end Revision

namespace Attempt

open Work

variable {verified : Bool}

theorem keeps_enter
    (phase : Phase) :
    (enter phase).Keeps (Progress.numbering verified) :=
  fun _ => ⟨Nat.le_refl _, fun _ => rfl⟩

theorem keeps_note
    (event : LogEvent) :
    (note event).Keeps (Progress.numbering verified) :=
  fun _ => ⟨Nat.le_refl _, fun _ => rfl⟩

theorem keeps_countFallback :
    countFallback.Keeps (Progress.numbering true) :=
  fun _ => ⟨Nat.le_refl _, nofun⟩

theorem keeps_revise
    {α : Type}
    {revision : Revision α}
    (h : revision.Keeps Workspace.numbering)
    (store : TokenStore) :
    (revise store revision).Keeps (Progress.numbering verified) := by
  intro progress
  have hnumbering := h ⟨store, progress.nextId⟩
  rw [outcome_revise]
  rcases hrevision : revision.outcome ⟨store, progress.nextId⟩ with ⟨failure | value, workspace⟩
  · rw [hrevision] at hnumbering
    exact ⟨hnumbering.1, fun _ => rfl⟩
  · rw [hrevision] at hnumbering
    exact ⟨hnumbering.1, fun _ => rfl⟩

theorem keeps_number
    (generation : Nat)
    (tokens : List Token) :
    (number generation tokens).Keeps (Progress.numbering verified) := by
  intro progress
  rw [number, outcome_bind_of_ok (outcome_get _), outcome_bind_of_ok (outcome_set _ _),
    outcome_ofOutcome]
  exact ⟨TokenStore.le_ofTokens, fun _ => rfl⟩

end Attempt

namespace Tokenizer

open Work TokenStore

variable {tokenizer : Tokenizer}
variable {before after document : Document}
variable {replacements : List Replacement}
variable {progress progress' : Progress}
variable {store store' : TokenStore}

theorem keeps_verify
    {lexer : Lexer}
    {updated : List Token} :
    (verify lexer after store updated).Keeps (Progress.numbering true) := by
  unfold verify
  refine (keeps_ofOutcome _).bind fun _ => ?_
  refine (keeps_ofOutcome _).bind fun expected => ?_
  refine (keeps_ofOutcome _).bind fun tokens => ?_
  split
  · exact keeps_pure _
  · refine (Attempt.keeps_note _).bind fun _ => ?_
    refine Attempt.keeps_countFallback.bind fun _ => ?_
    exact (Attempt.keeps_number _ _).bind fun _ => keeps_pure _

/-- However far an incremental update has come, it has used up numbers, and counted a fallback only
where it was verified. -/
theorem keeps_incremental
    (tokenizer : Tokenizer)
    (before after : Document)
    (replacements : List Replacement) :
    (tokenizer.incremental before after replacements).Keeps
      (Progress.numbering tokenizer.settings.verifyIncremental) := by
  unfold incremental
  refine (keeps_ofOutcome _).bind fun version => ?_
  split
  · exact keeps_fail _
  refine (keeps_ofOutcome _).bind fun edit => ?_
  refine (Attempt.keeps_enter _).bind fun _ => ?_
  refine (Attempt.keeps_revise (Revision.keeps_excise _ _ _) _).bind fun excised => ?_
  refine (Attempt.keeps_note _).bind fun _ => (Attempt.keeps_enter _).bind fun _ => ?_
  refine (keeps_ofOutcome _).bind fun realignment => ?_
  refine (Attempt.keeps_note _).bind fun _ => (Attempt.keeps_enter _).bind fun _ => ?_
  refine (Attempt.keeps_revise (Revision.keeps_merge _) _).bind fun merged => ?_
  refine (keeps_ofOutcome _).bind fun compacted => ?_
  refine (Attempt.keeps_note _).bind fun _ => ?_
  split
  next hverify =>
    rw [hverify]
    exact keeps_verify
  next =>
    exact keeps_pure _

theorem nextId_le_of_incremental
    {answer : Outcome UpdateError (TokenStore × List Token)}
    (h : (tokenizer.incremental before after replacements).outcome progress =
      (answer, progress')) :
    progress.nextId ≤ progress'.nextId := by
  have hkept := keeps_incremental tokenizer before after replacements progress
  rw [h] at hkept
  exact hkept.1

theorem ids_of_compactBeyond
    {settings : Settings}
    (h : compactBeyond settings store = .ok store') :
    store'.ids = store.ids := by
  unfold compactBeyond at h
  split at h
  next =>
    exact ids_of_compact h
  next =>
    cases h
    rfl

/-- The store that an update gives has numbers that were free before, and old ones. -/
theorem numbered_incremental
    {result : TokenStore × List Token}
    (h : tokenizer.store.Numbered progress.nextId)
    (hok : (tokenizer.incremental before after replacements).outcome progress =
      (.ok result, progress')) :
    result.1.Numbered progress'.nextId := by
  obtain ⟨stages⟩ := exists_stages hok
  have hexcised : stages.excised.store.Numbered stages.excised.nextId := by
    have hkept := Revision.keeps_excise before after stages.edit ⟨tokenizer.store, progress.nextId⟩
    rw [stages.excise] at hkept
    exact hkept.2 h
  have hmerged : stages.merged.store.Numbered stages.merged.nextId := by
    have hkept := Revision.keeps_merge stages.realignment stages.excised
    rw [stages.merge] at hkept
    exact hkept.2 hexcised
  have hcompacted : stages.store.Numbered stages.merged.nextId :=
    hmerged.sublist (ids_of_compactBeyond stages.compact ▸ List.Sublist.refl _)
  rw [outcome_incremental stages, conclude] at hok
  split at hok
  next =>
    obtain ⟨-, expected, -, hkept | ⟨-, rfl, hnextId⟩⟩ := verify_eq_ok hok
    · obtain ⟨-, rfl, rfl⟩ := hkept
      exact hcompacted
    · rw [hnextId]
      exact numbered_fresh
  next =>
    cases hok
    exact hcompacted

section Fallback

/-- The incremental update reports a cause, and this is how far it has come. -/
def Abandons
    (tokenizer : Tokenizer)
    (before after : Document)
    (replacements : List Replacement)
    (error : UpdateError)
    (progress : Progress) : Prop :=
  (tokenizer.incremental before after replacements).outcome tokenizer.toProgress =
    (.error (.cause error), progress)

/-- The incremental update is abandoned, which counts as one more fallback, and a rebuild takes its
place. -/
def FallsBack
    (tokenizer : Tokenizer)
    (before after : Document)
    (replacements : List Replacement) : Prop :=
  ∃ error progress,
    tokenizer.Abandons before after replacements error progress ∧
    tokenizer.followChange before after replacements =
      (tokenizer.supersede.2.abandoned error progress).rebuild after tokenizer.supersede.1 ∧
    (tokenizer.followChange before after replacements).2.fallbacks = tokenizer.fallbacks + 1

variable {error : UpdateError}

/-- An abandoned update has used up numbers and counted nothing yet. -/
theorem Abandons.numbering
    (h : tokenizer.Abandons before after replacements error progress)
    (hverify : tokenizer.settings.verifyIncremental = false) :
    tokenizer.nextId ≤ progress.nextId ∧
    progress.fallbacks = tokenizer.fallbacks := by
  have hkept := keeps_incremental tokenizer before after replacements tokenizer.toProgress
  rw [h] at hkept
  exact ⟨hkept.1, hkept.2 hverify⟩

theorem fallsBack_of_abandons
    (hsome : replacements ≠ [])
    (hverify : tokenizer.settings.verifyIncremental = false)
    (h : tokenizer.Abandons before after replacements error progress) :
    tokenizer.FallsBack before after replacements := by
  have hfollow : tokenizer.followChange before after replacements =
      (tokenizer.supersede.2.abandoned error progress).rebuild after tokenizer.supersede.1 :=
    followChange_of_cause hsome h
  refine ⟨error, progress, h, hfollow, ?_⟩
  rw [hfollow, fallbacks_rebuild, ← (h.numbering hverify).2]
  rfl

end Fallback

end Tokenizer

end LiveTokens
