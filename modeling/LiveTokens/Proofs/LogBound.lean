import LiveTokens.Proofs.Announcements
import LiveTokens.Proofs.Numbering

/-!
# How long the edit log gets

Every update leaves a store whose log is shorter than the bound, for an
incremental update forgets the edits of a long log, and a rebuild starts a new
one.  A change without replacements adds an edit and forgets none, so that the
log grows with every such change until the next update.

Along a run of changes of a host, the bound is therefore kept exactly if no
change without replacements meets a log that lacks one edit of the bound.
-/

namespace LiveTokens

namespace TokenStore

variable {store store' : TokenStore}
variable {settings : Settings}
variable {generation : Nat}
variable {tracked : TrackedToken}

/-- The log leads up to a generation and is shorter than the bound. -/
structure Trimmed
    (store : TokenStore)
    (settings : Settings)
    (generation : Nat) : Prop where
  head_eq : store.log.base + store.log.length = generation
  length_lt : store.log.length < settings.logBound

theorem trimmed_of_log_eq
    (hlog : store.log = EditLog.startingAt generation) :
    store.Trimmed settings generation where
  head_eq := by
    rw [hlog]
    rfl
  length_lt := by
    rw [hlog]
    exact Nat.lt_of_lt_of_le Nat.zero_lt_one (Nat.le_max_right _ _)

theorem log_of_remove
    (h : store.remove tracked = .ok store') :
    store'.log = store.log := by
  rw [remove_eq_do] at h
  obtain ⟨found, -, h⟩ := Outcome.bind_eq_ok_iff.mp h
  split at h
  next =>
    cases h
  next =>
    cases h
    rfl

theorem log_of_add
    (h : store.add tracked = .ok store') :
    store'.log = store.log := by
  rw [add_eq_do] at h
  obtain ⟨version, -, h⟩ := Outcome.bind_eq_ok_iff.mp h
  obtain ⟨span, -, h⟩ := Outcome.bind_eq_ok_iff.mp h
  obtain ⟨index, -, h⟩ := Outcome.bind_eq_ok_iff.mp h
  obtain ⟨_, -, h⟩ := Outcome.bind_eq_ok_iff.mp h
  obtain ⟨_, -, h⟩ := Outcome.bind_eq_ok_iff.mp h
  cases h
  rfl

theorem log_of_compact
    (h : store.compact = .ok store') :
    store'.log = EditLog.startingAt (store.log.base + store.log.length) := by
  rw [compact_eq_do] at h
  obtain ⟨version, hversion, h⟩ := Outcome.bind_eq_ok_iff.mp h
  obtain ⟨tokens, -, h⟩ := Outcome.bind_eq_ok_iff.mp h
  cases h
  rw [(EditLog.head_eq_ok_iff.mp hversion).1]

end TokenStore

/-- The log of the store stays as it is. -/
def Workspace.logged : Frame Workspace where
  holds first second := second.store.log = first.store.log
  refl _ := rfl
  trans hfirst hsecond := hsecond.trans hfirst

namespace Revision

open Work

variable {workspace workspace' : Workspace}

/-- Nothing that a merge does touches the log. -/
theorem keepsLog_merge
    (realignment : Realignment) :
    (merge realignment).Keeps Workspace.logged := by
  refine keeps_merge_of (fun tracked => ?_) (fun version token => ?_) realignment
  · exact keeps_update fun _ _ => TokenStore.log_of_remove
  · have htrack : (track token version).Keeps Workspace.logged := fun _ => rfl
    exact htrack.bind fun tracked => keeps_update fun _ _ => TokenStore.log_of_add

/-- An excision that succeeds has checked that the log has come to the generation of the document.
Behind this check, nothing touches the store any more. -/
theorem head_of_excise
    {before after : Document}
    {edit : Edit}
    {excision : Excision}
    (h : (excise before after edit).outcome workspace = (.ok excision, workspace')) :
    workspace'.store.log.base + workspace'.store.log.length = after.generation := by
  unfold excise at h
  obtain ⟨touched, _, -, h⟩ := outcome_bind_eq_ok_iff.mp h
  obtain ⟨_, _, -, h⟩ := outcome_bind_eq_ok_iff.mp h
  obtain ⟨_, middle, -, h⟩ := outcome_bind_eq_ok_iff.mp h
  obtain ⟨version, _, hversion, h⟩ := outcome_bind_eq_ok_iff.mp h
  rw [outcome_query, Prod.mk.injEq, Outcome.wrap_eq_ok_iff] at hversion
  obtain ⟨hversion, rfl⟩ := hversion
  split at h
  next =>
    cases h
  next hgeneration =>
    obtain ⟨span, _, hspan, h⟩ := outcome_bind_eq_ok_iff.mp h
    obtain ⟨stop, _, hstop, h⟩ := outcome_bind_eq_ok_iff.mp h
    rw [outcome_ofOutcome, Prod.mk.injEq] at hspan hstop
    obtain ⟨-, rfl⟩ := hspan
    obtain ⟨-, rfl⟩ := hstop
    split at h
    next =>
      cases h
    next =>
      cases h
      exact (EditLog.head_eq_ok_iff.mp hversion).1.trans (Decidable.not_not.mp hgeneration)

end Revision

namespace Tokenizer

open TokenStore

variable {tokenizer : Tokenizer}
variable {before after document : Document}
variable {replacements : List Replacement}
variable {progress progress' : Progress}
variable {call : Call}

section Update

theorem trimmed_of_compactBeyond
    {settings : Settings}
    {store store' : TokenStore}
    (h : compactBeyond settings store = .ok store') :
    store'.Trimmed settings (store.log.base + store.log.length) := by
  unfold compactBeyond at h
  split at h
  next =>
    exact trimmed_of_log_eq (log_of_compact h)
  next hlength =>
    cases h
    exact ⟨rfl, Nat.lt_of_not_le hlength⟩

theorem trimmed_incremental
    {result : TokenStore × List Token}
    (hok : (tokenizer.incremental before after replacements).outcome progress =
      (.ok result, progress')) :
    result.1.Trimmed tokenizer.settings after.generation := by
  obtain ⟨stages⟩ := exists_stages hok
  have hmerged : stages.merged.store.log = stages.excised.store.log := by
    have hkept := Revision.keepsLog_merge stages.realignment stages.excised
    rw [stages.merge] at hkept
    exact hkept
  have hcompacted := trimmed_of_compactBeyond stages.compact
  rw [hmerged, Revision.head_of_excise stages.excise] at hcompacted
  rw [outcome_incremental stages, conclude] at hok
  split at hok
  next =>
    obtain ⟨-, expected, -, hkept | ⟨-, rfl, -⟩⟩ := verify_eq_ok hok
    · obtain ⟨-, rfl, -⟩ := hkept
      exact hcompacted
    · exact trimmed_of_log_eq rfl
  next =>
    cases hok
    exact hcompacted

theorem trimmed_create
    {lexer : Lexer}
    {settings : Settings}
    {nextId : Nat}
    (hcreate : create lexer settings document nextId = .ok tokenizer) :
    tokenizer.store.Trimmed settings document.generation := by
  obtain ⟨tokens, -, rfl⟩ := create_eq_ok_iff.mp hcreate
  exact trimmed_of_log_eq rfl

/-- However an update ends, its log leads up to its document and keeps the bound. -/
theorem trimmed_perform
    (hpublishes : call.Publishes)
    (hreturns : (tokenizer.perform call).1.Returns) :
    (tokenizer.perform call).2.store.Trimmed tokenizer.settings
      (call.target tokenizer).generation := by
  obtain ⟨store, progress, updated, hperform, hlog | ⟨before, replacements, hattempt⟩⟩ :=
    exists_perform_eq hpublishes hreturns
  · rw [hperform]
    exact trimmed_of_log_eq hlog
  · rw [hperform]
    exact trimmed_incremental hattempt

/-- Following the next generation of a document adds one edit. -/
theorem log_follow_of_turns
    (hhead : tokenizer.store.log.base + tokenizer.store.log.length = before.generation)
    (hdocument : tokenizer.document = before)
    (hturns : before.Turns after []) :
    (tokenizer.follow after).store.log = tokenizer.store.log.push Edit.identity := by
  have hmissing :
      after.generation - (tokenizer.store.log.base + tokenizer.store.log.length) = 1 := by
    rw [hhead, hturns.generation, Nat.add_sub_cancel_left]
  unfold follow
  rw [hdocument, if_pos hturns.lineage]
  dsimp only
  rw [hmissing]
  rfl

end Update

section Run

variable {lexer : Lexer}
variable {settings : Settings}
variable {slot slot' : Slot Document}
variable {calls : List (Tokenizer × Call)}

/-- The call that reports a transition. -/
def Call.reporting
    (transition : Transition Document ChangeSet) : Call :=
  .change transition.before transition.after transition.change.replacements

/-- A host, and a tokenizer that is told of each of its changes and is rescanned in between, with
all calls so far and the tokenizers that they were made to, the newest one first. -/
inductive Chained
    (lexer : Lexer)
    (settings : Settings) : List (Tokenizer × Call) → Slot Document → Tokenizer → Prop
  | created
      {slot : Slot Document}
      {nextId : Nat}
      {tokenizer : Tokenizer}
      (hcreate : create lexer settings slot.current nextId = .ok tokenizer) :
      Chained lexer settings [] slot tokenizer
  | followed
      {calls : List (Tokenizer × Call)}
      {slot slot' : Slot Document}
      {tokenizer : Tokenizer}
      {wanted : ChangeSet}
      {transition : Transition Document ChangeSet}
      (hchained : Chained lexer settings calls slot tokenizer)
      (hchange : slot.change wanted = (.ok transition, slot'))
      (hreturns : (tokenizer.perform (.reporting transition)).1.Returns) :
      Chained lexer settings ((tokenizer, .reporting transition) :: calls) slot'
        (tokenizer.perform (.reporting transition)).2
  | rescanned
      {calls : List (Tokenizer × Call)}
      {slot : Slot Document}
      {tokenizer : Tokenizer}
      (hchained : Chained lexer settings calls slot tokenizer)
      (hreturns : (tokenizer.perform .rescan).1.Returns) :
      Chained lexer settings ((tokenizer, .rescan) :: calls) slot
        (tokenizer.perform .rescan).2

/-- The number of changes without replacements since the last update. -/
def idle : List (Tokenizer × Call) → Nat
  | (_, .change _ _ []) :: calls => idle calls + 1
  | _ => 0

theorem idle_cons_of_publishes
    (hpublishes : call.Publishes) :
    idle ((tokenizer, call) :: calls) = 0 := by
  cases call with
  | rescan =>
      rfl
  | change before after replacements =>
      cases replacements with
      | nil =>
          exact absurd rfl hpublishes
      | cons replacement replacements =>
          rfl

theorem settings_perform :
    (tokenizer.perform call).2.settings = tokenizer.settings := by
  cases call with
  | rescan =>
      exact fixed_rebuild.2
  | change before after replacements =>
      exact fixed_followChange.2

/-- The log leads up to the document of the host, and has outgrown the bound by no more than the
changes without replacements since the last update. -/
structure Kept
    (settings : Settings)
    (calls : List (Tokenizer × Call))
    (slot : Slot Document)
    (tokenizer : Tokenizer) : Prop where
  settings_eq : tokenizer.settings = settings
  document_eq : tokenizer.document = slot.current
  head_eq : tokenizer.store.log.base + tokenizer.store.log.length = slot.current.generation
  length_lt : tokenizer.store.log.length < settings.logBound + idle calls

namespace Kept

theorem length_lt_of_publishes
    (h : Kept settings calls slot tokenizer)
    (hpublishes : call.Publishes)
    (hreturns : (tokenizer.perform call).1.Returns) :
    (tokenizer.perform call).2.store.log.length < settings.logBound := by
  rw [← h.settings_eq]
  exact (trimmed_perform hpublishes hreturns).length_lt

/-- An update that leads to the document of the host ends the row of idle changes. -/
theorem updated
    (h : Kept settings calls slot tokenizer)
    (hpublishes : call.Publishes)
    (hreturns : (tokenizer.perform call).1.Returns)
    (htarget : call.target tokenizer = slot'.current) :
    Kept settings ((tokenizer, call) :: calls) slot' (tokenizer.perform call).2 := by
  refine ⟨settings_perform.trans h.settings_eq, ?_, ?_, ?_⟩
  · exact (announces_perform hpublishes hreturns).document_eq.trans htarget
  · exact htarget ▸ (trimmed_perform hpublishes hreturns).head_eq
  · rw [idle_cons_of_publishes hpublishes]
    exact h.length_lt_of_publishes hpublishes hreturns

/-- A change without replacements always succeeds, and adds one edit to the log. -/
theorem idled
    (h : Kept settings calls slot tokenizer)
    (hturns : slot.current.Turns after []) :
    (tokenizer.perform (.change slot.current after [])).1 = .ok () ∧
    (tokenizer.perform (.change slot.current after [])).2.document = after ∧
    (tokenizer.perform (.change slot.current after [])).2.store.log =
      tokenizer.store.log.push Edit.identity := by
  rw [perform, followChange_of_nil hturns.text_eq]
  exact ⟨rfl, document_follow, log_follow_of_turns h.head_eq h.document_eq hturns⟩

end Kept

theorem kept_of_chained
    (h : Chained lexer settings calls slot tokenizer) :
    Kept settings calls slot tokenizer := by
  induction h with
  | created hcreate =>
      obtain ⟨hhead, hlength⟩ := trimmed_create hcreate
      obtain ⟨tokens, -, rfl⟩ := create_eq_ok_iff.mp hcreate
      exact ⟨rfl, rfl, hhead, hlength⟩
  | rescanned hchained hreturns ih =>
      exact ih.updated Call.publishes_rescan hreturns ih.document_eq
  | @followed calls slot slot' tokenizer wanted transition hchained hchange hreturns ih =>
      obtain ⟨-, hturns, hbefore, rfl, rfl⟩ := Slot.change_eq_ok_iff.mp hchange
      by_cases hpublishes : (Call.reporting transition).Publishes
      · exact ih.updated hpublishes hreturns rfl
      · obtain hnone : transition.change.replacements = [] := Decidable.not_not.mp hpublishes
        rw [hnone] at hturns
        obtain ⟨-, hdocument, hlog⟩ := ih.idled hturns
        rw [Call.reporting, hnone, hbefore]
        refine ⟨settings_perform.trans ih.settings_eq, hdocument, ?_, ?_⟩
        · rw [hlog, EditLog.base_push, EditLog.length_push, ← Nat.add_assoc, ih.head_eq]
          exact hturns.generation.symm
        · rw [hlog, EditLog.length_push]
          exact Nat.succ_lt_succ ih.length_lt

/-- A call of a run keeps the bound exactly if it is an update, or the log had place for one more
edit. -/
theorem bound_iff_of_mem
    (h : Chained lexer settings calls slot tokenizer) :
    ∀ call ∈ calls,
      ((call.1.perform call.2).1 = .ok () →
        (call.1.perform call.2).2.store.log.length < settings.logBound) ↔
        call.2.Publishes ∨ call.1.store.log.length + 1 < settings.logBound := by
  induction h with
  | created hcreate =>
      exact fun call hcall => absurd hcall List.not_mem_nil
  | rescanned hchained hreturns ih =>
      refine List.forall_mem_cons.mpr ⟨?_, ih⟩
      have hkept := kept_of_chained hchained
      exact iff_of_true (fun _ => hkept.length_lt_of_publishes Call.publishes_rescan hreturns)
        (.inl Call.publishes_rescan)
  | @followed calls slot slot' tokenizer wanted transition hchained hchange hreturns ih =>
      have hkept := kept_of_chained hchained
      refine List.forall_mem_cons.mpr ⟨?_, ih⟩
      by_cases hpublishes : (Call.reporting transition).Publishes
      · exact iff_of_true (fun _ => hkept.length_lt_of_publishes hpublishes hreturns)
          (.inl hpublishes)
      · obtain ⟨-, hturns, hbefore, rfl, -⟩ := Slot.change_eq_ok_iff.mp hchange
        obtain hnone : transition.change.replacements = [] := Decidable.not_not.mp hpublishes
        rw [hnone] at hturns
        obtain ⟨hok, -, hlog⟩ := hkept.idled hturns
        rw [or_iff_right hpublishes, Call.reporting, hnone, hbefore, hlog, EditLog.length_push]
        exact forall_prop_of_true hok

/-- Along a run, the log outgrows the bound by no more than the changes without replacements since
the last update.  The bound itself is kept by all calls that succeed exactly if no change without
replacements meets a log that lacks one edit of it. -/
theorem log_bounded_iff
    (h : Chained lexer settings calls slot tokenizer) :
    tokenizer.store.log.length < settings.logBound + idle calls ∧
    ((∀ call ∈ calls,
        (call.1.perform call.2).1 = .ok () →
        (call.1.perform call.2).2.store.log.length < settings.logBound) ↔
      ∀ call ∈ calls,
        call.2.Publishes ∨ call.1.store.log.length + 1 < settings.logBound) := by
  refine ⟨(kept_of_chained h).length_lt, ?_⟩
  exact forall₂_congr fun call hcall => bound_iff_of_mem h call hcall

/-- With a bound of two edits, a change without replacements and a rescan after it keep the bound. -/
theorem log_bounded_of_one_idle :
    ∃ start transition slot first,
      create stubborn ⟨2, false⟩ (Document.ofText 0 ['a']) 0 = .ok start ∧
      (Slot.holding (Document.ofText 0 ['a'])).change ⟨0, []⟩ = (.ok transition, slot) ∧
      first = (start.perform (.reporting transition)).2 ∧
      first.store.log.length < Settings.logBound ⟨2, false⟩ ∧
      (first.perform .rescan).2.store.log.length < Settings.logBound ⟨2, false⟩ := by
  obtain ⟨start, transition, slot, hcreate, hchange, hfirst, hsecond, hlength⟩ :
      ∃ start transition slot,
        create stubborn ⟨2, false⟩ (Document.ofText 0 ['a']) 0 = .ok start ∧
        (Slot.holding (Document.ofText 0 ['a'])).change ⟨0, []⟩ = (.ok transition, slot) ∧
        (start.perform (.reporting transition)).1 = .ok () ∧
        ((start.perform (.reporting transition)).2.perform .rescan).1 = .ok () ∧
        start.store.log.length + 1 < Settings.logBound ⟨2, false⟩ :=
    ⟨_, _, _, rfl, rfl, by decide +kernel, by decide +kernel, by decide +kernel⟩
  have hchained :=
    (Chained.created hcreate |>.followed hchange (hfirst ▸ Outcome.returns_ok ())).rescanned
      (hsecond ▸ Outcome.returns_ok ())
  have hbounded := (log_bounded_iff hchained).2.mpr (List.forall_mem_cons.mpr
    ⟨.inl Call.publishes_rescan, List.forall_mem_singleton.mpr (.inr hlength)⟩)
  refine ⟨start, transition, slot, _, hcreate, hchange, rfl, ?_, ?_⟩
  · exact hbounded _ (List.mem_cons_of_mem _ List.mem_cons_self) hfirst
  · exact hbounded _ List.mem_cons_self hsecond

/-- With a bound of one edit, the log may not hold any.  After the first change of a host it holds
one, if there are no replacements in it. -/
theorem not_log_bounded_of_idle :
    ∃ start transition slot,
      create stubborn ⟨1, false⟩ (Document.ofText 0 ['a']) 0 = .ok start ∧
      (Slot.holding (Document.ofText 0 ['a'])).change ⟨0, []⟩ = (.ok transition, slot) ∧
      (start.perform (.reporting transition)).1 = .ok () ∧
      ¬ (start.perform (.reporting transition)).2.store.log.length <
        Settings.logBound ⟨1, false⟩ :=
  ⟨_, _, _, rfl, rfl, by decide +kernel, by decide +kernel⟩

end Run

end Tokenizer

end LiveTokens
