import LiveTokens.Proofs.Session

/-!
# Following transitions in any order

A tokenizer may be told of any transitions that hosts have reported: of some not
at all, of others twice or too late, and of those of another host.  A transition
with replacements is followed all the same, by a rebuild if need be.  One without
replacements is trusted, so that everything depends on how the document of the
tokenizer relates to the one that the transition leads to.
-/

namespace LiveTokens

open TokenStore

namespace Tokenizer

variable {grammar : Grammar}
variable {classify : Nat → TokenClass}
variable {world : World}
variable {lexer : Lexer}
variable {settings : Settings}
variable {tokenizer : Tokenizer}
variable {document : Document}
variable {transition : Transition Document ChangeSet}
variable {calls : List (Tokenizer × Transition Document ChangeSet)}

/-- If the tokenizer accepts the transition, it has the tokens of the document behind it. -/
def Faithful
    (tokenizer : Tokenizer)
    (transition : Transition Document ChangeSet) : Prop :=
  (tokenizer.followTransition transition).1 = .ok () →
  (tokenizer.followTransition transition).2.document = transition.after ∧
  ((tokenizer.followTransition transition).2.store.version : Outcome StoreError Nat) =
    .ok transition.after.generation ∧
  ∃ tokens,
    (tokenizer.followTransition transition).2.store.toList = .ok tokens ∧
    tokenizer.lexer.lex transition.after.text = .ok tokens

/-- A transition without replacements leads to a document with the same tokens as the tokenizer's,
and either to the same generation or to a later one of the same lineage. -/
def Harmless
    (tokenizer : Tokenizer)
    (transition : Transition Document ChangeSet) : Prop :=
  transition.change.replacements = [] →
  tokenizer.lexer.lex transition.after.text = tokenizer.lexer.lex tokenizer.document.text ∧
  (transition.after.generation = tokenizer.document.generation ∨
    transition.after.version.lineage = tokenizer.document.version.lineage ∧
    tokenizer.document.generation ≤ transition.after.generation)

/-- A tokenizer over a snapshot of some host after calls with reported transitions.  Each call is
kept with the tokenizer as it was before. -/
inductive Notified
    (world : World)
    (lexer : Lexer)
    (settings : Settings) :
    List (Tokenizer × Transition Document ChangeSet) → Tokenizer → Prop
  | created
      {document : Document}
      {nextId : Nat}
      {tokenizer : Tokenizer}
      (hsnapshot : world.Snapshot document)
      (hcreate : create lexer settings document nextId = .ok tokenizer) :
      Notified world lexer settings [] tokenizer
  | told
      {calls : List (Tokenizer × Transition Document ChangeSet)}
      {tokenizer : Tokenizer}
      {transition : Transition Document ChangeSet}
      (hnotified : Notified world lexer settings calls tokenizer)
      (hreported : world.Reported transition) :
      Notified world lexer settings ((tokenizer, transition) :: calls)
        (tokenizer.followTransition transition).2

theorem faithful_of_upToDate
    (hgrammar : grammar.WellBehaved)
    (hlexer : tokenizer.lexer = .ofGrammar grammar classify)
    (hafter : transition.after.InRange)
    (h : (tokenizer.followTransition transition).2.UpToDate grammar classify transition.after) :
    tokenizer.Faithful transition := by
  intro _
  obtain ⟨view, hdescribes⟩ := h.describes
  obtain ⟨hversion, -, htokens⟩ :=
    readings_of_describes hgrammar classify hdescribes hafter.size_lt
  rw [hlexer]
  exact ⟨h.document_eq, hversion, htokens⟩

/-- A reported transition with replacements is always followed. -/
theorem upToDate_followTransition
    (hgrammar : grammar.WellBehaved)
    (h : tokenizer.UpToDate grammar classify document)
    (hrange : ∀ document, world.Snapshot document → document.InRange)
    (hsnapshot : world.Snapshot document)
    (hreported : world.Reported transition)
    (hsome : transition.change.replacements ≠ []) :
    (tokenizer.followTransition transition).2.UpToDate grammar classify transition.after := by
  obtain ⟨hbefore, hafter, hturns⟩ := World.snapshots_of_reported hreported
  unfold followTransition
  by_cases hversion : transition.before.version = document.version
  · obtain rfl := World.snapshot_unique hbefore hsnapshot hversion
    obtain ⟨tokenizer', hfollow, hupToDate, -⟩ :=
      exists_followChange hgrammar h hturns (hrange _ hbefore) (hrange _ hafter)
    rw [hfollow]
    exact hupToDate
  · exact (upToDate_followChange_of_skew hgrammar h hversion hsome (hrange _ hafter)).2

/-- A store that describes a document describes every other one of its generation that has the same
tokens. -/
theorem describes_of_lex_eq
    {workspace : Workspace}
    {view : List (TrackedToken × Span)}
    {before after : Document}
    (hgrammar : grammar.WellBehaved)
    (classify : Nat → TokenClass)
    (horderly : workspace.Orderly after.generation view)
    (hscans : Scans grammar 0 before.text [] (view.map placed))
    (hbefore : before.InRange)
    (hafter : after.InRange)
    (hlex : (Lexer.ofGrammar grammar classify).lex after.text =
      (Lexer.ofGrammar grammar classify).lex before.text) :
    workspace.Describes grammar after view := by
  have hbeforeBound : Text.size before.text < positionBound := hbefore.size_lt
  have hafterBound : Text.size after.text < positionBound := hafter.size_lt
  obtain ⟨tokens, htokens⟩ := Lexer.exists_scans hgrammar.prefixStable hafterBound
  rw [Lexer.lex_eq_ok hgrammar.prefixStable classify hafterBound htokens,
    Lexer.lex_eq_ok hgrammar.prefixStable classify hbeforeBound hscans, Except.ok.injEq] at hlex
  exact ⟨horderly, hlex ▸ htokens⟩

/-- Without replacements the tokens stay where they are, whatever becomes of the generation. -/
theorem exists_layout_follow
    {after : Document}
    {view : List (TrackedToken × Span)}
    (h : Layout tokenizer.store tokenizer.document.generation view)
    (hbound : after.generation < positionBound) :
    ∃ generation,
      Layout (tokenizer.follow after).store generation view ∧
      (generation = after.generation ↔
        after.generation = tokenizer.document.generation ∨
        after.version.lineage = tokenizer.document.version.lineage ∧
        tokenizer.document.generation ≤ after.generation) := by
  by_cases hlineage : after.version.lineage = tokenizer.document.version.lineage
  · refine ⟨_, layout_follow h hlineage hbound, ?_⟩
    rw [and_iff_right hlineage]
    omega
  · refine ⟨tokenizer.document.generation, ?_, ?_⟩
    · rw [store_follow_of_lineage_ne hlineage]
      exact h
    · rw [or_iff_left fun hboth => hlineage hboth.1]
      exact eq_comm

/-- A transition without replacements is followed exactly if it is harmless. -/
theorem faithful_iff_of_nil
    (hgrammar : grammar.WellBehaved)
    (h : tokenizer.UpToDate grammar classify document)
    (hbefore : document.InRange)
    (hafter : transition.after.InRange)
    (htext : transition.before.text = transition.after.text)
    (hnil : transition.change.replacements = []) :
    (tokenizer.Faithful transition ↔ tokenizer.Harmless transition) ∧
    (tokenizer.Harmless transition →
      (tokenizer.followTransition transition).2.UpToDate grammar classify transition.after) := by
  obtain ⟨hlexer, rfl, view, hdescribes⟩ := h
  have hlayout := hdescribes.orderly.layout
  have hfollow : tokenizer.followTransition transition =
      (.ok (), tokenizer.follow transition.after) := by
    rw [followTransition, hnil, followChange_of_nil htext]
  obtain ⟨generation, hfollowed, hgeneration⟩ := exists_layout_follow hlayout hafter.generation
  have hupToDate : tokenizer.Harmless transition →
      (tokenizer.followTransition transition).2.UpToDate grammar classify transition.after := by
    intro hharmless
    obtain ⟨hlex, hplace⟩ := hharmless hnil
    rw [hlexer] at hlex
    obtain rfl := hgeneration.mpr hplace
    rw [hfollow]
    refine ⟨lexer_follow.trans hlexer, document_follow, view, ?_⟩
    refine describes_of_lex_eq hgrammar classify ⟨hfollowed, ?_⟩ hdescribes.scans hbefore hafter
      hlex
    rw [ids_follow, toProgress_follow]
    exact hdescribes.orderly.numbered
  refine ⟨⟨?_, fun hharmless => ?_⟩, hupToDate⟩
  · intro hfaithful _
    obtain ⟨-, hversion, tokens, htokens, hlex⟩ := hfaithful (by rw [hfollow])
    rw [hfollow] at hversion htokens
    rw [hfollowed.version_eq, Except.ok.injEq] at hversion
    rw [hfollowed.toList_eq, Except.ok.injEq] at htokens
    rw [hlex, hlexer, ← htokens]
    refine ⟨?_, hgeneration.mp hversion⟩
    exact (Lexer.lex_eq_ok hgrammar.prefixStable classify hbefore.size_lt hdescribes.scans).symm
  · exact faithful_of_upToDate hgrammar hlexer hafter (hupToDate hharmless)

/-- As long as the tokenizer is up to date, harmless transitions are those that it follows. -/
theorem faithful_iff_of_upToDate
    (hgrammar : grammar.WellBehaved)
    (h : tokenizer.UpToDate grammar classify document)
    (hrange : ∀ document, world.Snapshot document → document.InRange)
    (hsnapshot : world.Snapshot document)
    (hreported : world.Reported transition) :
    (tokenizer.Faithful transition ↔ tokenizer.Harmless transition) ∧
    (tokenizer.Harmless transition →
      (tokenizer.followTransition transition).2.UpToDate grammar classify transition.after) := by
  obtain ⟨-, hafter, hturns⟩ := World.snapshots_of_reported hreported
  by_cases hnil : transition.change.replacements = []
  · rw [hnil] at hturns
    exact faithful_iff_of_nil hgrammar h (hrange _ hsnapshot) (hrange _ hafter) hturns.text_eq hnil
  · have hupToDate := upToDate_followTransition hgrammar h hrange hsnapshot hreported hnil
    have hfaithful := faithful_of_upToDate hgrammar h.lexer_eq (hrange _ hafter) hupToDate
    exact ⟨⟨fun _ heq => absurd heq hnil, fun _ => hfaithful⟩, fun _ => hupToDate⟩

theorem upToDate_of_notified
    (hgrammar : grammar.WellBehaved)
    (hrange : ∀ document, world.Snapshot document → document.InRange)
    (h : Notified world (.ofGrammar grammar classify) settings calls tokenizer) :
    ((∀ call ∈ calls, call.1.Faithful call.2) ↔ ∀ call ∈ calls, call.1.Harmless call.2) ∧
    ((∀ call ∈ calls, call.1.Harmless call.2) →
      ∃ document, world.Snapshot document ∧ tokenizer.UpToDate grammar classify document) := by
  induction h with
  | @created document nextId tokenizer hsnapshot hcreate =>
      obtain ⟨created, hcreated, hupToDate, -⟩ :=
        exists_create hgrammar classify settings (hrange document hsnapshot) nextId
      rw [hcreate] at hcreated
      cases hcreated
      exact ⟨by simp, fun _ => ⟨document, hsnapshot, hupToDate⟩⟩
  | @told calls tokenizer transition hnotified hreported ih =>
      obtain ⟨hiff, hupToDate⟩ := ih
      obtain ⟨-, hafter, -⟩ := World.snapshots_of_reported hreported
      simp only [List.forall_mem_cons]
      constructor
      · rw [hiff]
        apply and_congr_left
        intro hharmless
        obtain ⟨document, hsnapshot, hcurrent⟩ := hupToDate hharmless
        exact (faithful_iff_of_upToDate hgrammar hcurrent hrange hsnapshot hreported).1
      · rintro ⟨hlast, hharmless⟩
        obtain ⟨document, hsnapshot, hcurrent⟩ := hupToDate hharmless
        exact ⟨transition.after, hafter,
          (faithful_iff_of_upToDate hgrammar hcurrent hrange hsnapshot hreported).2 hlast⟩

/-- A tokenizer has the tokens of its document after each accepted transition exactly if each
transition without replacements was harmless when the tokenizer was told of it. -/
theorem faithful_iff_harmless
    (hlexer : lexer = Assembly.lexer ∨ lexer.WellBehaved)
    (hrange : ∀ document, world.Snapshot document → document.InRange)
    (h : Notified world lexer settings calls tokenizer) :
    (∀ call ∈ calls, call.1.Faithful call.2) ↔ ∀ call ∈ calls, call.1.Harmless call.2 := by
  obtain ⟨grammar, classify, hgrammar, rfl⟩ := wellBehaved_of_or hlexer
  exact (upToDate_of_notified hgrammar hrange h).1

/-- A host that has replaced `mov` by `b b` in `mov a`, and then made a change without
replacements.  All other hosts have empty texts. -/
def skipping : World where
  host
    | 0 =>
      (((Slot.holding (Document.ofText 0 ['m', 'o', 'v', ' ', 'a'])).change
        ⟨0, [⟨⟨0, 3⟩, ['b', ' ', 'b']⟩]⟩).2.change ⟨1, []⟩).2
    | lineage + 1 => Slot.holding (Document.ofText (lineage + 1) [])
  reported
    | 0 => [
      ⟨⟨['b', ' ', 'b', ' ', 'a'], ⟨0, 1⟩⟩, ⟨['b', ' ', 'b', ' ', 'a'], ⟨0, 2⟩⟩, ⟨1, []⟩⟩,
      ⟨⟨['m', 'o', 'v', ' ', 'a'], ⟨0, 0⟩⟩, ⟨['b', ' ', 'b', ' ', 'a'], ⟨0, 1⟩⟩,
        ⟨0, [⟨⟨0, 3⟩, ['b', ' ', 'b']⟩]⟩⟩]
    | _ + 1 => []
  history
    | 0 => ((Slot.History.opened _).change rfl).change rfl
    | _ + 1 => .opened []

theorem inRange_of_skipping
    (h : skipping.Snapshot document) :
    document.InRange := by
  obtain ⟨lineage, hmem⟩ := h
  cases lineage with
  | zero =>
      rcases List.mem_cons.mp hmem with rfl | hmem
      · exact ⟨by decide, by decide⟩
      · rcases List.mem_cons.mp hmem with rfl | hmem
        · exact ⟨by decide, by decide⟩
        · obtain rfl := List.mem_singleton.mp hmem
          exact ⟨by decide, by decide⟩
  | succ lineage =>
      obtain rfl := List.mem_singleton.mp hmem
      exact ⟨Nat.two_pow_pos 63, Nat.two_pow_pos 64⟩

theorem faithful_iff_harmless_of_skipping :
    ∃ tokenizer transition,
      Notified skipping Assembly.lexer {} [(tokenizer, transition)]
        (tokenizer.followTransition transition).2 ∧
      (tokenizer.Faithful transition ↔ tokenizer.Harmless transition) := by
  have hsnapshot : skipping.Snapshot (Document.ofText 0 ['m', 'o', 'v', ' ', 'a']) :=
    ⟨0, .tail _ (.tail _ (.head _))⟩
  obtain ⟨tokenizer, hcreate, -, -⟩ :=
    exists_create Assembly.wellBehaved_scan Assembly.classify {} (inRange_of_skipping hsnapshot) 0
  have hnotified : Notified skipping Assembly.lexer {} [(tokenizer, _)] _ :=
    .told (.created hsnapshot hcreate) ⟨0, .head _⟩
  refine ⟨tokenizer, _, hnotified, ?_⟩
  have hiff := faithful_iff_harmless (.inl rfl) (fun _ => inRange_of_skipping) hnotified
  simpa only [List.forall_mem_singleton] using hiff

/-- A tokenizer that has missed a change believes the next one that the text has not changed. -/
theorem not_faithful_of_skipping :
    ∃ tokenizer transition,
      Notified skipping Assembly.lexer {} [(tokenizer, transition)]
        (tokenizer.followTransition transition).2 ∧
      (tokenizer.followTransition transition).1 = .ok () ∧
      ¬ tokenizer.Faithful transition := by
  have hsnapshot : skipping.Snapshot (Document.ofText 0 ['m', 'o', 'v', ' ', 'a']) :=
    ⟨0, .tail _ (.tail _ (.head _))⟩
  obtain ⟨tokenizer, hcreate, hupToDate, -⟩ :=
    exists_create Assembly.wellBehaved_scan Assembly.classify {} (inRange_of_skipping hsnapshot) 0
  have hafter : skipping.Snapshot ⟨['b', ' ', 'b', ' ', 'a'], ⟨0, 2⟩⟩ :=
    ⟨0, .head _⟩
  refine ⟨tokenizer, ⟨⟨['b', ' ', 'b', ' ', 'a'], ⟨0, 1⟩⟩, ⟨['b', ' ', 'b', ' ', 'a'], ⟨0, 2⟩⟩,
    ⟨1, []⟩⟩, .told (.created hsnapshot hcreate) ⟨0, .head _⟩, rfl, ?_⟩
  intro hfaithful
  obtain ⟨hlex, -⟩ := (faithful_iff_of_nil Assembly.wellBehaved_scan hupToDate
    (inRange_of_skipping hsnapshot) (inRange_of_skipping hafter) rfl rfl).1.mp hfaithful rfl
  rw [hupToDate.lexer_eq, hupToDate.document_eq] at hlex
  revert hlex
  decide +kernel

end Tokenizer

end LiveTokens
