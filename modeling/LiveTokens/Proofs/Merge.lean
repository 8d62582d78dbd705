import LiveTokens.Proofs.Excision
import LiveTokens.Proofs.Realignment
import LiveTokens.Proofs.Splice

/-!
# What a merge does to a layout

A workspace is *orderly* if its store has a layout and all numbers in use are
below the next free one, so that a new token cannot be mistaken for an old one.
Putting in a token keeps the workspace orderly, if it succeeds.  It always
succeeds for tokens that tile the place of the entries they replace.
-/

namespace LiveTokens

open TokenStore

/-- The store has a layout, and the next free number is not in use. -/
structure Workspace.Orderly
    (workspace : Workspace)
    (version : Nat)
    (view : List (TrackedToken × Span)) : Prop where
  layout : Layout workspace.store version view
  numbered : ∀ id ∈ workspace.store.ids, id < workspace.nextId

namespace Workspace.Orderly

variable {workspace : Workspace}
variable {version : Nat}
variable {view view' front middle back : List (TrackedToken × Span)}

/-- Tokens can be taken out. -/
theorem sublist
    (h : workspace.Orderly version view)
    (hsub : view'.Sublist view) :
    Orderly ⟨workspace.store.withEntries view', workspace.nextId⟩ version view' where
  layout := h.layout.sublist hsub
  numbered id hid := by
    apply h.numbered
    rw [ids, ← h.layout.tokens]
    exact ((hsub.map Prod.fst).map _).subset hid

/-- An excision leaves an orderly workspace of the next generation. -/
theorem excised
    {edit : Edit}
    (h : workspace.Orderly version (front ++ middle ++ back))
    (hbound : version + 1 < positionBound)
    (hdivided : Divided edit.region front middle back)
    (hedit : edit.Plausible)
    (hrange : ∀ entry ∈ back, entry.2.start + entry.2.length + edit.delta < positionBound) :
    Orderly ⟨(workspace.store.withEntries (front ++ back)).advance edit, workspace.nextId⟩
      (version + 1) (front ++ back.map edit.slideEntry) where
  layout := h.layout.excised hbound hdivided hedit hrange
  numbered := by
    have hsub : (front ++ back).Sublist (front ++ middle ++ back) :=
      (List.sublist_append_left front middle).append_right back
    exact (h.sublist hsub).numbered

/-- An excision takes out entries that fit and leaves an orderly workspace, whatever it reports. -/
theorem exists_excised
    {before : Document}
    (after : Document)
    {edit : Edit}
    {replacements : List Replacement}
    (h : workspace.Orderly before.generation view)
    (hjoin : Edit.join replacements = .ok edit)
    (hrange : ∀ entry ∈ view,
      edit.region.start + edit.region.length < entry.2.start →
      entry.2.start + entry.2.length + edit.delta < positionBound) :
    ∃ touched excised,
      (excise before after edit).outcome workspace =
        (Excision.settle before after edit touched, excised) ∧
      (∀ entry ∈ touched, entry.2.Fits) ∧
      (before.generation + 1 < positionBound →
        ∃ view', excised.Orderly (before.generation + 1) view') := by
  obtain ⟨hregion, hedit⟩ := Edit.plausible_of_join hjoin
  obtain ⟨front, middle, back, rfl, hdivided⟩ := h.layout.exists_divided edit.region
  refine ⟨middle, _, Excision.outcome_excise h.layout hregion hdivided, ?_, ?_⟩
  · intro entry hentry
    exact h.layout.fits entry (List.mem_append_left _ (List.mem_append_right _ hentry))
  · intro hbound
    refine ⟨_, h.excised hbound hdivided hedit ?_⟩
    intro entry hentry
    exact hrange entry (List.mem_append_right _ hentry) (hdivided.back entry hentry)

end Workspace.Orderly

namespace Revision

variable {workspace workspace' : Workspace}
variable {version start stop : Nat}
variable {view front superseded back : List (TrackedToken × Span)}
variable {token : Token}
variable {tokens : List Token}
variable {realignment : Realignment}

/-- Tracks a new token and puts it in its place. -/
def put
    (version : Nat)
    (token : Token) : Revision Unit := do
  let tracked ← track token version
  update (·.add tracked)

theorem locate_tracked
    (token : Token)
    (h : workspace.Orderly version view) :
    workspace.store.locate ⟨workspace.nextId, token, version⟩ version = .ok token.span :=
  locate_of_origin h.layout.head h.layout.bound

theorem not_mem_ids
    (h : workspace.Orderly version view) :
    workspace.nextId ∉ workspace.store.ids := by
  intro hmem
  exact Nat.lt_irrefl _ (h.numbered _ hmem)

theorem numbered_insert
    {tracked : TrackedToken}
    {span : Span}
    (h : workspace.Orderly version (front ++ back))
    (hid : tracked.id = workspace.nextId) :
    ∀ id ∈ (workspace.store.withEntries (front ++ (tracked, span) :: back)).ids,
      id < workspace.nextId + 1 := by
  intro id hmem
  have hold : ∀ entry ∈ front ++ back, entry.1.id < workspace.nextId := by
    intro entry hentry
    apply h.numbered
    rw [ids, ← h.layout.tokens, List.map_map]
    exact List.mem_map.mpr ⟨entry, hentry, rfl⟩
  rw [ids, withEntries, List.map_map] at hmem
  obtain ⟨entry, hentry, rfl⟩ := List.mem_map.mp hmem
  rcases List.mem_append.mp hentry with hfront | hrest
  · exact Nat.lt_succ_of_lt (hold entry (List.mem_append_left _ hfront))
  · rcases List.mem_cons.mp hrest with rfl | hback
    · exact Nat.lt_succ_of_le (Nat.le_of_eq hid)
    · exact Nat.lt_succ_of_lt (hold entry (List.mem_append_right _ hback))

/-- Putting in a token that fits has an answer, and keeps the workspace orderly if it succeeds. -/
theorem orderly_put
    (h : workspace.Orderly version view)
    (hfits : token.span.Fits) :
    Outcome.Returns ((put version token).outcome workspace).1 ∧
    ∀ workspace',
      (put version token).outcome workspace = (.ok (), workspace') →
      ∃ view', workspace'.Orderly version view' := by
  have htrack : (track token version).outcome workspace =
      (.ok ⟨workspace.nextId, token, version⟩, ⟨workspace.store, workspace.nextId + 1⟩) :=
    outcome_track token version
  have hlocate := locate_tracked token h
  unfold put
  rw [Work.outcome_bind_of_ok htrack]
  constructor
  · refine Work.returns_bind ?_ fun _ _ _ => Outcome.returns_ok _
    rw [outcome_query, Outcome.returns_wrap_iff]
    exact h.layout.returns_add hlocate hfits
  · intro workspace' hput
    obtain ⟨store, hadd, rfl⟩ := outcome_update_eq_ok_iff.mp hput
    obtain ⟨front, back, rfl, rfl, hlayout⟩ :=
      h.layout.exists_of_add hlocate hfits (not_mem_ids h) hadd
    exact ⟨_, hlayout, numbered_insert h rfl⟩

theorem orderly_puts
    (h : workspace.Orderly version view)
    (hfits : ∀ token ∈ tokens, token.span.Fits) :
    Outcome.Returns ((tokens.forM (put version)).outcome workspace).1 ∧
    ∀ workspace',
      (tokens.forM (put version)).outcome workspace = (.ok (), workspace') →
      ∃ view', workspace'.Orderly version view' := by
  induction tokens generalizing workspace view with
  | nil =>
      refine ⟨Outcome.returns_ok _, ?_⟩
      intro workspace' heq
      cases heq
      exact ⟨view, h⟩
  | cons token tokens ih =>
      obtain ⟨hreturns, hkeeps⟩ := orderly_put h (hfits token List.mem_cons_self)
      have hrest : ∀ other ∈ tokens, other.span.Fits :=
        fun other hother => hfits other (List.mem_cons_of_mem _ hother)
      rw [List.forM]
      constructor
      · refine Work.returns_bind hreturns fun _ middle hmiddle => ?_
        obtain ⟨view', hview'⟩ := hkeeps middle hmiddle
        exact (ih hview' hrest).1
      · intro workspace' heq
        obtain ⟨_, middle, hmiddle, hothers⟩ := Work.outcome_bind_eq_ok_iff.mp heq
        obtain ⟨view', hview'⟩ := hkeeps middle hmiddle
        exact (ih hview' hrest).2 workspace' hothers

theorem outcome_put
    (h : workspace.Orderly version (front ++ back))
    (hfits : token.span.Fits)
    (hstart : ∀ entry ∈ front, entry.2.start < token.span.start)
    (hfront : ∀ entry ∈ front, entry.2.Precedes token.span)
    (hback : ∀ entry ∈ back, token.span.Precedes entry.2) :
    ∃ workspace',
      (put version token).outcome workspace = (.ok (), workspace') ∧
      workspace'.nextId = workspace.nextId + 1 ∧
      workspace'.Orderly version
        (front ++ TrackedToken.entry ⟨workspace.nextId, token, version⟩ :: back) := by
  have hlocate := locate_tracked token h
  have hadd := (h.layout.add_eq_ok_iff hlocate hfits hstart
    fun entry hentry => (hback entry hentry).start_le).mpr ⟨hfront, hback, rfl⟩
  have hlayout := h.layout.insert hlocate hfits (not_mem_ids h) hfront hback
  refine ⟨⟨_, workspace.nextId + 1⟩, ?_, rfl, hlayout, numbered_insert h rfl⟩
  rw [put, Work.outcome_bind_of_ok (outcome_track token version)]
  exact outcome_update_of_ok hadd

/-- Tokens that tile a gap between the entries are put in there. -/
theorem outcome_puts
    (h : workspace.Orderly version (front ++ back))
    (htiles : Tiles start tokens stop)
    (hfront : ∀ entry ∈ front,
      entry.2.start < start ∧ entry.2.start + entry.2.length ≤ start)
    (hback : ∀ entry ∈ back, stop ≤ entry.2.start) :
    ∃ workspace',
      (tokens.forM (put version)).outcome workspace = (.ok (), workspace') ∧
      workspace'.Orderly version
        (front ++ (TrackedToken.number version workspace.nextId tokens).map TrackedToken.entry ++
          back) := by
  induction tokens generalizing workspace front start with
  | nil =>
      refine ⟨workspace, rfl, ?_⟩
      rw [TrackedToken.number, List.map_nil, List.append_nil]
      exact h
  | cons token tokens ih =>
      obtain ⟨rfl, hlength, hfits, hrest⟩ := htiles
      have hle := hrest.le
      have hprecede : ∀ entry ∈ front, entry.2.Precedes token.span := fun entry hentry =>
        ⟨(hfront entry hentry).2, h.layout.fits entry (List.mem_append_left _ hentry)⟩
      have hfollow : ∀ entry ∈ back, token.span.Precedes entry.2 := fun entry hentry =>
        ⟨Nat.le_trans hle (hback entry hentry), hfits⟩
      obtain ⟨middle, hput, hnextId, hmiddle⟩ :=
        outcome_put h hfits (fun entry hentry => (hfront entry hentry).1) hprecede hfollow
      have hreached : ∀ entry ∈ front ++ [TrackedToken.entry ⟨workspace.nextId, token, version⟩],
          entry.2.start < token.span.start + token.span.length ∧
            entry.2.start + entry.2.length ≤ token.span.start + token.span.length := by
        intro entry hentry
        rcases List.mem_append.mp hentry with hold | hnew
        · have hbounds := hfront entry hold
          omega
        · rw [List.mem_singleton.mp hnew, TrackedToken.entry]
          dsimp only
          omega
      rw [List.append_cons] at hmiddle
      obtain ⟨workspace', hothers, horderly⟩ := ih hmiddle hrest hreached
      refine ⟨workspace', ?_, ?_⟩
      · rw [List.forM, Work.outcome_bind_of_ok hput]
        exact hothers
      · rw [TrackedToken.number, List.map_cons, List.append_cons, ← hnextId]
        exact horderly

/-- The tokens that a merge replaces are taken out first. -/
theorem outcome_merge_eq
    (h : workspace.Orderly version (front ++ superseded ++ back))
    (hsuperseded : realignment.superseded = superseded.map Prod.fst) :
    ∃ middle : Workspace,
      (merge realignment).outcome workspace =
        (realignment.tokens.forM (put version)).outcome middle ∧
      middle.nextId = workspace.nextId ∧
      middle.Orderly version (front ++ back) := by
  have hversion : (query (·.version)).outcome workspace = (.ok version, workspace) := by
    rw [outcome_query, h.layout.version_eq, Outcome.wrap_ok]
  have hremovals := outcome_removals h.layout
  have hsub : (front ++ back).Sublist (front ++ superseded ++ back) :=
    (List.sublist_append_left front superseded).append_right back
  refine ⟨⟨workspace.store.withEntries (front ++ back), workspace.nextId⟩, ?_, rfl,
    h.sublist hsub⟩
  unfold merge
  rw [Work.outcome_bind_of_ok hversion, hsuperseded, List.forM_eq_forM, List.forM_map]
  exact Work.outcome_bind_of_ok hremovals

/-- A merge has an answer, and keeps the workspace orderly if it succeeds. -/
theorem orderly_merge
    (h : workspace.Orderly version (front ++ superseded ++ back))
    (hsuperseded : realignment.superseded = superseded.map Prod.fst)
    (hfits : ∀ token ∈ realignment.tokens, token.span.Fits) :
    Outcome.Returns ((merge realignment).outcome workspace).1 ∧
    ∀ workspace',
      (merge realignment).outcome workspace = (.ok (), workspace') →
      ∃ view', workspace'.Orderly version view' := by
  obtain ⟨middle, hmerge, -, hmiddle⟩ := outcome_merge_eq h hsuperseded
  rw [hmerge]
  exact orderly_puts hmiddle hfits

/-- What a realignment has read can be merged, or the merge reports a cause. -/
theorem orderly_merge_of_realign
    {lexer : Lexer}
    {after : Document}
    {invalid : Span}
    (h : workspace.Orderly version view)
    (hfits : invalid.Fits)
    (hrealign : realign workspace.store lexer after invalid = .ok realignment) :
    Outcome.Returns ((merge realignment).outcome workspace).1 ∧
    ∀ workspace',
      (merge realignment).outcome workspace = (.ok (), workspace') →
      ∃ view', workspace'.Orderly version view' := by
  obtain ⟨ahead, behind, rfl, hahead, hbehind⟩ :=
    h.layout.exists_start_split (invalid.start + invalid.length)
  obtain ⟨stop, given, rest, htiles, rfl, -, hsuperseded⟩ :=
    Realignment.exists_of_realign h.layout.toArrangement hfits hahead hbehind hrealign
  rw [← List.takeWhile_append_dropWhile (p := fun entry => entry.2.start + entry.2.length ≤ stop)
    (l := given), List.append_assoc, ← List.append_assoc] at h
  exact orderly_merge h hsuperseded fun token htoken => (htiles.bounds_of_mem htoken).2.2.2

/-- A merge of tokens that tile the place of the old ones succeeds. -/
theorem outcome_merge
    (h : workspace.Orderly version (front ++ superseded ++ back))
    (hsuperseded : realignment.superseded = superseded.map Prod.fst)
    (htiles : Tiles start realignment.tokens stop)
    (hfront : ∀ entry ∈ front,
      entry.2.start < start ∧ entry.2.start + entry.2.length ≤ start)
    (hback : ∀ entry ∈ back, stop ≤ entry.2.start) :
    ∃ workspace',
      (merge realignment).outcome workspace = (.ok (), workspace') ∧
      workspace'.Orderly version
        (front ++
          (TrackedToken.number version workspace.nextId realignment.tokens).map
            TrackedToken.entry ++
          back) := by
  obtain ⟨middle, hmerge, hnextId, hmiddle⟩ := outcome_merge_eq h hsuperseded
  rw [hmerge, ← hnextId]
  exact outcome_puts hmiddle htiles hfront hback

end Revision

end LiveTokens
