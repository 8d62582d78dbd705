import LiveTokens.Proofs.Appearance
import LiveTokens.Proofs.Order

/-!
# Stores that look alike

Two stores look alike in a generation if they have layouts of the same faces: the
same identities, kinds and spans in the same order, whatever the tokens were
measured in and however many edits are remembered.  A search, an answer or a
failure is a matter of the spans alone, so that it is the same for both.
-/

namespace LiveTokens

open TokenStore

variable {version : Nat}
variable {view view' front front' middle middle' back back' : List (TrackedToken × Span)}
variable {region span : Span}

namespace TokenStore

section Faces

theorem map_snd_of_map_face
    (h : view.map face = view'.map face) :
    view.map Prod.snd = view'.map Prod.snd := by
  have hspans := congrArg (List.map fun shown : Nat × Token => shown.2.span) h
  rw [List.map_map, List.map_map] at hspans
  exact hspans

theorem length_of_map_face
    (h : view.map face = view'.map face) :
    view.length = view'.length := by
  simpa using congrArg List.length h

/-- What splits one view splits another one that looks alike. -/
theorem exists_append_of_map_face
    (h : (front ++ back).map face = view'.map face) :
    ∃ front' back',
      view' = front' ++ back' ∧
      front.map face = front'.map face ∧
      back.map face = back'.map face := by
  rw [List.map_append] at h
  obtain ⟨front', back', rfl, hfront, hback⟩ := List.map_eq_append_iff.mp h.symm
  exact ⟨front', back', rfl, hfront.symm, hback.symm⟩

/-- A property of spans holds of all entries or of none that look alike. -/
theorem forall_of_map_face
    {p : Span → Prop}
    (h : view.map face = view'.map face)
    (hview : ∀ entry ∈ view, p entry.2) :
    ∀ entry ∈ view', p entry.2 := by
  intro entry hentry
  have hspan := List.mem_map_of_mem (f := Prod.snd) hentry
  rw [← map_snd_of_map_face h] at hspan
  obtain ⟨other, hother, heq⟩ := List.mem_map.mp hspan
  exact heq ▸ hview other hother

theorem Divided.of_map_face
    (h : Divided region front middle back)
    (hfront : front.map face = front'.map face)
    (hmiddle : middle.map face = middle'.map face)
    (hback : back.map face = back'.map face) :
    Divided region front' middle' back' where
  front := forall_of_map_face (p := fun span => span.start + span.length < region.start)
    hfront h.front
  middle := forall_of_map_face
    (p := fun span => region.start ≤ span.start + span.length ∧
      span.start ≤ region.start + region.length)
    hmiddle h.middle
  back := forall_of_map_face (p := fun span => region.start + region.length < span.start)
    hback h.back

/-- A region divides two views that look alike in the same places. -/
theorem Layout.exists_divisions
    {store : TokenStore}
    (h : Layout store version view)
    (hfaces : view.map face = view'.map face)
    (region : Span) :
    ∃ front middle back front' middle' back',
      view = front ++ middle ++ back ∧
      view' = front' ++ middle' ++ back' ∧
      Divided region front middle back ∧
      Divided region front' middle' back' ∧
      front.map face = front'.map face ∧
      middle.map face = middle'.map face ∧
      back.map face = back'.map face := by
  obtain ⟨front, middle, back, rfl, hdivided⟩ := h.exists_divided region
  obtain ⟨_, back', rfl, hrest, hback⟩ := exists_append_of_map_face hfaces
  obtain ⟨front', middle', rfl, hfront, hmiddle⟩ := exists_append_of_map_face hrest
  exact ⟨front, middle, back, front', middle', back', rfl, rfl, hdivided,
    hdivided.of_map_face hfront hmiddle hback, hfront, hmiddle, hback⟩

theorem map_face_slideEntry
    (edit : Edit)
    (h : back.map face = back'.map face) :
    (back.map edit.slideEntry).map face = (back'.map edit.slideEntry).map face := by
  have hslide : face ∘ edit.slideEntry =
      (fun shown : Nat × Token =>
        (shown.1, Token.mk shown.2.kind (shown.2.span.slide edit.delta))) ∘ face := rfl
  rw [List.map_map, List.map_map, hslide, ← List.map_map, ← List.map_map, h]

end Faces

/-- The tokens of stores that look alike appear the same, so that the same ones are in a range. -/
theorem inRange_eq_of_map_face
    {store store' : TokenStore}
    (h : Layout store version view)
    (h' : Layout store' version view')
    (hfaces : view.map face = view'.map face)
    (region : Span) :
    store.inRange version region = store'.inRange version region := by
  refine inRange_eq_of_appearances ?_ region
  rw [h.viewed.appearances_eq, h'.viewed.appearances_eq, hfaces]

section Add

variable {store store' : TokenStore}
variable {tracked : TrackedToken}

/-- A token is refused for the same reason, or added at the same place. -/
theorem agree_add
    (h : Layout store version view)
    (h' : Layout store' version view')
    (hfaces : view.map face = view'.map face)
    (hlocate : store.locate tracked version = .ok span)
    (hlocate' : store'.locate tracked version = .ok span)
    (hfits : span.Fits)
    (hfresh : tracked.id ∉ store.ids)
    (hfresh' : tracked.id ∉ store'.ids) :
    Outcome.Agree
      (fun added added' => ∃ front front' back back',
        view = front ++ back ∧
        view' = front' ++ back' ∧
        added = store.withEntries (front ++ (tracked, span) :: back) ∧
        added' = store'.withEntries (front' ++ (tracked, span) :: back') ∧
        Layout added version (front ++ (tracked, span) :: back) ∧
        Layout added' version (front' ++ (tracked, span) :: back') ∧
        front.map face = front'.map face ∧
        back.map face = back'.map face)
      (store.add tracked) (store'.add tracked) := by
  obtain ⟨front, back, rfl, hfront, hback⟩ := h.exists_start_split span.start
  obtain ⟨front', back', rfl, hfrontFaces, hbackFaces⟩ := exists_append_of_map_face hfaces
  have hahead : front'.getLast?.map Prod.snd = front.getLast?.map Prod.snd := by
    rw [← List.getLast?_map, ← List.getLast?_map, map_snd_of_map_face hfrontFaces]
  have hbehind : back'.head?.map Prod.snd = back.head?.map Prod.snd := by
    rw [← List.head?_map, ← List.head?_map, map_snd_of_map_face hbackFaces]
  obtain ⟨hfrontOrdered, hbackOrdered, -⟩ := List.pairwise_append.mp h.ordered
  rw [h.add_eq hlocate hfront hback,
    h'.add_eq hlocate' (forall_of_map_face (p := (·.start < span.start)) hfrontFaces hfront)
      (forall_of_map_face (p := (span.start ≤ ·.start)) hbackFaces hback),
    hahead, hbehind]
  rcases hpreceding : checkAhead span (front.getLast?.map Prod.snd) with failure | _
  · rfl
  rcases hfollowing : checkBehind span (back.head?.map Prod.snd) with failure | _
  · rfl
  rw [checkAhead_eq_ok_iff hfrontOrdered fun other hother =>
    h.fits other (List.mem_append_left _ hother)] at hpreceding
  rw [checkBehind_eq_ok_iff hbackOrdered hfits] at hfollowing
  exact ⟨front, front', back, back', rfl, rfl, rfl, rfl,
    h.insert hlocate hfits hfresh hpreceding hfollowing,
    h'.insert hlocate' hfits hfresh'
      (forall_of_map_face (p := (·.Precedes span)) hfrontFaces hpreceding)
      (forall_of_map_face (p := span.Precedes) hbackFaces hfollowing),
    hfrontFaces, hbackFaces⟩

end Add

end TokenStore

/-- Two workspaces look alike, and give the same numbers. -/
structure Workspace.Alike
    (version : Nat)
    (first second : Workspace) : Prop where
  nextId_eq : first.nextId = second.nextId
  views : ∃ view view',
    first.Orderly version view ∧
    second.Orderly version view' ∧
    view.map face = view'.map face

namespace Revision

variable {workspace workspace' : Workspace}
variable {before after : Document}
variable {edit : Edit}
variable {replacements : List Replacement}
variable {token : Token}
variable {tokens : List Token}
variable {realignment realignment' : Realignment}

/-- Two revisions have failed for the same reason and used up the same numbers, or have succeeded
and left workspaces that look alike. -/
abbrev Agree
    {α : Type}
    (version : Nat)
    (related : α → α → Prop) :
    Outcome UpdateError α × Workspace → Outcome UpdateError α × Workspace → Prop :=
  Work.Agree
    (fun value left value' left' => related value value' ∧ left.Alike version left')
    (fun left left' => left.nextId = left'.nextId)

/-- What an excision reports depends on the spans of the tokens that it takes out. -/
theorem agree_settle
    (h : middle.map face = middle'.map face) :
    Outcome.Agree
      (fun excision excision' =>
        excision.span = excision'.span ∧
        excision.removed.length = excision'.removed.length)
      (Excision.settle before after edit middle) (Excision.settle before after edit middle') := by
  have hspans : middle.map (·.2) = middle'.map (·.2) := map_snd_of_map_face h
  unfold Excision.settle
  rw [← hspans]
  refine (Outcome.agree_of_eq rfl).bind fun version _ hversion => ?_
  subst hversion
  split
  · rfl
  refine (Outcome.agree_of_eq rfl).bind fun span _ hspan => ?_
  subst hspan
  refine (Outcome.agree_of_eq rfl).bind fun stop _ hstop => ?_
  subst hstop
  split
  · rfl
  · refine ⟨rfl, ?_⟩
    rw [List.length_map, List.length_map, length_of_map_face h]

/-- An edit takes out tokens that look alike and leaves others that do. -/
theorem agree_excise
    (h : workspace.Alike before.generation workspace')
    (hrange : workspace.store.InRange replacements)
    (hjoin : Edit.join replacements = .ok edit) :
    Agree after.generation
      (fun excision excision' =>
        excision.span = excision'.span ∧
        excision.removed.length = excision'.removed.length ∧
        excision.span.Fits)
      ((excise before after edit).outcome workspace)
      ((excise before after edit).outcome workspace') := by
  obtain ⟨hnextId, view, view', hview, hview', hfaces⟩ := h
  obtain ⟨hregion, hedit⟩ := Edit.plausible_of_join hjoin
  have hmoved := hrange.of_layout hview.layout hjoin
  have hmoved' := forall_of_map_face
    (p := fun span => edit.region.start + edit.region.length < span.start →
      span.start + span.length + edit.delta < positionBound)
    hfaces hmoved
  obtain ⟨front, middle, back, front', middle', back', rfl, rfl, hdivided, hdivided', hfront,
    hmiddle, hback⟩ := hview.layout.exists_divisions hfaces edit.region
  rw [Excision.outcome_excise hview.layout hregion hdivided,
    Excision.outcome_excise hview'.layout hregion hdivided']
  refine Work.agree_mk (agree_settle hmiddle) ?_ hnextId
  rintro excision excision' hsettle ⟨hspan, hremoved⟩
  obtain ⟨hgeneration, hbound, -, hfits, -, -⟩ := Excision.settle_eq_ok_iff.mp hsettle
  rw [← hgeneration] at hbound ⊢
  refine ⟨⟨hspan, hremoved, hfits⟩, hnextId, _, _,
    hview.excised hbound hdivided hedit ?_, hview'.excised hbound hdivided' hedit ?_, ?_⟩
  · intro entry hentry
    exact hmoved entry (List.mem_append_right _ hentry) (hdivided.back entry hentry)
  · intro entry hentry
    exact hmoved' entry (List.mem_append_right _ hentry) (hdivided'.back entry hentry)
  · rw [List.map_append, List.map_append, hfront, map_face_slideEntry edit hback]

theorem agree_update
    {related : TokenStore → TokenStore → Prop}
    {change change' : TokenStore → Outcome StoreError TokenStore}
    (hnextId : workspace.nextId = workspace'.nextId)
    (h : Outcome.Agree related (change workspace.store) (change' workspace'.store))
    (halike : ∀ store store', related store store' →
      Workspace.Alike version ⟨store, workspace.nextId⟩ ⟨store', workspace'.nextId⟩) :
    Agree version Eq ((update change).outcome workspace)
      ((update change').outcome workspace') := by
  have hquery : Work.Agree
      (fun store left store' left' =>
        related store store' ∧ left = workspace ∧ left' = workspace')
      (fun left left' => left.nextId = left'.nextId)
      ((query change).outcome workspace) ((query change').outcome workspace') := by
    rw [outcome_query, outcome_query]
    exact Work.agree_mk (h.wrap (f := UpdateError.store))
      (fun store store' _ hrelated => ⟨hrelated, rfl, rfl⟩) hnextId
  refine hquery.bind fun store left store' left' hgood => ?_
  obtain ⟨hrelated, rfl, rfl⟩ := hgood
  exact ⟨rfl, halike store store' hrelated⟩

theorem agree_put
    (h : workspace.Alike version workspace')
    (hfits : token.span.Fits) :
    Agree version Eq ((put version token).outcome workspace)
      ((put version token).outcome workspace') := by
  obtain ⟨hnextId, view, view', hview, hview', hfaces⟩ := h
  have hlocate := locate_tracked token hview
  have hlocate' := locate_tracked token hview'
  rw [← hnextId] at hlocate'
  have hfresh' := not_mem_ids hview'
  rw [← hnextId] at hfresh'
  have hadd := agree_add hview.layout hview'.layout hfaces hlocate hlocate' hfits
    (not_mem_ids hview) hfresh'
  rw [put, Work.outcome_bind_of_ok (outcome_track token version),
    Work.outcome_bind_of_ok (outcome_track token version), ← hnextId]
  refine agree_update rfl hadd ?_
  rintro _ _ ⟨front, front', back, back', rfl, rfl, rfl, rfl, hadded, hadded', hfront, hback⟩
  refine ⟨rfl, _, _, ⟨hadded, numbered_insert hview rfl⟩, ⟨hadded', ?_⟩, ?_⟩
  · have hnumbered : ∀ id ∈ (workspace'.store.withEntries
        (front' ++ ((⟨workspace.nextId, token, version⟩ : TrackedToken), token.span) :: back')).ids,
        id < workspace'.nextId + 1 := numbered_insert hview' hnextId
    rwa [← hnextId] at hnumbered
  · simp [hfront, hback]

theorem agree_puts
    (h : workspace.Alike version workspace')
    (hfits : ∀ token ∈ tokens, token.span.Fits) :
    Agree version Eq ((tokens.forM (put version)).outcome workspace)
      ((tokens.forM (put version)).outcome workspace') := by
  induction tokens generalizing workspace workspace' with
  | nil =>
      exact ⟨rfl, h⟩
  | cons token tokens ih =>
      rw [List.forM]
      refine (agree_put h (hfits token List.mem_cons_self)).bind ?_
      intro _ left _ left' hgood
      exact ih hgood.2 fun other hother => hfits other (List.mem_cons_of_mem _ hother)

/-- Merging the same tokens in the place of as many old ones agrees. -/
theorem agree_merge
    (h : workspace.Orderly version (front ++ middle ++ back))
    (h' : workspace'.Orderly version (front' ++ middle' ++ back'))
    (hnextId : workspace.nextId = workspace'.nextId)
    (hfront : front.map face = front'.map face)
    (hback : back.map face = back'.map face)
    (hsuperseded : realignment.superseded = middle.map Prod.fst)
    (hsuperseded' : realignment'.superseded = middle'.map Prod.fst)
    (htokens : realignment.tokens = realignment'.tokens)
    (hfits : ∀ token ∈ realignment.tokens, token.span.Fits) :
    Agree version Eq ((merge realignment).outcome workspace)
      ((merge realignment').outcome workspace') := by
  obtain ⟨left, hmerge, hleft, hleftOrderly⟩ := outcome_merge_eq h hsuperseded
  obtain ⟨left', hmerge', hleft', hleftOrderly'⟩ := outcome_merge_eq h' hsuperseded'
  rw [hmerge, hmerge', ← htokens]
  refine agree_puts ⟨?_, _, _, hleftOrderly, hleftOrderly', ?_⟩ hfits
  · rw [hleft, hleft', hnextId]
  · rw [List.map_append, List.map_append, hfront, hback]

end Revision

end LiveTokens
