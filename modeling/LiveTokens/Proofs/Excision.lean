import LiveTokens.Proofs.Tiling
import LiveTokens.Update.Excision

/-!
# What an excision does to a layout

The steps of a revision are read through the outcome of the work.  On a store
with a layout, an excision always gets as far as the next generation: it takes
out the entries at the edited region, and those behind the region slide along.
What it reports about them is computed from their spans alone.
-/

namespace LiveTokens

open TokenStore

namespace Revision

variable {workspace : Workspace}

theorem outcome_query
    {α : Type}
    (question : TokenStore → Outcome StoreError α) :
    (query question).outcome workspace =
      ((question workspace.store).wrap .store, workspace) := by
  unfold query
  rw [Work.outcome_bind_of_ok (Work.outcome_get workspace), Work.outcome_ofOutcome]

theorem outcome_update_of_ok
    {change : TokenStore → Outcome StoreError TokenStore}
    {store : TokenStore}
    (h : change workspace.store = .ok store) :
    (update change).outcome workspace = (.ok (), ⟨store, workspace.nextId⟩) := by
  unfold update
  have hquery : (query change).outcome workspace = (.ok store, workspace) := by
    rw [outcome_query, h, Outcome.wrap_ok]
  rw [Work.outcome_bind_of_ok hquery, Work.outcome_modify]

theorem outcome_update_eq_ok_iff
    {change : TokenStore → Outcome StoreError TokenStore}
    {workspace' : Workspace} :
    (update change).outcome workspace = (.ok (), workspace') ↔
      ∃ store,
        change workspace.store = .ok store ∧
        workspace' = ⟨store, workspace.nextId⟩ := by
  unfold update
  rw [Work.outcome_bind_eq_ok_iff]
  constructor
  · rintro ⟨store, middle, hquery, hmodify⟩
    rw [outcome_query, Prod.mk.injEq, Outcome.wrap_eq_ok_iff] at hquery
    obtain ⟨hchange, rfl⟩ := hquery
    rw [Work.outcome_modify, Prod.mk.injEq] at hmodify
    exact ⟨store, hchange, hmodify.2.symm⟩
  · rintro ⟨store, hchange, rfl⟩
    refine ⟨store, workspace, ?_, ?_⟩
    · rw [outcome_query, hchange, Outcome.wrap_ok]
    · rw [Work.outcome_modify]

theorem outcome_track
    (token : Token)
    (origin : Nat) :
    (track token origin).outcome workspace =
      (.ok ⟨workspace.nextId, token, origin⟩, ⟨workspace.store, workspace.nextId + 1⟩) := by
  rfl

section Removals

variable {version : Nat}
variable {front middle back : List (TrackedToken × Span)}

/-- The tokens of adjacent entries are taken out one after the other, if each can be removed when it
is the first of those that are left. -/
theorem outcome_removals_of_remove_eq
    (hwhole : workspace.store.withEntries (front ++ middle ++ back) = workspace.store)
    (hremove : ∀ entry rest,
      (front ++ entry :: (rest ++ back)).Sublist (front ++ middle ++ back) →
      (workspace.store.withEntries (front ++ entry :: (rest ++ back))).remove entry.1 =
        .ok (workspace.store.withEntries (front ++ (rest ++ back)))) :
    (middle.forM fun entry => update (·.remove entry.1)).outcome workspace =
      (.ok (), ⟨workspace.store.withEntries (front ++ back), workspace.nextId⟩) := by
  induction middle generalizing workspace with
  | nil =>
      rw [List.append_nil] at hwhole
      rw [hwhole]
      rfl
  | cons entry rest ih =>
      rw [List.append_assoc, List.cons_append] at hwhole hremove
      have hfirst := hremove entry rest (List.Sublist.refl _)
      rw [hwhole, ← List.append_assoc] at hfirst
      have hsub : (front ++ rest ++ back).Sublist (front ++ entry :: (rest ++ back)) := by
        rw [List.append_assoc]
        exact (List.sublist_cons_self entry _).append_left front
      have hupdate : (update (·.remove entry.1)).outcome workspace =
          (.ok (), ⟨workspace.store.withEntries (front ++ rest ++ back), workspace.nextId⟩) :=
        outcome_update_of_ok hfirst
      rw [List.forM, Work.outcome_bind_of_ok hupdate]
      exact ih rfl fun other others hothers => hremove other others (hothers.trans hsub)

/-- Taking out the tokens of adjacent entries leaves the other entries. -/
theorem outcome_removals
    (h : Layout workspace.store version (front ++ middle ++ back)) :
    (middle.forM fun entry => update (·.remove entry.1)).outcome workspace =
      (.ok (), ⟨workspace.store.withEntries (front ++ back), workspace.nextId⟩) :=
  outcome_removals_of_remove_eq h.withEntries_self fun _ _ hsub => (h.sublist hsub).remove_eq

/-- Behind tokens that are not empty, identities do not matter. -/
theorem outcome_removals_of_positive
    (h : Arrangement workspace.store version (front ++ middle ++ back))
    (hpositive : ∀ entry ∈ front, 0 < entry.2.length) :
    (middle.forM fun entry => update (·.remove entry.1)).outcome workspace =
      (.ok (), ⟨workspace.store.withEntries (front ++ back), workspace.nextId⟩) := by
  refine outcome_removals_of_remove_eq h.withEntries_self fun entry rest hsub => ?_
  have hleft := h.sublist hsub
  refine hleft.remove_eq_of_ahead fun other hother => ?_
  have hprecedes := (List.pairwise_append.mp hleft.ordered).2.2 other hother entry
    List.mem_cons_self
  exact Nat.lt_of_lt_of_le (Nat.lt_add_of_pos_right (hpositive other hother)) hprecedes.1

end Removals

end Revision

namespace Excision

variable {before after : Document}
variable {edit : Edit}
variable {front middle back touched : List (TrackedToken × Span)}

/-- What an excision reports about the entries that it has taken out. -/
def settle
    (before after : Document)
    (edit : Edit)
    (touched : List (TrackedToken × Span)) : Outcome UpdateError Excision := do
  let version ← advance before.generation 1
  if version ≠ after.generation then
    Outcome.fail (.versionSkew after.generation version)
  else
    let span ← extent before after edit (touched.map (·.2))
    let stop ← span.stop
    if after.size < stop then
      Outcome.fail (.outOfBounds span after.size)
    else
      return ⟨touched.map (·.1), span⟩

theorem settle_eq_ok_iff
    {excision : Excision} :
    settle before after edit touched = .ok excision ↔
      before.generation + 1 = after.generation ∧
      after.generation < positionBound ∧
      extent before after edit (touched.map (·.2)) = .ok excision.span ∧
      excision.span.Fits ∧
      excision.span.start + excision.span.length ≤ after.size ∧
      excision.removed = touched.map (·.1) := by
  unfold settle
  rw [Outcome.bind_eq_ok_iff]
  constructor
  · rintro ⟨version, hversion, h⟩
    obtain ⟨rfl, hbound⟩ := advance_eq_ok_iff.mp hversion
    split at h
    next =>
      cases h
    next hgeneration =>
      rw [Decidable.not_not] at hgeneration
      obtain ⟨span, hspan, h⟩ := Outcome.bind_eq_ok_iff.mp h
      obtain ⟨stop, hstop, h⟩ := Outcome.bind_eq_ok_iff.mp h
      obtain ⟨rfl, hfits⟩ := Span.stop_eq_ok_iff.mp hstop
      split at h
      next =>
        cases h
      next hsize =>
        cases h
        exact ⟨hgeneration, hgeneration ▸ hbound, hspan, hfits, Nat.le_of_not_lt hsize, rfl⟩
  · rintro ⟨hgeneration, hbound, hspan, hfits, hsize, hremoved⟩
    refine ⟨after.generation, advance_eq_ok_iff.mpr ⟨hgeneration, hbound⟩, ?_⟩
    rw [if_neg (not_not_intro rfl), hspan, Outcome.ok_bind, hfits.stop_eq, Outcome.ok_bind,
      if_neg (Nat.not_lt_of_le hsize), ← hremoved]
    rfl

/-- If the entries at the region can be taken out, an excision does so and moves on, whatever it
reports then. -/
theorem outcome_excise_of_removals
    {workspace : Workspace}
    (h : Arrangement workspace.store before.generation (front ++ middle ++ back))
    (hregion : edit.region.Fits)
    (hdivided : Divided edit.region front middle back)
    (hremovals : (middle.forM fun entry => Revision.update (·.remove entry.1)).outcome workspace =
      (.ok (), ⟨workspace.store.withEntries (front ++ back), workspace.nextId⟩)) :
    (excise before after edit).outcome workspace =
      (settle before after edit middle,
        ⟨(workspace.store.withEntries (front ++ back)).advance edit, workspace.nextId⟩) := by
  have htouched := h.overlapping_eq hregion rfl hdivided
  have hquery : (Revision.query (·.overlapping before.generation edit.region)).outcome workspace =
      (.ok middle, workspace) := by
    rw [Revision.outcome_query, htouched, Outcome.wrap_ok]
  have hhead : (((workspace.store.withEntries (front ++ back)).advance edit).version :
      Outcome StoreError Nat) = LiveTokens.advance before.generation 1 := by
    rw [TokenStore.version, EditLog.head, TokenStore.advance, EditLog.base_push,
      EditLog.length_push, LiveTokens.advance, ← Nat.add_assoc, ← h.head]
    rfl
  unfold excise
  rw [Work.outcome_bind_of_ok hquery, Work.outcome_bind_of_ok hremovals,
    Work.outcome_bind_of_ok (Work.outcome_modify _ _), Work.outcome_bind, Revision.outcome_query]
  dsimp only
  rw [hhead]
  unfold settle
  by_cases hbound : before.generation + 1 < positionBound
  · rw [advance_eq_ok hbound, advance_eq_ok hbound, Outcome.wrap_ok, Outcome.ok_bind]
    dsimp only
    split
    next =>
      rw [Work.outcome_fail]
      rfl
    next =>
      rw [Work.outcome_bind, Work.outcome_ofOutcome]
      cases extent before after edit (middle.map (·.2)) with
      | error failure =>
          rfl
      | ok span =>
          dsimp only
          rw [Work.outcome_bind, Work.outcome_ofOutcome, Outcome.ok_bind]
          cases (span.stop : Outcome UpdateError Nat) with
          | error failure =>
              rfl
          | ok stop =>
              dsimp only
              rw [Outcome.ok_bind]
              split
              · rfl
              · rfl
  · unfold LiveTokens.advance
    rw [if_neg hbound, if_neg hbound]
    rfl

/-- An excision takes out the entries at the region and moves on, whatever it reports then. -/
theorem outcome_excise
    {workspace : Workspace}
    (h : Layout workspace.store before.generation (front ++ middle ++ back))
    (hregion : edit.region.Fits)
    (hdivided : Divided edit.region front middle back) :
    (excise before after edit).outcome workspace =
      (settle before after edit middle,
        ⟨(workspace.store.withEntries (front ++ back)).advance edit, workspace.nextId⟩) :=
  outcome_excise_of_removals h.toArrangement hregion hdivided (Revision.outcome_removals h)

end Excision

section Extent

variable {region : Span}
variable {size start stop : Nat}
variable {front middle back : List (TrackedToken × Span)}

/-- Where tokens tile a text, those at a region cover it.  There are none only if there is no
text. -/
theorem TokenStore.Divided.covers
    (h : Divided region front middle back)
    (hfront : Tiles 0 (front.map placed) start)
    (hmiddle : Tiles start (middle.map placed) stop)
    (hback : Tiles stop (back.map placed) size)
    (hregion : region.start + region.length ≤ size) :
    start ≤ region.start ∧
    region.start + region.length ≤ stop ∧
    (middle = [] → size = 0) := by
  have hahead : start = 0 ∨ start < region.start := by
    rcases List.eq_nil_or_concat front with rfl | ⟨others, last, rfl⟩
    · exact .inl hfront.symm
    · rw [List.concat_eq_append] at h hfront
      have hlast := h.front last (by simp)
      have hstop := hfront.stop_of_concat
      omega
  have hbehind : stop = size ∨ region.start + region.length < stop := by
    cases back with
    | nil =>
        exact .inl hback
    | cons first others =>
        have hfirst := h.back first List.mem_cons_self
        have hstart : first.2.start = stop := hback.1
        omega
  have hle := hmiddle.le
  refine ⟨by omega, by omega, ?_⟩
  rintro rfl
  have hstop : start = stop := hmiddle
  omega

variable {before after : Document}
variable {edit : Edit}

/-- The text in the place of the tokens at the region starts where they did, and ends where they did
but for the delta. -/
theorem Excision.extent_of_tiles
    (hdivided : Divided edit.region front middle back)
    (hedit : edit.Plausible)
    (hfront : Tiles 0 (front.map placed) start)
    (hmiddle : Tiles start (middle.map placed) stop)
    (hback : Tiles stop (back.map placed) before.size)
    (hregion : edit.region.start + edit.region.length ≤ before.size)
    (hbefore : before.size < positionBound)
    (hafter : after.size < positionBound)
    (hsize : (after.size : Int) = before.size + edit.delta) :
    extent before after edit (middle.map (·.2)) =
      .ok ⟨start, (stop + edit.delta - start).toNat⟩ := by
  obtain ⟨hstart, hstop, hnone⟩ := hdivided.covers hfront hmiddle hback hregion
  have hle := hback.le
  unfold Edit.Plausible at hedit
  cases middle with
  | nil =>
      have hempty := hnone rfl
      have hsame : start = stop := hmiddle
      have htext : before.text = [] := Text.size_eq_zero_iff.mp hempty
      have hlength : (stop + edit.delta - start).toNat = after.size := by
        omega
      have hzero : start = 0 := by
        omega
      rw [hlength, hzero]
      simp [extent, htext]
  | cons first others =>
      have hfirst : first.2.start = start := hmiddle.1
      obtain ⟨last, hlast⟩ : ∃ last, (first :: others).getLast? = some last :=
        ⟨_, List.getLast?_eq_some_getLast (by simp)⟩
      have hlastStop : last.2.start + last.2.length = stop := by
        have hplaced : ((first :: others).map placed).getLast? = some (placed last) := by
          rw [List.getLast?_map, hlast, Option.map_some]
        exact hmiddle.stop_of_getLast? hplaced
      have hshift : shift? (last.2.start + last.2.length) edit.delta =
          some (stop + edit.delta).toNat := by
        unfold shift?
        rw [if_pos (by omega), hlastStop]
      have hlastFits : last.2.Fits := by
        unfold Span.Fits
        omega
      have hregionFits : edit.region.Fits := by
        unfold Span.Fits
        omega
      have hlength : (stop + edit.delta).toNat - start = (stop + edit.delta - start).toNat := by
        omega
      unfold extent
      rw [List.getLast?_map, hlast, Option.map_some, List.map_cons, List.head?_cons]
      dsimp only
      rw [if_neg (by omega), hlastFits.stop_eq, Outcome.ok_bind, hregionFits.stop_eq,
        Outcome.ok_bind, if_neg (by omega), hshift, Option.bind_some, Span.between?,
        if_pos (by omega), hfirst, hlength]
      rfl

end Extent

namespace TokenStore

section Excised

variable {store : TokenStore}
variable {version : Nat}
variable {edit : Edit}
variable {front middle back : List (TrackedToken × Span)}

theorem sublist_around :
    (front ++ back).Sublist (front ++ middle ++ back) :=
  (List.sublist_append_left front middle).append_right back

/-- The entries that an excision leaves are an arrangement of the next generation. -/
theorem Arrangement.excised
    (h : Arrangement store version (front ++ middle ++ back))
    (hbound : version + 1 < positionBound)
    (hdivided : Divided edit.region front middle back)
    (hedit : edit.Plausible)
    (hrange : ∀ entry ∈ back, entry.2.start + entry.2.length + edit.delta < positionBound) :
    Arrangement ((store.withEntries (front ++ back)).advance edit) (version + 1)
      (front ++ back.map edit.slideEntry) := by
  refine (h.sublist sublist_around).advance hbound hedit ?_ ?_
  · intro entry hentry
    exact Nat.le_of_lt (hdivided.front entry hentry)
  · intro entry hentry
    have hbehind := hdivided.back entry hentry
    unfold Edit.Plausible at hedit
    exact ⟨hbehind, by omega, hrange entry hentry⟩

/-- The entries that an excision leaves are a layout of the next generation. -/
theorem Layout.excised
    (h : Layout store version (front ++ middle ++ back))
    (hbound : version + 1 < positionBound)
    (hdivided : Divided edit.region front middle back)
    (hedit : edit.Plausible)
    (hrange : ∀ entry ∈ back, entry.2.start + entry.2.length + edit.delta < positionBound) :
    Layout ((store.withEntries (front ++ back)).advance edit) (version + 1)
      (front ++ back.map edit.slideEntry) where
  toArrangement := h.toArrangement.excised hbound hdivided hedit hrange
  distinct := (h.sublist sublist_around).distinct

end Excised

end TokenStore

end LiveTokens
