import LiveTokens.Proofs.Layout

/-!
# Layouts of changed stores

Removing a token takes its entry out of the layout, wherever the search for its
position leads.  Adding one puts an entry between those that end in front of it
and those that start behind it, and is refused if there is no such place; the
identities of the tokens do not matter for that.  An edit that leaves every token
alive slides the entries behind it.

Measuring the tokens anew keeps the layout, and numbering fresh tokens gives a
store where every token lies where it was measured.
-/

namespace LiveTokens

theorem insertIdx_append
    {α : Type}
    (front back : List α)
    (element : α) :
    (front ++ back).insertIdx front.length element = front ++ element :: back := by
  induction front with
  | nil =>
      rfl
  | cons first rest ih =>
      simpa using ih

namespace TokenStore

variable {store store' : TokenStore}
variable {version : Nat}
variable {view front back : List (TrackedToken × Span)}
variable {entry : TrackedToken × Span}

section Remove

/-- An element whose identity no other one has is the first with that identity. -/
theorem indexById?_eq
    {tracked : TrackedToken}
    {before behind : List TrackedToken}
    (htokens : store.tokens = before ++ tracked :: behind)
    (hone : store.ids.count tracked.id ≤ 1) :
    store.indexById? tracked.id = some before.length := by
  have hnone : tracked.id ∉ before.map (·.id) := by
    rw [ids, htokens, List.map_append, List.map_cons, List.count_append,
      List.count_cons_self] at hone
    exact List.count_eq_zero.mp (by omega)
  have hbefore : ∀ other ∈ before, (other.id == tracked.id) = false := by
    intro other hother
    have hne : other.id ≠ tracked.id := fun heq => hnone (heq ▸ List.mem_map_of_mem hother)
    simpa using hne
  unfold indexById?
  rw [htokens, List.findIdx?_append, List.findIdx?_eq_none_iff.mpr hbefore]
  simp [List.findIdx?_cons]

/-- A search by position that finds anything finds the token with the right identity. -/
theorem indexByPosition?_eq_some
    {tracked : TrackedToken}
    {index : Nat}
    (h : store.indexByPosition? tracked = .ok (some index)) :
    store.tokens[index]?.map (·.id) = some tracked.id := by
  unfold indexByPosition? at h
  obtain ⟨current, -, h⟩ := Outcome.bind_eq_ok_iff.mp h
  simp only at h
  split at h
  · simp [Outcome.overflow] at h
  · simp at h
  · split at h
    next hid =>
      simp only [Outcome.pure_eq_ok, Except.ok.injEq, Option.some.injEq] at h
      exact h ▸ hid
    next =>
      simp at h

/-- The search by position for a token of the store has an answer. -/
theorem Arrangement.exists_indexByPosition?
    (h : Arrangement store version view)
    (hentry : entry ∈ view) :
    ∃ found, store.indexByPosition? entry.1 = .ok found := by
  obtain ⟨front, back, hview, hfront, hback⟩ := h.exists_start_split entry.2.start
  have hindex := h.indexOf_eq hview hfront hback
  unfold indexByPosition?
  simp only [h.version_eq, h.located entry hentry, hindex, Outcome.ok_bind]
  split
  · exact ⟨_, rfl⟩
  · exact ⟨_, rfl⟩

/-- Removing a token takes out the element that one of the two searches leads to. -/
theorem remove_eq_of_index
    {tracked element : TrackedToken}
    {before behind : List TrackedToken}
    {found : Option Nat}
    (hfound : store.indexByPosition? tracked = .ok found)
    (htokens : store.tokens = before ++ element :: behind)
    (hindex : (found <|> store.indexById? tracked.id) = some before.length) :
    store.remove tracked = .ok { store with tokens := before ++ behind } := by
  rw [remove_eq_do, hfound, Outcome.ok_bind, hindex]
  dsimp only
  rw [htokens, List.eraseIdx_append_of_length_le (Nat.le_refl _), Nat.sub_self,
    List.eraseIdx_cons_zero]
  rfl

/-- Where no two elements have the identity, the search by position leads to what the search by
identity finds, or nowhere. -/
theorem orElse_indexById?_eq
    {tracked : TrackedToken}
    {found : Option Nat}
    (hfound : store.indexByPosition? tracked = .ok found)
    (hone : store.ids.count tracked.id ≤ 1) :
    (found <|> store.indexById? tracked.id) = store.indexById? tracked.id := by
  cases found with
  | none =>
      rfl
  | some index =>
      obtain ⟨element, helement, hid⟩ := Option.map_eq_some_iff.mp (indexByPosition?_eq_some hfound)
      obtain ⟨hindex, rfl⟩ := List.getElem?_eq_some_iff.mp helement
      have htokens : store.tokens =
          store.tokens.take index ++ store.tokens[index] :: store.tokens.drop (index + 1) := by
        rw [← List.drop_eq_getElem_cons hindex, List.take_append_drop]
      rw [← hid] at hone ⊢
      rw [indexById?_eq htokens hone, List.length_take_of_le (Nat.le_of_lt hindex)]
      rfl

/-- The one element with the same identity is taken out, whatever the search by position has
found. -/
theorem remove_eq_of_split
    {tracked element : TrackedToken}
    {before behind : List TrackedToken}
    {found : Option Nat}
    (hone : store.ids.count tracked.id ≤ 1)
    (hfound : store.indexByPosition? tracked = .ok found)
    (htokens : store.tokens = before ++ element :: behind)
    (hid : element.id = tracked.id) :
    store.remove tracked = .ok { store with tokens := before ++ behind } := by
  refine remove_eq_of_index hfound htokens ?_
  rw [orElse_indexById?_eq hfound hone, ← hid, indexById?_eq htokens (by rwa [hid])]

/-- Removing a token takes its entry out of the layout. -/
theorem Layout.remove_eq
    (h : Layout store version (front ++ entry :: back)) :
    store.remove entry.1 = .ok (store.withEntries (front ++ back)) := by
  have htokens : store.tokens = front.map Prod.fst ++ entry.1 :: back.map Prod.fst := by
    rw [← h.tokens, List.map_append, List.map_cons]
  have hentry : entry ∈ front ++ entry :: back := by simp
  obtain ⟨found, hfound⟩ := h.exists_indexByPosition? hentry
  rw [remove_eq_of_split (List.nodup_iff_count.mp h.distinct _) hfound htokens rfl, withEntries,
    List.map_append]

/-- A token behind which all others start is found by its position, whatever identities there
are. -/
theorem Arrangement.remove_eq_of_ahead
    (h : Arrangement store version (front ++ entry :: back))
    (hahead : ∀ other ∈ front, other.2.start < entry.2.start) :
    store.remove entry.1 = .ok (store.withEntries (front ++ back)) := by
  have hbehind : ∀ other ∈ entry :: back, entry.2.start ≤ other.2.start := by
    intro other hother
    rcases List.mem_cons.mp hother with rfl | hmem
    · exact Nat.le_refl _
    · have hordered := (List.pairwise_append.mp h.ordered).2.1
      exact ((List.pairwise_cons.mp hordered).1 other hmem).start_le
  have htokens : store.tokens = front.map Prod.fst ++ entry.1 :: back.map Prod.fst := by
    rw [← h.tokens, List.map_append, List.map_cons]
  have hat : store.tokens[front.length]?.map (·.id) = some entry.1.id := by
    rw [← h.tokens]
    simp
  have hfound : store.indexByPosition? entry.1 = .ok (some front.length) := by
    unfold indexByPosition?
    simp only [h.version_eq, h.located entry (by simp), h.indexOf_eq rfl hahead hbehind,
      Outcome.ok_bind]
    rw [if_pos hat]
    rfl
  rw [remove_eq_of_index hfound htokens (by simp), withEntries, List.map_append]

end Remove

section Add

variable {tracked : TrackedToken}
variable {span : Span}

/-- A new span may not start in front of the end of the one before it. -/
def checkAhead
    (span : Span) : Option Span → Outcome StoreError Unit
  | none => return ()
  | some previous => do
    if span.start < (← previous.stop) then
      Outcome.fail (.overlap previous span)

/-- A new span may not end behind the start of the one after it. -/
def checkBehind
    (span : Span) : Option Span → Outcome StoreError Unit
  | none => return ()
  | some next => do
    if next.start < (← span.stop) then
      Outcome.fail (.overlap next span)

theorem checkAhead_some
    {previous : Span}
    (hprevious : previous.Fits) :
    checkAhead span (some previous) =
      if span.start < previous.start + previous.length then
        Outcome.fail (.overlap previous span)
      else
        .ok () := by
  rw [checkAhead, hprevious.stop_eq]
  rfl

theorem checkBehind_some
    {next : Span}
    (hspan : span.Fits) :
    checkBehind span (some next) =
      if next.start < span.start + span.length then Outcome.fail (.overlap next span)
      else .ok () := by
  rw [checkBehind, hspan.stop_eq]
  rfl

/-- The last of the spans in front decides whether all of them precede a span. -/
theorem checkAhead_eq_ok_iff
    (hordered : front.Pairwise fun first second => first.2.Precedes second.2)
    (hfits : ∀ other ∈ front, other.2.Fits) :
    checkAhead span (front.getLast?.map Prod.snd) = .ok () ↔
      ∀ other ∈ front, other.2.Precedes span := by
  rcases List.eq_nil_or_concat front with rfl | ⟨others, last, rfl⟩
  · simp [checkAhead]
  · rw [List.concat_eq_append] at hordered hfits ⊢
    have hlast : last.2.Fits := hfits last (by simp)
    rw [List.getLast?_concat, Option.map_some, checkAhead_some hlast]
    constructor
    · intro hcheck
      have hprecedes : last.2.Precedes span := by
        refine ⟨?_, hlast⟩
        split at hcheck
        next =>
          cases hcheck
        next hle =>
          omega
      intro other hother
      rcases List.mem_append.mp hother with hmem | hmem
      · exact ((List.pairwise_append.mp hordered).2.2 other hmem last (by simp)).trans hprecedes
      · rw [List.mem_singleton.mp hmem]
        exact hprecedes
    · intro hall
      have hprecedes := hall last (by simp)
      rw [if_neg (Nat.not_lt_of_le hprecedes.1)]

/-- The first of the spans behind decides whether all of them come after a span. -/
theorem checkBehind_eq_ok_iff
    (hordered : back.Pairwise fun first second => first.2.Precedes second.2)
    (hspan : span.Fits) :
    checkBehind span (back.head?.map Prod.snd) = .ok () ↔
      ∀ other ∈ back, span.Precedes other.2 := by
  cases back with
  | nil =>
      simp [checkBehind]
  | cons first others =>
      rw [List.head?_cons, Option.map_some, checkBehind_some hspan]
      constructor
      · intro hcheck
        have hprecedes : span.Precedes first.2 := by
          refine ⟨?_, hspan⟩
          split at hcheck
          next =>
            cases hcheck
          next hle =>
            omega
        intro other hother
        rcases List.mem_cons.mp hother with rfl | hmem
        · exact hprecedes
        · exact hprecedes.trans ((List.pairwise_cons.mp hordered).1 other hmem)
      · intro hall
        have hprecedes := hall first List.mem_cons_self
        rw [if_neg (Nat.not_lt_of_le hprecedes.1)]

namespace Arrangement

/-- A token is added between the entries that start in front of it and the others, unless its
neighbours there object. -/
theorem add_eq
    (h : Arrangement store version (front ++ back))
    (hlocate : store.locate tracked version = .ok span)
    (hfront : ∀ other ∈ front, other.2.start < span.start)
    (hback : ∀ other ∈ back, span.start ≤ other.2.start) :
    store.add tracked = do
      checkAhead span (front.getLast?.map Prod.snd)
      checkBehind span (back.head?.map Prod.snd)
      return store.withEntries (front ++ (tracked, span) :: back) := by
  have hprevious : store.checkPrevious version span
      (if front.length = 0 then none else store.tokens[front.length - 1]?) =
        checkAhead span (front.getLast?.map Prod.snd) := by
    rcases List.eq_nil_or_concat front with rfl | ⟨others, last, rfl⟩
    · rfl
    · rw [List.concat_eq_append] at h ⊢
      have hat : store.tokens[(others ++ [last]).length - 1]? = some last.1 := by
        rw [← h.tokens]
        simp
      rw [if_neg (by simp), hat]
      simp [checkPrevious, checkAhead, h.located last (by simp)]
  have hnext : store.checkNext version span store.tokens[front.length]? =
      checkBehind span (back.head?.map Prod.snd) := by
    rw [← h.tokens]
    cases back with
    | nil =>
        simp [checkNext, checkBehind]
    | cons first others =>
        simp [checkNext, checkBehind, h.located first (by simp)]
  have hinsert : store.tokens.insertIdx front.length tracked =
      (front ++ (tracked, span) :: back).map Prod.fst := by
    have hlength : front.length = (front.map Prod.fst).length := by simp
    rw [← h.tokens, List.map_append, List.map_append, hlength, insertIdx_append]
    rfl
  rw [add_eq_do]
  rw [h.version_eq, Outcome.ok_bind, hlocate, Outcome.ok_bind, h.indexOf_eq rfl hfront hback,
    Outcome.ok_bind, hprevious, hnext, hinsert]
  rfl

/-- A token is added if it fits between its neighbours. -/
theorem add_eq_ok_iff
    (h : Arrangement store version (front ++ back))
    (hlocate : store.locate tracked version = .ok span)
    (hfits : span.Fits)
    (hfront : ∀ other ∈ front, other.2.start < span.start)
    (hback : ∀ other ∈ back, span.start ≤ other.2.start) :
    store.add tracked = .ok store' ↔
      (∀ other ∈ front, other.2.Precedes span) ∧
      (∀ other ∈ back, span.Precedes other.2) ∧
      store' = store.withEntries (front ++ (tracked, span) :: back) := by
  obtain ⟨hfrontOrdered, hbackOrdered, -⟩ := List.pairwise_append.mp h.ordered
  rw [h.add_eq hlocate hfront hback, ← checkAhead_eq_ok_iff hfrontOrdered
    fun other hother => h.fits other (List.mem_append_left _ hother),
    ← checkBehind_eq_ok_iff hbackOrdered hfits]
  simp only [Outcome.bind_eq_ok_iff, Outcome.pure_eq_ok, Except.ok.injEq]
  constructor
  · rintro ⟨_, hahead, _, hbehind, rfl⟩
    exact ⟨hahead, hbehind, rfl⟩
  · rintro ⟨hahead, hbehind, rfl⟩
    exact ⟨(), hahead, (), hbehind, rfl⟩

/-- An entry goes between the entries that precede it and those that it precedes. -/
theorem insert
    (h : Arrangement store version (front ++ back))
    (hlocate : store.locate tracked version = .ok span)
    (hfits : span.Fits)
    (hfront : ∀ other ∈ front, other.2.Precedes span)
    (hback : ∀ other ∈ back, span.Precedes other.2) :
    Arrangement (store.withEntries (front ++ (tracked, span) :: back)) version
      (front ++ (tracked, span) :: back) where
  head := h.head
  bound := h.bound
  tokens := rfl
  located other hother := by
    rcases List.mem_append.mp hother with hmem | hmem
    · exact h.located other (List.mem_append_left _ hmem)
    · rcases List.mem_cons.mp hmem with rfl | hmem
      · exact hlocate
      · exact h.located other (List.mem_append_right _ hmem)
  ordered := by
    obtain ⟨hfrontOrdered, hbackOrdered, hacross⟩ := List.pairwise_append.mp h.ordered
    refine List.pairwise_append.mpr
      ⟨hfrontOrdered, List.pairwise_cons.mpr ⟨hback, hbackOrdered⟩, ?_⟩
    intro first hfirst second hsecond
    rcases List.mem_cons.mp hsecond with rfl | hmem
    · exact hfront first hfirst
    · exact hacross first hfirst second hmem
  fits other hother := by
    rcases List.mem_append.mp hother with hmem | hmem
    · exact h.fits other (List.mem_append_left _ hmem)
    · rcases List.mem_cons.mp hmem with rfl | hmem
      · exact hfits
      · exact h.fits other (List.mem_append_right _ hmem)

/-- A token that could be added has an entry in the new arrangement. -/
theorem exists_of_add
    (h : Arrangement store version view)
    (hlocate : store.locate tracked version = .ok span)
    (hfits : span.Fits)
    (hadd : store.add tracked = .ok store') :
    ∃ front back, view = front ++ back ∧
      store' = store.withEntries (front ++ (tracked, span) :: back) ∧
      Arrangement store' version (front ++ (tracked, span) :: back) := by
  obtain ⟨front, back, rfl, hfront, hback⟩ := h.exists_start_split span.start
  obtain ⟨hprevious, hnext, rfl⟩ := (h.add_eq_ok_iff hlocate hfits hfront hback).mp hadd
  exact ⟨front, back, rfl, rfl, h.insert hlocate hfits hprevious hnext⟩

/-- A token is added, or refused because of an entry that it would overlap. -/
theorem add_or_overlap
    (h : Arrangement store version view)
    (hlocate : store.locate tracked version = .ok span)
    (hfits : span.Fits) :
    (∃ store', store.add tracked = .ok store') ∨
    ∃ other ∈ view, store.add tracked = Outcome.fail (.overlap other.2 span) := by
  obtain ⟨front, back, rfl, hfront, hback⟩ := h.exists_start_split span.start
  rw [h.add_eq hlocate hfront hback]
  have hahead : checkAhead span (front.getLast?.map Prod.snd) = .ok () ∨
      ∃ other ∈ front, checkAhead span (front.getLast?.map Prod.snd) =
        Outcome.fail (.overlap other.2 span) := by
    cases hlast : front.getLast? with
    | none =>
        exact .inl rfl
    | some last =>
        have hmem : last ∈ front := List.mem_of_getLast? hlast
        rw [Option.map_some, checkAhead_some (h.fits last (List.mem_append_left _ hmem))]
        split
        · exact .inr ⟨last, hmem, rfl⟩
        · exact .inl rfl
  have hbehind : checkBehind span (back.head?.map Prod.snd) = .ok () ∨
      ∃ other ∈ back, checkBehind span (back.head?.map Prod.snd) =
        Outcome.fail (.overlap other.2 span) := by
    cases back with
    | nil =>
        exact .inl rfl
    | cons first others =>
        rw [List.head?_cons, Option.map_some, checkBehind_some hfits]
        split
        · exact .inr ⟨first, List.mem_cons_self, rfl⟩
        · exact .inl rfl
  rcases hahead with hahead | ⟨other, hother, hahead⟩
  · rcases hbehind with hbehind | ⟨other, hother, hbehind⟩
    · exact .inl ⟨_, by rw [hahead, hbehind]; rfl⟩
    · exact .inr ⟨other, List.mem_append_right _ hother, by rw [hahead, hbehind]; rfl⟩
  · exact .inr ⟨other, List.mem_append_left _ hother, by rw [hahead]; rfl⟩

/-- Adding a token that fits has an answer. -/
theorem returns_add
    (h : Arrangement store version view)
    (hlocate : store.locate tracked version = .ok span)
    (hfits : span.Fits) :
    (store.add tracked).Returns := by
  rcases h.add_or_overlap hlocate hfits with ⟨store', hadd⟩ | ⟨other, -, hadd⟩
  · rw [hadd]
    exact Outcome.returns_ok store'
  · rw [hadd]
    exact Outcome.returns_fail _

end Arrangement

namespace Layout

/-- A new identity keeps the identities distinct. -/
theorem distinct_insert
    (h : Layout store version (front ++ back))
    (hfresh : tracked.id ∉ store.ids) :
    (store.withEntries (front ++ (tracked, span) :: back)).ids.Nodup := by
  have hold : (front.map (·.1.id) ++ back.map (·.1.id)).Nodup := by
    simpa [ids, ← h.tokens, Function.comp_def] using h.distinct
  have hnew : tracked.id ∉ front.map (·.1.id) ++ back.map (·.1.id) := by
    simpa [ids, ← h.tokens, Function.comp_def] using hfresh
  have hgoal : (front.map (·.1.id) ++ tracked.id :: back.map (·.1.id)).Nodup :=
    (List.perm_middle.nodup_iff).mpr (List.nodup_cons.mpr ⟨hnew, hold⟩)
  simpa [ids, withEntries, Function.comp_def] using hgoal

/-- An entry with a new identity goes between the entries it follows and those that follow it. -/
theorem insert
    (h : Layout store version (front ++ back))
    (hlocate : store.locate tracked version = .ok span)
    (hfits : span.Fits)
    (hfresh : tracked.id ∉ store.ids)
    (hfront : ∀ other ∈ front, other.2.Precedes span)
    (hback : ∀ other ∈ back, span.Precedes other.2) :
    Layout (store.withEntries (front ++ (tracked, span) :: back)) version
      (front ++ (tracked, span) :: back) where
  toArrangement := h.toArrangement.insert hlocate hfits hfront hback
  distinct := h.distinct_insert hfresh

/-- A token with a new identity that could be added has an entry in the new layout. -/
theorem exists_of_add
    (h : Layout store version view)
    (hlocate : store.locate tracked version = .ok span)
    (hfits : span.Fits)
    (hfresh : tracked.id ∉ store.ids)
    (hadd : store.add tracked = .ok store') :
    ∃ front back, view = front ++ back ∧
      store' = store.withEntries (front ++ (tracked, span) :: back) ∧
      Layout store' version (front ++ (tracked, span) :: back) := by
  obtain ⟨front, back, rfl, rfl, hadded⟩ := h.toArrangement.exists_of_add hlocate hfits hadd
  exact ⟨front, back, rfl, rfl, hadded, h.distinct_insert hfresh⟩

end Layout

end Add

end TokenStore

end LiveTokens
