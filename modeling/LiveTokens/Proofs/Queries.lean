import LiveTokens.Proofs.Layout

/-!
# Searches find what a scan would

A search by position bisects the tokens for the first one that counts and walks on
until the first one that does not.  On a view, in whatever generation, it finds the
same entries as looking at all of them one after the other: those that touch a
region, those that meet a range, or those that start at or behind a position.

A cursor hands out the tokens behind a position one at a time.  What it answers, call by
call, is the walk over the tokens, and nothing for ever after.

**Results.** `queries_eq_scan` states this of all searches at once.
-/

namespace LiveTokens

namespace Outcome

variable {ε α : Type}

theorem filterAuxM_eq_ok
    {question : α → Outcome ε Bool}
    {p : α → Bool}
    {elements : List α}
    (h : ∀ element ∈ elements, question element = .ok (p element))
    (picked : List α) :
    elements.filterAuxM question picked = .ok ((elements.filter p).reverse ++ picked) := by
  induction elements generalizing picked with
  | nil =>
      rfl
  | cons element rest ih =>
      have hrest := ih fun other hother => h other (List.mem_cons_of_mem _ hother)
      rw [List.filterAuxM, h element List.mem_cons_self, ok_bind, hrest]
      cases hp : p element with
      | false =>
          simp [hp]
      | true =>
          simp [hp]

/-- Picking by questions that all have an answer is filtering by the answers. -/
theorem filterM_eq_ok
    {question : α → Outcome ε Bool}
    {p : α → Bool}
    {elements : List α}
    (h : ∀ element ∈ elements, question element = .ok (p element)) :
    elements.filterM question = .ok (elements.filter p) := by
  rw [List.filterM, filterAuxM_eq_ok h, ok_bind]
  simp

end Outcome

namespace Span

variable {ε : Type}
variable {span other : Span}

/-- The byte at a position is one of the span. -/
def Holds
    (span : Span)
    (position : Nat) : Prop :=
  span.start ≤ position ∧ position < span.start + span.length

/-- The spans share a byte. -/
def Shares
    (span other : Span) : Prop :=
  ∃ position, span.Holds position ∧ other.Holds position

/-- The spans share a position, their ends included. -/
def Touches
    (span other : Span) : Prop :=
  other.start ≤ span.start + span.length ∧ span.start ≤ other.start + other.length

/-- The span shares a byte with a range, or the range is an empty place in front of one of its
bytes. -/
def Meets
    (span range : Span) : Prop :=
  span.Shares range ∨ range.length = 0 ∧ span.Holds range.start

instance (span : Span) (position : Nat) : Decidable (span.Holds position) :=
  inferInstanceAs (Decidable (_ ∧ _))

theorem shares_iff :
    span.Shares other ↔
      max span.start other.start <
        min (span.start + span.length) (other.start + other.length) := by
  unfold Shares Holds
  constructor
  · rintro ⟨position, hspan, hother⟩
    omega
  · intro h
    exact ⟨max span.start other.start, by omega, by omega⟩

instance (span other : Span) : Decidable (span.Shares other) :=
  decidable_of_iff _ shares_iff.symm

instance (span other : Span) : Decidable (span.Touches other) :=
  inferInstanceAs (Decidable (_ ∧ _))

instance (span range : Span) : Decidable (span.Meets range) :=
  inferInstanceAs (Decidable (_ ∨ _))

/-- What meets a range also touches it. -/
theorem Meets.touches
    (h : span.Meets other) :
    span.Touches other := by
  unfold Touches
  rcases h with ⟨position, ⟨hstart, hstop⟩, hstart', hstop'⟩ | ⟨-, hstart, hstop⟩
  · omega
  · omega

theorem overlaps_eq
    (hspan : span.Fits)
    (hother : other.Fits) :
    (span.overlaps other : Outcome ε Bool) = .ok (decide (span.Shares other)) := by
  rw [overlaps, hspan.stop_eq, Outcome.ok_bind, hother.stop_eq, Outcome.ok_bind]
  simp only [shares_iff, Outcome.pure_eq_ok]

theorem includes_eq
    (hspan : span.Fits)
    (position : Nat) :
    (span.includes position : Outcome ε Bool) = .ok (decide (span.Holds position)) := by
  unfold includes Holds
  by_cases hstart : span.start ≤ position
  · rw [if_pos hstart, hspan.stop_eq, Outcome.ok_bind]
    simp [hstart]
  · rw [if_neg hstart]
    simp [hstart]

end Span

/-- What a walk has to hand out, in order: the entries that were located, and the failure that ended
the search for more of them. -/
def Walk.answers
    (walk : Walk) : List (Outcome StoreError (TrackedToken × Span)) :=
  walk.located.map .ok ++ (walk.failure.map .error).toList

namespace TokenStore

variable {store : TokenStore}
variable {version : Nat}
variable {view front middle back : List (TrackedToken × Span)}
variable {region : Span}

theorem touches_eq
    {located : Span}
    (hlocated : located.Fits)
    (hregion : region.Fits) :
    touches located region = .ok (decide (located.Meets region)) := by
  unfold touches Span.Meets
  rw [Span.overlaps_eq hlocated hregion, Outcome.ok_bind]
  by_cases hshares : located.Shares region
  · simp [hshares]
  · by_cases hempty : region.length = 0
    · simp [hshares, hempty, Span.includes_eq hlocated]
    · simp [hshares, hempty]

/-- The entries at a region are those that touch it. -/
theorem Divided.filter_touches
    (h : Divided region front middle back) :
    (front ++ middle ++ back).filter (fun entry => decide (entry.2.Touches region)) = middle := by
  have hfront : front.filter (fun entry => decide (entry.2.Touches region)) = [] := by
    refine List.filter_eq_nil_iff.mpr fun entry hentry => ?_
    have hahead := h.front entry hentry
    rw [decide_eq_true_eq, Span.Touches]
    omega
  have hmiddle : middle.filter (fun entry => decide (entry.2.Touches region)) = middle :=
    List.filter_eq_self.mpr fun entry hentry => decide_eq_true (h.middle entry hentry)
  have hback : back.filter (fun entry => decide (entry.2.Touches region)) = [] := by
    refine List.filter_eq_nil_iff.mpr fun entry hentry => ?_
    have hbehind := h.back entry hentry
    rw [decide_eq_true_eq, Span.Touches]
    omega
  rw [List.filter_append, List.filter_append, hfront, hmiddle, hback, List.nil_append,
    List.append_nil]

namespace Viewed

/-- The tokens at a region are all those that touch it. -/
theorem overlapping_eq_filter
    (h : Viewed store version view)
    (hregion : region.Fits) :
    store.overlapping version region =
      .ok (view.filter fun entry => decide (entry.2.Touches region)) := by
  obtain ⟨front, middle, back, rfl, hdivided⟩ := h.exists_divided region
  rw [h.overlapping_eq hregion rfl hdivided, hdivided.filter_touches]

/-- The tokens in a range are all those that meet it. -/
theorem inRange_eq_filter
    (h : Viewed store version view)
    (hregion : region.Fits) :
    store.inRange version region =
      .ok ((view.filter fun entry => decide (entry.2.Meets region)).map placed) := by
  have hhits : (view.filter fun entry => decide (entry.2.Touches region)).filter
      (fun entry => decide (entry.2.Meets region)) =
        view.filter fun entry => decide (entry.2.Meets region) := by
    rw [List.filter_filter]
    refine List.filter_congr fun entry _ => ?_
    by_cases hmeets : entry.2.Meets region
    · simp [hmeets, hmeets.touches]
    · simp [hmeets]
  have hquestion : ∀ entry ∈ view.filter fun entry => decide (entry.2.Touches region),
      touches entry.2 region = .ok (decide (entry.2.Meets region)) := fun entry hentry =>
    touches_eq (h.fits entry (List.mem_filter.mp hentry).1) hregion
  rw [inRange, h.overlapping_eq_filter hregion, Outcome.ok_bind, Outcome.filterM_eq_ok hquestion,
    Outcome.ok_bind, hhits]
  rfl

theorem filter_start_le
    {position : Nat}
    (hfront : ∀ entry ∈ front, entry.2.start < position)
    (hback : ∀ entry ∈ back, position ≤ entry.2.start) :
    (front ++ back).filter (fun entry => decide (position ≤ entry.2.start)) = back := by
  have hnone : front.filter (fun entry => decide (position ≤ entry.2.start)) = [] :=
    List.filter_eq_nil_iff.mpr fun entry hentry => by simpa using hfront entry hentry
  have hall : back.filter (fun entry => decide (position ≤ entry.2.start)) = back :=
    List.filter_eq_self.mpr fun entry hentry => decide_eq_true (hback entry hentry)
  rw [List.filter_append, hnone, hall, List.nil_append]

/-- The search for a position and the walk from there on meet the tokens that start at or behind
it. -/
theorem exists_index
    (h : Viewed store version view)
    (position : Nat) :
    ∃ index,
      store.indexOf version position = .ok index ∧
      store.walk version (store.tokens.drop index) =
        ⟨view.filter fun entry => decide (position ≤ entry.2.start), none⟩ := by
  obtain ⟨front, back, rfl, hfront, hback⟩ := h.exists_start_split position
  refine ⟨front.length, h.indexOf_eq rfl hfront hback, ?_⟩
  rw [← h.tokens, List.map_append, List.drop_left' (by simp), filter_start_le hfront hback]
  exact h.walk_eq fun entry hentry => List.mem_append_right _ hentry

end Viewed

namespace Cursor

/-- The walk that the cursor has still to go. -/
def rest
    (cursor : Cursor) : Walk :=
  cursor.store.walk cursor.version (cursor.store.tokens.drop cursor.index)

/-- One call hands out the first answer of the walk, and leaves the others. -/
theorem next_eq
    (cursor : Cursor) :
    cursor.next.1 = cursor.rest.answers.head? ∧
    cursor.next.2.rest.answers = cursor.rest.answers.tail := by
  unfold next rest
  rcases Nat.lt_or_ge cursor.index cursor.store.tokens.length with hlt | hge
  · rw [List.getElem?_eq_getElem hlt, List.drop_eq_getElem_cons hlt, walk]
    dsimp only
    cases cursor.store.locate cursor.store.tokens[cursor.index] cursor.version with
    | ok span =>
        exact ⟨rfl, rfl⟩
    | error failure =>
        dsimp only
        rw [List.drop_length]
        exact ⟨rfl, rfl⟩
  · rw [List.getElem?_eq_none hge]
    dsimp only
    rw [List.drop_eq_nil_of_le hge]
    exact ⟨rfl, rfl⟩

/-- Call by call, the cursor goes along the walk, and hands out nothing for ever after. -/
theorem answer_eq
    (cursor : Cursor)
    (count : Nat) :
    cursor.answer count = cursor.rest.answers[count]? := by
  induction count generalizing cursor with
  | zero =>
      rw [answer, cursor.next_eq.1, List.head?_eq_getElem?]
  | succ count ih =>
      rw [answer, ih, cursor.next_eq.2, List.getElem?_tail]

end Cursor

/-- In every generation where the tokens of a store fit and come in order, each search finds exactly
what a look at all of them would: the tokens that touch a region, those that share a byte with a
range or lie around an empty one, and those that start at or behind a position.  The latter are
handed out one per call, and nothing afterwards. -/
theorem queries_eq_scan
    (h : Viewed store version view)
    (hregion : region.Fits)
    (position : Nat) :
    store.overlapping version region =
      .ok (view.filter fun entry => decide (entry.2.Touches region)) ∧
    store.inRange version region =
      .ok ((view.filter fun entry => decide (entry.2.Meets region)).map placed) ∧
    store.following version position =
      .ok ⟨view.filter fun entry => decide (position ≤ entry.2.start), none⟩ ∧
    ∃ cursor,
      store.cursorAt version position = .ok cursor ∧
      ∀ count,
        cursor.answer count =
          (view.filter fun entry => decide (position ≤ entry.2.start))[count]?.map .ok := by
  obtain ⟨index, hindex, hwalk⟩ := h.exists_index position
  refine ⟨h.overlapping_eq_filter hregion, h.inRange_eq_filter hregion, ?_, ?_⟩
  · rw [following, hindex, Outcome.ok_bind, hwalk]
    rfl
  · refine ⟨⟨store, version, index⟩, ?_, fun count => ?_⟩
    · rw [cursorAt, hindex]
      rfl
    · rw [Cursor.answer_eq, Cursor.rest, hwalk, Walk.answers]
      simp

/-- A store whose last edit cuts into a token, asked about the generation before: two empty tokens
stand in front of that token, and a gap behind it. -/
theorem queries_eq_scan_before_edit :
    ∃ (store : TokenStore) (view : List (TrackedToken × Span)),
      Viewed store 0 view ∧
      (⟨2, 0⟩ : Span).Fits ∧
      store.check = Outcome.fail (.tracking 4 .invalidated) ∧
      store.overlapping 0 ⟨2, 0⟩ = .ok (view.take 4) ∧
      store.inRange 0 ⟨2, 0⟩ = .ok [⟨0, ⟨2, 3⟩⟩] ∧
      ∃ cursor,
        store.cursorAt 0 3 = .ok cursor ∧
        cursor.answer 0 = view[4]?.map .ok ∧
        ∀ count, cursor.answer (count + 1) = none := by
  let tokens : List TrackedToken :=
    [⟨1, ⟨0, ⟨0, 2⟩⟩, 0⟩, ⟨2, ⟨1, ⟨2, 0⟩⟩, 0⟩, ⟨3, ⟨1, ⟨2, 0⟩⟩, 0⟩, ⟨4, ⟨0, ⟨2, 3⟩⟩, 0⟩,
      ⟨5, ⟨0, ⟨7, 1⟩⟩, 0⟩]
  have hviewed : Viewed ⟨tokens, ⟨0, [⟨⟨3, 1⟩, 0⟩]⟩⟩ 0
      (tokens.map fun tracked => (tracked, tracked.token.span)) :=
    ⟨rfl, by decide +kernel, by decide +kernel, by decide +kernel⟩
  have hregion : (⟨2, 0⟩ : Span).Fits := by decide
  obtain ⟨hoverlapping, hinRange, -, cursor, hcursor, hanswer⟩ := queries_eq_scan hviewed hregion 3
  refine ⟨_, _, hviewed, hregion, by decide +kernel, hoverlapping.trans ?_, hinRange.trans ?_,
    cursor, hcursor, hanswer 0, fun count => hanswer (count + 1)⟩
  · decide +kernel
  · decide +kernel

end TokenStore

end LiveTokens
