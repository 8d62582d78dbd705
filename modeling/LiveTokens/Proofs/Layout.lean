import LiveTokens.Proofs.Bisection
import LiveTokens.Proofs.Carry
import LiveTokens.TokenStore

/-!
# Layouts of a token store

A view lists the tokens of a store together with the spans where they lie in some
generation, provided that the spans fit and come in order.  An arrangement is a view
of the store's own generation.  It is a layout if no two tokens have the same identity.

Searches split a view, in whatever generation.  The other operations of a store are
described by what they do to the arrangement.  Removal and insertion take an entry out
of it or put one in, and the remaining operations keep it or read it off.
-/

namespace LiveTokens

/-- A list on which a property can only be lost splits where it is lost. -/
theorem exists_split_of_pairwise
    {α : Type}
    {p : α → Prop}
    {elements : List α}
    (h : elements.Pairwise fun first second => p second → p first) :
    ∃ front back,
      elements = front ++ back ∧
      (∀ element ∈ front, p element) ∧
      (∀ element ∈ back, ¬ p element) := by
  induction elements with
  | nil =>
      exact ⟨[], [], rfl, by simp, by simp⟩
  | cons head rest ih =>
      obtain ⟨hhead, hrest⟩ := List.pairwise_cons.mp h
      by_cases hp : p head
      · obtain ⟨front, back, rfl, hfront, hback⟩ := ih hrest
        refine ⟨head :: front, back, rfl, ?_, hback⟩
        intro element helement
        rcases List.mem_cons.mp helement with rfl | hmem
        · exact hp
        · exact hfront element hmem
      · refine ⟨[], head :: rest, rfl, by simp, ?_⟩
        intro element helement
        rcases List.mem_cons.mp helement with rfl | hmem
        · exact hp
        · exact fun hother => hp (hhead element hmem hother)

namespace TokenStore

variable {store : TokenStore}
variable {version : Nat}

/-- A located token as a token of the generation it was located in. -/
def placed
    (entry : TrackedToken × Span) : Token :=
  ⟨entry.1.token.kind, entry.2⟩

/-- What can be told of a located token without its anchor: its identity, its kind and its span. -/
def face
    (entry : TrackedToken × Span) : Nat × Token :=
  (entry.1.id, placed entry)

/-- The identities of the tokens of a store. -/
def ids
    (store : TokenStore) : List Nat :=
  store.tokens.map (·.id)

@[simp] theorem map_snd_face
    (view : List (TrackedToken × Span)) :
    (view.map face).map Prod.snd = view.map placed := by
  rw [List.map_map]
  rfl

/-- Entries that look alike are tokens of the same kinds and spans. -/
theorem map_placed_of_map_face
    {view view' : List (TrackedToken × Span)}
    (h : view.map face = view'.map face) :
    view.map placed = view'.map placed := by
  rw [← map_snd_face, h, map_snd_face]

/-- Where a token lies in the generation of the store. -/
def place
    (store : TokenStore)
    (tracked : TrackedToken) : Outcome StoreError Span := do
  store.locate tracked (← store.version)

/-- The tokens of the store that lie where `p` holds, in order. -/
def tokensWhere
    (store : TokenStore)
    (p : Span → Prop)
    [DecidablePred p] : List TrackedToken :=
  store.tokens.filter fun tracked => (store.place tracked).toOption.any (p ·)

/-- The store with the tokens of other entries. -/
def withEntries
    (store : TokenStore)
    (view : List (TrackedToken × Span)) : TokenStore :=
  { store with tokens := view.map Prod.fst }

/-- The entries of `view` are the tokens of the store where they lie in a generation, which need
not be the one that the store describes. -/
structure Viewed
    (store : TokenStore)
    (version : Nat)
    (view : List (TrackedToken × Span)) : Prop where
  tokens : view.map Prod.fst = store.tokens
  located : ∀ entry ∈ view, store.locate entry.1 version = .ok entry.2
  ordered : view.Pairwise fun first second => first.2.Precedes second.2
  fits : ∀ entry ∈ view, entry.2.Fits

/-- The entries of `view` are the tokens of the store where they lie in its generation. -/
structure Arrangement
    (store : TokenStore)
    (version : Nat)
    (view : List (TrackedToken × Span)) : Prop where
  head : store.log.base + store.log.length = version
  bound : version < positionBound
  tokens : view.map Prod.fst = store.tokens
  located : ∀ entry ∈ view, store.locate entry.1 version = .ok entry.2
  ordered : view.Pairwise fun first second => first.2.Precedes second.2
  fits : ∀ entry ∈ view, entry.2.Fits

/-- An arrangement of tokens that their identities tell apart. -/
structure Layout
    (store : TokenStore)
    (version : Nat)
    (view : List (TrackedToken × Span)) : Prop extends Arrangement store version view where
  distinct : store.ids.Nodup

/-- Entries in front of a region, at it, and behind it. -/
structure Divided
    (region : Span)
    (front middle back : List (TrackedToken × Span)) : Prop where
  front : ∀ entry ∈ front, entry.2.start + entry.2.length < region.start
  middle : ∀ entry ∈ middle,
    region.start ≤ entry.2.start + entry.2.length ∧
      entry.2.start ≤ region.start + region.length
  back : ∀ entry ∈ back, region.start + region.length < entry.2.start

section Order

/-- Checking that spans come in order succeeds for ordered spans only. -/
theorem checkOrder_eq_ok_iff
    {index : Nat}
    {previous : Option Span}
    {located : List (Outcome StoreError Span)} :
    checkOrder index previous located = .ok () ↔
      ∃ spans, located = spans.map .ok ∧
        (previous.toList ++ spans).Pairwise Span.Precedes := by
  induction located generalizing index previous with
  | nil =>
      simp only [checkOrder, Outcome.pure_eq_ok, true_iff]
      refine ⟨[], rfl, ?_⟩
      cases previous <;> simp
  | cons first rest ih =>
      rw [checkOrder, Outcome.bind_eq_ok_iff]
      constructor
      · rintro ⟨span, rfl, h⟩
        cases previous with
        | none =>
            obtain ⟨spans, rfl, hspans⟩ := ih.mp h
            exact ⟨span :: spans, rfl, hspans⟩
        | some before =>
            obtain ⟨stop, hstop, h⟩ := Outcome.bind_eq_ok_iff.mp h
            obtain ⟨rfl, hfits⟩ := Span.stop_eq_ok_iff.mp hstop
            split at h
            next =>
              simp [Outcome.fail] at h
            next hle =>
              obtain ⟨spans, rfl, hspans⟩ := ih.mp h
              have hbefore : before.Precedes span := ⟨by omega, hfits⟩
              refine ⟨span :: spans, rfl, List.pairwise_cons.mpr ⟨?_, hspans⟩⟩
              intro other hother
              rcases List.mem_cons.mp hother with rfl | hmem
              · exact hbefore
              · exact hbefore.trans ((List.pairwise_cons.mp hspans).1 other hmem)
      · rintro ⟨spans, hlocated, hspans⟩
        cases spans with
        | nil =>
            simp at hlocated
        | cons span spans =>
            obtain ⟨rfl, rfl⟩ := List.cons.inj hlocated
            refine ⟨span, rfl, ?_⟩
            cases previous with
            | none =>
                exact ih.mpr ⟨spans, rfl, hspans⟩
            | some before =>
                obtain ⟨hbefore, hrest⟩ := List.pairwise_cons.mp hspans
                obtain ⟨hle, hfits⟩ := hbefore span List.mem_cons_self
                simp only [hfits.stop_eq, Outcome.ok_bind]
                rw [if_neg (by omega)]
                exact ih.mpr ⟨spans, rfl, hrest⟩

/-- A store passes its check if its tokens can be located and come in order. -/
theorem check_eq_ok_iff :
    store.check = .ok () ↔
      ∃ (version : Nat) (spans : List Span),
        store.log.base + store.log.length = version ∧ version < positionBound ∧
        store.tokens.map (store.locate · version) = spans.map .ok ∧
        spans.Pairwise Span.Precedes := by
  unfold check
  rw [Outcome.bind_eq_ok_iff]
  constructor
  · rintro ⟨version, hversion, h⟩
    obtain ⟨hhead, hbound⟩ := EditLog.head_eq_ok_iff.mp hversion
    obtain ⟨spans, hspans, hordered⟩ := checkOrder_eq_ok_iff.mp h
    exact ⟨version, spans, hhead, hbound, hspans, hordered⟩
  · rintro ⟨version, spans, hhead, hbound, hspans, hordered⟩
    exact ⟨version, EditLog.head_eq_ok_iff.mpr ⟨hhead, hbound⟩,
      checkOrder_eq_ok_iff.mpr ⟨spans, hspans, hordered⟩⟩

end Order

namespace Viewed

variable {view front middle back : List (TrackedToken × Span)}

/-- The entries split where they start to satisfy `p` no more, if that is decided by the order. -/
theorem exists_split
    {p : Span → Prop}
    (h : Viewed store version view)
    (hp : ∀ first second, first.Precedes second → p second → p first) :
    ∃ front back,
      view = front ++ back ∧
      (∀ entry ∈ front, p entry.2) ∧
      (∀ entry ∈ back, ¬ p entry.2) :=
  exists_split_of_pairwise (h.ordered.imp fun hprecedes => hp _ _ hprecedes)

/-- A search for a property that splits the arrangement finds the end of the front. -/
theorem indexBehind_eq
    {holds : Span → Outcome StoreError Bool}
    (h : Viewed store version view)
    (hview : view = front ++ back)
    (hfront : ∀ entry ∈ front, holds entry.2 = .ok true)
    (hback : ∀ entry ∈ back, holds entry.2 = .ok false) :
    store.indexBehind version holds = .ok front.length := by
  have hlocated : ∀ entry ∈ view,
      (store.locate entry.1 version >>= holds) = holds entry.2 := by
    intro entry hentry
    rw [h.located entry hentry, Outcome.ok_bind]
  subst hview
  unfold indexBehind
  rw [← h.tokens, List.map_append]
  rw [bisect_of_split, List.length_map]
  · intro tracked htracked
    obtain ⟨entry, hentry, rfl⟩ := List.mem_map.mp htracked
    rw [hlocated entry (List.mem_append_left _ hentry), hfront entry hentry]
  · intro tracked htracked
    obtain ⟨entry, hentry, rfl⟩ := List.mem_map.mp htracked
    rw [hlocated entry (List.mem_append_right _ hentry), hback entry hentry]

/-- A search for a position finds the end of the tokens that start in front of it. -/
theorem indexOf_eq
    {position : Nat}
    (h : Viewed store version view)
    (hview : view = front ++ back)
    (hfront : ∀ entry ∈ front, entry.2.start < position)
    (hback : ∀ entry ∈ back, position ≤ entry.2.start) :
    store.indexOf version position = .ok front.length := by
  refine h.indexBehind_eq hview ?_ ?_
  · intro entry hentry
    simp [hfront entry hentry]
  · intro entry hentry
    simp [hback entry hentry]

theorem exists_start_split
    (h : Viewed store version view)
    (position : Nat) :
    ∃ front back,
      view = front ++ back ∧
      (∀ entry ∈ front, entry.2.start < position) ∧
      (∀ entry ∈ back, position ≤ entry.2.start) := by
  obtain ⟨front, back, hview, hfront, hback⟩ :=
    h.exists_split (p := (·.start < position)) fun first second hprecedes hsecond =>
      Nat.lt_of_le_of_lt hprecedes.start_le hsecond
  exact ⟨front, back, hview, hfront, fun entry hentry => Nat.le_of_not_lt (hback entry hentry)⟩

/-- From any entry on, the walk over the tokens locates all of them. -/
theorem walk_eq
    (h : Viewed store version view)
    (hback : ∀ entry ∈ back, entry ∈ view) :
    store.walk version (back.map Prod.fst) = ⟨back, none⟩ := by
  induction back with
  | nil =>
      rfl
  | cons entry rest ih =>
      have hrest := ih fun other hother => hback other (List.mem_cons_of_mem _ hother)
      simp only [List.map_cons, walk, h.located entry (hback entry List.mem_cons_self), hrest]

section Overlapping

variable {region : Span}

/-- Entries that intersect or touch a region, up to the first one behind it. -/
theorem intersecting_eq
    (h : Viewed store version view)
    (hregion : region.Fits)
    (hmember : ∀ entry ∈ middle ++ back, entry ∈ view)
    (hmiddle : ∀ entry ∈ middle,
      region.start ≤ entry.2.start + entry.2.length ∧
        entry.2.start ≤ region.start + region.length)
    (hback : ∀ entry ∈ back, region.start + region.length < entry.2.start) :
    store.intersecting version region ((middle ++ back).map Prod.fst) = .ok middle := by
  induction middle with
  | nil =>
      cases back with
      | nil =>
          rfl
      | cons entry rest =>
          have hentry := hmember entry (by simp)
          have hbehind := hback entry List.mem_cons_self
          have hintersects : (entry.2.intersects region : Outcome StoreError Bool) =
              .ok false := by
            simp only [Span.intersects, (h.fits entry hentry).stop_eq, hregion.stop_eq,
              Outcome.ok_bind]
            rw [if_pos (by omega)]
            simp only [Outcome.pure_eq_ok, Except.ok.injEq, decide_eq_false_iff_not]
            omega
          simp [intersecting, h.located entry hentry, hintersects]
  | cons entry rest ih =>
      have hentry := hmember entry (by simp)
      obtain ⟨hstop, hstart⟩ := hmiddle entry List.mem_cons_self
      have hintersects : (entry.2.intersects region : Outcome StoreError Bool) = .ok true := by
        simp only [Span.intersects, (h.fits entry hentry).stop_eq, hregion.stop_eq,
          Outcome.ok_bind]
        rw [if_pos hstop]
        simp [hstart]
      have hrest := ih
        (fun other hother => hmember other (List.mem_cons_of_mem _ hother))
        (fun other hother => hmiddle other (List.mem_cons_of_mem _ hother))
      rw [List.map_append] at hrest
      simp [intersecting, h.located entry hentry, hintersects, hrest]

/-- The tokens at a region are the entries that intersect or touch it. -/
theorem overlapping_eq
    (h : Viewed store version view)
    (hregion : region.Fits)
    (hview : view = front ++ middle ++ back)
    (hdivided : Divided region front middle back) :
    store.overlapping version region = .ok middle := by
  have hfits : ∀ entry ∈ view, entry.2.Fits := h.fits
  have hindex : (store.indexBehind version fun located =>
      return decide ((← located.stop) < region.start)) = .ok front.length := by
    have hsplit : view = front ++ (middle ++ back) := by
      rw [hview, List.append_assoc]
    refine h.indexBehind_eq hsplit ?_ ?_
    · intro entry hentry
      simp [(hfits entry (by simp [hview, hentry])).stop_eq, hdivided.front entry hentry]
    · intro entry hentry
      have hbehind : region.start ≤ entry.2.start + entry.2.length := by
        rcases List.mem_append.mp hentry with hmem | hmem
        · exact (hdivided.middle entry hmem).1
        · have := hdivided.back entry hmem
          omega
      have hmem : entry ∈ view := by
        rw [hview, List.append_assoc]
        exact List.mem_append_right _ hentry
      simp [(hfits entry hmem).stop_eq, hbehind]
  unfold overlapping
  rw [hindex, Outcome.ok_bind, ← h.tokens, hview, List.append_assoc, List.map_append,
    List.drop_left' (by simp)]
  exact h.intersecting_eq hregion
    (fun entry hentry => by rw [hview, List.append_assoc]; exact List.mem_append_right _ hentry)
    hdivided.middle hdivided.back

/-- Every region splits an arrangement in what lies in front of it, at it and behind it. -/
theorem exists_divided
    (h : Viewed store version view)
    (region : Span) :
    ∃ front middle back,
      view = front ++ middle ++ back ∧
      Divided region front middle back := by
  obtain ⟨front, rest, hview, hfront, hrest⟩ :=
    h.exists_split (p := fun span => span.start + span.length < region.start)
      fun first second hprecedes hsecond => by
        have := hprecedes.1
        omega
  have hordered := h.ordered
  rw [hview] at hordered
  obtain ⟨middle, back, rfl, hmiddle, hback⟩ :=
    exists_split_of_pairwise (p := fun entry : TrackedToken × Span =>
      entry.2.start ≤ region.start + region.length)
      ((List.pairwise_append.mp hordered).2.1.imp fun hprecedes hsecond =>
        Nat.le_trans hprecedes.start_le hsecond)
  refine ⟨front, middle, back, by rw [hview, List.append_assoc], hfront, ?_, ?_⟩
  · intro entry hentry
    exact ⟨Nat.le_of_not_lt (hrest entry (List.mem_append_left _ hentry)), hmiddle entry hentry⟩
  · intro entry hentry
    exact Nat.lt_of_not_le (hback entry hentry)

end Overlapping

end Viewed

namespace Arrangement

variable {view front middle back : List (TrackedToken × Span)}
variable {entry : TrackedToken × Span}

theorem version_eq
    {ε : Type}
    (h : Arrangement store version view) :
    (store.version : Outcome ε Nat) = .ok version :=
  EditLog.head_eq_ok_iff.mpr ⟨h.head, h.bound⟩

theorem place_eq
    (h : Arrangement store version view)
    (tracked : TrackedToken) :
    store.place tracked = store.locate tracked version := by
  rw [place, h.version_eq, Outcome.ok_bind]

theorem tokensWhere_eq_filter
    {p : Span → Prop}
    [DecidablePred p]
    (h : Arrangement store version view) :
    store.tokensWhere p = (view.filter fun entry => decide (p entry.2)).map Prod.fst := by
  unfold tokensWhere
  rw [← h.tokens, List.filter_map]
  refine congrArg _ (List.filter_congr fun entry hentry => ?_)
  rw [Function.comp_apply, h.place_eq, h.located entry hentry]
  rfl

/-- The tokens between those for which `p` does not hold are the ones that lie where it holds. -/
theorem tokensWhere_eq
    {p : Span → Prop}
    [DecidablePred p]
    (h : Arrangement store version (front ++ middle ++ back))
    (hfront : ∀ entry ∈ front, ¬ p entry.2)
    (hmiddle : ∀ entry ∈ middle, p entry.2)
    (hback : ∀ entry ∈ back, ¬ p entry.2) :
    store.tokensWhere p = middle.map Prod.fst := by
  have hnone : front.filter (fun entry => decide (p entry.2)) = [] :=
    List.filter_eq_nil_iff.mpr fun entry hentry => by simpa using hfront entry hentry
  have hall : middle.filter (fun entry => decide (p entry.2)) = middle :=
    List.filter_eq_self.mpr fun entry hentry => decide_eq_true (hmiddle entry hentry)
  have hnone' : back.filter (fun entry => decide (p entry.2)) = [] :=
    List.filter_eq_nil_iff.mpr fun entry hentry => by simpa using hback entry hentry
  rw [h.tokensWhere_eq_filter, List.filter_append, List.filter_append, hnone, hall, hnone',
    List.nil_append, List.append_nil]

/-- The tokens on both sides of those for which `p` holds are the ones that lie where it does not
hold. -/
theorem tokensWhere_not_eq
    {p : Span → Prop}
    [DecidablePred p]
    (h : Arrangement store version (front ++ middle ++ back))
    (hfront : ∀ entry ∈ front, ¬ p entry.2)
    (hmiddle : ∀ entry ∈ middle, p entry.2)
    (hback : ∀ entry ∈ back, ¬ p entry.2) :
    store.tokensWhere (fun span => ¬ p span) = (front ++ back).map Prod.fst := by
  have hall : front.filter (fun entry => decide (¬ p entry.2)) = front :=
    List.filter_eq_self.mpr fun entry hentry => decide_eq_true (hfront entry hentry)
  have hnone : middle.filter (fun entry => decide (¬ p entry.2)) = [] :=
    List.filter_eq_nil_iff.mpr fun entry hentry => by simpa using hmiddle entry hentry
  have hall' : back.filter (fun entry => decide (¬ p entry.2)) = back :=
    List.filter_eq_self.mpr fun entry hentry => decide_eq_true (hback entry hentry)
  rw [h.tokensWhere_eq_filter, List.filter_append, List.filter_append, hall, hnone, hall',
    List.append_nil]

theorem map_locate
    (h : Arrangement store version view) :
    store.tokens.map (store.locate · version) = (view.map Prod.snd).map .ok := by
  rw [← h.tokens, List.map_map, List.map_map]
  exact List.map_congr_left h.located

/-- A store that passes its check has an arrangement, if all its tokens fit. -/
theorem exists_of_check
    (hcheck : store.check = .ok ())
    (hfits : ∀ tracked ∈ store.tokens, ∀ version span,
      store.version = (.ok version : Outcome StoreError Nat) →
      store.locate tracked version = .ok span → span.Fits) :
    ∃ version view, Arrangement store version view := by
  obtain ⟨version, spans, hhead, hbound, hspans, hordered⟩ := check_eq_ok_iff.mp hcheck
  have hlength : store.tokens.length = spans.length := by
    simpa using congrArg List.length hspans
  have hlocated : ∀ entry ∈ store.tokens.zip spans,
      store.locate entry.1 version = .ok entry.2 := by
    intro entry hentry
    obtain ⟨index, hindex, rfl⟩ := List.mem_iff_getElem.mp hentry
    have := congrArg (·[index]?) hspans
    simp only [List.length_zip] at hindex
    simpa [List.getElem?_eq_getElem (show index < store.tokens.length by omega),
      List.getElem?_eq_getElem (show index < spans.length by omega)] using this
  refine ⟨version, store.tokens.zip spans, hhead, hbound, ?_, hlocated, ?_, ?_⟩
  · exact List.map_fst_zip (by omega)
  · apply List.pairwise_map.mp
    rwa [List.map_snd_zip (by omega)]
  · intro entry hentry
    exact hfits entry.1 (List.of_mem_zip hentry).1 version entry.2
      (EditLog.head_eq_ok_iff.mpr ⟨hhead, hbound⟩) (hlocated entry hentry)

/-- A store with an arrangement passes its check. -/
theorem check_eq
    (h : Arrangement store version view) :
    store.check = .ok () :=
  check_eq_ok_iff.mpr
    ⟨version, view.map Prod.snd, h.head, h.bound, h.map_locate, List.pairwise_map.mpr h.ordered⟩

/-- The tokens of a store are the entries of its arrangement. -/
theorem toList_eq
    (h : Arrangement store version view) :
    store.toList = .ok (view.map placed) := by
  unfold toList
  rw [h.version_eq]
  simp only [Outcome.ok_bind, Outcome.mapM_eq_ok_iff]
  rw [← h.tokens, List.map_map, List.map_map]
  apply List.map_congr_left
  intro entry hentry
  simp [h.located entry hentry, placed]

/-- Tokens that can be listed, fit and come in order are an arrangement. -/
theorem exists_of_toList
    {tokens : List Token}
    (htoList : store.toList = .ok tokens)
    (hordered : (tokens.map (·.span)).Pairwise Span.Precedes)
    (hfits : ∀ token ∈ tokens, token.span.Fits) :
    ∃ version view,
      Arrangement store version view ∧
      view.map placed = tokens := by
  have hresolved := htoList
  unfold toList at hresolved
  obtain ⟨version, hversion, hresolved⟩ := Outcome.bind_eq_ok_iff.mp hresolved
  rw [Outcome.mapM_eq_ok_iff] at hresolved
  have hlocated : store.tokens.map (store.locate · version) = (tokens.map (·.span)).map .ok := by
    have hspans := congrArg (List.map (Except.map Token.span)) hresolved
    rw [List.map_map, List.map_map] at hspans
    rw [List.map_map]
    refine Eq.trans (List.map_congr_left fun tracked _ => ?_) hspans
    dsimp only [Function.comp_apply]
    cases store.locate tracked version with
    | error failure =>
        rfl
    | ok span =>
        rfl
  obtain ⟨hhead, hbound⟩ := EditLog.head_eq_ok_iff.mp hversion
  have hcheck : store.check = .ok () :=
    check_eq_ok_iff.mpr ⟨version, _, hhead, hbound, hlocated, hordered⟩
  obtain ⟨version', view, harrangement⟩ := exists_of_check hcheck
    fun tracked htracked other span hother hlocate => by
      rw [hversion] at hother
      cases hother
      have hmem : Except.ok span ∈ (tokens.map (·.span)).map
          (Except.ok : Span → Outcome StoreError Span) := by
        rw [← hlocated, ← hlocate]
        exact List.mem_map_of_mem htracked
      obtain ⟨found, hfound, heq⟩ := List.mem_map.mp hmem
      cases heq
      obtain ⟨token, htoken, rfl⟩ := List.mem_map.mp hfound
      exact hfits token htoken
  refine ⟨version', view, harrangement, ?_⟩
  rw [harrangement.toList_eq] at htoList
  exact Except.ok.inj htoList

/-- Some entries of an arrangement are one of the store that holds only them. -/
theorem sublist
    (h : Arrangement store version view)
    (hsub : front.Sublist view) :
    Arrangement (store.withEntries front) version front where
  head := h.head
  bound := h.bound
  tokens := rfl
  located entry hentry := h.located entry (hsub.subset hentry)
  ordered := h.ordered.sublist hsub
  fits entry hentry := h.fits entry (hsub.subset hentry)

/-- The identities of a store are those of its entries. -/
theorem ids_eq
    (h : Arrangement store version view) :
    store.ids = (view.map face).map Prod.fst := by
  rw [ids, ← h.tokens, List.map_map, List.map_map]
  rfl

theorem withEntries_self
    (h : Arrangement store version view) :
    store.withEntries view = store := by
  unfold withEntries
  rw [h.tokens]

/-- An arrangement is a view. -/
theorem viewed
    (h : Arrangement store version view) :
    Viewed store version view :=
  ⟨h.tokens, h.located, h.ordered, h.fits⟩

theorem indexOf_eq
    {position : Nat}
    (h : Arrangement store version view)
    (hview : view = front ++ back)
    (hfront : ∀ entry ∈ front, entry.2.start < position)
    (hback : ∀ entry ∈ back, position ≤ entry.2.start) :
    store.indexOf version position = .ok front.length :=
  h.viewed.indexOf_eq hview hfront hback

theorem exists_start_split
    (h : Arrangement store version view)
    (position : Nat) :
    ∃ front back,
      view = front ++ back ∧
      (∀ entry ∈ front, entry.2.start < position) ∧
      (∀ entry ∈ back, position ≤ entry.2.start) :=
  h.viewed.exists_start_split position

theorem walk_eq
    (h : Arrangement store version view)
    (hback : ∀ entry ∈ back, entry ∈ view) :
    store.walk version (back.map Prod.fst) = ⟨back, none⟩ :=
  h.viewed.walk_eq hback

theorem overlapping_eq
    {region : Span}
    (h : Arrangement store version view)
    (hregion : region.Fits)
    (hview : view = front ++ middle ++ back)
    (hdivided : Divided region front middle back) :
    store.overlapping version region = .ok middle :=
  h.viewed.overlapping_eq hregion hview hdivided

theorem exists_divided
    (h : Arrangement store version view)
    (region : Span) :
    ∃ front middle back,
      view = front ++ middle ++ back ∧
      Divided region front middle back :=
  h.viewed.exists_divided region

end Arrangement

namespace Layout

variable {view front : List (TrackedToken × Span)}

/-- A store that passes its check has a layout, if all its tokens fit and can be told apart. -/
theorem exists_of_check
    (hcheck : store.check = .ok ())
    (hdistinct : store.ids.Nodup)
    (hfits : ∀ tracked ∈ store.tokens, ∀ version span,
      store.version = (.ok version : Outcome StoreError Nat) →
      store.locate tracked version = .ok span → span.Fits) :
    ∃ version view, Layout store version view := by
  obtain ⟨version, view, h⟩ := Arrangement.exists_of_check hcheck hfits
  exact ⟨version, view, h, hdistinct⟩

/-- Some entries of a layout are a layout of the store that holds only them. -/
theorem sublist
    (h : Layout store version view)
    (hsub : front.Sublist view) :
    Layout (store.withEntries front) version front where
  toArrangement := h.toArrangement.sublist hsub
  distinct := by
    refine h.distinct.sublist ?_
    unfold ids withEntries
    rw [← h.tokens]
    exact (hsub.map Prod.fst).map _

end Layout

end TokenStore

end LiveTokens
