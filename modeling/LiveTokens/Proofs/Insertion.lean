import Mathlib.Data.List.Sort
import LiveTokens.Proofs.Measurement

/-!
# Where a token can be put in

A token suits an index of a store if the store passes its check once the token has been
put in there.  Adding a token puts it in at the first index at which a token starts at or
behind its own start.  A token that is empty and stands at that start is behind the new
one then, so that a new token which is not empty is refused, although it would suit the
index behind the empty token.

Tokens that are added one after the other end up sorted by their starts, those that have
been added last in front among the ones that share a start.

**Results.** `addsIfSuited_iff` says for which tokens and stores adding succeeds exactly
if there is an index that suits, and for which lists adding one token after the other
gives the store that is made of the whole list.
-/

namespace LiveTokens

namespace Token

/-- The first token does not start behind the second. -/
def NotBehind
    (first second : Token) : Prop :=
  first.span.start ≤ second.span.start

instance : DecidableRel NotBehind := fun first second =>
  inferInstanceAs (Decidable (first.span.start ≤ second.span.start))

instance : IsTrans Token NotBehind :=
  ⟨fun _ _ _ => Nat.le_trans⟩

instance : Std.Total NotBehind :=
  ⟨fun first second => Nat.le_total first.span.start second.span.start⟩

/-- The tokens that start at a position. -/
def startingAt
    (position : Nat)
    (tokens : List Token) : List Token :=
  tokens.filter fun token => token.span.start = position

variable {position : Nat}
variable {token : Token}
variable {tokens tokens' : List Token}

theorem startingAt_cons
    (position : Nat)
    (token : Token)
    (tokens : List Token) :
    startingAt position (token :: tokens) =
      if token.span.start = position then token :: startingAt position tokens
      else startingAt position tokens := by
  simp [startingAt, List.filter_cons]

/-- A token is put in front of all those with its start. -/
theorem startingAt_orderedInsert
    (position : Nat)
    (token : Token)
    (tokens : List Token) :
    startingAt position (tokens.orderedInsert NotBehind token) =
      startingAt position (token :: tokens) := by
  induction tokens with
  | nil =>
      rfl
  | cons first rest ih =>
      by_cases hfirst : NotBehind token first
      · rw [List.orderedInsert_cons_of_le _ rest hfirst]
      · rw [List.orderedInsert_of_not_le _ rest hfirst, startingAt_cons, ih]
        by_cases htoken : token.span.start = position
        · have hother : first.span.start ≠ position := by
            unfold NotBehind at hfirst
            omega
          simp [startingAt_cons, htoken, hother]
        · simp [startingAt_cons, htoken]

/-- Sorting keeps the order of the tokens that share a start. -/
theorem startingAt_insertionSort
    (position : Nat)
    (tokens : List Token) :
    startingAt position (tokens.insertionSort NotBehind) = startingAt position tokens := by
  induction tokens with
  | nil =>
      rfl
  | cons token rest ih =>
      rw [List.insertionSort_cons, startingAt_orderedInsert, startingAt_cons, startingAt_cons, ih]

/-- Tokens that come in the order of their starts are known from those at each start. -/
theorem eq_of_startingAt_eq
    (h : tokens.Pairwise NotBehind)
    (h' : tokens'.Pairwise NotBehind)
    (heq : ∀ position, startingAt position tokens = startingAt position tokens') :
    tokens = tokens' := by
  induction tokens generalizing tokens' with
  | nil =>
      cases tokens' with
      | nil =>
          rfl
      | cons first' rest' =>
          have hfirst' := heq first'.span.start
          rw [startingAt_cons, if_pos rfl] at hfirst'
          cases hfirst'
  | cons first rest ih =>
      cases tokens' with
      | nil =>
          have hfirst := heq first.span.start
          rw [startingAt_cons, if_pos rfl] at hfirst
          cases hfirst
      | cons first' rest' =>
          obtain ⟨hfirst, hrest⟩ := List.pairwise_cons.mp h
          obtain ⟨hfirst', hrest'⟩ := List.pairwise_cons.mp h'
          have hle : ∀ token ∈ first :: rest, first.span.start ≤ token.span.start := by
            intro token htoken
            rcases List.mem_cons.mp htoken with rfl | hmem
            · exact Nat.le_refl _
            · exact hfirst token hmem
          have hle' : ∀ token ∈ first' :: rest', first'.span.start ≤ token.span.start := by
            intro token htoken
            rcases List.mem_cons.mp htoken with rfl | hmem
            · exact Nat.le_refl _
            · exact hfirst' token hmem
          have hmem : first ∈ startingAt first.span.start (first' :: rest') := by
            rw [← heq, startingAt_cons, if_pos rfl]
            exact List.mem_cons_self
          have hmem' : first' ∈ startingAt first'.span.start (first :: rest) := by
            rw [heq, startingAt_cons, if_pos rfl]
            exact List.mem_cons_self
          have hstart : first.span.start = first'.span.start :=
            Nat.le_antisymm (hle first' (List.mem_filter.mp hmem').1)
              (hle' first (List.mem_filter.mp hmem).1)
          have hheads := heq first.span.start
          rw [startingAt_cons, startingAt_cons, if_pos rfl, if_pos hstart.symm] at hheads
          obtain ⟨rfl, -⟩ := List.cons.inj hheads
          refine congrArg _ (ih hrest hrest' fun position => ?_)
          have htails := heq position
          rw [startingAt_cons, startingAt_cons] at htails
          split at htails
          · exact (List.cons.inj htails).2
          · exact htails

/-- Sorting the reverse of an ordered list gives it back if the tokens at each start read the same
in both directions. -/
theorem insertionSort_reverse_eq_iff
    (h : tokens.Pairwise NotBehind) :
    tokens.reverse.insertionSort NotBehind = tokens ↔
      ∀ position, (startingAt position tokens).reverse = startingAt position tokens := by
  have hsorted : ∀ position,
      startingAt position (tokens.reverse.insertionSort NotBehind) =
        (startingAt position tokens).reverse := by
    intro position
    rw [startingAt_insertionSort, startingAt, List.filter_reverse]
    rfl
  constructor
  · intro heq position
    rw [← hsorted, heq]
  · intro hreads
    refine eq_of_startingAt_eq (List.pairwise_insertionSort _ _) h fun position => ?_
    rw [hsorted, hreads]

/-- The first token ends in front of the second, which is empty if both start at one position. -/
def Clears
    (first second : Token) : Prop :=
  first.span.Precedes second.span ∧
  (first.span.start = second.span.start → second.span.length = 0)

/-- Where the tokens at each start read the same in both directions, no token that is not empty
comes behind one with its start. -/
theorem clears_of_startingAt
    (h : (tokens.map (·.span)).Pairwise Span.Precedes)
    (hreads : ∀ position, (startingAt position tokens).reverse = startingAt position tokens) :
    tokens.Pairwise Clears := by
  have hordered := List.pairwise_map.mp h
  refine List.pairwise_iff_forall_sublist.mpr fun {first second} hsub => ?_
  refine ⟨List.pairwise_iff_forall_sublist.mp hordered hsub, fun hstart => ?_⟩
  have hboth : [first, second].Sublist (startingAt second.span.start tokens) := by
    have hfilter := hsub.filter fun token => decide (token.span.start = second.span.start)
    simpa [startingAt, List.filter_cons, hstart] using hfilter
  rw [← hreads, ← List.reverse_sublist, List.reverse_reverse] at hboth
  have hback := List.pairwise_iff_forall_sublist.mp hordered (hboth.trans List.filter_sublist)
  have hle := hback.1
  omega

end Token

namespace TokenStore

open Token

variable {store : TokenStore}
variable {version generation firstId : Nat}
variable {view front back : List (TrackedToken × Span)}
variable {tracked : TrackedToken}
variable {span : Span}
variable {tokens : List Token}

/-- The store with a token put in at an index. -/
def insertAt
    (store : TokenStore)
    (index : Nat)
    (tracked : TrackedToken) : TokenStore :=
  { store with tokens := store.tokens.insertIdx index tracked }

/-- With the token at the index, all tokens come in order and without overlaps. -/
def Suits
    (store : TokenStore)
    (tracked : TrackedToken)
    (index : Nat) : Prop :=
  index ≤ store.size ∧ (store.insertAt index tracked).check = .ok ()

instance (store : TokenStore) (tracked : TrackedToken) (index : Nat) :
    Decidable (store.Suits tracked index) :=
  inferInstanceAs (Decidable (_ ∧ _))

/-- An empty token stands at the start of the span, which is not empty. -/
def Hinders
    (store : TokenStore)
    (span : Span) : Prop :=
  0 < span.length ∧ ∃ other ∈ store.tokens, store.place other = .ok ⟨span.start, 0⟩

/-- A token is added at an index that suits if there is one, and refused as an overlap with a token
of the store if there is none. -/
def AddsIfSuited
    (store : TokenStore)
    (tracked : TrackedToken) : Prop :=
  ((∃ index, store.Suits tracked index) →
    ∃ index,
      store.Suits tracked index ∧
      store.add tracked = .ok (store.insertAt index tracked)) ∧
  ((¬ ∃ index, store.Suits tracked index) →
    ∃ other ∈ store.tokens, ∃ existing span,
      store.place other = .ok existing ∧
      store.place tracked = .ok span ∧
      store.add tracked = Outcome.fail (.overlap existing span))

theorem Arrangement.insertAt_eq
    (h : Arrangement store version (front ++ back))
    (tracked : TrackedToken)
    (span : Span) :
    store.insertAt front.length tracked =
      store.withEntries (front ++ (tracked, span) :: back) := by
  have hlength : front.length = (front.map Prod.fst).length := by simp
  rw [insertAt, ← h.tokens, List.map_append, hlength, insertIdx_append, withEntries,
    List.map_append, List.map_cons]

/-- An index suits if it parts the entries that end in front of the token from those that start
behind it. -/
theorem Arrangement.suits_iff
    (h : Arrangement store version (front ++ back))
    (hlocate : store.locate tracked version = .ok span)
    (hfits : span.Fits) :
    store.Suits tracked front.length ↔
      (∀ other ∈ front, other.2.Precedes span) ∧ ∀ other ∈ back, span.Precedes other.2 := by
  have hsize : front.length ≤ store.size := by
    rw [size, ← h.tokens]
    simp
  rw [Suits, h.insertAt_eq tracked span]
  constructor
  · rintro ⟨-, hcheck⟩
    obtain ⟨version', spans, hhead, -, hspans, hordered⟩ := check_eq_ok_iff.mp hcheck
    obtain rfl : version = version' := h.head.symm.trans hhead
    have hlocated : ∀ entry ∈ front ++ (tracked, span) :: back,
        store.locate entry.1 version = .ok entry.2 := by
      intro entry hentry
      rcases List.mem_append.mp hentry with hmem | hmem
      · exact h.located entry (List.mem_append_left _ hmem)
      · rcases List.mem_cons.mp hmem with rfl | hmem
        · exact hlocate
        · exact h.located entry (List.mem_append_right _ hmem)
    have hsame : spans = (front ++ (tracked, span) :: back).map Prod.snd := by
      refine (List.map_inj_right fun _ _ => Except.ok.inj).mp (hspans.symm.trans ?_)
      rw [withEntries, List.map_map, List.map_map]
      exact List.map_congr_left hlocated
    rw [hsame, List.pairwise_map] at hordered
    obtain ⟨-, hbehind, hahead⟩ := List.pairwise_append.mp hordered
    exact ⟨fun other hother => hahead other hother (tracked, span) List.mem_cons_self,
      (List.pairwise_cons.mp hbehind).1⟩
  · rintro ⟨hfront, hback⟩
    exact ⟨hsize, (h.insert hlocate hfits hfront hback).check_eq⟩

/-- Every index of a store parts its entries. -/
theorem Arrangement.exists_parts
    {index : Nat}
    (h : Arrangement store version view)
    (hindex : index ≤ store.size) :
    ∃ front back, view = front ++ back ∧ front.length = index := by
  rw [size, ← h.tokens, List.length_map] at hindex
  exact ⟨view.take index, view.drop index, (List.take_append_drop index view).symm,
    List.length_take_of_le hindex⟩

/-- If there is an index that suits, the one that a token is added at does so as well, unless an
empty token hinders it.  What starts at or behind the new token and yet ends in front of it is empty
and at its start. -/
theorem Arrangement.precedes_of_suits
    {index : Nat}
    (h : Arrangement store version (front ++ back))
    (hlocate : store.locate tracked version = .ok span)
    (hfits : span.Fits)
    (hfront : ∀ other ∈ front, other.2.start < span.start)
    (hback : ∀ other ∈ back, span.start ≤ other.2.start)
    (hsuits : store.Suits tracked index)
    (hfree : ¬ store.Hinders span) :
    (∀ other ∈ front, other.2.Precedes span) ∧ ∀ other ∈ back, span.Precedes other.2 := by
  obtain ⟨ahead, behind, hview, rfl⟩ := h.exists_parts hsuits.1
  have hparts : ∀ other ∈ front ++ back, other.2.Precedes span ∨ span.Precedes other.2 := by
    intro other hother
    have h' := h
    rw [hview] at h' hother
    obtain ⟨hahead, hbehind⟩ := (h'.suits_iff hlocate hfits).mp hsuits
    exact (List.mem_append.mp hother).imp (hahead other) (hbehind other)
  constructor
  · intro other hother
    refine (hparts other (List.mem_append_left _ hother)).resolve_right fun hprecedes => ?_
    exact absurd hprecedes.start_le (Nat.not_le_of_lt (hfront other hother))
  · intro other hother
    have hmem : other ∈ front ++ back := List.mem_append_right _ hother
    refine (hparts other hmem).elim (fun hprecedes => ?_) id
    have hstart := hback other hother
    have hstop := hprecedes.1
    have hempty : span.length = 0 := by
      refine Nat.eq_zero_of_not_pos fun hpositive => hfree ⟨hpositive, other.1, ?_, ?_⟩
      · rw [← h.tokens]
        exact List.mem_map_of_mem hmem
      · have hspan : other.2 = ⟨span.start, 0⟩ := by
          rw [← show (⟨other.2.start, other.2.length⟩ : Span) = other.2 from rfl, Span.mk.injEq]
          omega
        rw [h.place_eq, h.located other hmem, hspan]
    exact ⟨by omega, hfits⟩

/-- A token that is hindered does not precede the empty token at its start. -/
theorem Arrangement.not_precedes_of_hinders
    (h : Arrangement store version (front ++ back))
    (hfront : ∀ other ∈ front, other.2.start < span.start)
    (hhinders : store.Hinders span) :
    ¬ ∀ other ∈ back, span.Precedes other.2 := by
  obtain ⟨hpositive, other, hother, hplace⟩ := hhinders
  rw [← h.tokens] at hother
  obtain ⟨entry, hentry, rfl⟩ := List.mem_map.mp hother
  rw [h.place_eq, h.located entry hentry, Except.ok.injEq] at hplace
  intro hback
  rcases List.mem_append.mp hentry with hmem | hmem
  · have hlt := hfront entry hmem
    rw [hplace] at hlt
    exact Nat.lt_irrefl _ hlt
  · have hle := (hback entry hmem).1
    rw [hplace] at hle
    dsimp only at hle
    omega

theorem Arrangement.addsIfSuited_iff_not_hinders
    (h : Arrangement store version view)
    (hlocate : store.locate tracked version = .ok span)
    (hfits : span.Fits) :
    store.AddsIfSuited tracked ↔
      ¬ (store.Hinders span ∧ ∃ index, store.Suits tracked index) := by
  obtain ⟨front, back, rfl, hfront, hback⟩ := h.exists_start_split span.start
  have hadd : ∀ store', store.add tracked = .ok store' ↔ _ := fun store' =>
    h.add_eq_ok_iff hlocate hfits hfront hback
  by_cases hpart : (∀ other ∈ front, other.2.Precedes span) ∧ ∀ other ∈ back, span.Precedes other.2
  · have hsuits := (h.suits_iff hlocate hfits).mpr hpart
    have hadded := (hadd _).mpr ⟨hpart.1, hpart.2, rfl⟩
    rw [← h.insertAt_eq] at hadded
    constructor
    · rintro - ⟨hhinders, -⟩
      exact h.not_precedes_of_hinders hfront hhinders hpart.2
    · intro _
      exact ⟨fun _ => ⟨_, hsuits, hadded⟩, fun hnone => absurd ⟨_, hsuits⟩ hnone⟩
  · have hrefused : ∃ other ∈ front ++ back,
        store.add tracked = Outcome.fail (.overlap other.2 span) := by
      refine (h.add_or_overlap hlocate hfits).resolve_left ?_
      rintro ⟨store', hok⟩
      obtain ⟨hahead, hbehind, -⟩ := (hadd store').mp hok
      exact hpart ⟨hahead, hbehind⟩
    obtain ⟨other, hother, hfail⟩ := hrefused
    constructor
    · rintro ⟨hadds, -⟩ ⟨-, hsuited⟩
      obtain ⟨index, -, hok⟩ := hadds hsuited
      rw [hfail] at hok
      cases hok
    · intro hfree
      refine ⟨fun ⟨index, hsuits⟩ => absurd ?_ hfree, fun _ => ?_⟩
      · refine ⟨Classical.byContradiction fun hhinders => hpart ?_, index, hsuits⟩
        exact h.precedes_of_suits hlocate hfits hfront hback hsuits hhinders
      · have hmem : other.1 ∈ store.tokens := by
          rw [← h.tokens]
          exact List.mem_map_of_mem hother
        exact ⟨other.1, hmem, other.2, span, (h.place_eq other.1).trans (h.located other hother),
          (h.place_eq tracked).trans hlocate, hfail⟩

section Adds

variable {added : TokenStore}

/-- Adds tokens one after the other. -/
def addAll
    (store : TokenStore)
    (tracked : List TrackedToken) : Outcome StoreError TokenStore :=
  tracked.foldlM add store

/-- A token goes in front of the first one that starts at or behind its start. -/
theorem orderedInsert_placed
    (hfront : ∀ other ∈ front, other.2.start < span.start)
    (hback : ∀ other ∈ back, span.start ≤ other.2.start) :
    ((front ++ back).map placed).orderedInsert NotBehind (placed (tracked, span)) =
      (front ++ (tracked, span) :: back).map placed := by
  induction front with
  | nil =>
      cases back with
      | nil =>
          rfl
      | cons first rest =>
          exact List.orderedInsert_cons_of_le _ _ (hback first List.mem_cons_self)
  | cons first rest ih =>
      have hfirst : ¬ NotBehind (placed (tracked, span)) (placed first) :=
        Nat.not_le_of_lt (hfront first List.mem_cons_self)
      rw [List.cons_append, List.map_cons, List.orderedInsert_of_not_le _ _ hfirst,
        ih fun other hother => hfront other (List.mem_cons_of_mem _ hother)]
      rfl

/-- Each token that is added goes in front of those that start at or behind its start. -/
theorem Arrangement.exists_of_addAll
    (h : Arrangement store generation view)
    (hfits : ∀ token ∈ tokens, token.span.Fits)
    (hadded : store.addAll (TrackedToken.number generation firstId tokens) = .ok added) :
    ∃ view',
      Arrangement added generation view' ∧
      view'.map placed =
        tokens.foldl (fun sorted token => sorted.orderedInsert NotBehind token)
          (view.map placed) := by
  induction tokens generalizing store firstId view with
  | nil =>
      cases hadded
      exact ⟨view, h, rfl⟩
  | cons token rest ih =>
      have htoken := hfits token List.mem_cons_self
      have hlocate : store.locate ⟨firstId, token, generation⟩ generation = .ok token.span :=
        locate_of_origin h.head h.bound
      rw [addAll, TrackedToken.number, List.foldlM_cons] at hadded
      obtain ⟨store', hadd, hrest⟩ := Outcome.bind_eq_ok_iff.mp hadded
      obtain ⟨front, back, rfl, hfront, hback⟩ := h.exists_start_split token.span.start
      obtain ⟨hahead, hbehind, rfl⟩ := (h.add_eq_ok_iff hlocate htoken hfront hback).mp hadd
      obtain ⟨view', hview', hplaced⟩ := ih (h.insert hlocate htoken hahead hbehind)
        (fun other hother => hfits other (List.mem_cons_of_mem _ hother)) hrest
      refine ⟨view', hview', ?_⟩
      rw [hplaced, ← orderedInsert_placed hfront hback]
      rfl

/-- Tokens that clear one another can be added in order. -/
theorem Arrangement.exists_addAll
    (h : Arrangement store generation view)
    (hfits : ∀ token ∈ tokens, token.span.Fits)
    (hview : ∀ entry ∈ view, ∀ token ∈ tokens, Clears (placed entry) token)
    (hclear : tokens.Pairwise Clears) :
    ∃ added, store.addAll (TrackedToken.number generation firstId tokens) = .ok added := by
  induction tokens generalizing store firstId view with
  | nil =>
      exact ⟨store, rfl⟩
  | cons token rest ih =>
      obtain ⟨hfirst, hrest⟩ := List.pairwise_cons.mp hclear
      have htoken := hfits token List.mem_cons_self
      have hlocate : store.locate ⟨firstId, token, generation⟩ generation = .ok token.span :=
        locate_of_origin h.head h.bound
      obtain ⟨front, back, rfl, hfront, hback⟩ := h.exists_start_split token.span.start
      have hahead : ∀ other ∈ front, other.2.Precedes token.span := fun other hother =>
        (hview other (List.mem_append_left _ hother) token List.mem_cons_self).1
      have hbehind : ∀ other ∈ back, token.span.Precedes other.2 := by
        intro other hother
        obtain ⟨hprecedes, hempty⟩ :=
          hview other (List.mem_append_right _ hother) token List.mem_cons_self
        have hstart : other.2.start = token.span.start :=
          Nat.le_antisymm hprecedes.start_le (hback other hother)
        have hlength := hempty hstart
        exact ⟨by omega, htoken⟩
      have hadd := (h.add_eq_ok_iff hlocate htoken hfront hback).mpr ⟨hahead, hbehind, rfl⟩
      have hwider : ∀ entry ∈ front ++ (⟨firstId, token, generation⟩, token.span) :: back,
          ∀ other ∈ rest, Clears (placed entry) other := by
        intro entry hentry other hother
        have hmem : entry = (⟨firstId, token, generation⟩, token.span) ∨ entry ∈ front ++ back := by
          simpa [or_left_comm] using hentry
        rcases hmem with rfl | hold
        · exact hfirst other hother
        · exact hview entry hold other (List.mem_cons_of_mem _ hother)
      obtain ⟨added, hadded⟩ := ih (h.insert hlocate htoken hahead hbehind)
        (fun other hother => hfits other (List.mem_cons_of_mem _ hother)) hwider hrest
      refine ⟨added, ?_⟩
      rw [addAll, TrackedToken.number, List.foldlM_cons, hadd]
      exact hadded

/-- Adding ordered tokens one after the other gives the same list of tokens exactly if those at each
start read the same in both directions. -/
theorem addAll_lists_iff
    (hbound : generation < positionBound)
    (hordered : (tokens.map (·.span)).Pairwise Span.Precedes)
    (hfits : ∀ token ∈ tokens, token.span.Fits) :
    (∃ added,
      (empty generation).addAll (TrackedToken.number generation firstId tokens) = .ok added ∧
      added.toList = .ok tokens) ↔
      ∀ position, (startingAt position tokens).reverse = startingAt position tokens := by
  have hempty := (layout_empty hbound).toArrangement
  have hstarts : tokens.Pairwise NotBehind :=
    (List.pairwise_map.mp hordered).imp fun hprecedes => hprecedes.start_le
  have hsorted : ∀ added,
      (empty generation).addAll (TrackedToken.number generation firstId tokens) = .ok added →
      added.toList = .ok (tokens.reverse.insertionSort NotBehind) := by
    intro added hadded
    obtain ⟨view, hview, hplaced⟩ := hempty.exists_of_addAll hfits hadded
    rw [hview.toList_eq, hplaced, List.insertionSort, List.foldr_reverse]
    rfl
  rw [← insertionSort_reverse_eq_iff hstarts]
  constructor
  · rintro ⟨added, hadded, htoList⟩
    rw [hsorted added hadded] at htoList
    exact Except.ok.inj htoList
  · intro hsame
    have hclear := clears_of_startingAt hordered ((insertionSort_reverse_eq_iff hstarts).mp hsame)
    have hadds : ∃ added,
        (empty generation).addAll (TrackedToken.number generation firstId tokens) = .ok added :=
      hempty.exists_addAll hfits (fun entry hentry => absurd hentry List.not_mem_nil) hclear
    obtain ⟨added, hadded⟩ := hadds
    exact ⟨added, hadded, by rw [hsorted added hadded, hsame]⟩

end Adds

/-- For a store that passes its check, adding a token succeeds exactly if there is an index that
suits, unless there is one and an empty token stands at the start of a token that is not empty.
Adding the tokens that a store can be made of one after the other gives the same list of tokens,
exactly if the tokens at each start read the same in both directions. -/
theorem addsIfSuited_iff
    (hcheck : store.check = .ok ())
    (hfits : ∀ other ∈ store.tokens, ∀ located, store.place other = .ok located → located.Fits)
    (hplace : store.place tracked = .ok span)
    (hspan : span.Fits) :
    (store.AddsIfSuited tracked ↔
      ¬ (store.Hinders span ∧ ∃ index, store.Suits tracked index)) ∧
    ∀ (generation firstId nextId : Nat) (tokens : List Token) (made : TokenStore),
      generation < positionBound →
      (∀ token ∈ tokens, token.span.Fits) →
      (ofTokens generation firstId tokens).1 = .ok made →
      ((∃ added,
        (empty generation).addAll (TrackedToken.number generation nextId tokens) = .ok added ∧
        added.toList = made.toList) ↔
        ∀ position, (startingAt position tokens).reverse = startingAt position tokens) := by
  constructor
  · obtain ⟨version, view, h⟩ := Arrangement.exists_of_check hcheck
      fun other hother version located hversion hlocate =>
        hfits other hother located (by rw [place, hversion, Outcome.ok_bind, hlocate])
    exact h.addsIfSuited_iff_not_hinders ((h.place_eq tracked).symm.trans hplace) hspan
  · intro generation firstId nextId tokens made hbound htokens hmade
    obtain ⟨hordered, rfl, -⟩ :=
      ofTokens_eq_ok_iff.mp (Prod.ext hmade (Eq.refl (ofTokens generation firstId tokens).2))
    have hlist : (fresh generation firstId tokens).toList = .ok tokens := by
      rw [(layout_fresh hbound hordered htokens).toList_eq, map_placed_number]
    rw [hlist]
    exact addAll_lists_iff hbound hordered htokens

/-- A token goes between an empty one and another one, and an empty token in between two that read
the same in both directions. -/
theorem addsIfSuited_between :
    ∃ (store : TokenStore) (tracked : TrackedToken) (span : Span) (made : TokenStore),
      store.check = .ok () ∧
      (∀ other ∈ store.tokens, ∀ located, store.place other = .ok located → located.Fits) ∧
      store.place tracked = .ok span ∧
      span.Fits ∧
      store.AddsIfSuited tracked ∧
      store.add tracked = .ok (store.insertAt 2 tracked) ∧
      (∀ token ∈ [⟨1, ⟨2, 0⟩⟩, ⟨2, ⟨2, 0⟩⟩, ⟨1, ⟨2, 0⟩⟩], (token : Token).span.Fits) ∧
      (ofTokens 0 1 [⟨1, ⟨2, 0⟩⟩, ⟨2, ⟨2, 0⟩⟩, ⟨1, ⟨2, 0⟩⟩]).1 = .ok made ∧
      ∃ added,
        (empty 0).addAll
          (TrackedToken.number 0 4 [⟨1, ⟨2, 0⟩⟩, ⟨2, ⟨2, 0⟩⟩, ⟨1, ⟨2, 0⟩⟩]) = .ok added ∧
        added.toList = made.toList := by
  let store := fresh 0 1 [⟨0, ⟨0, 2⟩⟩, ⟨1, ⟨2, 0⟩⟩, ⟨0, ⟨5, 2⟩⟩]
  let tracked : TrackedToken := ⟨4, ⟨0, ⟨3, 2⟩⟩, 0⟩
  have hcheck : store.check = .ok () := by decide +kernel
  have hfits : ∀ other ∈ store.tokens, ∀ located,
      store.place other = .ok located → located.Fits := by decide +kernel
  have hplace : store.place tracked = .ok ⟨3, 2⟩ := by decide +kernel
  have hspan : (⟨3, 2⟩ : Span).Fits := by decide
  have hfree : ¬ store.Hinders ⟨3, 2⟩ := by
    rintro ⟨-, hempty⟩
    revert hempty
    decide +kernel
  have hboth := addsIfSuited_iff hcheck hfits hplace hspan
  have hadds : store.AddsIfSuited tracked := hboth.1.mpr fun hhindered => hfree hhindered.1
  have hreads : ∀ position,
      (startingAt position [⟨1, ⟨2, 0⟩⟩, ⟨2, ⟨2, 0⟩⟩, ⟨1, ⟨2, 0⟩⟩]).reverse =
        startingAt position [⟨1, ⟨2, 0⟩⟩, ⟨2, ⟨2, 0⟩⟩, ⟨1, ⟨2, 0⟩⟩] := by
    intro position
    by_cases hposition : 2 = position
    · subst hposition
      rfl
    · simp [startingAt, hposition]
  have htokens : ∀ token ∈ [⟨1, ⟨2, 0⟩⟩, ⟨2, ⟨2, 0⟩⟩, ⟨1, ⟨2, 0⟩⟩], (token : Token).span.Fits := by
    decide
  have hadded := (hboth.2 0 1 4 [⟨1, ⟨2, 0⟩⟩, ⟨2, ⟨2, 0⟩⟩, ⟨1, ⟨2, 0⟩⟩] _ (by decide) htokens
    rfl).mpr hreads
  exact ⟨store, tracked, ⟨3, 2⟩, _, hcheck, hfits, hplace, hspan, hadds, by decide +kernel, htokens,
    rfl, hadded⟩

/-- A token is refused behind an empty one, where it would not overlap anything.  Two empty tokens
at one place change places when they are added one after the other. -/
theorem not_addsIfSuited_behind_empty :
    (∃ (store : TokenStore) (tracked : TrackedToken),
      store.check = .ok () ∧
      store.place tracked = .ok ⟨5, 3⟩ ∧
      store.Suits tracked 1 ∧
      store.add tracked = Outcome.fail (.overlap ⟨5, 0⟩ ⟨5, 3⟩) ∧
      ¬ store.AddsIfSuited tracked) ∧
    ∃ made added,
      (ofTokens 0 1 [⟨1, ⟨5, 0⟩⟩, ⟨2, ⟨5, 0⟩⟩]).1 = .ok made ∧
      (empty 0).addAll (TrackedToken.number 0 1 [⟨1, ⟨5, 0⟩⟩, ⟨2, ⟨5, 0⟩⟩]) = .ok added ∧
      made.toList = .ok [⟨1, ⟨5, 0⟩⟩, ⟨2, ⟨5, 0⟩⟩] ∧
      added.toList = .ok [⟨2, ⟨5, 0⟩⟩, ⟨1, ⟨5, 0⟩⟩] := by
  constructor
  · have hsuits : (fresh 0 1 [⟨1, ⟨5, 0⟩⟩]).Suits ⟨2, ⟨2, ⟨5, 3⟩⟩, 0⟩ 1 := by decide +kernel
    have hrefused : (fresh 0 1 [⟨1, ⟨5, 0⟩⟩]).add ⟨2, ⟨2, ⟨5, 3⟩⟩, 0⟩ =
        Outcome.fail (.overlap ⟨5, 0⟩ ⟨5, 3⟩) := by decide +kernel
    refine ⟨_, _, by decide +kernel, by decide +kernel, hsuits, hrefused, ?_⟩
    rintro ⟨hadds, -⟩
    obtain ⟨index, -, hadded⟩ := hadds ⟨1, hsuits⟩
    rw [hrefused] at hadded
    cases hadded
  · exact ⟨fresh 0 1 [⟨1, ⟨5, 0⟩⟩, ⟨2, ⟨5, 0⟩⟩],
      ⟨[⟨2, ⟨2, ⟨5, 0⟩⟩, 0⟩, ⟨1, ⟨1, ⟨5, 0⟩⟩, 0⟩], EditLog.startingAt 0⟩,
      by decide +kernel, by decide +kernel, by decide +kernel, by decide +kernel⟩

end TokenStore

end LiveTokens
