import LiveTokens.Proofs.LayoutChanges

/-!
# Layouts over the generations

An edit that leaves every token alive carries the entries to a layout of the next
generation; it spares those in front of it and slides those behind it.  The edit
that changes nothing keeps the layout as it is.  Measuring all tokens anew keeps it as
well, and the tokens of a fresh store lie where the lexer put them.
-/

namespace LiveTokens

namespace Edit

/-- An entry behind the edit, in the generation after it. -/
def slideEntry
    (edit : Edit)
    (entry : TrackedToken × Span) : TrackedToken × Span :=
  (entry.1, entry.2.slide edit.delta)

/-- An entry that the edit does not cut into, in the generation after it. -/
def carriedEntry
    (edit : Edit)
    (entry : TrackedToken × Span) : TrackedToken × Span :=
  (entry.1, edit.carried entry.2)

theorem map_carriedEntry_of_spares
    {edit : Edit}
    {entries : List (TrackedToken × Span)}
    (h : ∀ entry ∈ entries, edit.Spares entry.2) :
    entries.map edit.carriedEntry = entries := by
  refine (List.map_congr_left fun entry hentry => ?_).trans (List.map_id entries)
  rw [carriedEntry, carried_of_spares (h entry hentry)]
  rfl

theorem map_carriedEntry_of_slides
    {edit : Edit}
    {entries : List (TrackedToken × Span)}
    (h : ∀ entry ∈ entries, edit.Slides entry.2) :
    entries.map edit.carriedEntry = entries.map edit.slideEntry := by
  refine List.map_congr_left fun entry hentry => ?_
  have hbehind := (h entry hentry).1
  rw [carriedEntry, carried_of_not_spares (by unfold Spares; omega)]
  rfl

theorem map_carriedEntry_identity
    (entries : List (TrackedToken × Span)) :
    entries.map identity.carriedEntry = entries := by
  refine (List.map_congr_left fun entry _ => ?_).trans (List.map_id entries)
  rw [carriedEntry, carried_identity]
  rfl

end Edit

namespace TokenStore

variable {store : TokenStore}
variable {version : Nat}
variable {view front back : List (TrackedToken × Span)}

section Advance

variable {edit : Edit}

theorem locate_advance
    {tracked : TrackedToken}
    {fate : Fate}
    {span next : Span}
    (hhead : store.log.base + store.log.length = version)
    (hbound : version + 1 < positionBound)
    (hlocate : store.locate tracked version = .ok span)
    (halive : fate ≠ .invalidated)
    (hcarry : (edit.carry span : Outcome LogError _) = .ok (fate, next)) :
    (store.advance edit).locate tracked (version + 1) = .ok next := by
  unfold locate at hlocate ⊢
  rw [Outcome.wrap_eq_ok_iff] at hlocate ⊢
  have hversion : version < positionBound := by omega
  exact TrackedToken.locate_push (EditLog.head_eq_ok_iff.mpr ⟨hhead, hversion⟩) hbound
    hlocate halive hcarry

namespace Arrangement

/-- An edit that leaves every token alive carries the entries along. -/
theorem carried
    (h : Arrangement store version view)
    (hbound : version + 1 < positionBound)
    (hedit : edit.Plausible)
    (hcarry : ∀ entry ∈ view, ∃ fate next,
      fate ≠ .invalidated ∧
      (edit.carry entry.2 : Outcome LogError _) = .ok (fate, next) ∧
      next.Fits) :
    Arrangement (store.advance edit) (version + 1) (view.map edit.carriedEntry) where
  head := by
    rw [TokenStore.advance, EditLog.base_push, EditLog.length_push, ← Nat.add_assoc, h.head]
  bound := hbound
  tokens := by
    rw [TokenStore.advance, ← h.tokens, List.map_map]
    rfl
  located entry hentry := by
    obtain ⟨old, hold, rfl⟩ := List.mem_map.mp hentry
    obtain ⟨fate, next, halive, hnext, -⟩ := hcarry old hold
    obtain ⟨rfl, -⟩ := Edit.carried_of_carry hnext halive
    exact locate_advance h.head hbound (h.located old hold) halive hnext
  ordered := by
    refine List.pairwise_map.mpr (h.ordered.imp_of_mem ?_)
    intro first second hfirst hsecond hprecedes
    obtain ⟨_, _, halive, hnext, hfits⟩ := hcarry first hfirst
    obtain ⟨_, _, halive', hnext', -⟩ := hcarry second hsecond
    obtain ⟨rfl, hpreserves⟩ := Edit.carried_of_carry hnext halive
    exact Edit.precedes_carried hedit hpreserves (Edit.carried_of_carry hnext' halive').2 hfits
      hprecedes
  fits entry hentry := by
    obtain ⟨old, hold, rfl⟩ := List.mem_map.mp hentry
    obtain ⟨_, _, halive, hnext, hfits⟩ := hcarry old hold
    obtain ⟨rfl, -⟩ := Edit.carried_of_carry hnext halive
    exact hfits

/-- An edit between the entries of an arrangement slides those behind it. -/
theorem advance
    (h : Arrangement store version (front ++ back))
    (hbound : version + 1 < positionBound)
    (hedit : edit.Plausible)
    (hfront : ∀ entry ∈ front, edit.Spares entry.2)
    (hback : ∀ entry ∈ back, edit.Slides entry.2) :
    Arrangement (store.advance edit) (version + 1) (front ++ back.map edit.slideEntry) := by
  have hcarry : ∀ entry ∈ front ++ back, ∃ fate next,
      fate ≠ .invalidated ∧
      (edit.carry entry.2 : Outcome LogError _) = .ok (fate, next) ∧
      next.Fits := by
    intro entry hentry
    have hfits := h.fits entry hentry
    rcases List.mem_append.mp hentry with hmem | hmem
    · exact ⟨.unmoved, entry.2, by simp, Edit.carry_of_spares hfits (hfront entry hmem), hfits⟩
    · obtain ⟨fate, halive, hnext⟩ := Edit.carry_of_slides (ε := LogError) hfits (hback entry hmem)
      refine ⟨fate, _, halive, hnext, ?_⟩
      obtain ⟨-, hnonneg, hend⟩ := hback entry hmem
      simp only [Span.slide, Span.Fits]
      omega
  have hcarried := h.carried hbound hedit hcarry
  rwa [List.map_append, Edit.map_carriedEntry_of_spares hfront,
    Edit.map_carriedEntry_of_slides hback] at hcarried

/-- The edit that changes nothing keeps the arrangement. -/
theorem advance_identity
    (h : Arrangement store version view)
    (hbound : version + 1 < positionBound) :
    Arrangement (store.advance Edit.identity) (version + 1) view := by
  have hplausible : Edit.identity.Plausible := Int.le_refl 0
  have hcarried := h.carried hbound hplausible fun entry hentry =>
    ⟨.unmoved, entry.2, by simp, Edit.carry_identity (h.fits entry hentry), h.fits entry hentry⟩
  rwa [Edit.map_carriedEntry_identity] at hcarried

end Arrangement

namespace Layout

/-- The edit that changes nothing keeps the layout. -/
theorem advance_identity
    (h : Layout store version view)
    (hbound : version + 1 < positionBound) :
    Layout (store.advance Edit.identity) (version + 1) view where
  toArrangement := h.toArrangement.advance_identity hbound
  distinct := h.distinct

/-- Any number of edits that change nothing keep the layout. -/
theorem advance_identities
    (h : Layout store version view)
    (count : Nat)
    (hbound : version + count < positionBound) :
    Layout ((List.replicate count Edit.identity).foldl TokenStore.advance store)
      (version + count) view := by
  induction count generalizing store version with
  | zero =>
      exact h
  | succ count ih =>
      rw [List.replicate_succ, List.foldl_cons, Nat.add_comm count, ← Nat.add_assoc]
      exact ih (h.advance_identity (by omega)) (by omega)

end Layout

end Advance

section Compact

/-- An entry whose token was measured where it lies. -/
def remeasured
    (version : Nat)
    (entry : TrackedToken × Span) : TrackedToken × Span :=
  (entry.1.rebased entry.2 version, entry.2)

/-- A token measured in the generation of its store lies where it was measured. -/
theorem locate_of_origin
    {tracked : TrackedToken}
    (hhead : store.log.base + store.log.length = tracked.origin)
    (hbound : tracked.origin < positionBound) :
    store.locate tracked tracked.origin = .ok tracked.token.span := by
  rw [locate, Outcome.wrap_eq_ok_iff]
  exact TrackedToken.locate_origin (EditLog.head_eq_ok_iff.mpr ⟨hhead, hbound⟩)

/-- Tokens that can all be located are measured anew. -/
theorem compact_eq_of_located
    (hversion : (store.version : Outcome StoreError Nat) = .ok version)
    (htokens : view.map Prod.fst = store.tokens)
    (hlocated : ∀ entry ∈ view, store.locate entry.1 version = .ok entry.2) :
    store.compact =
      .ok ⟨(view.map (remeasured version)).map Prod.fst, EditLog.startingAt version⟩ := by
  rw [compact_eq_do, hversion]
  simp only [Outcome.ok_bind]
  have hrebased : store.tokens.mapM (fun tracked => do
      return tracked.rebased (← store.locate tracked version) version) =
      (.ok ((view.map (remeasured version)).map Prod.fst) : Outcome StoreError _) := by
    rw [Outcome.mapM_eq_ok_iff, ← htokens, List.map_map, List.map_map, List.map_map]
    apply List.map_congr_left
    intro entry hentry
    simp [hlocated entry hentry, remeasured]
  rw [hrebased]
  rfl

/-- The tokens of an arrangement, measured anew. -/
theorem Arrangement.compact_eq
    (h : Arrangement store version view) :
    store.compact =
      .ok ⟨(view.map (remeasured version)).map Prod.fst, EditLog.startingAt version⟩ :=
  compact_eq_of_located h.version_eq h.tokens h.located

/-- Measuring all tokens anew keeps the arrangement. -/
theorem Arrangement.compact
    (h : Arrangement store version view) :
    Arrangement ⟨(view.map (remeasured version)).map Prod.fst, EditLog.startingAt version⟩ version
      (view.map (remeasured version)) where
  head := rfl
  bound := h.bound
  tokens := rfl
  located entry hentry := by
    obtain ⟨old, hold, rfl⟩ := List.mem_map.mp hentry
    have horigin : (old.1.rebased old.2 version).origin < positionBound := h.bound
    exact locate_of_origin rfl horigin
  ordered := List.pairwise_map.mpr h.ordered
  fits entry hentry := by
    obtain ⟨old, hold, rfl⟩ := List.mem_map.mp hentry
    exact h.fits old hold

/-- Measuring all tokens anew keeps the layout. -/
theorem Layout.compact
    (h : Layout store version view) :
    Layout ⟨(view.map (remeasured version)).map Prod.fst, EditLog.startingAt version⟩ version
      (view.map (remeasured version)) where
  toArrangement := h.toArrangement.compact
  distinct := by
    have hids : view.map (·.1.id) = store.ids := by
      simp [ids, ← h.tokens, Function.comp_def]
    have hdistinct := h.distinct
    rw [← hids] at hdistinct
    simpa [ids, remeasured, Function.comp_def] using hdistinct

end Compact

end TokenStore

namespace TrackedToken

/-- The entry of a token that lies where it was measured. -/
def entry
    (tracked : TrackedToken) : TrackedToken × Span :=
  (tracked, tracked.token.span)

/-- Fresh tokens have consecutive identities. -/
theorem map_id_number
    (generation firstId : Nat)
    (tokens : List Token) :
    (number generation firstId tokens).map (·.id) = List.range' firstId tokens.length := by
  induction tokens generalizing firstId with
  | nil =>
      rfl
  | cons token tokens ih =>
      simp [number, ih, List.range'_succ]

/-- Fresh tokens are the given ones. -/
theorem map_token_number
    (generation firstId : Nat)
    (tokens : List Token) :
    (number generation firstId tokens).map (·.token) = tokens := by
  induction tokens generalizing firstId with
  | nil =>
      rfl
  | cons token tokens ih =>
      simp [number, ih]

/-- Fresh tokens are measured in their generation. -/
theorem origin_of_mem_number
    {generation firstId : Nat}
    {tokens : List Token}
    {tracked : TrackedToken}
    (h : tracked ∈ number generation firstId tokens) :
    tracked.origin = generation := by
  induction tokens generalizing firstId with
  | nil =>
      simp [number] at h
  | cons token tokens ih =>
      rcases List.mem_cons.mp h with rfl | hmem
      · rfl
      · exact ih hmem

end TrackedToken

namespace TokenStore

section Fresh

variable {store : TokenStore}
variable {generation firstId nextId : Nat}
variable {tokens : List Token}

/-- The store of fresh tokens. -/
def fresh
    (generation firstId : Nat)
    (tokens : List Token) : TokenStore :=
  { empty generation with tokens := TrackedToken.number generation firstId tokens }

@[simp] theorem ids_fresh :
    (fresh generation firstId tokens).ids = List.range' firstId tokens.length :=
  TrackedToken.map_id_number generation firstId tokens

/-- Fresh tokens lie where they were measured. -/
theorem map_locate_fresh
    (hbound : generation < positionBound) :
    (fresh generation firstId tokens).tokens.map
        ((fresh generation firstId tokens).locate · generation) =
      (tokens.map (·.span)).map .ok := by
  have hspans : tokens.map (·.span) =
      (fresh generation firstId tokens).tokens.map (·.token.span) := by
    calc
      tokens.map (·.span) =
          ((TrackedToken.number generation firstId tokens).map (·.token)).map (·.span) := by
        rw [TrackedToken.map_token_number]
      _ = (fresh generation firstId tokens).tokens.map (·.token.span) := by
        rw [List.map_map]
        rfl
  rw [hspans, List.map_map]
  apply List.map_congr_left
  intro tracked htracked
  have horigin := TrackedToken.origin_of_mem_number htracked
  subst horigin
  exact locate_of_origin rfl hbound

/-- A store can be made of tokens exactly if they come in order. -/
theorem ofTokens_eq_ok_iff :
    ofTokens generation firstId tokens = (.ok store, nextId) ↔
      (tokens.map (·.span)).Pairwise Span.Precedes ∧
      store = fresh generation firstId tokens ∧
      nextId = firstId + tokens.length := by
  have hcheck : checkOrder 0 none (tokens.map fun token => .ok token.span) = .ok () ↔
      (tokens.map (·.span)).Pairwise Span.Precedes := by
    rw [checkOrder_eq_ok_iff]
    constructor
    · rintro ⟨spans, hspans, hordered⟩
      have hmap : (tokens.map (·.span)).map (Except.ok : Span → Outcome StoreError Span) =
          spans.map .ok := by
        rw [← hspans, List.map_map]
        rfl
      rw [(List.map_inj_right fun _ _ => Except.ok.inj).mp hmap]
      simpa using hordered
    · intro hordered
      exact ⟨tokens.map (·.span), by rw [List.map_map]; rfl, by simpa using hordered⟩
  unfold ofTokens
  rw [← hcheck]
  split
  next hok =>
    simp only [hok, true_and, Prod.mk.injEq, Except.ok.injEq]
    constructor
    · rintro ⟨rfl, rfl⟩
      exact ⟨rfl, rfl⟩
    · rintro ⟨rfl, rfl⟩
      exact ⟨rfl, rfl⟩
  next hcause =>
    simp [hcause, Outcome.fail]
  next herror =>
    simp [herror]

/-- Making a store of tokens that fit has an answer. -/
theorem returns_ofTokens
    (hfits : ∀ token ∈ tokens, token.span.Fits) :
    (ofTokens generation firstId tokens).1.Returns := by
  have hcheck : ∀ (index : Nat) (previous : Option Span),
      (∀ span ∈ previous, span.Fits) →
      (checkOrder index previous (tokens.map fun token => .ok token.span)).Returns := by
    induction tokens with
    | nil =>
        simp [checkOrder]
    | cons token tokens ih =>
        intro index previous hprevious
        have htoken := hfits token List.mem_cons_self
        have hrest := ih (fun other hother => hfits other (List.mem_cons_of_mem _ hother))
          (index + 1) (some token.span) (by simpa using htoken)
        cases previous with
        | none =>
            simpa [checkOrder] using hrest
        | some before =>
            have hbefore := hprevious before rfl
            simp only [List.map_cons, checkOrder, Outcome.ok_bind, hbefore.stop_eq]
            split
            · simp
            · exact hrest
  have hreturns := hcheck 0 none (by simp)
  unfold ofTokens
  split
  next => simp
  next => simp
  next failure hother heq =>
    rcases failure with _ | error
    · exact absurd heq hreturns
    · simp

/-- Fresh tokens are placed where they were measured. -/
theorem map_placed_number :
    ((TrackedToken.number generation firstId tokens).map TrackedToken.entry).map placed =
      tokens := by
  rw [List.map_map]
  exact TrackedToken.map_token_number generation firstId tokens

theorem layout_empty
    (hbound : generation < positionBound) :
    Layout (empty generation) generation [] where
  head := rfl
  bound := hbound
  tokens := rfl
  located _ hentry := absurd hentry List.not_mem_nil
  ordered := List.Pairwise.nil
  fits _ hentry := absurd hentry List.not_mem_nil
  distinct := List.nodup_nil

/-- The layout of a fresh store. -/
theorem layout_fresh
    (hbound : generation < positionBound)
    (hordered : (tokens.map (·.span)).Pairwise Span.Precedes)
    (hfits : ∀ token ∈ tokens, token.span.Fits) :
    Layout (fresh generation firstId tokens) generation
      ((TrackedToken.number generation firstId tokens).map TrackedToken.entry) where
  head := rfl
  bound := hbound
  tokens := by
    rw [List.map_map]
    exact List.map_id _
  located entry hentry := by
    obtain ⟨tracked, htracked, rfl⟩ := List.mem_map.mp hentry
    have horigin := TrackedToken.origin_of_mem_number htracked
    subst horigin
    exact locate_of_origin rfl hbound
  ordered := by
    rw [← TrackedToken.map_token_number generation firstId tokens, List.map_map] at hordered
    exact List.pairwise_map.mpr (List.pairwise_map.mp hordered)
  fits entry hentry := by
    obtain ⟨tracked, htracked, rfl⟩ := List.mem_map.mp hentry
    refine hfits tracked.token ?_
    rw [← TrackedToken.map_token_number generation firstId tokens]
    exact List.mem_map.mpr ⟨tracked, htracked, rfl⟩
  distinct := by
    rw [ids_fresh]
    exact List.nodup_range'

end Fresh

end TokenStore

end LiveTokens
