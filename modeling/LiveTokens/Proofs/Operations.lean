import Mathlib.Data.List.InsertIdx
import LiveTokens.Proofs.LayoutChanges
import LiveTokens.Proofs.Measurement

/-!
# Runs of store operations

A store is made of tokens, tokens are added and removed, all of them are measured
anew, and the store moves on by an edit.  An operation that fails leaves the store
as it was.

A store that such operations led to is *built*, provided that it moved on only by
edits that left all its tokens alive.  Every built store has an arrangement, since every
operation makes one out of the last one.  No operation asks for distinct
identities.
-/

namespace LiveTokens

namespace Edit

variable {edit : Edit}
variable {span : Span}

/-- The edit carries the span along, and the span still fits after it. -/
def LeavesAlive
    (edit : Edit)
    (span : Span) : Prop :=
  ∃ carried,
    (edit.carry span : Outcome LogError (Fate × Span)) = .ok carried ∧
    carried.1 ≠ .invalidated ∧
    carried.2.Fits

instance (edit : Edit) (span : Span) : Decidable (edit.LeavesAlive span) :=
  match h : (edit.carry span : Outcome LogError (Fate × Span)) with
  | .ok carried =>
    decidable_of_iff (carried.1 ≠ .invalidated ∧ carried.2.Fits) (by simp [LeavesAlive, h])
  | .error _ => isFalse (by simp [LeavesAlive, h])

/-- An edit with a new region does not remove more than its old one. -/
theorem plausible_of_newRegion?
    (h : edit.newRegion? ≠ none) :
    edit.Plausible := by
  unfold newRegion? shift? at h
  split at h
  next hrange =>
    exact hrange.1
  next =>
    exact absurd rfl h

end Edit

namespace TokenStore

variable {store store' : TokenStore}

/-- What can be done to a token store. -/
inductive Operation where
  /-- A new store takes the place of this one. -/
  | ofTokens (generation firstId : Nat) (tokens : List Token)
  | add (tracked : TrackedToken)
  | remove (tracked : TrackedToken)
  | compact
  | advance (edit : Edit)
deriving DecidableEq, Repr

variable {operation : Operation}

/-- The store that an operation gives. -/
def result
    (store : TokenStore) : Operation → Outcome StoreError TokenStore
  | .ofTokens generation firstId tokens => (TokenStore.ofTokens generation firstId tokens).1
  | .add tracked => store.add tracked
  | .remove tracked => store.remove tracked
  | .compact => store.compact
  | .advance edit => return store.advance edit

/-- The work on the store that an operation is. -/
def Operation.work : Operation → Work TokenStore StoreError Unit
  | .ofTokens generation firstId tokens => do
    set (← Work.ofOutcome (TokenStore.ofTokens generation firstId tokens).1)
  | .add tracked => putIn tracked
  | .remove tracked => takeOut tracked
  | .compact => measureAnew
  | .advance edit => modify (·.advance edit)

/-- The store that an operation leaves, whether it succeeds or fails. -/
def carryOut
    (store : TokenStore)
    (operation : Operation) : TokenStore :=
  (operation.work.outcome store).2

theorem atomic_putIn
    (tracked : TrackedToken) :
    (putIn tracked).Atomic := by
  refine Work.Atomic.get_bind fun store => ?_
  refine Work.Atomic.ofOutcome_bind fun version => ?_
  refine Work.Atomic.ofOutcome_bind fun span => ?_
  refine Work.Atomic.ofOutcome_bind fun index => ?_
  refine Work.Atomic.ofOutcome_bind fun _ => ?_
  refine Work.Atomic.ofOutcome_bind fun _ => ?_
  exact Work.atomic_modify _

theorem atomic_takeOut
    (tracked : TrackedToken) :
    (takeOut tracked).Atomic := by
  refine Work.Atomic.get_bind fun store => ?_
  refine Work.Atomic.ofOutcome_bind fun byPosition => ?_
  split
  · exact Work.atomic_fail _
  · exact Work.atomic_modify _

theorem atomic_measureAnew :
    measureAnew.Atomic := by
  refine Work.Atomic.get_bind fun store => ?_
  refine Work.Atomic.ofOutcome_bind fun version => ?_
  refine Work.Atomic.ofOutcome_bind fun tokens => ?_
  exact Work.atomic_of_ok fun _ => ⟨_, rfl⟩

/-- An operation that fails leaves the store as it was. -/
theorem Operation.atomic_work
    (operation : Operation) :
    operation.work.Atomic := by
  cases operation with
  | ofTokens generation firstId tokens =>
      exact Work.Atomic.ofOutcome_bind fun _ => Work.atomic_of_ok fun _ => ⟨_, rfl⟩
  | add tracked =>
      exact atomic_putIn tracked
  | remove tracked =>
      exact atomic_takeOut tracked
  | compact =>
      exact atomic_measureAnew
  | advance edit =>
      exact Work.atomic_modify _

theorem Operation.result_work
    (operation : Operation)
    (store : TokenStore) :
    operation.work.result store = store.result operation := by
  cases operation with
  | ofTokens generation firstId tokens =>
      rw [work, Work.result_ofOutcome_bind, TokenStore.result]
      cases (TokenStore.ofTokens generation firstId tokens).1 <;> rfl
  | add tracked | remove tracked | compact | advance edit =>
      rfl

/-- The store behind an operation, which is the same one if the operation fails. -/
theorem carryOut_eq
    (store : TokenStore)
    (operation : Operation) :
    store.carryOut operation =
      match store.result operation with
      | .ok store => store
      | .error _ => store := by
  rw [carryOut, operation.atomic_work.snd_outcome, operation.result_work]
  cases store.result operation <;> rfl

/-- All positions that the operation leads to are positions, and an edit cuts into no token of the
store.  Tokens may be added out of order, and tokens may be removed that are not there. -/
def Admits
    (store : TokenStore) : Operation → Prop
  | .ofTokens generation _ tokens =>
      generation < positionBound ∧ ∀ token ∈ tokens, token.span.Fits
  | .add tracked => ∀ span, store.place tracked = .ok span → span.Fits
  | .remove _ => True
  | .compact => True
  | .advance edit =>
      edit.newRegion? ≠ none ∧
      store.log.base + store.log.length + 1 < positionBound ∧
      ∀ tracked ∈ store.tokens, ∀ span,
        store.place tracked = .ok span → edit.LeavesAlive span

instance (store : TokenStore) (operation : Operation) : Decidable (store.Admits operation) :=
  match operation with
  | .ofTokens generation _ tokens =>
    inferInstanceAs (Decidable (generation < positionBound ∧ ∀ token ∈ tokens, token.span.Fits))
  | .add tracked =>
    inferInstanceAs (Decidable (∀ span, store.place tracked = .ok span → span.Fits))
  | .remove _ => isTrue trivial
  | .compact => isTrue trivial
  | .advance edit =>
    inferInstanceAs (Decidable (edit.newRegion? ≠ none ∧
      store.log.base + store.log.length + 1 < positionBound ∧
      ∀ tracked ∈ store.tokens, ∀ span,
        store.place tracked = .ok span → edit.LeavesAlive span))

/-- The stores that admitted operations lead to. -/
inductive Built : TokenStore → Prop
  | empty
      {generation : Nat}
      (hbound : generation < positionBound) :
      Built (TokenStore.empty generation)
  | operated
      {store : TokenStore}
      (operation : Operation)
      (hbuilt : Built store)
      (hadmits : store.Admits operation) :
      Built (store.carryOut operation)

/-- The tokens of the store fit, and they come in order. -/
def Arranged
    (store : TokenStore) : Prop :=
  ∃ version view, Arrangement store version view

namespace Arrangement

variable {version : Nat}
variable {view : List (TrackedToken × Span)}
variable {tracked : TrackedToken}

theorem arranged_add
    (h : Arrangement store version view)
    (hadmits : store.Admits (.add tracked))
    (hadd : store.add tracked = .ok store') :
    store'.Arranged := by
  obtain ⟨span, hlocate⟩ : ∃ span, store.locate tracked version = .ok span := by
    rw [add_eq_do] at hadd
    obtain ⟨_, hversion, hadd⟩ := Outcome.bind_eq_ok_iff.mp hadd
    obtain ⟨span, hlocate, -⟩ := Outcome.bind_eq_ok_iff.mp hadd
    obtain rfl := Except.ok.inj (hversion.symm.trans h.version_eq)
    exact ⟨span, hlocate⟩
  have hfits : span.Fits := hadmits span ((h.place_eq tracked).trans hlocate)
  obtain ⟨front, back, -, -, hadded⟩ := h.exists_of_add hlocate hfits hadd
  exact ⟨version, front ++ (tracked, span) :: back, hadded⟩

/-- Whatever token is removed, those that stay keep their order. -/
theorem arranged_remove
    (h : Arrangement store version view)
    (hremove : store.remove tracked = .ok store') :
    store'.Arranged := by
  rw [remove_eq_do] at hremove
  obtain ⟨_, -, hremove⟩ := Outcome.bind_eq_ok_iff.mp hremove
  split at hremove
  next =>
    cases hremove
  next index _ =>
    cases hremove
    have hkept := h.sublist (view.eraseIdx_sublist index)
    rw [withEntries, ← List.eraseIdx_map, h.tokens] at hkept
    exact ⟨version, view.eraseIdx index, hkept⟩

theorem arranged_compact
    (h : Arrangement store version view)
    (hcompact : store.compact = .ok store') :
    store'.Arranged := by
  rw [h.compact_eq] at hcompact
  cases hcompact
  exact ⟨version, view.map (remeasured version), h.compact⟩

theorem arranged_advance
    {edit : Edit}
    (h : Arrangement store version view)
    (hadmits : store.Admits (.advance edit)) :
    (store.advance edit).Arranged := by
  obtain ⟨hregion, hbound, halive⟩ := hadmits
  refine ⟨version + 1, view.map edit.carriedEntry,
    h.carried (h.head ▸ hbound) (Edit.plausible_of_newRegion? hregion) ?_⟩
  intro entry hentry
  have htracked : entry.1 ∈ store.tokens := by
    rw [← h.tokens]
    exact List.mem_map_of_mem hentry
  obtain ⟨⟨fate, next⟩, hcarry, hfate, hfits⟩ :=
    halive entry.1 htracked entry.2 ((h.place_eq entry.1).trans (h.located entry hentry))
  exact ⟨fate, next, hfate, hcarry, hfits⟩

end Arrangement

theorem arranged_ofTokens
    {generation firstId : Nat}
    {tokens : List Token}
    (hadmits : store.Admits (.ofTokens generation firstId tokens))
    (hmade : (ofTokens generation firstId tokens).1 = .ok store') :
    store'.Arranged := by
  obtain ⟨hbound, hfits⟩ := hadmits
  obtain ⟨hordered, rfl, -⟩ :=
    ofTokens_eq_ok_iff.mp (Prod.ext hmade (Eq.refl (ofTokens generation firstId tokens).2))
  exact ⟨generation, _, (layout_fresh hbound hordered hfits).toArrangement⟩

/-- An admitted operation makes an arrangement out of an arrangement. -/
theorem Arranged.carryOut
    (h : store.Arranged)
    (hadmits : store.Admits operation) :
    (store.carryOut operation).Arranged := by
  rw [carryOut_eq]
  split
  next store' hresult =>
    obtain ⟨version, view, harrangement⟩ := h
    cases operation with
    | ofTokens generation firstId tokens =>
        exact arranged_ofTokens hadmits hresult
    | add tracked =>
        exact harrangement.arranged_add hadmits hresult
    | remove tracked =>
        exact harrangement.arranged_remove hresult
    | compact =>
        exact harrangement.arranged_compact hresult
    | advance edit =>
        cases hresult
        exact harrangement.arranged_advance hadmits
  next =>
    exact h

theorem Built.arranged
    (h : store.Built) :
    store.Arranged := by
  induction h with
  | empty hbound =>
      exact ⟨_, [], (layout_empty hbound).toArrangement⟩
  | operated operation hbuilt hadmits ih =>
      exact ih.carryOut hadmits

/-- Whatever operations led to a store, it passes its check: each of its tokens can be located, and
ends at or in front of the start of all those behind it. -/
theorem check_of_built
    (h : store.Built) :
    store.check = .ok () ∧
    ∃ (version : Nat) (spans : List Span),
      (store.version : Outcome StoreError Nat) = .ok version ∧
      store.tokens.map (store.locate · version) = spans.map .ok ∧
      spans.Pairwise Span.Precedes := by
  obtain ⟨version, view, harrangement⟩ := h.arranged
  exact ⟨harrangement.check_eq, version, view.map Prod.snd, harrangement.version_eq,
    harrangement.map_locate, List.pairwise_map.mpr harrangement.ordered⟩

/-- The middle of five tokens goes, and with it its text, so that two empty tokens meet at one
place.  A token is put in behind them, and another one is refused there. -/
theorem check_of_collapsed :
    ∃ store : TokenStore,
      store.Built ∧
      store.check = .ok () ∧
      (store.version : Outcome StoreError Nat) = .ok 1 ∧
      store.tokens.map (store.locate · 1) =
        ([⟨0, 2⟩, ⟨2, 0⟩, ⟨2, 0⟩, ⟨2, 3⟩, ⟨5, 1⟩] : List Span).map .ok ∧
      store.result (.add ⟨6, ⟨2, ⟨4, 1⟩⟩, 1⟩) = Outcome.fail (.overlap ⟨2, 3⟩ ⟨4, 1⟩) := by
  have hbuilt : Built _ :=
    @Built.empty 0 (by decide +kernel)
    |>.operated (.ofTokens 0 0
          [⟨0, ⟨0, 2⟩⟩, ⟨1, ⟨2, 0⟩⟩, ⟨0, ⟨2, 2⟩⟩, ⟨1, ⟨4, 0⟩⟩, ⟨0, ⟨4, 3⟩⟩]) (by decide +kernel)
    |>.operated (.remove ⟨2, ⟨0, ⟨2, 2⟩⟩, 0⟩) trivial
    |>.operated (.advance ⟨⟨2, 2⟩, -2⟩) (by decide +kernel)
    |>.operated (.compact) trivial
    |>.operated (.add ⟨5, ⟨2, ⟨5, 1⟩⟩, 1⟩) (by decide +kernel)
    |>.operated (.add ⟨6, ⟨2, ⟨4, 1⟩⟩, 1⟩) (by decide +kernel)
  exact ⟨_, hbuilt, (check_of_built hbuilt).1, by decide +kernel, by decide +kernel,
    by decide +kernel⟩

end TokenStore

end LiveTokens
