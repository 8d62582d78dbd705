import LiveTokens.Proofs.Appearance
import LiveTokens.Proofs.EditHistory
import LiveTokens.Proofs.Operations
import LiveTokens.Proofs.Removal

/-!
# Compaction cannot be observed

A store that measures its tokens anew forgets the edits that led to its generation.  From
that generation on, it cannot be told apart from a copy of it that has not done so:
whatever is done to both of them and asked of both of them, the answers are the same, and
so are the failures.

Only the removal of a token that was measured earlier can tell the two apart.  The copy
looks for such a token by its position first.  The compacted store cannot locate it any
more and goes by its identity.  Both find the same token if no two tokens have that
identity and no position overflows on the way.

Two stores are *reanchored* if one is the other with its tokens measured anew in some
generation, apart from those that were measured since then.  In that generation and in
all later ones, their tokens appear the same.  Whatever is done to both keeps them
reanchored or makes them the same store.

**Results.**  `unobservable_compact`.
-/

namespace LiveTokens

namespace EditLog

variable {log : EditLog}
variable {origin middle target : Nat}
variable {span reached : Span}
variable {fate : Fate}
variable {edit : Edit}

/-- The edits to a generation are those to a generation on the way and those behind it. -/
theorem window_eq_append
    (hbase : log.base ≤ origin)
    (hmiddle : origin ≤ middle)
    (htarget : middle ≤ target) :
    log.window origin target = log.window middle target >>= fun later =>
      .ok (log.stretch origin middle ++ later) := by
  unfold window
  rw [if_neg (by omega), if_neg (by omega), if_neg (by omega), if_neg (by omega)]
  simp only [bind_assoc]
  refine congrArg _ (funext fun head => ?_)
  split
  · rfl
  · exact congrArg Except.ok (log.stretch_append hbase hmiddle htarget)

/-- A span that gets to a generation alive is carried on from there. -/
theorem carry_eq_of_stretch
    (hbase : log.base ≤ origin)
    (hmiddle : origin ≤ middle)
    (htarget : middle ≤ target)
    (hcarry : (carryAll .unmoved span (log.stretch origin middle) : Outcome LogError _) =
      .ok (fate, reached))
    (halive : fate ≠ .invalidated) :
    log.carry span origin target = log.carry reached middle target >>= fun (second, final) =>
      .ok (fate.andThen second, final) := by
  rw [carry, window_eq_append hbase hmiddle htarget, carry]
  simp only [bind_assoc, Outcome.ok_bind]
  refine congrArg _ (funext fun later => ?_)
  rw [carryAll_append_eq (by simp), hcarry, Outcome.ok_bind]
  dsimp only
  rw [if_neg halive, carryAll_eq_andThen halive]

/-- Edits that are added do not lead to an earlier generation. -/
theorem stretch_push
    (hbase : log.base ≤ origin)
    (horigin : origin ≤ target)
    (htarget : target ≤ log.base + log.length) :
    (log.push edit).stretch origin target = log.stretch origin target := by
  unfold length at htarget
  unfold stretch push
  dsimp only
  rw [List.drop_append_of_le_length (by omega),
    List.take_append_of_le_length (by rw [List.length_drop]; omega)]

end EditLog

/-- The second token is the first, measured in a generation, or it is the first itself and was
measured since then. -/
inductive Reanchors
    (log : EditLog)
    (version : Nat) : TrackedToken → TrackedToken → Prop
  | recent
      {tracked : TrackedToken}
      (horigin : version ≤ tracked.origin) :
      Reanchors log version tracked tracked
  | rebased
      {tracked : TrackedToken}
      {fate : Fate}
      {span : Span}
      (hbase : log.base ≤ tracked.origin)
      (horigin : tracked.origin ≤ version)
      (hcarry : (EditLog.carryAll .unmoved tracked.token.span
        (log.stretch tracked.origin version) : Outcome LogError _) = .ok (fate, span))
      (halive : fate ≠ .invalidated) :
      Reanchors log version tracked (tracked.rebased span version)

namespace Reanchors

variable {log log' : EditLog}
variable {version generation : Nat}
variable {tracked tracked' : TrackedToken}

theorem id_eq
    (h : Reanchors log version tracked tracked') :
    tracked.id = tracked'.id := by
  cases h <;> rfl

theorem kind_eq
    (h : Reanchors log version tracked tracked') :
    tracked.token.kind = tracked'.token.kind := by
  cases h <;> rfl

theorem push
    (h : Reanchors log version tracked tracked')
    (hversion : version ≤ log.base + log.length)
    (edit : Edit) :
    Reanchors (log.push edit) version tracked tracked' := by
  cases h with
  | recent horigin =>
      exact .recent horigin
  | rebased hbase horigin hcarry halive =>
      refine .rebased hbase horigin ?_ halive
      rw [EditLog.stretch_push hbase horigin hversion]
      exact hcarry

/-- A token that can be located in a generation can be measured there. -/
theorem of_locate
    {span : Span}
    (hlocate : tracked.locate log version = .ok span) :
    Reanchors log version tracked (tracked.rebased span version) := by
  obtain ⟨hbase, horigin⟩ := TrackedToken.window_of_locate hlocate
  unfold TrackedToken.locate EditLog.carry EditLog.window at hlocate
  rw [if_neg (by omega), if_neg (by omega), if_neg (by omega)] at hlocate
  obtain ⟨⟨fate, final⟩, hcarry, hfinal⟩ := Outcome.bind_eq_ok_iff.mp hlocate
  rw [Outcome.wrap_eq_ok_iff] at hcarry
  obtain ⟨edits, hwindow, hcarry⟩ := Outcome.bind_eq_ok_iff.mp hcarry
  obtain ⟨head, -, hwindow⟩ := Outcome.bind_eq_ok_iff.mp hwindow
  split at hwindow
  next =>
    cases hwindow
  next =>
    cases hwindow
    cases fate with
    | invalidated =>
        cases hfinal
    | unmoved | moved =>
        cases hfinal
        exact .rebased hbase horigin hcarry (by simp)

/-- From the generation on, both lie at the same place, or have none for the same reason. -/
theorem locate_eq
    (h : Reanchors log version tracked tracked')
    (hwindows : log'.Windows log.base log.edits)
    (hbase' : log'.base ≤ version)
    (hgeneration : version ≤ generation) :
    tracked.locate log generation = tracked'.locate log' generation := by
  unfold TrackedToken.locate
  cases h with
  | recent horigin =>
      rw [hwindows.carry_eq (Nat.le_trans hbase' horigin)]
  | @rebased fate span hbase horigin hcarry halive =>
      have hlater : log'.carry (tracked.rebased span version).token.span
          (tracked.rebased span version).origin generation = log.carry span version generation :=
        hwindows.carry_eq hbase'
      have hnever : ¬ generation < (tracked.rebased span version).origin :=
        Nat.not_lt.mpr hgeneration
      rw [if_neg (by omega), if_neg hnever, hlater,
        EditLog.carry_eq_of_stretch hbase horigin hgeneration hcarry halive]
      rcases log.carry span version generation with (_ | error) | ⟨second, final⟩
      · rfl
      · rfl
      · cases fate with
        | invalidated =>
            exact absurd rfl halive
        | unmoved | moved =>
            cases second <;> rfl

end Reanchors

namespace TokenStore

variable {store compacted : TokenStore}
variable {version generation : Nat}
variable {tracked : TrackedToken}
variable {pairs : List (TrackedToken × TrackedToken)}

/-- One store is the other with its tokens measured in a generation, except for those that have been
measured since then, and without the edits that led to that generation. -/
structure Reanchored
    (version : Nat)
    (store compacted : TokenStore)
    (pairs : List (TrackedToken × TrackedToken)) : Prop where
  base : compacted.log.base = version
  windows : compacted.log.Windows store.log.base store.log.edits
  tokens : pairs.map Prod.fst = store.tokens
  rebased : pairs.map Prod.snd = compacted.tokens
  reanchors : ∀ pair ∈ pairs, Reanchors store.log version pair.1 pair.2

namespace Reanchored

variable (h : Reanchored version store compacted pairs)

include h

theorem version_le :
    version ≤ store.log.base + store.log.length := by
  have hle := h.windows.base_le
  rwa [h.base] at hle

theorem version_eq :
    (store.version : Outcome StoreError Nat) = compacted.version :=
  h.windows.head_eq_all.symm

theorem locate_eq
    {pair : TrackedToken × TrackedToken}
    (hpair : pair ∈ pairs)
    (hgeneration : version ≤ generation) :
    store.locate pair.1 generation = compacted.locate pair.2 generation := by
  have hreanchors := h.reanchors pair hpair
  rw [locate, locate, hreanchors.id_eq,
    hreanchors.locate_eq h.windows (Nat.le_of_eq h.base) hgeneration]

/-- From the generation on, the tokens of both stores appear the same. -/
theorem appearances_eq
    (hgeneration : version ≤ generation) :
    store.appearances generation = compacted.appearances generation := by
  rw [appearances, appearances, ← h.tokens, ← h.rebased, List.map_map, List.map_map]
  refine List.map_congr_left fun pair hpair => ?_
  have hreanchors := h.reanchors pair hpair
  rw [Function.comp_apply, Function.comp_apply, appearance, appearance, hreanchors.id_eq,
    hreanchors.kind_eq, h.locate_eq hpair hgeneration]

theorem version_le_of_version_eq
    (hversion : (store.version : Outcome StoreError Nat) = .ok generation) :
    version ≤ generation := by
  obtain ⟨rfl, -⟩ := EditLog.head_eq_ok_iff.mp hversion
  exact h.version_le

theorem appearsAs :
    store.AppearsAs compacted :=
  ⟨h.version_eq, fun _ hversion => h.appearances_eq (h.version_le_of_version_eq hversion)⟩

/-- A token that was measured since the generation lies at the same place in both stores. -/
theorem locate_eq_of_recent
    (horigin : version ≤ tracked.origin)
    (hversion : (store.version : Outcome StoreError Nat) = .ok generation) :
    store.locate tracked generation = compacted.locate tracked generation := by
  have hself : Reanchors store.log version tracked tracked := .recent horigin
  rw [locate, locate, hself.locate_eq h.windows (Nat.le_of_eq h.base)
    (h.version_le_of_version_eq hversion)]

theorem advance
    (edit : Edit) :
    Reanchored version (store.advance edit) (compacted.advance edit) pairs where
  base := h.base
  windows := h.windows.push edit
  tokens := h.tokens
  rebased := h.rebased
  reanchors pair hpair := (h.reanchors pair hpair).push h.version_le edit

theorem insertIdx
    (horigin : version ≤ tracked.origin)
    (index : Nat) :
    Reanchored version { store with tokens := store.tokens.insertIdx index tracked }
      { compacted with tokens := compacted.tokens.insertIdx index tracked }
      (pairs.insertIdx index (tracked, tracked)) where
  base := h.base
  windows := h.windows
  tokens := by rw [List.map_insertIdx, h.tokens]
  rebased := by rw [List.map_insertIdx, h.rebased]
  reanchors pair hpair := by
    rcases List.eq_or_mem_of_mem_insertIdx hpair with rfl | hmem
    · exact .recent horigin
    · exact h.reanchors pair hmem

theorem eraseIdx
    (index : Nat) :
    Reanchored version { store with tokens := store.tokens.eraseIdx index }
      { compacted with tokens := compacted.tokens.eraseIdx index } (pairs.eraseIdx index) where
  base := h.base
  windows := h.windows
  tokens := by rw [← List.eraseIdx_map, h.tokens]
  rebased := by rw [← List.eraseIdx_map, h.rebased]
  reanchors pair hpair := h.reanchors pair (List.mem_of_mem_eraseIdx hpair)

end Reanchored

/-- The stores are the same, or one is the other with its tokens measured anew. -/
def Follows
    (version : Nat)
    (store compacted : TokenStore) : Prop :=
  store = compacted ∨ ∃ pairs, Reanchored version store compacted pairs

/-- What is done to a store, or asked of it. -/
inductive Step where
  | operate (operation : Operation)
  | overlapping (version : Nat) (region : Span)
  | inRange (version : Nat) (region : Span)
  | following (version position : Nat)
  | toList
deriving DecidableEq, Repr

/-- What a store has to say about a step. -/
inductive Answer where
  /-- The operation has succeeded, and the store describes this generation now. -/
  | describes (generation : Nat)
  | found (faces : List (Nat × Token))
  | tokens (tokens : List Token)
  /-- The tokens of a walk, and the failure that ended it. -/
  | walked (faces : List (Nat × Token)) (failure : Option (Failure StoreError))
deriving DecidableEq, Repr

/-- The answer to a step.  Of a token it tells the identity, the kind and the span. -/
def answer
    (store : TokenStore) : Step → Outcome StoreError Answer
  | .operate operation => do return .describes (← (← store.result operation).version)
  | .overlapping version region => do
    return .found ((← store.overlapping version region).map face)
  | .inRange version region => do return .tokens (← store.inRange version region)
  | .following version position => do
    let walk ← store.following version position
    return .walked (walk.located.map face) walk.failure
  | .toList => do return .tokens (← store.toList)

/-- The store behind a step.  Questions leave it as it is. -/
def behind
    (store : TokenStore) : Step → TokenStore
  | .operate operation => store.carryOut operation
  | _ => store

/-- The answers to steps that are taken one after the other. -/
def transcript
    (store : TokenStore) : List Step → List (Outcome StoreError Answer)
  | [] => []
  | step :: steps => store.answer step :: (store.behind step).transcript steps

/-- The step looks back to no generation before `version`.  A token that is added is measured in the
generation at hand, or at any rate since then.  One that is removed is measured since then, or it is
the only one with its identity and no position overflows where the tokens are located. -/
def Recent
    (version : Nat)
    (store : TokenStore) : Step → Prop
  | .operate (.add tracked) =>
      (store.version : Outcome StoreError Nat) = .ok tracked.origin ∨ version ≤ tracked.origin
  | .operate (.remove tracked) =>
      version ≤ tracked.origin ∨
      store.ids.count tracked.id ≤ 1 ∧
      ∀ other ∈ tracked :: store.tokens, (store.place other).Returns
  | .operate _ => True
  | .overlapping generation _ => version ≤ generation
  | .inRange generation _ => version ≤ generation
  | .following generation _ => version ≤ generation
  | .toList => True

instance (version : Nat) (store : TokenStore) (step : Step) :
    Decidable (Recent version store step) :=
  match step with
  | .operate (.add _) => inferInstanceAs (Decidable (_ ∨ _))
  | .operate (.remove _) => inferInstanceAs (Decidable (_ ∨ _ ∧ _))
  | .operate (.ofTokens _ _ _) => isTrue trivial
  | .operate .compact => isTrue trivial
  | .operate (.advance _) => isTrue trivial
  | .overlapping generation _ => inferInstanceAs (Decidable (version ≤ generation))
  | .inRange generation _ => inferInstanceAs (Decidable (version ≤ generation))
  | .following generation _ => inferInstanceAs (Decidable (version ≤ generation))
  | .toList => isTrue trivial

/-- None of the steps looks back to a generation before `version`. -/
def AllRecent
    (version : Nat)
    (store : TokenStore) : List Step → Prop
  | [] => True
  | step :: steps => Recent version store step ∧ AllRecent version (store.behind step) steps

instance decidableAllRecent (version : Nat) :
    (store : TokenStore) → (steps : List Step) → Decidable (AllRecent version store steps)
  | _, [] => isTrue trivial
  | store, step :: steps =>
    have : Decidable (AllRecent version (store.behind step) steps) :=
      decidableAllRecent version (store.behind step) steps
    inferInstanceAs (Decidable (_ ∧ _))

namespace Reanchored

variable (h : Reanchored version store compacted pairs)

include h

theorem follows :
    Follows version store compacted :=
  .inr ⟨pairs, h⟩

/-- If every token of the one store has an answer where it is located, so has every token of the
other. -/
theorem returns_place
    (hreturns : ∀ other ∈ store.tokens, (store.place other).Returns) :
    ∀ other ∈ compacted.tokens, (compacted.place other).Returns := by
  intro other hother
  rw [← h.rebased] at hother
  obtain ⟨pair, hpair, rfl⟩ := List.mem_map.mp hother
  have hmem : pair.1 ∈ store.tokens := by
    rw [← h.tokens]
    exact List.mem_map_of_mem hpair
  have hplace : store.place pair.1 = compacted.place pair.2 :=
    h.appearsAs.bind_eq fun _ hversion _ => h.locate_eq hpair (h.version_le_of_version_eq hversion)
  rw [← hplace]
  exact hreturns pair.1 hmem

/-- A token that was measured before the generation has been forgotten. -/
theorem returns_place_of_forgotten
    (horigin : tracked.origin < version)
    (hreturns : (store.place tracked).Returns) :
    (compacted.place tracked).Returns := by
  unfold place at hreturns ⊢
  rw [← h.version_eq]
  rcases hversion : (store.version : Outcome StoreError Nat) with (_ | error) | generation
  · rw [hversion] at hreturns
    exact absurd rfl hreturns
  · exact Outcome.returns_cause error
  · have hgeneration := h.version_le_of_version_eq hversion
    have hbase := h.base
    rw [Outcome.ok_bind, locate, Outcome.returns_wrap_iff, TrackedToken.locate, EditLog.carry,
      EditLog.window, if_neg (by omega), if_neg (by omega), if_pos (by omega)]
    exact Outcome.returns_fail _

/-- A token that is measured since the generation is added to both, or refused for the same
reason. -/
theorem agree_add
    (horigin : version ≤ tracked.origin) :
    Outcome.Agree (Follows version) (store.add tracked) (compacted.add tracked) := by
  have hindex : store.indexForAdding tracked = compacted.indexForAdding tracked :=
    h.appearsAs.indexForAdding_eq fun _ => h.locate_eq_of_recent horigin
  rw [add_eq_bind, add_eq_bind, hindex]
  refine (Outcome.agree_of_eq rfl).bind fun index index' hsame => ?_
  subst hsame
  exact (h.insertIdx horigin index).follows

/-- The same index is found for a token that is measured since the generation, or for one whose
identity no two tokens have. -/
theorem indexForRemoving?_eq
    (hrecent : Recent version store (.operate (.remove tracked))) :
    store.indexForRemoving? tracked = compacted.indexForRemoving? tracked := by
  have hsame := h.appearances_eq (Nat.le_refl version)
  have hbyId := indexById?_eq_of_appearances hsame tracked.id
  unfold indexForRemoving?
  rcases Nat.lt_or_ge tracked.origin version with hforgotten | horigin
  · obtain ⟨hone, hreturns⟩ := hrecent.resolve_left (Nat.not_le_of_lt hforgotten)
    obtain ⟨hthis, hothers⟩ := List.forall_mem_cons.mp hreturns
    have hreturns' : ∀ other ∈ tracked :: compacted.tokens, (compacted.place other).Returns :=
      List.forall_mem_cons.mpr
        ⟨h.returns_place_of_forgotten hforgotten hthis, h.returns_place hothers⟩
    obtain ⟨found, hfound⟩ := exists_indexByPosition?_of_returns hreturns
    obtain ⟨found', hfound'⟩ := exists_indexByPosition?_of_returns hreturns'
    have hone' : compacted.ids.count tracked.id ≤ 1 := by
      rwa [← ids_eq_of_appearances hsame]
    rw [hfound, hfound', Outcome.ok_bind, Outcome.ok_bind, orElse_indexById?_eq hfound hone,
      orElse_indexById?_eq hfound' hone', hbyId]
  · have hbyPosition : store.indexByPosition? tracked = compacted.indexByPosition? tracked :=
      h.appearsAs.indexByPosition?_eq fun _ => h.locate_eq_of_recent horigin
    rw [hbyPosition, hbyId]

theorem agree_remove
    (hrecent : Recent version store (.operate (.remove tracked))) :
    Outcome.Agree (Follows version) (store.remove tracked) (compacted.remove tracked) := by
  rw [remove_eq_bind, remove_eq_bind, h.indexForRemoving?_eq hrecent]
  refine (Outcome.agree_of_eq rfl).bind fun found found' hsame => ?_
  subst hsame
  cases found with
  | none =>
      rfl
  | some index =>
      exact (h.eraseIdx index).follows

/-- An operation does the same to both, or fails for the same reason. -/
theorem agree_result
    {operation : Operation}
    (hrecent : Recent version store (.operate operation)) :
    Outcome.Agree (Follows version) (store.result operation) (compacted.result operation) := by
  cases operation with
  | ofTokens generation firstId tokens =>
      exact (Outcome.agree_of_eq rfl).imp fun _ _ _ _ => .inl
  | add tracked =>
      exact h.agree_add (hrecent.elim h.version_le_of_version_eq id)
  | remove tracked =>
      exact h.agree_remove hrecent
  | compact =>
      exact (Outcome.agree_of_eq h.appearsAs.compact_eq).imp fun _ _ _ _ => .inl
  | advance edit =>
      exact (h.advance edit).follows

end Reanchored

theorem Follows.version_eq
    (h : Follows version store compacted) :
    (store.version : Outcome StoreError Nat) = compacted.version := by
  obtain rfl | ⟨pairs, hpairs⟩ := h
  · rfl
  · exact hpairs.version_eq

/-- The answer to a recent step is the same. -/
theorem Reanchored.answer_eq
    {step : Step}
    (h : Reanchored version store compacted pairs)
    (hrecent : Recent version store step) :
    store.answer step = compacted.answer step := by
  cases step with
  | operate operation =>
      refine ((h.agree_result hrecent).bind fun store' compacted' hfollows => ?_).eq
      rw [hfollows.version_eq]
      exact Outcome.agree_of_eq rfl
  | overlapping generation region =>
      refine ((agree_overlapping_of_appearances (h.appearances_eq hrecent) region).bind
        fun found found' hfaces => ?_).eq
      rw [hfaces]
      exact Outcome.agree_of_eq rfl
  | inRange generation region =>
      exact congrArg (· >>= _) (inRange_eq_of_appearances (h.appearances_eq hrecent) region)
  | following generation position =>
      refine ((agree_following (h.appearances_eq hrecent) position).bind
        fun walk walk' ⟨hfaces, hfailure⟩ => ?_).eq
      rw [hfaces, hfailure]
      exact Outcome.agree_of_eq rfl
  | toList =>
      exact congrArg (· >>= _) h.appearsAs.toList_eq

/-- One step gives the same answer, and leads to stores of which one follows the other again. -/
theorem Follows.step
    {step : Step}
    (h : Follows version store compacted)
    (hrecent : Recent version store step) :
    store.answer step = compacted.answer step ∧
    Follows version (store.behind step) (compacted.behind step) := by
  obtain rfl | ⟨pairs, hpairs⟩ := h
  · exact ⟨rfl, .inl rfl⟩
  refine ⟨hpairs.answer_eq hrecent, ?_⟩
  cases step with
  | operate operation =>
      have hagree := hpairs.agree_result hrecent
      dsimp only [behind]
      rw [carryOut_eq, carryOut_eq]
      rcases hresult : store.result operation with failure | store' <;>
        rcases hresult' : compacted.result operation with failure' | compacted' <;>
          rw [hresult, hresult'] at hagree
      · exact hpairs.follows
      · exact hagree.elim
      · exact hagree.elim
      · exact hagree
  | overlapping | inRange | following | toList =>
      exact hpairs.follows

/-- Whatever steps are taken, all answers are the same. -/
theorem Follows.transcript_eq
    {steps : List Step}
    (h : Follows version store compacted)
    (hrecent : AllRecent version store steps) :
    store.transcript steps = compacted.transcript steps := by
  induction steps generalizing store compacted with
  | nil =>
      rfl
  | cons step steps ih =>
      obtain ⟨hfirst, hrest⟩ := hrecent
      obtain ⟨hanswer, hbehind⟩ := h.step hfirst
      rw [transcript, transcript, hanswer, ih hbehind hrest]

/-- Tokens that can all be located have entries. -/
theorem exists_entries
    {tokens : List TrackedToken}
    (h : ∀ tracked ∈ tokens, ∃ span, store.locate tracked version = .ok span) :
    ∃ view : List (TrackedToken × Span),
      view.map Prod.fst = tokens ∧
      ∀ entry ∈ view, store.locate entry.1 version = .ok entry.2 := by
  induction tokens with
  | nil =>
      exact ⟨[], rfl, by simp⟩
  | cons tracked rest ih =>
      obtain ⟨⟨span, hlocate⟩, hrest⟩ := List.forall_mem_cons.mp h
      obtain ⟨view, rfl, hview⟩ := ih hrest
      exact ⟨(tracked, span) :: view, rfl, List.forall_mem_cons.mpr ⟨hlocate, hview⟩⟩

/-- Where all tokens are measured anew, the pairs are the tokens before and after that. -/
theorem reanchored_compact
    {view : List (TrackedToken × Span)}
    (hversion : (store.version : Outcome StoreError Nat) = .ok version)
    (htokens : view.map Prod.fst = store.tokens)
    (hlocated : ∀ entry ∈ view, store.locate entry.1 version = .ok entry.2) :
    Reanchored version store
      ⟨(view.map (remeasured version)).map Prod.fst, EditLog.startingAt version⟩
      (view.map fun entry => (entry.1, (remeasured version entry).1)) where
  base := rfl
  windows := by
    obtain ⟨hhead, -⟩ := EditLog.head_eq_ok_iff.mp hversion
    refine ⟨hhead ▸ Nat.le_add_right _ _, Nat.le_of_eq hhead.symm, ?_⟩
    refine (List.drop_eq_nil_of_le ?_).symm
    dsimp only [EditLog.startingAt]
    unfold EditLog.length at hhead
    omega
  tokens := by rw [← htokens, List.map_map]; rfl
  rebased := by rw [List.map_map, List.map_map]; rfl
  reanchors pair hpair := by
    obtain ⟨entry, hentry, rfl⟩ := List.mem_map.mp hpair
    exact .of_locate (Outcome.wrap_eq_ok_iff.mp (hlocated entry hentry))

/-- If a token has no place, the reason of the first such token is given. -/
theorem exists_compact_error
    (hversion : (store.version : Outcome StoreError Nat) = .ok version)
    (htracked : tracked ∈ store.tokens)
    (hnone : ¬ ∃ span, store.locate tracked version = .ok span) :
    ∃ front first back failure,
      store.tokens = front ++ first :: back ∧
      (∀ other ∈ front, ∃ span, store.locate other version = .ok span) ∧
      store.locate first version = .error failure ∧
      store.compact = .error failure := by
  obtain ⟨front, first, back, failure, htokens, hfront, hfirst⟩ :=
    Outcome.exists_first_error (f := (store.locate · version)) htracked hnone
  have hrebased : (front ++ first :: back).mapM (fun tracked => do
      return tracked.rebased (← store.locate tracked version) version) = .error failure := by
    refine Outcome.mapM_eq_error_of_split ?_ ?_
    · intro other hother
      obtain ⟨span, hlocate⟩ := hfront other hother
      exact ⟨other.rebased span version, by rw [hlocate]; rfl⟩
    · rw [hfirst]
      rfl
  refine ⟨front, first, back, failure, htokens, hfront, hfirst, ?_⟩
  rw [compact_eq_do, hversion, Outcome.ok_bind, htokens, hrebased]
  rfl

/-- A store that measures its tokens anew gives the same answers from then on as one that has not
done so, as long as the steps do not look back to earlier generations.  If a token has no place, the
store stays as it is, and gives the reason of the first such token. -/
theorem unobservable_compact
    (hversion : (store.version : Outcome StoreError Nat) = .ok version) :
    ((∀ tracked ∈ store.tokens, ∃ span, store.locate tracked version = .ok span) →
      ∃ compacted,
        store.compact = .ok compacted ∧
        (compacted.version : Outcome StoreError Nat) = .ok version ∧
        compacted.log.edits = [] ∧
        compacted.appearances version = store.appearances version ∧
        ∀ steps,
          AllRecent version store steps →
          compacted.transcript steps = store.transcript steps) ∧
    ((∃ tracked ∈ store.tokens, ¬ ∃ span, store.locate tracked version = .ok span) →
      ∃ front first back failure,
        store.tokens = front ++ first :: back ∧
        (∀ other ∈ front, ∃ span, store.locate other version = .ok span) ∧
        store.locate first version = .error failure ∧
        store.compact = .error failure ∧
        store.carryOut .compact = store) := by
  constructor
  · intro hlocated
    obtain ⟨view, htokens, hview⟩ := exists_entries hlocated
    have hreanchored := reanchored_compact hversion htokens hview
    exact ⟨_, compact_eq_of_located hversion htokens hview, hreanchored.version_eq ▸ hversion, rfl,
      (hreanchored.appearances_eq (Nat.le_refl version)).symm,
      fun steps hrecent => (hreanchored.follows.transcript_eq hrecent).symm⟩
  · rintro ⟨tracked, htracked, hnone⟩
    obtain ⟨front, first, back, failure, htokens, hfront, hfirst, hcompact⟩ :=
      exists_compact_error hversion htracked hnone
    exact ⟨front, first, back, failure, htokens, hfront, hfirst, hcompact,
      by rw [carryOut_eq, result, hcompact]⟩

/-- An edit has moved the second of two tokens.  A token is added, and the next edit cuts into the
second one, which is then removed by a copy that the compacted store cannot locate any more.  A
store with such a cut is not compacted. -/
theorem unobservable_compact_of_cut :
    ∃ (store compacted cut : TokenStore) (steps : List Step),
      (store.version : Outcome StoreError Nat) = .ok 1 ∧
      (∀ tracked ∈ store.tokens, ∃ span, store.locate tracked 1 = .ok span) ∧
      AllRecent 1 store steps ∧
      store.compact = .ok compacted ∧
      compacted ≠ store ∧
      compacted.transcript steps = store.transcript steps ∧
      store.transcript steps =
        [.ok (.describes 1), .ok (.describes 2),
          Outcome.fail (.tracking 2 .invalidated),
          .ok (.found [(1, ⟨0, ⟨0, 2⟩⟩), (3, ⟨0, ⟨4, 1⟩⟩), (2, ⟨1, ⟨7, 3⟩⟩)]),
          .ok (.describes 2), .ok (.tokens [⟨0, ⟨0, 2⟩⟩, ⟨0, ⟨4, 1⟩⟩])] ∧
      (cut.version : Outcome StoreError Nat) = .ok 1 ∧
      (∃ tracked ∈ cut.tokens, ¬ ∃ span, cut.locate tracked 1 = .ok span) ∧
      cut.compact = Outcome.fail (.tracking 1 .invalidated) ∧
      cut.carryOut .compact = cut := by
  let store : TokenStore :=
    ⟨[⟨1, ⟨0, ⟨0, 2⟩⟩, 0⟩, ⟨2, ⟨1, ⟨5, 3⟩⟩, 0⟩], ⟨0, [⟨⟨3, 1⟩, 2⟩]⟩⟩
  let steps : List Step :=
    [.operate (.add ⟨3, ⟨0, ⟨4, 1⟩⟩, 1⟩), .operate (.advance ⟨⟨8, 1⟩, 0⟩), .overlapping 2 ⟨0, 20⟩,
      .overlapping 1 ⟨0, 20⟩, .operate (.remove ⟨2, ⟨1, ⟨5, 3⟩⟩, 0⟩), .toList]
  let cut : TokenStore := ⟨[⟨1, ⟨0, ⟨0, 2⟩⟩, 0⟩], ⟨0, [⟨⟨1, 1⟩, 0⟩]⟩⟩
  have hversion : (store.version : Outcome StoreError Nat) = .ok 1 := by decide +kernel
  have hlocated : ∀ tracked ∈ store.tokens, ∃ span, store.locate tracked 1 = .ok span :=
    List.forall_mem_cons.mpr ⟨⟨⟨0, 2⟩, by decide +kernel⟩,
      List.forall_mem_cons.mpr ⟨⟨⟨7, 3⟩, by decide +kernel⟩, by simp⟩⟩
  have hrecent : AllRecent 1 store steps := by decide +kernel
  have hversion' : (cut.version : Outcome StoreError Nat) = .ok 1 := by decide +kernel
  have hcut : ∃ tracked ∈ cut.tokens, ¬ ∃ span, cut.locate tracked 1 = .ok span := by
    have hnone : cut.locate ⟨1, ⟨0, ⟨0, 2⟩⟩, 0⟩ 1 = Outcome.fail (.tracking 1 .invalidated) := by
      decide +kernel
    refine ⟨⟨1, ⟨0, ⟨0, 2⟩⟩, 0⟩, List.mem_cons_self, ?_⟩
    rintro ⟨span, hlocate⟩
    rw [hnone] at hlocate
    cases hlocate
  obtain ⟨compacted, hcompact, -, hedits, -, hsame⟩ := (unobservable_compact hversion).1 hlocated
  obtain ⟨-, -, -, -, -, -, -, -, hkept⟩ := (unobservable_compact hversion').2 hcut
  refine ⟨store, compacted, cut, steps, hversion, hlocated, hrecent, hcompact, ?_,
    hsame steps hrecent, by decide +kernel, hversion', hcut, by decide +kernel, hkept⟩
  rintro rfl
  exact List.cons_ne_nil _ _ hedits

/-- Two tokens that have one identity lie at different places.  The token that was measured in an
earlier generation is removed where it lies, but from the compacted store the first one with the
identity.  A token that overflows where it is looked for is not found by the compacted store, which
does not look there. -/
theorem observable_remove_of_outdated :
    (∃ (store compacted : TokenStore) (tracked : TrackedToken),
      (store.version : Outcome StoreError Nat) = .ok 2 ∧
      (∀ other ∈ store.tokens, store.locate other 2 = .ok other.token.span) ∧
      store.check = .ok () ∧
      store.compact = .ok compacted ∧
      store.transcript [.operate (.remove tracked), .toList] =
        [.ok (.describes 2), .ok (.tokens [⟨0, ⟨5, 1⟩⟩])] ∧
      compacted.transcript [.operate (.remove tracked), .toList] =
        [.ok (.describes 2), .ok (.tokens [⟨0, ⟨15, 1⟩⟩])]) ∧
    ∃ (store compacted : TokenStore) (tracked : TrackedToken),
      (store.version : Outcome StoreError Nat) = .ok 1 ∧
      store.tokens = [] ∧
      store.compact = .ok compacted ∧
      store.transcript [.operate (.remove tracked)] = [Outcome.overflow] ∧
      compacted.transcript [.operate (.remove tracked)] =
        [Outcome.fail (.notFound 1)] := by
  constructor
  · exact ⟨⟨[⟨1, ⟨0, ⟨5, 1⟩⟩, 0⟩, ⟨1, ⟨0, ⟨15, 1⟩⟩, 1⟩], ⟨0, [⟨⟨100, 0⟩, 0⟩, ⟨⟨100, 0⟩, 0⟩]⟩⟩,
      ⟨[⟨1, ⟨0, ⟨5, 1⟩⟩, 2⟩, ⟨1, ⟨0, ⟨15, 1⟩⟩, 2⟩], EditLog.startingAt 2⟩,
      ⟨1, ⟨0, ⟨15, 1⟩⟩, 1⟩, by decide +kernel, by decide +kernel, by decide +kernel,
      by decide +kernel, by decide +kernel, by decide +kernel⟩
  · exact ⟨⟨[], ⟨0, [⟨⟨0, 0⟩, 0⟩]⟩⟩, ⟨[], EditLog.startingAt 1⟩,
      ⟨1, ⟨0, ⟨2 ^ 64 - 1, 5⟩⟩, 0⟩, by decide +kernel, rfl, by decide +kernel, by decide +kernel,
      by decide +kernel⟩

end TokenStore

end LiveTokens
