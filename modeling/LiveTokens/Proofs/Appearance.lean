import Mathlib.Data.List.InsertIdx
import LiveTokens.Proofs.Agreement
import LiveTokens.Proofs.LayoutChanges

/-!
# What a store shows of its tokens

The appearance of a token in a generation is its identity, its kind, and where it lies
there, or why it has no place there.  If the tokens of two stores appear the same, every
search goes the same way in both: a bisection asks for the same places, and a walk stops
at the same token.  Its answer shows no more than what appears, so that it is the same as
well, and if there is none, it is missing for the same reason.

Nothing is assumed about the order of the tokens, and some of them may have no place.
Adding and removing lead to an index by such searches, whatever else is different about
the stores.
-/

namespace LiveTokens

namespace TokenStore

/-- What can be told of a token in a generation. -/
structure Appearance where
  id : Nat
  kind : Nat
  /-- Where the token lies, or why it has no place. -/
  place : Outcome StoreError Span
deriving DecidableEq

variable {store store' : TokenStore}
variable {version : Nat}
variable {tracked tracked' : TrackedToken}
variable {tokens tokens' : List TrackedToken}

/-- How a token appears in a generation. -/
def appearance
    (store : TokenStore)
    (version : Nat)
    (tracked : TrackedToken) : Appearance :=
  ⟨tracked.id, tracked.token.kind, store.locate tracked version⟩

/-- How the tokens of a store appear in a generation, in order. -/
def appearances
    (store : TokenStore)
    (version : Nat) : List Appearance :=
  store.tokens.map (store.appearance version)

theorem face_eq_of_appearance
    (h : store.appearance version tracked = store'.appearance version tracked')
    (span : Span) :
    face (tracked, span) = face (tracked', span) :=
  congrArg (fun shown : Appearance => (shown.id, (⟨shown.kind, span⟩ : Token))) h

/-- Where all tokens have a place, they appear with their faces. -/
theorem Viewed.appearances_eq
    {view : List (TrackedToken × Span)}
    (h : Viewed store version view) :
    store.appearances version =
      (view.map face).map fun shown => ⟨shown.1, shown.2.kind, .ok shown.2.span⟩ := by
  rw [appearances, ← h.tokens, List.map_map, List.map_map]
  refine List.map_congr_left fun entry hentry => ?_
  rw [Function.comp_apply, appearance, h.located entry hentry]
  rfl

/-- The index at which a token is added, if its neighbours there do not object. -/
def indexForAdding
    (store : TokenStore)
    (tracked : TrackedToken) : Outcome StoreError Nat := do
  let version ← store.version
  let span ← store.locate tracked version
  let index ← store.indexOf version span.start
  store.checkPrevious version span (if index = 0 then none else store.tokens[index - 1]?)
  store.checkNext version span store.tokens[index]?
  return index

theorem add_eq_bind
    (store : TokenStore)
    (tracked : TrackedToken) :
    store.add tracked = store.indexForAdding tracked >>= fun index =>
      .ok { store with tokens := store.tokens.insertIdx index tracked } := by
  simp only [add_eq_do, indexForAdding, bind_assoc, Outcome.pure_eq_ok, Outcome.ok_bind]

/-- The index of the token that is removed, if there is one. -/
def indexForRemoving?
    (store : TokenStore)
    (tracked : TrackedToken) : Outcome StoreError (Option Nat) := do
  return (← store.indexByPosition? tracked) <|> store.indexById? tracked.id

theorem remove_eq_bind
    (store : TokenStore)
    (tracked : TrackedToken) :
    store.remove tracked = store.indexForRemoving? tracked >>= fun
      | none => Outcome.fail (.notFound tracked.id)
      | some index => .ok { store with tokens := store.tokens.eraseIdx index } := by
  rw [remove_eq_do, indexForRemoving?]
  cases store.indexByPosition? tracked with
  | error failure =>
      rfl
  | ok found =>
      rfl

section Searches

variable {region : Span}

theorem agree_intersecting
    (h : tokens.map (store.appearance version) = tokens'.map (store'.appearance version)) :
    Outcome.Agree (fun found found' => found.map face = found'.map face)
      (store.intersecting version region tokens) (store'.intersecting version region tokens') := by
  induction tokens generalizing tokens' with
  | nil =>
      rw [List.map_eq_nil_iff.mp h.symm]
      rfl
  | cons tracked rest ih =>
      obtain ⟨tracked', rest', rfl, hsame, hrest⟩ := List.map_eq_cons_iff.mp h.symm
      have hplace : store'.locate tracked' version = store.locate tracked version :=
        congrArg Appearance.place hsame
      rw [intersecting, intersecting, hplace]
      refine (Outcome.agree_of_eq rfl).bind fun located located' hlocated => ?_
      subst hlocated
      refine (Outcome.agree_of_eq rfl).bind fun answer answer' hanswer => ?_
      subst hanswer
      cases answer with
      | false =>
          rfl
      | true =>
          refine (ih hrest.symm).bind fun found found' hfound => ?_
          rw [Outcome.pure_eq_ok, Outcome.pure_eq_ok, Outcome.agree_ok_iff, List.map_cons,
            List.map_cons, face_eq_of_appearance hsame, hfound]

theorem face_walk_eq
    (h : tokens.map (store.appearance version) = tokens'.map (store'.appearance version)) :
    (store.walk version tokens).located.map face = (store'.walk version tokens').located.map face ∧
    (store.walk version tokens).failure = (store'.walk version tokens').failure := by
  induction tokens generalizing tokens' with
  | nil =>
      rw [List.map_eq_nil_iff.mp h.symm]
      exact ⟨rfl, rfl⟩
  | cons tracked rest ih =>
      obtain ⟨tracked', rest', rfl, hsame, hrest⟩ := List.map_eq_cons_iff.mp h.symm
      have hplace : store'.locate tracked' version = store.locate tracked version :=
        congrArg Appearance.place hsame
      rw [walk, walk, hplace]
      cases store.locate tracked version with
      | error failure =>
          exact ⟨rfl, rfl⟩
      | ok span =>
          obtain ⟨hlocated, hfailure⟩ := ih hrest.symm
          refine ⟨?_, hfailure⟩
          dsimp only
          rw [List.map_cons, List.map_cons, face_eq_of_appearance hsame, hlocated]

/-- Two neighbours that appear the same are missing in both stores, or lie at the same place. -/
theorem missing_or_same_place
    {found found' : Option TrackedToken}
    (h : found.map (store.appearance version) = found'.map (store'.appearance version)) :
    (found = none ∧ found' = none) ∨
    ∃ tracked tracked',
      found = some tracked ∧
      found' = some tracked' ∧
      store.locate tracked version = store'.locate tracked' version := by
  cases found with
  | none =>
      exact .inl ⟨rfl, Option.map_eq_none_iff.mp h.symm⟩
  | some tracked =>
      obtain ⟨tracked', hfound', hsame⟩ := Option.map_eq_some_iff.mp h.symm
      exact .inr ⟨tracked, tracked', rfl, hfound', (congrArg Appearance.place hsame).symm⟩

theorem checkPrevious_eq
    {span : Span}
    {found found' : Option TrackedToken}
    (h : found.map (store.appearance version) = found'.map (store'.appearance version)) :
    store.checkPrevious version span found = store'.checkPrevious version span found' := by
  obtain ⟨rfl, rfl⟩ | ⟨tracked, tracked', rfl, rfl, hplace⟩ := missing_or_same_place h
  · rfl
  · rw [checkPrevious, checkPrevious, hplace]

theorem checkNext_eq
    {span : Span}
    {found found' : Option TrackedToken}
    (h : found.map (store.appearance version) = found'.map (store'.appearance version)) :
    store.checkNext version span found = store'.checkNext version span found' := by
  obtain ⟨rfl, rfl⟩ | ⟨tracked, tracked', rfl, rfl, hplace⟩ := missing_or_same_place h
  · rfl
  · rw [checkNext, checkNext, hplace]

end Searches

section SameAppearances

variable (h : store.appearances version = store'.appearances version)

include h

/-- What is made of the appearances of the tokens is the same. -/
theorem map_appearance_eq
    {γ : Type}
    (look : Appearance → γ) :
    (store.tokens.map fun tracked => look (store.appearance version tracked)) =
      store'.tokens.map fun tracked => look (store'.appearance version tracked) := by
  have hlook := congrArg (List.map look) h
  rwa [appearances, appearances, List.map_map, List.map_map] at hlook

theorem drop_appearances_eq
    (index : Nat) :
    (store.tokens.drop index).map (store.appearance version) =
      (store'.tokens.drop index).map (store'.appearance version) := by
  rw [List.map_drop, List.map_drop]
  exact congrArg (List.drop index) h

theorem getElem?_appearances_eq
    (index : Nat) :
    store.tokens[index]?.map (store.appearance version) =
      store'.tokens[index]?.map (store'.appearance version) := by
  rw [← List.getElem?_map, ← List.getElem?_map]
  exact congrArg (·[index]?) h

theorem ids_eq_of_appearances :
    store.ids = store'.ids :=
  map_appearance_eq h Appearance.id

theorem indexById?_eq_of_appearances
    (id : Nat) :
    store.indexById? id = store'.indexById? id := by
  have hids := ids_eq_of_appearances h
  have hfind : ∀ tokens : List TrackedToken,
      tokens.findIdx? (·.id == id) = (tokens.map (·.id)).findIdx? (· == id) := fun tokens => by
    rw [List.findIdx?_map]
    rfl
  rw [indexById?, indexById?, hfind, hfind]
  exact congrArg _ hids

theorem indexBehind_eq_of_appearances
    (holds : Span → Outcome StoreError Bool) :
    store.indexBehind version holds = store'.indexBehind version holds :=
  bisect_eq_of_map_eq (map_appearance_eq h (·.place >>= holds))

/-- The tokens at a region have the same faces. -/
theorem agree_overlapping_of_appearances
    (region : Span) :
    Outcome.Agree (fun found found' => found.map face = found'.map face)
      (store.overlapping version region) (store'.overlapping version region) := by
  unfold overlapping
  rw [indexBehind_eq_of_appearances h]
  refine (Outcome.agree_of_eq rfl).bind fun first first' hfirst => ?_
  subst hfirst
  exact agree_intersecting (drop_appearances_eq h first)

/-- The tokens in a range are the same. -/
theorem inRange_eq_of_appearances
    (region : Span) :
    store.inRange version region = store'.inRange version region := by
  refine Outcome.Agree.eq ?_
  unfold inRange
  refine (agree_overlapping_of_appearances h region).bind fun candidates candidates' hcandidates =>
    ?_
  refine (Outcome.agree_filterM hcandidates fun entry entry' hentry => ?_).bind
    fun hits hits' hhits => ?_
  · have hspan : entry.2 = entry'.2 :=
      congrArg (fun shown : Nat × Token => shown.2.span) hentry
    exact congrArg (touches · region) hspan
  · exact map_placed_of_map_face hhits

/-- The walk from a position on shows the same faces, and ends for the same reason. -/
theorem agree_following
    (position : Nat) :
    Outcome.Agree
      (fun walk walk' => walk.located.map face = walk'.located.map face ∧
        walk.failure = walk'.failure)
      (store.following version position) (store'.following version position) := by
  unfold following indexOf
  rw [indexBehind_eq_of_appearances h]
  refine (Outcome.agree_of_eq rfl).bind fun first first' hfirst => ?_
  subst hfirst
  exact face_walk_eq (drop_appearances_eq h first)

end SameAppearances

section OwnGeneration

/-- The two stores describe the same generation, where their tokens appear the same. -/
def AppearsAs
    (store store' : TokenStore) : Prop :=
  (store.version : Outcome StoreError Nat) = store'.version ∧
  ∀ version,
    (store.version : Outcome StoreError Nat) = .ok version →
    store.appearances version = store'.appearances version

variable (h : store.AppearsAs store')

include h

/-- What is asked about the generation at hand is the same if it is for every generation. -/
theorem AppearsAs.bind_eq
    {α : Type}
    {next next' : Nat → Outcome StoreError α}
    (hnext : ∀ version,
      (store.version : Outcome StoreError Nat) = .ok version →
      store.appearances version = store'.appearances version →
      next version = next' version) :
    (store.version >>= next) = (store'.version >>= next') := by
  rw [← h.1]
  cases hversion : (store.version : Outcome StoreError Nat) with
  | error failure =>
      rfl
  | ok version =>
      exact hnext version hversion (h.2 version hversion)

/-- The tokens are listed the same. -/
theorem AppearsAs.toList_eq :
    store.toList = store'.toList := by
  unfold toList
  refine h.bind_eq fun version _ hsame => Outcome.mapM_eq_of_map_eq ?_
  exact map_appearance_eq hsame fun shown => do return (⟨shown.kind, ← shown.place⟩ : Token)

/-- Measured anew, the stores are the same. -/
theorem AppearsAs.compact_eq :
    store.compact = store'.compact := by
  rw [compact_eq_do, compact_eq_do]
  refine h.bind_eq fun version _ hsame => ?_
  have hrebased := map_appearance_eq hsame fun shown => do
    return (⟨shown.id, ⟨shown.kind, ← shown.place⟩, version⟩ : TrackedToken)
  exact congrArg (· >>= _) (Outcome.mapM_eq_of_map_eq hrebased)

/-- A token that lies at the same place in both is added at the same index, or refused for the same
reason. -/
theorem AppearsAs.indexForAdding_eq
    (hlocate : ∀ version,
      (store.version : Outcome StoreError Nat) = .ok version →
      store.locate tracked version = store'.locate tracked version) :
    store.indexForAdding tracked = store'.indexForAdding tracked := by
  unfold indexForAdding
  refine h.bind_eq fun version hversion hsame => ?_
  rw [hlocate version hversion]
  refine congrArg _ (funext fun span => ?_)
  rw [indexOf, indexOf, indexBehind_eq_of_appearances hsame]
  refine congrArg _ (funext fun index => ?_)
  have hprevious : store.checkPrevious version span
      (if index = 0 then none else store.tokens[index - 1]?) =
        store'.checkPrevious version span
          (if index = 0 then none else store'.tokens[index - 1]?) := by
    refine checkPrevious_eq ?_
    split
    · rfl
    · exact getElem?_appearances_eq hsame (index - 1)
  rw [hprevious, checkNext_eq (getElem?_appearances_eq hsame index)]

/-- A token that lies at the same place in both is looked for at the same index. -/
theorem AppearsAs.indexByPosition?_eq
    (hlocate : ∀ version,
      (store.version : Outcome StoreError Nat) = .ok version →
      store.locate tracked version = store'.locate tracked version) :
    store.indexByPosition? tracked = store'.indexByPosition? tracked := by
  unfold indexByPosition?
  refine h.bind_eq fun version hversion hsame => ?_
  have hid : ∀ index : Nat,
      store.tokens[index]?.map TrackedToken.id = store'.tokens[index]?.map TrackedToken.id := by
    intro index
    have hshown := congrArg (Option.map Appearance.id) (getElem?_appearances_eq hsame index)
    rwa [Option.map_map, Option.map_map] at hshown
  simp only [hlocate version hversion, indexOf, indexBehind_eq_of_appearances hsame, hid]

end OwnGeneration

end TokenStore

end LiveTokens
