import LiveTokens.Proofs.LayoutChanges

/-!
# Removal is by identity

A token is looked for where it should lie, and if that leads nowhere or to another
token, among all tokens of the store.  The first search is only a shortcut.  Whatever
state the store is in, whether its tokens can be located or not and in whatever order
they come, and wherever the token that is asked for was measured, the element with its
identity is taken out, and nothing else is changed.

What the shortcut needs is that no position on the way overflows.

**Results.** `remove_by_identity`, for stores whose tokens can be told apart.
-/

namespace LiveTokens

namespace TokenStore

variable {store : TokenStore}
variable {tracked : TrackedToken}
variable {found : Option Nat}

/-- The search by position has an answer if no token overflows where it is located.  A token that
has no place there has the answer that there is none. -/
theorem exists_indexByPosition?_of_returns
    (hreturns : ∀ other ∈ tracked :: store.tokens, (store.place other).Returns) :
    ∃ found, store.indexByPosition? tracked = .ok found := by
  have htracked := hreturns tracked List.mem_cons_self
  unfold place at hreturns htracked
  unfold indexByPosition?
  rcases hversion : (store.version : Outcome StoreError Nat) with (_ | error) | version
  · rw [hversion] at htracked
    exact absurd rfl htracked
  · rw [version, EditLog.head, LiveTokens.advance] at hversion
    split at hversion
    · cases hversion
    · cases hversion
  · rw [hversion, Outcome.ok_bind] at htracked
    have hindex : (store.locate tracked version >>= fun span =>
        store.indexOf version span.start).Returns := by
      refine htracked.bind fun span _ => returns_bisect fun other hother => ?_
      have hother := hreturns other (List.mem_cons_of_mem _ hother)
      rw [hversion, Outcome.ok_bind] at hother
      exact hother.bind fun located _ => Outcome.returns_ok _
    rw [Outcome.ok_bind]
    dsimp only
    rcases hfound : (store.locate tracked version >>= fun span =>
      store.indexOf version span.start) with (_ | error) | index
    · exact absurd hfound hindex
    · exact ⟨none, rfl⟩
    · dsimp only
      split
      · exact ⟨some index, rfl⟩
      · exact ⟨none, rfl⟩

/-- A token that is not there is not found, wherever its position leads. -/
theorem remove_eq_notFound
    (hfound : store.indexByPosition? tracked = .ok found)
    (hid : tracked.id ∉ store.ids) :
    store.remove tracked = Outcome.fail (.notFound tracked.id) := by
  have hmem : ∀ other ∈ store.tokens, other.id ≠ tracked.id := by
    intro other hother heq
    exact hid (heq ▸ List.mem_map_of_mem hother)
  have hindex : (found <|> store.indexById? tracked.id) = none := by
    cases found with
    | none =>
        exact List.findIdx?_eq_none_iff.mpr fun other hother => by simpa using hmem other hother
    | some index =>
        have hat := indexByPosition?_eq_some hfound
        obtain ⟨other, hother, heq⟩ := Option.map_eq_some_iff.mp hat
        exact absurd heq (hmem other (List.mem_of_getElem? hother))
  rw [remove_eq_do, hfound, Outcome.ok_bind, hindex]

/-- A token is removed exactly if an element has its identity; then that element goes, and all the
others stay in their order, with the same edits behind them.  Otherwise the token is not found. -/
theorem remove_by_identity
    (hdistinct : store.ids.Nodup)
    (hreturns : ∀ other ∈ tracked :: store.tokens, (store.place other).Returns) :
    ((∃ store', store.remove tracked = .ok store') ↔ tracked.id ∈ store.ids) ∧
    (∀ front element behind,
      store.tokens = front ++ element :: behind →
      element.id = tracked.id →
      store.remove tracked = .ok { store with tokens := front ++ behind }) ∧
    (tracked.id ∉ store.ids →
      store.remove tracked = Outcome.fail (.notFound tracked.id)) := by
  obtain ⟨found, hfound⟩ := exists_indexByPosition?_of_returns hreturns
  have hone : store.ids.count tracked.id ≤ 1 := List.nodup_iff_count.mp hdistinct _
  refine ⟨⟨?_, ?_⟩, ?_, remove_eq_notFound hfound⟩
  · rintro ⟨store', hremove⟩
    refine Decidable.byContradiction fun hid => ?_
    rw [remove_eq_notFound hfound hid] at hremove
    cases hremove
  · intro hid
    obtain ⟨element, helement, heq⟩ := List.mem_map.mp hid
    obtain ⟨front, behind, htokens⟩ := List.append_of_mem helement
    exact ⟨_, remove_eq_of_split hone hfound htokens heq⟩
  · intro front element behind htokens heq
    exact remove_eq_of_split hone hfound htokens heq

/-- The last edit has cut into the second token and has moved the third one in front of it.  The
third one is removed by a copy that is older than the edit log. -/
theorem remove_by_identity_of_outdated :
    ∃ (store : TokenStore) (tracked : TrackedToken),
      store.ids.Nodup ∧
      (∀ other ∈ tracked :: store.tokens, (store.place other).Returns) ∧
      store.check = Outcome.fail (.tracking 2 .invalidated) ∧
      store.place tracked = Outcome.fail (.tracking 3 (.log (.forgotten 0 2))) ∧
      ∃ store',
        store.remove tracked = .ok store' ∧
        store'.tokens = store.tokens.take 2 ∧
        store'.log = store.log := by
  let store : TokenStore :=
    ⟨[⟨1, ⟨0, ⟨0, 3⟩⟩, 2⟩, ⟨2, ⟨1, ⟨3, 2⟩⟩, 2⟩, ⟨3, ⟨0, ⟨5, 1⟩⟩, 2⟩], ⟨2, [⟨⟨4, 1⟩, -4⟩]⟩⟩
  let tracked : TrackedToken := ⟨3, ⟨0, ⟨9, 1⟩⟩, 0⟩
  have hdistinct : store.ids.Nodup := by decide +kernel
  have hreturns : ∀ other ∈ tracked :: store.tokens, (store.place other).Returns := by
    decide +kernel
  have hremove := (remove_by_identity hdistinct hreturns).2.1 (store.tokens.take 2)
    ⟨3, ⟨0, ⟨5, 1⟩⟩, 2⟩ [] rfl rfl
  exact ⟨store, tracked, hdistinct, hreturns, by decide +kernel, by decide +kernel, _, hremove,
    rfl, rfl⟩

end TokenStore

end LiveTokens
