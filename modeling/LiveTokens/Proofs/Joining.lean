import LiveTokens.Proofs.Isolation
import LiveTokens.Proofs.Placement

/-!
# What a joined edit tells of a change

Joining adds up lengths and looks at no text; applying a change set copies text and
adds up nothing.  Both go through the same replacements in the same order.

A change set that a document accepts therefore joins, and the edit says how the two
texts differ: by how many bytes, where the changed part starts, and where it ends
before and after the change.  Replacements that do not join because they are out of
order are refused by every document.

**Results.**  `join_describes`.
-/

namespace LiveTokens

namespace Edit

variable {edit : Edit}
variable {text text' front rest : Text}
variable {reached : Nat}
variable {total : Int}
variable {replacement : Replacement}
variable {replacements : List Replacement}

/-- The new text of the edit lies at `region'`, and the texts before and after the edit differ in
the two regions only. -/
structure Describes
    (edit : Edit)
    (region' : Span)
    (text text' : Text) : Prop where
  newRegion : edit.newRegion? = some region'
  size : (Text.size text' : Int) = Text.size text + edit.delta
  inside : edit.region.start + edit.region.length ≤ Text.size text
  inside' : region'.start + region'.length ≤ Text.size text'
  front : text'.bytes.take edit.region.start = text.bytes.take edit.region.start
  back :
    text'.bytes.drop (region'.start + region'.length) =
      text.bytes.drop (edit.region.start + edit.region.length)

/-- An edit that splices a text describes the change, if the length of the new text is a length. -/
theorem Splices.exists_describes
    (h : edit.Splices text text')
    (hbound : Text.size text' < positionBound) :
    ∃ region', edit.Describes region' text text' := by
  obtain ⟨hinside, hedit⟩ := h.region_le
  have hsize := h.size_eq
  unfold Plausible at hedit
  have hlength : shift? edit.region.length edit.delta =
      some (edit.region.length + edit.delta).toNat :=
    if_pos ⟨hedit, by omega⟩
  refine ⟨⟨edit.region.start, (edit.region.length + edit.delta).toNat⟩, ?_, hsize, hinside, ?_,
    h.take_bytes (Nat.le_refl _), h.drop_bytes (Nat.le_refl _) ?_⟩
  · rw [newRegion?, hlength, Option.map_some]
  · dsimp only
    omega
  · dsimp only
    omega

/-- Only a replacement that starts in front of the place reached is out of order. -/
theorem joinFrom_cons_eq_unordered
    (h : joinFrom reached total (replacement :: replacements) = Outcome.fail .unordered) :
    replacement.target.start < reached ∨
      replacement.target.Fits ∧
      ∃ next, joinFrom (replacement.target.start + replacement.target.length) next replacements =
        Outcome.fail .unordered := by
  rw [joinFrom] at h
  split at h
  next hbefore =>
    exact .inl hbefore
  next =>
    by_cases hfits : replacement.target.Fits
    · rw [hfits.stop_eq, Outcome.ok_bind] at h
      split at h
      next =>
        cases h
      next next _ =>
        exact .inr ⟨hfits, next, h⟩
    · have hoverflow : (replacement.target.stop : Outcome JoinError Nat) = Outcome.overflow :=
        if_neg hfits
      rw [hoverflow] at h
      cases h

/-- Replacements that are out of order cannot be applied to any text, whatever else is wrong with
them. -/
theorem exists_misfit_of_joinFrom
    (h : joinFrom (Text.size front) total replacements = Outcome.fail .unordered)
    (rest : Text) :
    ∃ misfit, Text.replaceFrom (Text.size front) rest replacements = Outcome.fail misfit := by
  induction replacements generalizing front rest total with
  | nil =>
      cases h
  | cons replacement replacements ih =>
      rcases joinFrom_cons_eq_unordered h with hbefore | ⟨hfits, next, hlater⟩
      · exact ⟨.unordered, by rw [Text.replaceFrom, if_pos hbefore]⟩
      rcases (front ++ rest).admits_or_offends (Text.size front) replacement with
        hadmits | ⟨misfit, hoffends⟩
      · obtain ⟨kept, removed, behind, rfl, hkept, hremoved⟩ := hadmits.exists_cut
        have hreached := Text.size_of_cut hkept hremoved
        rw [← hreached] at hlater
        obtain ⟨misfit, hmisfit⟩ := ih hlater behind
        rw [Text.replaceFrom_cons_of_cut hkept hremoved hfits, ← hreached, hmisfit]
        exact ⟨misfit, rfl⟩
      · exact ⟨misfit, Text.replaceFrom_of_offends hfits hoffends⟩

theorem exists_misfit_of_join
    (h : join replacements = Outcome.fail .unordered)
    (text : Text) :
    ∃ misfit, Text.replaceAll text replacements = Outcome.fail misfit := by
  cases replacements with
  | nil =>
      cases h
  | cons replacement replacements =>
      have hjoinFrom : joinFrom (Text.size []) 0 (replacement :: replacements) =
          Outcome.fail .unordered := by
        rw [join] at h
        rw [Text.size_nil]
        cases hjoin : joinFrom 0 0 (replacement :: replacements) with
        | ok joined =>
            rw [hjoin] at h
            cases h
        | error failure =>
            rw [hjoin, Outcome.error_bind] at h
            cases h
            rfl
      exact exists_misfit_of_joinFrom hjoinFrom text

/-- Replacements that a document accepts join into an edit that describes the change.  Replacements
that are out of order are refused by every document. -/
theorem join_describes
    (wanted : ChangeSet) :
    (∀ document changed : Document,
      Document.applyChanges wanted document = .ok changed →
      wanted.replacements ≠ [] →
      document.size < deltaBound →
      changed.size < deltaBound →
      ∃ edit region',
        join wanted.replacements = .ok edit ∧
        edit.Describes region' document.text changed.text) ∧
    (join wanted.replacements = Outcome.fail .unordered →
      ∀ document : Document,
        ∃ error, Document.applyChanges wanted document = Outcome.fail error) := by
  constructor
  · intro document changed h hsome hdocument hchanged
    obtain ⟨-, htext, -⟩ := Document.applyChanges_eq_ok_iff.mp h
    obtain ⟨edit, hjoin⟩ := Text.exists_join_of_replaceAll htext hsome hdocument hchanged
    have hsplices : edit.Splices document.text changed.text :=
      Text.exists_changed_of_replaceAll htext hjoin
    obtain ⟨region', hdescribes⟩ :=
      hsplices.exists_describes (Nat.lt_trans hchanged (by decide))
    exact ⟨edit, region', hjoin, hdescribes⟩
  · intro hjoin document
    by_cases hgeneration : wanted.generation = document.generation
    · obtain ⟨misfit, hmisfit⟩ := exists_misfit_of_join hjoin document.text
      rw [Document.applyChanges_eq, if_pos hgeneration, hmisfit]
      exact ⟨.invalid misfit, rfl⟩
    · exact ⟨_, Document.applyChanges_of_outdated hgeneration⟩

/-- Two insertions at one place and a deletion behind them join into one edit.  Two insertions in
the wrong order do not, and no document takes them. -/
theorem join_describes_insertions :
    (join [⟨⟨1, 0⟩, ['x']⟩, ⟨⟨1, 0⟩, ['y']⟩, ⟨⟨2, 3⟩, []⟩] = .ok ⟨⟨1, 4⟩, -1⟩ ∧
      Describes ⟨⟨1, 4⟩, -1⟩ ⟨1, 3⟩ ['a', 'b', '€', 'c'] ['a', 'x', 'y', 'b', 'c']) ∧
    (join [⟨⟨2, 0⟩, ['x']⟩, ⟨⟨1, 0⟩, ['y']⟩] = Outcome.fail .unordered ∧
      ∀ document : Document,
        ∃ error, Document.applyChanges ⟨0, [⟨⟨2, 0⟩, ['x']⟩, ⟨⟨1, 0⟩, ['y']⟩]⟩ document =
          Outcome.fail error) := by
  have hjoin : join [⟨⟨1, 0⟩, ['x']⟩, ⟨⟨1, 0⟩, ['y']⟩, ⟨⟨2, 3⟩, []⟩] = .ok ⟨⟨1, 4⟩, -1⟩ := rfl
  have hunordered : join [⟨⟨2, 0⟩, ['x']⟩, ⟨⟨1, 0⟩, ['y']⟩] = Outcome.fail .unordered := rfl
  have hchanged :
      Document.applyChanges ⟨0, [⟨⟨1, 0⟩, ['x']⟩, ⟨⟨1, 0⟩, ['y']⟩, ⟨⟨2, 3⟩, []⟩]⟩
        ⟨['a', 'b', '€', 'c'], ⟨0, 0⟩⟩ = .ok ⟨['a', 'x', 'y', 'b', 'c'], ⟨0, 0⟩⟩ := rfl
  obtain ⟨edit, region', hedit, hdescribes⟩ :=
    (join_describes ⟨0, _⟩).1 _ _ hchanged (by decide) (by decide) (by decide)
  cases hjoin.symm.trans hedit
  cases hdescribes.newRegion
  exact ⟨⟨hjoin, hdescribes⟩, hunordered, (join_describes ⟨0, _⟩).2 hunordered⟩

end Edit

end LiveTokens
