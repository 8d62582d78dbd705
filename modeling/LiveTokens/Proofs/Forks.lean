import LiveTokens.Proofs.Hosting

/-!
# Forks

A change names the generation that it was made for, and nothing else.  As long as
a host holds one object of each generation, that is enough to tell which of its
snapshots an edit was made against.  A host that has gone back to an earlier
snapshot and is edited there comes to a generation that it has held before, now
with another object: a *fork*.  Edits made against either object are accepted for
both, and so are edits made against another document of that generation.
-/

namespace LiveTokens

namespace Slot

variable {slot slot' : Slot Document}
variable {steps : List (List Document × Document)}
variable {held others : List Document}
variable {object snapshot document : Document}
variable {replacements : List Replacement}
variable {transition : Transition Document ChangeSet}

/-- The host has held another object of the same generation. -/
def Forks
    (held : List Document)
    (object : Document) : Prop :=
  ∃ document ∈ held, document.generation = object.generation ∧ document ≠ object

instance (held : List Document) (object : Document) : Decidable (Forks held object) :=
  inferInstanceAs (Decidable (∃ document ∈ held, _))

/-- A host that has been edited, and has gone back to snapshots that it held before: the objects
that it has held, the newest first, and for each accepted edit what it had held until then and the
object that the edit led to. -/
inductive Course : List (List Document × Document) → List Document → Slot Document → Prop
  | opened
      (document : Document) :
      Course [] [document] (.holding document)
  | edited
      {steps : List (List Document × Document)}
      {held : List Document}
      {slot slot' : Slot Document}
      {snapshot : Document}
      {replacements : List Replacement}
      {transition : Transition Document ChangeSet}
      (hcourse : Course steps held slot)
      (hedit : slot.edit snapshot replacements = (.ok transition, slot')) :
      Course ((held, transition.after) :: steps) (transition.after :: held) slot'
  | refused
      {steps : List (List Document × Document)}
      {held : List Document}
      {slot slot' : Slot Document}
      {snapshot : Document}
      {replacements : List Replacement}
      {failure : Failure ChangeError}
      (hcourse : Course steps held slot)
      (hedit : slot.edit snapshot replacements = (.error failure, slot')) :
      Course steps held slot'
  | published
      {steps : List (List Document × Document)}
      {held : List Document}
      {slot : Slot Document}
      {document : Document}
      (hcourse : Course steps held slot)
      (hmem : document ∈ held) :
      Course steps (document :: held) (slot.publish document)

/-- An accepted edit names the generation of the current object, and is applied to that. -/
theorem edit_eq_ok_iff :
    slot.edit snapshot replacements = (.ok transition, slot') ↔
      snapshot.generation = slot.current.generation ∧
      slot.current.Turns transition.after replacements ∧
      transition.before = slot.current ∧
      transition.change = ⟨snapshot.generation, replacements⟩ ∧
      slot' = slot.publish transition.after :=
  change_eq_ok_iff

/-- Without replacements, an edit is accepted if only the generation is right. -/
theorem exists_edit_nil
    (h : snapshot.generation = slot.current.generation) :
    ∃ transition slot',
      slot.edit snapshot [] = (.ok transition, slot') ∧
      transition.before = slot.current := by
  let after : Document := ⟨slot.current.text, slot.current.version.successor⟩
  have hturns : slot.current.Turns after [] := ⟨rfl, rfl⟩
  exact ⟨⟨slot.current, after, ⟨snapshot.generation, []⟩⟩, slot.publish after,
    edit_eq_ok_iff.mpr ⟨h, hturns, rfl, rfl, rfl⟩, rfl⟩

/-- A refused edit leaves the host as it is. -/
theorem eq_of_edit_eq_error
    {failure : Failure ChangeError}
    (h : slot.edit snapshot replacements = (.error failure, slot')) :
    slot' = slot := by
  unfold edit change at h
  split at h
  · exact (Prod.mk.inj h).2.symm
  · cases h

namespace Course

/-- All objects that a host has held are of one lineage, and the current one is among them. -/
theorem lineages
    (h : Course steps held slot) :
    slot.current ∈ held ∧
    ∀ document ∈ held, document.version.lineage = slot.current.version.lineage := by
  induction h with
  | opened document =>
      refine ⟨List.mem_singleton_self document, ?_⟩
      intro other hother
      obtain rfl := List.mem_singleton.mp hother
      rfl
  | edited hcourse hedit ih =>
      obtain ⟨hmem, hlineage⟩ := ih
      obtain ⟨-, hturns, -, -, rfl⟩ := edit_eq_ok_iff.mp hedit
      refine ⟨List.mem_cons_self, List.forall_mem_cons.mpr ⟨rfl, ?_⟩⟩
      intro document hdocument
      exact (hlineage document hdocument).trans hturns.lineage.symm
  | refused hcourse hedit ih =>
      rw [eq_of_edit_eq_error hedit]
      exact ih
  | published hcourse hmem ih =>
      obtain ⟨-, hlineage⟩ := ih
      refine ⟨List.mem_cons_self, List.forall_mem_cons.mpr ⟨rfl, ?_⟩⟩
      intro document hdocument
      exact (hlineage document hdocument).trans (hlineage _ hmem).symm

end Course

/-- No two of the objects are of the same generation. -/
def Unforked
    (held : List Document) : Prop :=
  ∀ first ∈ held, ∀ second ∈ held, first.generation = second.generation → first = second

/-- One more object leaves a host unforked unless it forks from what the host has held. -/
theorem unforked_cons_iff :
    Unforked (object :: held) ↔ ¬ Forks held object ∧ Unforked held := by
  constructor
  · intro h
    refine ⟨?_, fun first hfirst second hsecond =>
      h first (List.mem_cons_of_mem _ hfirst) second (List.mem_cons_of_mem _ hsecond)⟩
    rintro ⟨document, hdocument, hgeneration, hne⟩
    exact hne (h document (List.mem_cons_of_mem _ hdocument) object List.mem_cons_self hgeneration)
  · rintro ⟨hobject, h⟩
    have hsame : ∀ document ∈ held, document.generation = object.generation → document = object :=
      fun document hdocument hgeneration =>
        Classical.not_not.mp fun hne => hobject ⟨document, hdocument, hgeneration, hne⟩
    intro first hfirst second hsecond hgeneration
    rcases List.mem_cons.mp hfirst with hfirst | hfirst <;>
      rcases List.mem_cons.mp hsecond with hsecond | hsecond
    · rw [hfirst, hsecond]
    · rw [hfirst] at hgeneration ⊢
      exact (hsame second hsecond hgeneration.symm).symm
    · rw [hsecond] at hgeneration ⊢
      exact hsame first hfirst hgeneration
    · exact h first hfirst second hsecond hgeneration

/-- A host is unforked exactly if none of its edits forked. -/
theorem Course.unforked_iff
    (h : Course steps held slot) :
    Unforked held ↔ ∀ step ∈ steps, ¬ Forks step.1 step.2 := by
  induction h with
  | opened document =>
      rw [unforked_cons_iff]
      simp [Forks, Unforked]
  | edited hcourse hedit ih =>
      rw [unforked_cons_iff, List.forall_mem_cons, ih]
  | refused hcourse hedit ih =>
      exact ih
  | published hcourse hmem ih =>
      rw [unforked_cons_iff, ← ih, and_iff_right_iff_imp]
      rintro h ⟨document, hdocument, hgeneration, hne⟩
      exact hne (h document hdocument _ hmem hgeneration)

/-- The host as it is, or gone back to one of its objects. -/
def Resumes
    (slot : Slot Document)
    (held : List Document)
    (host : Slot Document) : Prop :=
  host = slot ∨ ∃ document ∈ held, host = slot.publish document

/-- A host, also if it goes back to any of its objects, applies the edits that it accepts to what
they were made against, exactly if no edit has forked and the snapshots of other documents are of
other generations. -/
theorem before_eq_iff_unforked
    (h : Course steps held slot)
    (hothers : ∀ snapshot ∈ others,
      snapshot.version.lineage ≠ slot.current.version.lineage) :
    (∀ host, Resumes slot held host →
      ∀ snapshot, snapshot ∈ held ∨ snapshot ∈ others →
      ∀ replacements transition slot',
        host.edit snapshot replacements = (.ok transition, slot') →
        transition.before = snapshot) ↔
      (∀ step ∈ steps, ¬ Forks step.1 step.2) ∧
      ∀ snapshot ∈ others, ∀ document ∈ held, snapshot.generation ≠ document.generation := by
  rw [← h.unforked_iff]
  constructor
  · intro hsound
    have hsame : ∀ document ∈ held, ∀ snapshot, snapshot ∈ held ∨ snapshot ∈ others →
        snapshot.generation = document.generation → document = snapshot := by
      intro document hdocument snapshot hsnapshot hgeneration
      have hcurrent : snapshot.generation = (slot.publish document).current.generation :=
        hgeneration
      obtain ⟨transition, slot', hedit, hbefore⟩ := exists_edit_nil hcurrent
      have hresumes : Resumes slot held (slot.publish document) :=
        .inr ⟨document, hdocument, rfl⟩
      exact hbefore.symm.trans (hsound _ hresumes snapshot hsnapshot _ _ _ hedit)
    constructor
    · intro first hfirst second hsecond hgeneration
      exact hsame first hfirst second (.inl hsecond) hgeneration.symm
    · intro snapshot hsnapshot document hdocument hgeneration
      obtain rfl := hsame document hdocument snapshot (.inr hsnapshot) hgeneration
      exact hothers document hsnapshot (h.lineages.2 document hdocument)
  · rintro ⟨hunforked, hdistinct⟩ host hresumes snapshot hsnapshot replacements transition slot'
      hedit
    have hheld : host.current ∈ held := by
      rcases hresumes with rfl | ⟨document, hdocument, rfl⟩
      · exact h.lineages.1
      · exact hdocument
    obtain ⟨hgeneration, -, hbefore, -, -⟩ := edit_eq_ok_iff.mp hedit
    rw [hbefore]
    rcases hsnapshot with hsnapshot | hsnapshot
    · exact hunforked _ hheld snapshot hsnapshot hgeneration.symm
    · exact absurd hgeneration (hdistinct snapshot hsnapshot _ hheld)

/-- A host that has made `xab` of `ab` and gone back to `ab`. -/
def goneBack : Slot Document :=
  ((Slot.holding (Document.ofText 0 ['a', 'b'])).edit (Document.ofText 0 ['a', 'b'])
    [⟨⟨0, 0⟩, ['x']⟩]).2.publish (Document.ofText 0 ['a', 'b'])

theorem course_goneBack :
    Course [([⟨['a', 'b'], ⟨0, 0⟩⟩], ⟨['x', 'a', 'b'], ⟨0, 1⟩⟩)]
      [⟨['a', 'b'], ⟨0, 0⟩⟩, ⟨['x', 'a', 'b'], ⟨0, 1⟩⟩, ⟨['a', 'b'], ⟨0, 0⟩⟩] goneBack := by
  have hedit : (Slot.holding (Document.ofText 0 ['a', 'b'])).edit (Document.ofText 0 ['a', 'b'])
      [⟨⟨0, 0⟩, ['x']⟩] =
        (.ok ⟨⟨['a', 'b'], ⟨0, 0⟩⟩, ⟨['x', 'a', 'b'], ⟨0, 1⟩⟩, _⟩, _) := rfl
  exact ((Course.opened _).edited hedit).published (List.mem_cons_of_mem _ List.mem_cons_self)

/-- A host that has not been edited since it went back, beside a document of a later generation. -/
theorem before_eq_of_goneBack :
    Course [([⟨['a', 'b'], ⟨0, 0⟩⟩], ⟨['x', 'a', 'b'], ⟨0, 1⟩⟩)]
      [⟨['a', 'b'], ⟨0, 0⟩⟩, ⟨['x', 'a', 'b'], ⟨0, 1⟩⟩, ⟨['a', 'b'], ⟨0, 0⟩⟩] goneBack ∧
    (∀ snapshot ∈ [(⟨['z'], ⟨1, 2⟩⟩ : Document)],
      snapshot.version.lineage ≠ goneBack.current.version.lineage) ∧
    ∀ host,
      Resumes goneBack
        [⟨['a', 'b'], ⟨0, 0⟩⟩, ⟨['x', 'a', 'b'], ⟨0, 1⟩⟩, ⟨['a', 'b'], ⟨0, 0⟩⟩] host →
      ∀ snapshot,
        snapshot ∈ [⟨['a', 'b'], ⟨0, 0⟩⟩, ⟨['x', 'a', 'b'], ⟨0, 1⟩⟩, ⟨['a', 'b'], ⟨0, 0⟩⟩] ∨
          snapshot ∈ [(⟨['z'], ⟨1, 2⟩⟩ : Document)] →
        ∀ replacements transition slot',
          host.edit snapshot replacements = (.ok transition, slot') →
          transition.before = snapshot := by
  have hothers : ∀ snapshot ∈ [(⟨['z'], ⟨1, 2⟩⟩ : Document)],
      snapshot.version.lineage ≠ goneBack.current.version.lineage := by
    decide
  refine ⟨course_goneBack, hothers, ?_⟩
  exact (before_eq_iff_unforked course_goneBack hothers).mpr ⟨by decide, by decide⟩

/-- The host that has gone back to `ab` makes `abc` of it.  An edit that was made to delete the `x`
of `xab` is then accepted, and deletes the `a`. -/
theorem before_ne_of_fork :
    ∃ steps held slot transition slot',
      Course steps held slot ∧
      ⟨['x', 'a', 'b'], ⟨0, 1⟩⟩ ∈ held ∧
      slot.edit ⟨['x', 'a', 'b'], ⟨0, 1⟩⟩ [⟨⟨0, 1⟩, []⟩] = (.ok transition, slot') ∧
      transition.before = ⟨['a', 'b', 'c'], ⟨0, 1⟩⟩ ∧
      transition.after = ⟨['b', 'c'], ⟨0, 2⟩⟩ := by
  have hedit : goneBack.edit (Document.ofText 0 ['a', 'b']) [⟨⟨2, 0⟩, ['c']⟩] =
      (.ok ⟨⟨['a', 'b'], ⟨0, 0⟩⟩, ⟨['a', 'b', 'c'], ⟨0, 1⟩⟩, _⟩, _) := rfl
  exact ⟨_, _, _, _, _, course_goneBack.edited hedit, by simp, rfl, rfl, rfl⟩

end Slot

end LiveTokens
