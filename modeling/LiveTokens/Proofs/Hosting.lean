import LiveTokens.Document
import LiveTokens.Proofs.Outcome

/-!
# What a host accepts

The slot of a document accepts a change that was made for its current generation
and can be carried out.  The transition that it reports leads from the current
snapshot to the next generation of the same lineage.
-/

namespace LiveTokens

namespace Document

/-- The replacements turn a document into its next generation. -/
structure Turns
    (before after : Document)
    (replacements : List Replacement) : Prop where
  text : Text.replaceAll before.text replacements = .ok after.text
  version : after.version = before.version.successor

/-- The length of the text is a delta, and the generation is a number of 64 bits. -/
structure InRange
    (document : Document) : Prop where
  size : document.size < deltaBound
  generation : document.generation < positionBound

theorem InRange.size_lt
    {document : Document}
    (h : document.InRange) :
    document.size < positionBound :=
  Nat.lt_trans h.size (by decide)

namespace Turns

variable {before after : Document}
variable {replacements : List Replacement}

theorem lineage
    (h : before.Turns after replacements) :
    after.version.lineage = before.version.lineage := by
  rw [h.version]
  rfl

theorem generation
    (h : before.Turns after replacements) :
    after.generation = before.generation + 1 := by
  rw [Document.generation, h.version]
  rfl

theorem generation_lt
    (h : before.Turns after replacements) :
    before.generation < after.generation := by
  rw [h.generation]
  exact Nat.lt_succ_self _

/-- Without a replacement, the text stays the same. -/
theorem text_eq
    (h : before.Turns after []) :
    before.text = after.text :=
  Except.ok.inj h.text

end Turns

theorem version_eq
    {first second : Document}
    (hlineage : first.version.lineage = second.version.lineage)
    (hgeneration : first.generation = second.generation) :
    first.version = second.version := by
  rcases first with ⟨_, lineage, generation⟩
  rcases second with ⟨_, lineage', generation'⟩
  cases hlineage
  cases hgeneration
  rfl

theorem applyChanges_eq_ok_iff
    {document changed : Document}
    {wanted : ChangeSet} :
    applyChanges wanted document = .ok changed ↔
      wanted.generation = document.generation ∧
      Text.replaceAll document.text wanted.replacements = .ok changed.text ∧
      changed.version = document.version := by
  rw [applyChanges_eq]
  split
  next hgeneration =>
    simp only [Outcome.bind_eq_ok_iff, Outcome.wrap_eq_ok_iff]
    constructor
    · rintro ⟨text, htext, h⟩
      cases h
      exact ⟨hgeneration, htext, rfl⟩
    · rintro ⟨-, htext, hversion⟩
      refine ⟨changed.text, htext, ?_⟩
      rw [← hversion]
      rfl
  next hgeneration =>
    constructor
    · intro h
      cases h
    · rintro ⟨heq, -⟩
      exact absurd heq hgeneration

/-- A change set that is refused leaves the document as it was. -/
theorem outcome_rewrite
    (document : Document)
    (wanted : ChangeSet) :
    (rewrite wanted).outcome document =
      match applyChanges wanted document with
      | .ok changed => (.ok (wanted, wanted), changed)
      | .error failure => (.error failure, document) := by
  rw [applyChanges_eq, rewrite, Work.outcome_bind_of_ok (Work.outcome_get document)]
  split
  · rw [Work.outcome_bind, Work.outcome_ofOutcome]
    cases (Text.replaceAll document.text wanted.replacements).wrap ChangeError.invalid <;> rfl
  · rfl

end Document

namespace Slot

/-- The successor of a snapshot under a change. -/
def successor
    {α κ ρ ε : Type}
    [Editable α κ ρ ε]
    (object : α)
    (change : κ) : Outcome ε α :=
  (draft object change).map (·.object)

variable {slot slot' : Slot Document}
variable {wanted : ChangeSet}
variable {transition : Transition Document ChangeSet}

/-- A change set hands itself back, and leaves the version alone. -/
theorem draft_eq
    (document : Document)
    (wanted : ChangeSet) :
    (draft document wanted : Outcome ChangeError (Draft Document ChangeSet ChangeSet)) =
      (Document.applyChanges wanted document).map fun changed =>
        ⟨⟨changed.text, changed.version.successor⟩, wanted, wanted⟩ := by
  have hwork : (Editable.apply wanted).outcome document = _ := document.outcome_rewrite wanted
  rw [draft, hwork]
  cases Document.applyChanges wanted document <;> rfl

theorem successor_eq_ok_iff
    {old new : Document} :
    (successor old wanted : Outcome ChangeError Document) = .ok new ↔
      wanted.generation = old.generation ∧ old.Turns new wanted.replacements := by
  rw [successor, draft_eq]
  constructor
  · intro h
    cases hchanged : Document.applyChanges wanted old with
    | error failure =>
        rw [hchanged] at h
        cases h
    | ok changed =>
        obtain ⟨hgeneration, htext, hversion⟩ := Document.applyChanges_eq_ok_iff.mp hchanged
        rw [hchanged] at h
        cases h
        exact ⟨hgeneration, htext, congrArg Version.successor hversion⟩
  · rintro ⟨hgeneration, hturns⟩
    have hchanged : Document.applyChanges wanted old = .ok ⟨new.text, old.version⟩ :=
      Document.applyChanges_eq_ok_iff.mpr ⟨hgeneration, hturns.text, rfl⟩
    have hversion := hturns.version
    rw [hchanged]
    cases new
    cases hversion
    rfl

/-- The result of a change and the slot behind it, in terms of the successor of its snapshot. -/
theorem change_eq
    (slot : Slot Document)
    (wanted : ChangeSet) :
    slot.change wanted =
      match (successor slot.current wanted : Outcome ChangeError Document) with
      | .error failure => (.error failure, slot)
      | .ok new => (.ok ⟨slot.current, new, wanted⟩, slot.publish new) := by
  rw [change, successor, draft_eq]
  cases Document.applyChanges wanted slot.current <;> rfl

/-- A host that accepts a change publishes the next generation. -/
theorem change_eq_ok_iff :
    slot.change wanted = (.ok transition, slot') ↔
      wanted.generation = slot.current.generation ∧
      slot.current.Turns transition.after wanted.replacements ∧
      transition.before = slot.current ∧
      transition.change = wanted ∧
      slot' = slot.publish transition.after := by
  rw [change_eq]
  cases hsuccessor : (successor slot.current wanted : Outcome ChangeError Document) with
  | error failure =>
      constructor
      · intro h
        cases h
      · rintro ⟨hgeneration, hturns, -⟩
        rw [successor_eq_ok_iff.mpr ⟨hgeneration, hturns⟩] at hsuccessor
        cases hsuccessor
  | ok new =>
      constructor
      · intro h
        cases h
        obtain ⟨hgeneration, hturns⟩ := successor_eq_ok_iff.mp hsuccessor
        exact ⟨hgeneration, hturns, rfl, rfl, rfl⟩
      · rintro ⟨hgeneration, hturns, hbefore, hchange, rfl⟩
        rw [successor_eq_ok_iff.mpr ⟨hgeneration, hturns⟩] at hsuccessor
        cases hsuccessor
        rw [← hbefore, ← hchange]

section History

variable {lineage : Nat}
variable {transitions : List (Transition Document ChangeSet)}
variable {document : Document}

/-- A host that was opened on some text and has reported these transitions, the newest one first. -/
inductive History
    (lineage : Nat) : List (Transition Document ChangeSet) → Slot Document → Prop
  | opened
      (text : Text) :
      History lineage [] (Slot.holding (Document.ofText lineage text))
  | changed
      {transitions : List (Transition Document ChangeSet)}
      {slot slot' : Slot Document}
      {wanted : ChangeSet}
      {transition : Transition Document ChangeSet}
      (hhistory : History lineage transitions slot)
      (hchange : slot.change wanted = (.ok transition, slot')) :
      History lineage (transition :: transitions) slot'

/-- All snapshots that a host has had, the newest one first. -/
def snapshots
    (transitions : List (Transition Document ChangeSet))
    (slot : Slot Document) : List Document :=
  slot.current :: transitions.map (·.before)

namespace History

theorem snapshots_changed
    (hchange : slot.change wanted = (.ok transition, slot')) :
    snapshots (transition :: transitions) slot' =
      transition.after :: snapshots transitions slot := by
  obtain ⟨-, -, hbefore, -, rfl⟩ := change_eq_ok_iff.mp hchange
  rw [snapshots, List.map_cons, hbefore]
  rfl

theorem change
    (h : History lineage transitions slot)
    (haccepted : (slot.change wanted).1 = .ok transition) :
    History lineage (transition :: transitions) (slot.change wanted).2 :=
  .changed h (Prod.ext haccepted rfl)

/-- Each change leads to a newer generation of the same lineage. -/
theorem descending
    (h : History lineage transitions slot) :
    (∀ document ∈ snapshots transitions slot, document.version.lineage = lineage) ∧
    (snapshots transitions slot).Pairwise fun newer older =>
      older.generation < newer.generation := by
  induction h with
  | opened text =>
      constructor
      · intro document hdocument
        obtain rfl := List.mem_singleton.mp hdocument
        rfl
      · exact List.pairwise_singleton _ _
  | @changed transitions slot slot' wanted transition hhistory hchange ih =>
      obtain ⟨hlineage, hdescending⟩ := ih
      obtain ⟨-, hturns, -, -, -⟩ := change_eq_ok_iff.mp hchange
      rw [snapshots_changed hchange]
      constructor
      · intro document hdocument
        rcases List.mem_cons.mp hdocument with rfl | hmem
        · exact hturns.lineage.trans (hlineage _ List.mem_cons_self)
        · exact hlineage document hmem
      · refine List.pairwise_cons.mpr ⟨?_, hdescending⟩
        intro document hdocument
        rw [hturns.generation]
        rcases List.mem_cons.mp hdocument with rfl | hmem
        · exact Nat.lt_succ_self _
        · exact Nat.lt_succ_of_lt ((List.pairwise_cons.mp hdescending).1 document hmem)

/-- A reported transition leads from one snapshot to another. -/
theorem turns_of_mem
    (h : History lineage transitions slot)
    (hmem : transition ∈ transitions) :
    transition.before ∈ snapshots transitions slot ∧
    transition.after ∈ snapshots transitions slot ∧
    transition.before.Turns transition.after transition.change.replacements := by
  induction h with
  | opened text =>
      cases hmem
  | @changed transitions slot slot' wanted newest hhistory hchange ih =>
      rw [snapshots_changed hchange]
      rcases List.mem_cons.mp hmem with rfl | hmem
      · obtain ⟨-, hturns, hbefore, hwanted, -⟩ := change_eq_ok_iff.mp hchange
        rw [hbefore, hwanted]
        exact ⟨List.mem_cons_of_mem _ List.mem_cons_self, List.mem_cons_self, hturns⟩
      · obtain ⟨hbefore, hafter, hturns⟩ := ih hmem
        exact ⟨List.mem_cons_of_mem _ hbefore, List.mem_cons_of_mem _ hafter, hturns⟩

end History

end History

end Slot

/-- One host for each lineage, with what it has reported. -/
structure World where
  host : Nat → Slot Document
  reported : Nat → List (Transition Document ChangeSet)
  history : ∀ lineage, Slot.History lineage (reported lineage) (host lineage)

namespace World

variable {world : World}
variable {first second : Document}
variable {transition : Transition Document ChangeSet}

/-- Some host has had the snapshot. -/
def Snapshot
    (world : World)
    (document : Document) : Prop :=
  ∃ lineage, document ∈ Slot.snapshots (world.reported lineage) (world.host lineage)

/-- Some host has reported the transition. -/
def Reported
    (world : World)
    (transition : Transition Document ChangeSet) : Prop :=
  ∃ lineage, transition ∈ world.reported lineage

/-- No two snapshots have the same version. -/
theorem snapshot_unique
    (hfirst : world.Snapshot first)
    (hsecond : world.Snapshot second)
    (hversion : first.version = second.version) :
    first = second := by
  obtain ⟨lineage, hfirst⟩ := hfirst
  obtain ⟨lineage', hsecond⟩ := hsecond
  obtain ⟨hlineage, hdescending⟩ := (world.history lineage).descending
  obtain rfl : lineage = lineage' := by
    rw [← hlineage first hfirst, hversion]
    exact (world.history lineage').descending.1 second hsecond
  have hgeneration : first.generation = second.generation :=
    congrArg (·.generation) hversion
  have hsame : ∀ newer ∈ Slot.snapshots (world.reported lineage) (world.host lineage),
      ∀ older ∈ Slot.snapshots (world.reported lineage) (world.host lineage),
      newer.generation = older.generation → newer = older := by
    intro newer hnewer older holder
    refine List.Pairwise.forall_of_forall_of_flip
      (R := fun newer older => newer.generation = older.generation → newer = older)
      (fun _ _ _ => rfl) (hdescending.imp ?_) (hdescending.imp ?_) hnewer holder
    · intro newer older hlt heq
      exact absurd heq.symm (Nat.ne_of_lt hlt)
    · intro newer older hlt heq
      exact absurd heq (Nat.ne_of_lt hlt)
  exact hsame first hfirst second hsecond hgeneration

theorem snapshots_of_reported
    (h : world.Reported transition) :
    world.Snapshot transition.before ∧
    world.Snapshot transition.after ∧
    transition.before.Turns transition.after transition.change.replacements := by
  obtain ⟨lineage, hmem⟩ := h
  obtain ⟨hbefore, hafter, hturns⟩ := (world.history lineage).turns_of_mem hmem
  exact ⟨⟨lineage, hbefore⟩, ⟨lineage, hafter⟩, hturns⟩

end World

end LiveTokens
