import LiveTokens.EditLog
import LiveTokens.Proofs.Bytes
import LiveTokens.Proofs.Hosting
import LiveTokens.Proofs.Splice

/-!
# Spans that survive keep their text

A host is changed, and each change is put into a log as one edit.  An edit that
splices a text leaves its front and its back alone, so that a span it does not cut
into covers the same bytes afterwards, at the place to which the edit carries it.
The edits between two snapshots lead from the text of one to that of the other;
a span that is carried over all of them therefore covers the same bytes in both.
-/

namespace LiveTokens

namespace Edit

variable {ε : Type}
variable {edit : Edit}
variable {span carried : Span}
variable {fate : Fate}
variable {text text' : Text}
variable {before after : Document}
variable {replacements : List Replacement}

/-- Only the region of the edit gives way to another text, and the delta tells how much longer that
is. -/
def Splices
    (edit : Edit)
    (text text' : Text) : Prop :=
  ∃ front old new back,
    text = front ++ old ++ back ∧
    text' = front ++ new ++ back ∧
    Text.size front = edit.region.start ∧
    Text.size old = edit.region.length ∧
    (Text.size new : Int) = Text.size old + edit.delta

/-- The edit that stands for some replacements in a log. -/
def ofReplacements : List Replacement → Outcome JoinError Edit
  | [] => .ok identity
  | replacement :: replacements => join (replacement :: replacements)

theorem splices_identity
    (text : Text) :
    identity.Splices text text :=
  ⟨[], [], [], text, rfl, rfl, rfl, rfl, rfl⟩

theorem splices_of_turns
    (hturns : before.Turns after replacements)
    (hedit : ofReplacements replacements = .ok edit) :
    edit.Splices before.text after.text := by
  cases replacements with
  | nil =>
      cases hedit
      rw [hturns.text_eq]
      exact splices_identity after.text
  | cons replacement replacements =>
      exact Text.exists_changed_of_replaceAll hturns.text hedit

/-- Replacements between texts that are not too long have an edit. -/
theorem exists_ofReplacements
    (hturns : before.Turns after replacements)
    (hbefore : before.InRange)
    (hafter : after.InRange) :
    ∃ edit, ofReplacements replacements = .ok edit := by
  cases replacements with
  | nil =>
      exact ⟨identity, rfl⟩
  | cons replacement replacements =>
      exact Text.exists_join_of_replaceAll hturns.text (List.cons_ne_nil _ _) hbefore.size
        hafter.size

/-- The bytes under a span that survives are the same afterwards. -/
theorem Splices.bytesIn_carried
    (h : edit.Splices text text')
    (hspan : span.start + span.length ≤ Text.size text)
    (hcarry : (edit.carry span : Outcome ε (Fate × Span)) = .ok (fate, carried))
    (halive : fate ≠ .invalidated) :
    carried.start + carried.length ≤ Text.size text' ∧
    text'.bytesIn carried = text.bytesIn span := by
  obtain ⟨front, old, new, back, rfl, rfl, hfront, hold, hnew⟩ := h
  simp only [Text.size_append] at hspan ⊢
  obtain ⟨rfl, hpreserves⟩ := carried_of_carry hcarry halive
  by_cases hspares : edit.Spares span
  · rw [carried_of_spares hspares]
    unfold Spares at hspares
    refine ⟨by omega, ?_⟩
    simp only [List.append_assoc]
    rw [Text.bytesIn_front _ (by omega), Text.bytesIn_front _ (by omega)]
  · obtain ⟨hbehind, hstart⟩ := hpreserves.resolve_left hspares
    rw [carried_of_not_spares hspares]
    have hslide : (span.slide edit.delta).start = (span.start + edit.delta).toNat := rfl
    have hlength : (span.slide edit.delta).length = span.length := rfl
    refine ⟨by omega, ?_⟩
    rw [Text.bytesIn_back (by rw [Text.size_append]; omega),
      Text.bytesIn_back (by rw [Text.size_append]; omega), hlength, hslide]
    congr 2
    simp only [Text.size_append]
    omega

theorem Splices.region_fits
    (h : edit.Splices text text')
    (hbound : Text.size text < positionBound) :
    edit.region.Fits := by
  obtain ⟨front, old, new, back, rfl, -, hfront, hold, -⟩ := h
  simp only [Text.size_append] at hbound
  unfold Span.Fits
  omega

end Edit

namespace EditLog

variable {ε : Type}
variable {log : EditLog}
variable {edit : Edit}
variable {edits : List Edit}
variable {text text' text'' : Text}
variable {span : Span}
variable {origin target head : Nat}

/-- The edits turn one text into another, through texts whose positions all fit. -/
inductive Leads : List Edit → Text → Text → Prop
  | nil
      {text : Text} :
      Leads [] text text
  | cons
      {edit : Edit}
      {edits : List Edit}
      {text middle text' : Text}
      (hbound : Text.size text < positionBound)
      (hedit : edit.Splices text middle)
      (hedits : Leads edits middle text') :
      Leads (edit :: edits) text text'

theorem Leads.concat
    (h : Leads edits text text')
    (hbound : Text.size text' < positionBound)
    (hedit : edit.Splices text' text'') :
    Leads (edits ++ [edit]) text text'' := by
  induction h with
  | nil =>
      exact .cons hbound hedit .nil
  | cons hstart hfirst _ ih =>
      exact .cons hstart hfirst (ih hbound hedit)

/-- A span is carried over all of the edits, and covers the same bytes if it survives. -/
theorem Leads.exists_carryAll
    (h : Leads edits text text')
    (fate : Fate)
    (hspan : span.start + span.length ≤ Text.size text) :
    ∃ reached carried,
      (carryAll fate span edits : Outcome ε (Fate × Span)) = .ok (reached, carried) ∧
      (reached ≠ .invalidated →
        carried.start + carried.length ≤ Text.size text' ∧
        text'.bytesIn carried = text.bytesIn span) := by
  induction h generalizing fate span with
  | nil =>
      exact ⟨fate, span, rfl, fun _ => ⟨hspan, rfl⟩⟩
  | @cons edit edits text middle text' hbound hedit hedits ih =>
      have hfits : span.Fits := Nat.lt_of_le_of_lt hspan hbound
      obtain ⟨step, next, hcarry⟩ :
          ∃ step next, (edit.carry span : Outcome ε (Fate × Span)) = .ok (step, next) :=
        Edit.exists_carry hfits (hedit.region_fits hbound)
      have hgoOn : ∀ fate, step ≠ .invalidated →
          ∃ reached carried,
            (carryAll fate next edits : Outcome ε (Fate × Span)) = .ok (reached, carried) ∧
            (reached ≠ .invalidated →
              carried.start + carried.length ≤ Text.size text' ∧
              text'.bytesIn carried = text.bytesIn span) := by
        intro fate halive
        obtain ⟨hnext, hbytes⟩ := hedit.bytesIn_carried hspan hcarry halive
        rw [← hbytes]
        exact ih fate hnext
      rw [carryAll, hcarry, Outcome.ok_bind]
      cases step with
      | unmoved =>
          exact hgoOn fate (by simp)
      | moved =>
          exact hgoOn .moved (by simp)
      | invalidated =>
          exact ⟨.invalidated, next, rfl, fun h => absurd rfl h⟩

theorem window_self
    (hhead : (log.head : Outcome LogError Nat) = .ok head)
    (hbase : log.base ≤ origin)
    (hle : origin ≤ head) :
    log.window origin origin = .ok [] := by
  unfold window
  rw [if_neg (Nat.lt_irrefl _), if_neg (by omega), hhead]
  simp only [Outcome.ok_bind]
  rw [if_neg (by omega), Nat.sub_self, List.take_zero]
  rfl

section Push

variable (hhead : (log.head : Outcome LogError Nat) = .ok head)
variable (hbound : head + 1 < positionBound)

include hhead hbound

/-- One more edit changes nothing about the way to the generations before it. -/
theorem window_push_of_le
    (htarget : target ≤ head) :
    (log.push edit).window origin target = log.window origin target := by
  obtain ⟨hsum, -⟩ := head_eq_ok_iff.mp hhead
  unfold window
  rw [hhead, head_push hhead hbound, base_push]
  split
  next =>
    rfl
  next horigin =>
    split
    next =>
      rfl
    next hbase =>
      simp only [Outcome.ok_bind]
      rw [if_neg (by omega), if_neg (by omega)]
      unfold length at hsum
      rw [push, List.drop_append_of_le_length (by omega),
        List.take_append_of_le_length (by rw [List.length_drop]; omega)]

/-- One more edit leads from the newest generation to the next. -/
theorem window_push_head
    (hbase : log.base ≤ origin)
    (horigin : origin ≤ head)
    (hwindow : log.window origin head = .ok edits) :
    (log.push edit).window origin (head + 1) = .ok (edits ++ [edit]) := by
  obtain ⟨hsum, -⟩ := head_eq_ok_iff.mp hhead
  rw [window_head hhead hbase horigin, Except.ok.injEq] at hwindow
  rw [window_head (head_push hhead hbound) hbase (by omega), base_push, ← hwindow]
  unfold length at hsum
  rw [push, List.drop_append_of_le_length (by omega)]

end Push

end EditLog

namespace Slot

variable {slot : Slot Document}
variable {snapshots : List Document}
variable {log : EditLog}

/-- A host, its snapshots since some generation, the newest first, and the log of the edits that led
from each of them to the next. -/
inductive Logged : List Document → Slot Document → EditLog → Prop
  | started
      (slot : Slot Document) :
      Logged [slot.current] slot (.startingAt slot.current.generation)
  | changed
      {snapshots : List Document}
      {slot slot' : Slot Document}
      {log : EditLog}
      {wanted : ChangeSet}
      {transition : Transition Document ChangeSet}
      {edit : Edit}
      (hlogged : Logged snapshots slot log)
      (hchange : slot.change wanted = (.ok transition, slot'))
      (hedit : Edit.ofReplacements wanted.replacements = .ok edit) :
      Logged (slot'.current :: snapshots) slot' (log.push edit)

namespace Logged

/-- The current snapshot is the newest one, and the log reaches up to it. -/
theorem generations
    (h : Logged snapshots slot log) :
    slot.current ∈ snapshots ∧
    log.base + log.length = slot.current.generation ∧
    ∀ document ∈ snapshots,
      log.base ≤ document.generation ∧
      document.generation ≤ slot.current.generation := by
  induction h with
  | started slot =>
      refine ⟨List.mem_singleton_self _, rfl, ?_⟩
      intro document hdocument
      obtain rfl := List.mem_singleton.mp hdocument
      exact ⟨Nat.le_refl _, Nat.le_refl _⟩
  | @changed snapshots slot slot' log wanted transition edit hlogged hchange hedit ih =>
      obtain ⟨-, hlength, hsnapshots⟩ := ih
      obtain ⟨-, hturns, -, -, rfl⟩ := change_eq_ok_iff.mp hchange
      have hnext : (slot.publish transition.after).current.generation =
          slot.current.generation + 1 :=
        hturns.generation
      rw [EditLog.length_push, EditLog.base_push, hnext]
      refine ⟨List.mem_cons_self, by omega, ?_⟩
      intro document hdocument
      rcases List.mem_cons.mp hdocument with rfl | hdocument
      · omega
      · have := hsnapshots document hdocument
        omega

theorem head_eq
    (h : Logged snapshots slot log)
    (hrange : slot.current.InRange) :
    (log.head : Outcome LogError Nat) = .ok slot.current.generation :=
  EditLog.head_eq_ok_iff.mpr ⟨h.generations.2.1, hrange.generation⟩

/-- The edits between two snapshots lead from the text of one to that of the other. -/
theorem exists_window
    (h : Logged snapshots slot log)
    (hrange : ∀ document ∈ snapshots, document.InRange)
    {before after : Document}
    (hbefore : before ∈ snapshots)
    (hafter : after ∈ snapshots)
    (hle : before.generation ≤ after.generation) :
    ∃ edits,
      log.window before.generation after.generation = .ok edits ∧
      EditLog.Leads edits before.text after.text := by
  induction h generalizing before after with
  | started slot =>
      obtain rfl := List.mem_singleton.mp hbefore
      obtain rfl := List.mem_singleton.mp hafter
      have hhead := (Logged.started slot).head_eq (hrange _ hbefore)
      exact ⟨[], EditLog.window_self hhead (Nat.le_refl _) hle, .nil⟩
  | @changed snapshots slot slot' log wanted transition edit hlogged hchange hedit ih =>
      obtain ⟨hnewest, holder⟩ := List.forall_mem_cons.mp hrange
      obtain ⟨hmem, hlength, hsnapshots⟩ := hlogged.generations
      have hhead := hlogged.head_eq (holder _ hmem)
      obtain ⟨-, hturns, -, -, rfl⟩ := change_eq_ok_iff.mp hchange
      have hcurrent : (slot.publish transition.after).current = transition.after := rfl
      rw [hcurrent] at hbefore hafter hnewest
      have hnext := hturns.generation
      have hbound : slot.current.generation + 1 < positionBound := hnext ▸ hnewest.generation
      rcases List.mem_cons.mp hafter with rfl | hafter
      · rcases List.mem_cons.mp hbefore with rfl | hbefore
        · refine ⟨[], ?_, .nil⟩
          rw [hnext]
          exact EditLog.window_self (EditLog.head_push hhead hbound)
            (by rw [EditLog.base_push]; omega) (Nat.le_refl _)
        · obtain ⟨hbase, horigin⟩ := hsnapshots before hbefore
          obtain ⟨edits, hwindow, hleads⟩ := ih holder hbefore hmem horigin
          refine ⟨edits ++ [edit], ?_, ?_⟩
          · rw [hnext]
            exact EditLog.window_push_head hhead hbound hbase horigin hwindow
          · exact hleads.concat (holder _ hmem).size_lt (Edit.splices_of_turns hturns hedit)
      · have hnot := (hsnapshots after hafter).2
        rcases List.mem_cons.mp hbefore with rfl | hbefore
        · omega
        · rw [EditLog.window_push_of_le hhead hbound hnot]
          exact ih holder hbefore hafter hle

end Logged

/-- While a host is changed, every change can be put into the log, and a span of one snapshot that
is carried to a later one and survives covers the same bytes there. -/
theorem bytes_of_survivor
    (h : Logged snapshots slot log)
    (hrange : ∀ document ∈ snapshots, document.InRange) :
    (∀ wanted transition slot',
      slot.change wanted = (.ok transition, slot') →
      slot'.current.InRange →
      ∃ edit, Edit.ofReplacements wanted.replacements = .ok edit) ∧
    ∀ before ∈ snapshots, ∀ after ∈ snapshots,
      before.generation ≤ after.generation →
      ∀ span : Span,
        span.start + span.length ≤ before.size →
        ∃ fate carried,
          log.carry span before.generation after.generation = .ok (fate, carried) ∧
          (fate ≠ .invalidated →
            carried.start + carried.length ≤ after.size ∧
            after.text.bytesIn carried = before.text.bytesIn span) := by
  constructor
  · intro wanted transition slot' hchange hafter
    obtain ⟨-, hturns, -, -, rfl⟩ := change_eq_ok_iff.mp hchange
    exact Edit.exists_ofReplacements hturns (hrange _ h.generations.1) hafter
  · intro before hbefore after hafter hle span hspan
    obtain ⟨edits, hwindow, hleads⟩ := h.exists_window hrange hbefore hafter hle
    obtain ⟨fate, carried, hcarry, hsame⟩ := hleads.exists_carryAll .unmoved hspan
    refine ⟨fate, carried, ?_, hsame⟩
    rw [EditLog.carry, hwindow, Outcome.ok_bind]
    exact hcarry

/-- A blank is put in front of `é`, and then a letter behind it: its second byte moves by one. -/
theorem bytes_of_survivor_in_letter :
    ∃ slot log,
      Logged [⟨[' ', 'é', 'x'], ⟨0, 2⟩⟩, ⟨[' ', 'é'], ⟨0, 1⟩⟩, ⟨['é'], ⟨0, 0⟩⟩] slot log ∧
      log.carry ⟨1, 1⟩ 0 2 = .ok (.moved, ⟨2, 1⟩) ∧
      Text.bytesIn [' ', 'é', 'x'] ⟨2, 1⟩ = Text.bytesIn ['é'] ⟨1, 1⟩ ∧
      Text.bytesIn ['é'] ⟨1, 1⟩ = [0xa9] := by
  have hblank : (Slot.holding (Document.ofText 0 ['é'])).change ⟨0, [⟨⟨0, 0⟩, [' ']⟩]⟩ =
      (.ok ⟨⟨['é'], ⟨0, 0⟩⟩, ⟨[' ', 'é'], ⟨0, 1⟩⟩, _⟩, _) := rfl
  have hletter : (Slot.mk (⟨[' ', 'é'], ⟨0, 1⟩⟩ : Document) 1 {}).change
      ⟨1, [⟨⟨3, 0⟩, ['x']⟩]⟩ =
        (.ok ⟨⟨[' ', 'é'], ⟨0, 1⟩⟩, ⟨[' ', 'é', 'x'], ⟨0, 2⟩⟩, _⟩, _) := rfl
  have hlogged := ((Logged.started _).changed hblank rfl).changed hletter rfl
  refine ⟨_, _, hlogged, ?_⟩
  obtain ⟨-, hsurvivors⟩ := bytes_of_survivor hlogged (by
    intro document hdocument
    simp only [List.mem_cons, List.not_mem_nil, or_false] at hdocument
    rcases hdocument with rfl | rfl | rfl <;> exact ⟨by decide, by decide⟩)
  obtain ⟨fate, carried, hcarry, hsame⟩ :=
    hsurvivors ⟨['é'], ⟨0, 0⟩⟩ (by decide) ⟨[' ', 'é', 'x'], ⟨0, 2⟩⟩ (by decide) (by decide)
      ⟨1, 1⟩ (by decide)
  have hmoved : (Fate.moved, (⟨2, 1⟩ : Span)) = (fate, carried) := Except.ok.inj hcarry
  cases hmoved
  exact ⟨hcarry, (hsame (by decide)).2, by decide⟩

end Slot

end LiveTokens
