import Mathlib.Algebra.GroupWithZero.Nat
import LiveTokens.Proofs.Hosting
import LiveTokens.Slot.Counter

/-!
# Changes amid rivals

A change that finds the slot written since it has loaded the snapshot starts over
from the new one.  Whatever its rivals do, it comes to an end, and the slot is
left as if all changes had been made one after the other: those of the rivals
first, and behind them the change itself, unless it is refused.

An attempt is followed by another one exactly if the change could be carried out
on the snapshot that was loaded, and the rival of that attempt was accepted.  A
change that cannot be carried out does not come to its swap, so that an accepted
rival makes no difference to it then.

Each attempt makes the change that the attempt before it has handed back
(`attempted`).  That this is the wanted change, and that a change moves the object
on by one version, is a matter of what the changes of an object do.  These are two
laws of their own, `ReturnsChange` and `KeepsVersion`, and all else holds without
them.

**Results.**  `settles_amid_rivals`.
-/

namespace LiveTokens

/-- A change that is made hands itself back for another attempt. -/
class ReturnsChange
    (α : Type)
    {κ ρ ε : Type}
    [Editable α κ ρ ε] : Prop where
  again_eq : ∀ {wanted again : κ} {record : ρ} {object changed : α},
    (Editable.apply wanted).outcome object = (.ok (again, record), changed) →
    again = wanted

/-- A change that is made leaves the version alone, and what is done to the version shows. -/
class KeepsVersion
    (α : Type)
    {κ ρ ε : Type}
    [Editable α κ ρ ε] : Prop where
  version_apply : ∀ {wanted again : κ} {record : ρ} {object changed : α},
    (Editable.apply wanted).outcome object = (.ok (again, record), changed) →
    Versioned.version changed = Versioned.version object
  version_modifyVersion : ∀ (step : Version → Version) (object : α),
    Versioned.version (Editable.modifyVersion step object) = step (Versioned.version object)

namespace Counter

variable {counter changed : Counter}
variable {amount : Nat}
variable {handed : Nat × Nat}

theorem outcome_add_eq_ok_iff :
    (add amount).outcome counter = (.ok handed, changed) ↔
      counter.value + amount < 1 <<< 32 ∧
      changed = { counter with value := counter.value + amount } ∧
      handed = (amount, amount) := by
  rw [add, Work.outcome_bind_of_ok (Work.outcome_get counter)]
  split
  next hfits =>
    constructor
    · intro h
      cases h
      exact ⟨hfits, rfl, rfl⟩
    · rintro ⟨-, rfl, rfl⟩
      rfl
  next hlarge =>
    constructor
    · intro h
      cases h
    · rintro ⟨hfits, -⟩
      exact absurd hfits hlarge

instance : ReturnsChange Counter where
  again_eq h := congrArg Prod.fst (outcome_add_eq_ok_iff.mp h).2.2

instance : KeepsVersion Counter where
  version_apply h := by
    obtain ⟨-, rfl, -⟩ := outcome_add_eq_ok_iff.mp h
    rfl
  version_modifyVersion _ _ := rfl

end Counter

namespace Document

variable {document changed : Document}
variable {wanted : ChangeSet}
variable {handed : ChangeSet × ChangeSet}

theorem of_outcome_rewrite_eq_ok
    (h : (rewrite wanted).outcome document = (.ok handed, changed)) :
    applyChanges wanted document = .ok changed ∧ handed = (wanted, wanted) := by
  rw [outcome_rewrite] at h
  split at h
  next hchanged =>
    cases h
    exact ⟨hchanged, rfl⟩
  next =>
    cases h

instance : ReturnsChange Document where
  again_eq h := congrArg Prod.fst (of_outcome_rewrite_eq_ok h).2

instance : KeepsVersion Document where
  version_apply h := (applyChanges_eq_ok_iff.mp (of_outcome_rewrite_eq_ok h).1).2.2
  version_modifyVersion _ _ := rfl

end Document

namespace Slot

variable {α κ ρ ε : Type}
variable [Editable α κ ρ ε]
variable {slot slot' : Slot α}
variable {object new : α}
variable {wanted : κ}
variable {rivals changes : List κ}
variable {failure : Failure ε}
variable {transition : Transition α ρ}
variable {made next : Draft α κ ρ}

section Alone

theorem exists_of_draft_eq_ok
    (h : draft object wanted = .ok made) :
    ∃ changed,
      (Editable.apply wanted).outcome object = (.ok (made.again, made.record), changed) ∧
      made.object = Editable.modifyVersion Version.successor changed := by
  unfold draft at h
  split at h
  next =>
    cases h
  next again record changed happly =>
    cases h
    exact ⟨changed, happly, rfl⟩

theorem change_of_ok
    (h : draft slot.current wanted = .ok made) :
    slot.change wanted =
      (.ok ⟨slot.current, made.object, made.record⟩, slot.publish made.object) := by
  rw [change, h]

theorem change_of_error
    (h : draft slot.current wanted = .error failure) :
    slot.change wanted = (.error failure, slot) := by
  rw [change, h]

theorem change_eq_ok
    (h : slot.change wanted = (.ok transition, slot')) :
    transition.before = slot.current ∧
    (∃ again, draft slot.current wanted = .ok ⟨transition.after, again, transition.change⟩) ∧
    slot' = slot.publish transition.after := by
  cases hwanted : draft slot.current wanted with
  | error failure =>
      rw [change_of_error hwanted] at h
      cases h
  | ok made =>
      rw [change_of_ok hwanted] at h
      cases h
      exact ⟨rfl, ⟨made.again, rfl⟩, rfl⟩

/-- The slot accepts the change as it is now. -/
def Accepts
    (slot : Slot α)
    (wanted : κ) : Prop :=
  ∃ made, draft slot.current wanted = .ok made

theorem successor_of_ok
    (h : draft object wanted = .ok made) :
    successor object wanted = .ok made.object := by
  rw [successor, h]
  rfl

theorem version_successor
    [KeepsVersion α]
    (h : successor object wanted = .ok new) :
    Versioned.version new = (Versioned.version object).successor := by
  cases hmade : draft object wanted with
  | error failure =>
      rw [successor, hmade] at h
      cases h
  | ok made =>
      obtain ⟨changed, happly, hobject⟩ := exists_of_draft_eq_ok hmade
      rw [successor_of_ok hmade] at h
      cases h
      rw [hobject, KeepsVersion.version_modifyVersion, KeepsVersion.version_apply happly]

/-- The slot after changes that were made one after the other. -/
def changeAll
    (slot : Slot α)
    (changes : List κ) : Slot α :=
  changes.foldl (fun slot wanted => (slot.change wanted).2) slot

/-- The changes that are accepted if all of them are made one after the other. -/
def accepted
    (slot : Slot α) : List κ → List κ
  | [] => []
  | wanted :: changes =>
    match slot.change wanted with
    | (.ok _, slot) => wanted :: slot.accepted changes
    | (.error _, slot) => slot.accepted changes

/-- The results of changes that are made one after the other. -/
def told
    (slot : Slot α) : List κ → List (Outcome ε (Transition α ρ))
  | [] => []
  | wanted :: changes => (slot.change wanted).1 :: (slot.change wanted).2.told changes

theorem changeAll_cons_of_ok
    (h : draft slot.current wanted = .ok made)
    (changes : List κ) :
    slot.changeAll (wanted :: changes) = (slot.publish made.object).changeAll changes := by
  rw [changeAll, List.foldl_cons, change_of_ok h]
  rfl

theorem changeAll_cons_of_error
    (h : draft slot.current wanted = .error failure)
    (changes : List κ) :
    slot.changeAll (wanted :: changes) = slot.changeAll changes := by
  rw [changeAll, List.foldl_cons, change_of_error h]
  rfl

theorem accepted_cons_of_ok
    (h : draft slot.current wanted = .ok made)
    (changes : List κ) :
    slot.accepted (wanted :: changes) = wanted :: (slot.publish made.object).accepted changes := by
  rw [accepted, change_of_ok h]

theorem accepted_cons_of_error
    (h : draft slot.current wanted = .error failure)
    (changes : List κ) :
    slot.accepted (wanted :: changes) = slot.accepted changes := by
  rw [accepted, change_of_error h]

theorem told_cons_of_ok
    (h : draft slot.current wanted = .ok made)
    (changes : List κ) :
    slot.told (wanted :: changes) =
      .ok ⟨slot.current, made.object, made.record⟩ :: (slot.publish made.object).told changes := by
  rw [told, change_of_ok h]

theorem accepted_sublist :
    (slot.accepted changes).Sublist changes := by
  induction changes generalizing slot with
  | nil =>
      exact List.Sublist.slnil
  | cons wanted changes ih =>
      cases h : draft slot.current wanted with
      | error failure =>
          rw [accepted_cons_of_error h]
          exact ih.cons _
      | ok made =>
          rw [accepted_cons_of_ok h]
          exact ih.cons_cons _

/-- The accepted changes, carried out one on top of the other, give the object of the slot. -/
theorem foldlM_accepted
    (slot : Slot α)
    (changes : List κ) :
    (slot.accepted changes).foldlM successor slot.current =
      .ok (slot.changeAll changes).current := by
  induction changes generalizing slot with
  | nil =>
      rfl
  | cons wanted changes ih =>
      cases h : draft slot.current wanted with
      | error failure =>
          rw [accepted_cons_of_error h, changeAll_cons_of_error h]
          exact ih slot
      | ok made =>
          rw [accepted_cons_of_ok h, changeAll_cons_of_ok h, List.foldlM_cons, successor_of_ok h,
            Outcome.ok_bind]
          exact ih (slot.publish made.object)

/-- Changes that are carried out one on top of the other lead on by as many generations. -/
theorem version_foldlM
    [KeepsVersion α]
    (h : changes.foldlM successor object = .ok new) :
    Versioned.version new =
      ⟨(Versioned.version object).lineage,
        (Versioned.version object).generation + changes.length⟩ := by
  induction changes generalizing object with
  | nil =>
      cases h
      rfl
  | cons wanted changes ih =>
      rw [List.foldlM_cons, Outcome.bind_eq_ok_iff] at h
      obtain ⟨next, hnext, h⟩ := h
      rw [ih h, version_successor hnext, Version.successor, List.length_cons]
      dsimp only
      rw [Nat.add_assoc, Nat.add_comm 1]

end Alone

section Attempts

/-- What a change hands back for another attempt.  There is none if the change is refused. -/
def handedBack
    (object : α)
    (wanted : κ) : κ :=
  match draft object wanted with
  | .ok made => made.again
  | .error _ => wanted

/-- The change that an attempt makes amid rivals: the wanted one at first, and from then on the one
that the attempt before has handed back.  That attempt had loaded what the rivals up to then had
left. -/
def attempted
    (slot : Slot α)
    (wanted : κ)
    (rivals : List κ) : Nat → κ
  | 0 => wanted
  | count + 1 =>
    handedBack (slot.changeAll (rivals.take count)).current (slot.attempted wanted rivals count)

theorem attempted_cons
    {rival : κ}
    (count : Nat) :
    slot.attempted wanted (rival :: rivals) (count + 1) =
      (slot.change rival).2.attempted (handedBack slot.current wanted) rivals count := by
  induction count with
  | zero =>
      rfl
  | succ count ih =>
      rw [attempted, ih, attempted]
      rfl

theorem attempted_cons_of_ok
    {rival : κ}
    {count : Nat}
    (hwanted : draft slot.current wanted = .ok made)
    (hrival : draft slot.current rival = .ok next)
    (hcount : 0 < count) :
    slot.attempted wanted (rival :: rivals) count =
      (slot.publish next.object).attempted made.again rivals (count - 1) := by
  obtain ⟨earlier, rfl⟩ := Nat.exists_eq_succ_of_ne_zero (Nat.ne_of_gt hcount)
  rw [attempted_cons, change_of_ok hrival, handedBack, hwanted]
  rfl

/-- A change that hands itself back is the one that all attempts make. -/
theorem attempted_eq
    [ReturnsChange α]
    (count : Nat) :
    slot.attempted wanted rivals count = wanted := by
  induction count with
  | zero =>
      rfl
  | succ count ih =>
      rw [attempted, ih, handedBack]
      split
      next made hmade =>
        obtain ⟨changed, happly, -⟩ := exists_of_draft_eq_ok hmade
        exact ReturnsChange.again_eq happly
      next =>
        rfl

end Attempts

section Amid

variable {run : Run α ρ ε}

/-- How a change fares amid rivals: what becomes of its first attempt, and from there on. -/
inductive Fares : κ → Slot α → List κ → Run α ρ ε → Prop
  | alone
      {wanted : κ}
      {slot : Slot α} :
      Fares wanted slot [] ⟨(slot.change wanted).1, (slot.change wanted).2, 1, []⟩
  | refused
      {wanted rival : κ}
      {slot : Slot α}
      {rivals : List κ}
      {failure : Failure ε}
      (hwanted : draft slot.current wanted = .error failure) :
      Fares wanted slot (rival :: rivals)
        ⟨.error failure, (slot.change rival).2, 1, [(slot.change rival).1]⟩
  | undisturbed
      {wanted rival : κ}
      {slot : Slot α}
      {made : Draft α κ ρ}
      {rivals : List κ}
      {failure : Failure ε}
      (hwanted : draft slot.current wanted = .ok made)
      (hrival : draft slot.current rival = .error failure) :
      Fares wanted slot (rival :: rivals)
        ⟨.ok ⟨slot.current, made.object, made.record⟩, slot.publish made.object, 1,
          [.error failure]⟩
  | lost
      {wanted rival : κ}
      {slot : Slot α}
      {made next : Draft α κ ρ}
      {rivals : List κ}
      {run : Run α ρ ε}
      (hwanted : draft slot.current wanted = .ok made)
      (hrival : draft slot.current rival = .ok next)
      (hrun : Fares made.again (slot.publish next.object) rivals run) :
      Fares wanted slot (rival :: rivals)
        { run with
          attempts := run.attempts + 1
          rivals := .ok ⟨slot.current, next.object, next.record⟩ :: run.rivals }

section Swaps

variable {ticket : Nat}

theorem swap_of_error
    (h : draft object wanted = .error failure) :
    slot.swap ticket object wanted = (.settled (.error failure), slot) := by
  rw [swap, h]

theorem swap_of_ok
    (h : draft object wanted = .ok made)
    (hticket : slot.writes = ticket) :
    slot.swap ticket object wanted =
      (.settled (.ok ⟨object, made.object, made.record⟩), slot.publish made.object) := by
  rw [swap, h]
  dsimp only
  rw [publishIf, if_pos hticket]

theorem swap_of_written
    (h : draft object wanted = .ok made)
    (hticket : slot.writes ≠ ticket) :
    slot.swap ticket object wanted = (.lost made.again, slot) := by
  rw [swap, h]
  dsimp only
  rw [publishIf, if_neg hticket]

end Swaps

theorem fares_changeAmid
    (slot : Slot α)
    (wanted : κ)
    (rivals : List κ) :
    Fares wanted slot rivals (slot.changeAmid wanted rivals) := by
  induction rivals generalizing slot wanted with
  | nil =>
      exact .alone
  | cons rival rivals ih =>
      rw [changeAmid]
      dsimp only
      cases hwanted : draft slot.current wanted with
      | error failure =>
          rw [swap_of_error hwanted]
          exact .refused hwanted
      | ok made =>
          cases hrival : draft slot.current rival with
          | error failure =>
              rw [change_of_error hrival, swap_of_ok hwanted rfl]
              exact .undisturbed hwanted hrival
          | ok next =>
              have hticket : (slot.publish next.object).writes ≠ slot.writes := Nat.succ_ne_self _
              rw [change_of_ok hrival, swap_of_written hwanted hticket]
              exact .lost hwanted hrival (ih _ _)

namespace Fares

theorem attempts_pos
    (h : Fares wanted slot rivals run) :
    0 < run.attempts := by
  cases h with
  | alone => exact Nat.one_pos
  | refused hwanted => exact Nat.one_pos
  | undisturbed hwanted hrival => exact Nat.one_pos
  | lost hwanted hrival hrun => exact Nat.succ_pos _

theorem attempts_le
    (h : Fares wanted slot rivals run) :
    run.attempts ≤ rivals.length + 1 := by
  induction h with
  | alone => exact Nat.le_refl 1
  | refused hwanted => exact Nat.le_add_left 1 _
  | undisturbed hwanted hrival => exact Nat.le_add_left 1 _
  | lost hwanted hrival hrun ih => exact Nat.succ_le_succ ih

/-- The rivals that the change has met have the results that they have among themselves. -/
theorem rivals_eq
    (h : Fares wanted slot rivals run) :
    run.rivals = slot.told (rivals.take run.attempts) := by
  induction h with
  | alone =>
      rfl
  | refused hwanted =>
      rfl
  | undisturbed hwanted hrival =>
      rw [List.take_succ_cons, told, change_of_error hrival]
      rfl
  | lost hwanted hrival hrun ih =>
      rw [List.take_succ_cons, told_cons_of_ok hrival, ih]

/-- An accepted change is made as if all rivals that it met had been before it. -/
theorem change_eq_of_ok
    (h : Fares wanted slot rivals run)
    (hok : run.result = .ok transition) :
    (slot.changeAll (rivals.take run.attempts)).change
      (slot.attempted wanted rivals (run.attempts - 1)) = (.ok transition, run.slot) := by
  induction h with
  | alone =>
      exact Prod.ext hok rfl
  | refused hwanted =>
      cases hok
  | undisturbed hwanted hrival =>
      cases hok
      rw [List.take_succ_cons, changeAll_cons_of_error hrival]
      exact change_of_ok hwanted
  | lost hwanted hrival hrun ih =>
      rw [List.take_succ_cons, changeAll_cons_of_ok hrival, Nat.add_sub_cancel,
        attempted_cons_of_ok hwanted hrival hrun.attempts_pos]
      exact ih hok

/-- A refused change leaves what the rivals have made, and could not be carried out on the snapshot
that its last attempt loaded. -/
theorem slot_eq_of_error
    (h : Fares wanted slot rivals run)
    (herror : run.result = .error failure) :
    run.slot = slot.changeAll (rivals.take run.attempts) ∧
    draft (slot.changeAll (rivals.take (run.attempts - 1))).current
      (slot.attempted wanted rivals (run.attempts - 1)) = .error failure := by
  induction h with
  | @alone wanted slot =>
      cases hwanted : draft slot.current wanted with
      | error failure' =>
          rw [change_of_error hwanted] at herror ⊢
          cases herror
          exact ⟨rfl, hwanted⟩
      | ok made =>
          rw [change_of_ok hwanted] at herror
          cases herror
  | refused hwanted =>
      cases herror
      exact ⟨rfl, hwanted⟩
  | undisturbed hwanted hrival =>
      cases herror
  | @lost wanted rival slot made next rivals run hwanted hrival hrun ih =>
      obtain ⟨hslot, hrefused⟩ := ih herror
      rw [List.take_succ_cons, changeAll_cons_of_ok hrival, Nat.add_sub_cancel,
        attempted_cons_of_ok hwanted hrival hrun.attempts_pos]
      refine ⟨hslot, ?_⟩
      obtain ⟨lost, hlost⟩ := Nat.exists_eq_succ_of_ne_zero (Nat.ne_of_gt hrun.attempts_pos)
      rw [hlost] at hrefused ⊢
      rw [List.take_succ_cons, changeAll_cons_of_ok hrival]
      exact hrefused

/-- A change that cannot be carried out on the snapshot that it loads first is refused. -/
theorem result_eq_of_error
    (h : Fares wanted slot rivals run)
    (herror : draft slot.current wanted = .error failure) :
    run.result = .error failure := by
  cases h with
  | alone =>
      rw [change_of_error herror]
  | refused hwanted =>
      rw [hwanted] at herror
      cases herror
      rfl
  | undisturbed hwanted hrival =>
      cases hwanted.symm.trans herror
  | lost hwanted hrival hrun =>
      cases hwanted.symm.trans herror

/-- An accepted change has been overtaken once by each accepted rival that it has met. -/
theorem attempts_eq_of_ok
    (h : Fares wanted slot rivals run)
    (hok : run.result = .ok transition) :
    run.attempts = (slot.accepted (rivals.take run.attempts)).length + 1 := by
  induction h with
  | alone =>
      rfl
  | refused hwanted =>
      cases hok
  | undisturbed hwanted hrival =>
      rw [List.take_succ_cons, accepted_cons_of_error hrival]
      rfl
  | lost hwanted hrival hrun ih =>
      rw [List.take_succ_cons, accepted_cons_of_ok hrival, List.length_cons, ← ih hok]

/-- There is another attempt exactly if the change could be carried out and its rival was
accepted. -/
theorem again_iff
    (h : Fares wanted slot rivals run)
    {count : Nat}
    (hcount : count < run.attempts) :
    count + 1 < run.attempts ↔
      (slot.changeAll (rivals.take count)).Accepts (slot.attempted wanted rivals count) ∧
      ∃ rival, rivals[count]? = some rival ∧
        (slot.changeAll (rivals.take count)).Accepts rival := by
  induction h generalizing count with
  | alone =>
      obtain rfl : count = 0 := Nat.lt_one_iff.mp hcount
      simp
  | refused hwanted =>
      obtain rfl : count = 0 := Nat.lt_one_iff.mp hcount
      simp [Accepts, changeAll, attempted, hwanted]
  | undisturbed hwanted hrival =>
      obtain rfl : count = 0 := Nat.lt_one_iff.mp hcount
      simp [Accepts, changeAll, hrival]
  | lost hwanted hrival hrun ih =>
      cases count with
      | zero =>
          have hpos := hrun.attempts_pos
          simp [Accepts, changeAll, attempted, hwanted, hrival, hpos]
      | succ count =>
          rw [List.take_succ_cons, changeAll_cons_of_ok hrival, List.getElem?_cons_succ,
            attempted_cons_of_ok hwanted hrival (Nat.succ_pos count), Nat.succ_sub_one,
            ← ih (Nat.lt_of_succ_lt_succ hcount)]
          exact Nat.succ_lt_succ_iff

end Fares

end Amid

section Settled

/-- All that has been swapped in, in this order: the accepted rivals that the change has met, and
then the change itself as its last attempt had it, unless it was refused. -/
def swapped
    (slot : Slot α)
    (wanted : κ)
    (rivals : List κ) : List κ :=
  slot.accepted (rivals.take (slot.changeAmid wanted rivals).attempts) ++
    if (slot.changeAmid wanted rivals).result.isOk then
      [slot.attempted wanted rivals ((slot.changeAmid wanted rivals).attempts - 1)]
    else
      []

/-- A change amid rivals comes to an end, with no change lost and none made twice. -/
structure Settles
    (slot : Slot α)
    (wanted : κ)
    (rivals : List κ)
    (run : Run α ρ ε) : Prop where
  attempts_le : run.attempts ≤ rivals.length + 1
  /-- An attempt is followed by another one exactly if it has lost its swap to an accepted rival. -/
  again_iff : ∀ count < run.attempts,
    (count + 1 < run.attempts ↔
      (slot.changeAll (rivals.take count)).Accepts (slot.attempted wanted rivals count) ∧
      ∃ rival, rivals[count]? = some rival ∧
        (slot.changeAll (rivals.take count)).Accepts rival)
  /-- The rivals are told what they would be told without the change. -/
  rivals_eq : run.rivals = slot.told (rivals.take run.attempts)
  swapped_sublist :
    (slot.swapped wanted rivals).Sublist
      (rivals.take run.attempts ++ [slot.attempted wanted rivals (run.attempts - 1)])
  current_eq :
    (slot.swapped wanted rivals).foldlM successor slot.current = .ok run.slot.current
  of_ok : ∀ transition, run.result = .ok transition →
    run.attempts = (slot.accepted (rivals.take run.attempts)).length + 1 ∧
    (slot.accepted (rivals.take run.attempts)).foldlM successor slot.current =
      .ok transition.before ∧
    (∃ again,
      draft transition.before (slot.attempted wanted rivals (run.attempts - 1)) =
        .ok ⟨transition.after, again, transition.change⟩) ∧
    run.slot.current = transition.after
  of_error : ∀ failure, run.result = .error failure →
    run.slot = slot.changeAll (rivals.take run.attempts) ∧
    draft (slot.changeAll (rivals.take (run.attempts - 1))).current
      (slot.attempted wanted rivals (run.attempts - 1)) = .error failure

theorem foldlM_swapped :
    (slot.swapped wanted rivals).foldlM successor slot.current =
      .ok (slot.changeAmid wanted rivals).slot.current := by
  have hfares := fares_changeAmid slot wanted rivals
  rw [swapped, List.foldlM_append, foldlM_accepted, Outcome.ok_bind]
  cases hresult : (slot.changeAmid wanted rivals).result with
  | error failure =>
      rw [(hfares.slot_eq_of_error hresult).1]
      rfl
  | ok transition =>
      obtain ⟨-, ⟨again, hdraft⟩, hslot⟩ := change_eq_ok (hfares.change_eq_of_ok hresult)
      rw [hslot, Except.isOk, Except.toBool, if_pos rfl, List.foldlM_cons, successor_of_ok hdraft]
      rfl

theorem settles_changeAmid :
    Settles slot wanted rivals (slot.changeAmid wanted rivals) := by
  have hfares := fares_changeAmid slot wanted rivals
  refine ⟨hfares.attempts_le, fun count hcount => hfares.again_iff hcount, hfares.rivals_eq, ?_,
    foldlM_swapped, ?_, fun failure => hfares.slot_eq_of_error⟩
  · refine accepted_sublist.append ?_
    split
    · exact List.Sublist.refl _
    · exact List.nil_sublist _
  · intro transition hok
    obtain ⟨hbefore, hdraft, hslot⟩ := change_eq_ok (hfares.change_eq_of_ok hok)
    rw [hbefore]
    exact ⟨hfares.attempts_eq_of_ok hok, foldlM_accepted _ _, hdraft,
      congrArg Slot.current hslot⟩

/-- Each accepted change moves the object on by one generation. -/
structure Advances
    (slot : Slot α)
    (wanted : κ)
    (rivals : List κ)
    (run : Run α ρ ε) : Prop where
  version_eq :
    Versioned.version run.slot.current =
      ⟨(Versioned.version slot.current).lineage,
        (Versioned.version slot.current).generation + (slot.swapped wanted rivals).length⟩
  of_ok : ∀ transition, run.result = .ok transition →
    Versioned.version transition.after = (Versioned.version transition.before).successor

theorem advances_changeAmid
    [KeepsVersion α] :
    Advances slot wanted rivals (slot.changeAmid wanted rivals) where
  version_eq := version_foldlM foldlM_swapped
  of_ok transition hok := by
    obtain ⟨-, -, ⟨again, hdraft⟩, -⟩ := settles_changeAmid.of_ok transition hok
    exact version_successor (successor_of_ok hdraft)

end Settled

section Counters

variable {counter counter' : Counter}

theorem value_successor
    {amount : Nat}
    (h : (successor counter amount : Outcome Counter.AddError Counter) = .ok counter') :
    counter'.value = counter.value + amount := by
  cases hmade : (draft counter amount : Outcome Counter.AddError (Draft Counter Nat Nat)) with
  | error failure =>
      rw [successor, hmade] at h
      cases h
  | ok made =>
      obtain ⟨changed, hadd, hobject⟩ := exists_of_draft_eq_ok hmade
      obtain ⟨-, rfl, -⟩ := Counter.outcome_add_eq_ok_iff.mp hadd
      rw [successor_of_ok hmade] at h
      cases h
      rw [hobject]
      rfl

/-- Additions that are carried out one on top of the other add their sum. -/
theorem value_foldlM
    {amounts : List Nat}
    (h : amounts.foldlM successor counter = .ok counter') :
    counter'.value = counter.value + amounts.sum := by
  induction amounts generalizing counter with
  | nil =>
      cases h
      rfl
  | cons amount amounts ih =>
      rw [List.foldlM_cons, Outcome.bind_eq_ok_iff] at h
      obtain ⟨middle, hmiddle, h⟩ := h
      rw [ih h, value_successor hmiddle, List.sum_cons, Nat.add_assoc]

end Counters

section Documents

theorem draft_of_outdated
    {document : Document}
    {wanted : ChangeSet}
    (h : wanted.generation ≠ document.generation) :
    draft document wanted = Outcome.fail (.outdated document.generation wanted.generation) := by
  rw [draft_eq, Document.applyChanges_eq, if_neg h]
  rfl

/-- A change set that loses its first swap is outdated. -/
theorem outdated_of_again
    {slot : Slot Document}
    {wanted : ChangeSet}
    {rivals : List ChangeSet}
    (hagain : 1 < (slot.changeAmid wanted rivals).attempts) :
    (slot.changeAmid wanted rivals).result =
      Outcome.fail (.outdated (slot.current.generation + 1) slot.current.generation) := by
  have hfares := fares_changeAmid slot wanted rivals
  generalize slot.changeAmid wanted rivals = run at hagain hfares ⊢
  cases hfares with
  | alone =>
      exact absurd hagain (Nat.lt_irrefl 1)
  | refused hwanted =>
      exact absurd hagain (Nat.lt_irrefl 1)
  | undisturbed hwanted hrival =>
      exact absurd hagain (Nat.lt_irrefl 1)
  | @lost _ rival slot made next rivals run hwanted hrival hrun =>
      obtain ⟨hgeneration, -⟩ := successor_eq_ok_iff.mp (successor_of_ok hwanted)
      have hnewer : next.object.generation = slot.current.generation + 1 :=
        (successor_eq_ok_iff.mp (successor_of_ok hrival)).2.generation
      obtain ⟨changed, happly, -⟩ := exists_of_draft_eq_ok hwanted
      have hagain := ReturnsChange.again_eq happly
      have houtdated : made.again.generation ≠ next.object.generation := by
        rw [hagain, hnewer, hgeneration]
        exact Nat.ne_of_lt (Nat.lt_succ_self _)
      have hrefused := draft_of_outdated houtdated
      rw [hnewer, hagain, hgeneration] at hrefused
      exact hrun.result_eq_of_error (hagain ▸ hrefused)

end Documents

/-- Amid rivals, every change is made once or refused once.  If changes hand themselves back, then
each attempt makes the wanted one, and if they leave the version alone, then each of them moves the
object on by one generation.  A counter ends with the sum of the amounts that were accepted, and a
change of a document is outdated by the first accepted rival that it could have lost to. -/
theorem settles_amid_rivals :
    (∀ (α κ ρ ε : Type) [Editable α κ ρ ε]
      (slot : Slot α) (wanted : κ) (rivals : List κ),
      Settles slot wanted rivals (slot.changeAmid wanted rivals) ∧
      ([ReturnsChange α] → ∀ count, slot.attempted wanted rivals count = wanted) ∧
      ([KeepsVersion α] → Advances slot wanted rivals (slot.changeAmid wanted rivals))) ∧
    (∀ (slot : Slot Counter) (wanted : Nat) (rivals : List Nat),
      (slot.changeAmid wanted rivals).slot.current.value =
        slot.current.value + (slot.swapped wanted rivals).sum) ∧
    ∀ (slot : Slot Document) (wanted : ChangeSet) (rivals : List ChangeSet),
      ∀ count < (slot.changeAmid wanted rivals).attempts,
        (slot.changeAll (rivals.take count)).Accepts wanted →
        (∃ rival, rivals[count]? = some rival ∧
          (slot.changeAll (rivals.take count)).Accepts rival) →
        (slot.changeAmid wanted rivals).result =
          Outcome.fail (.outdated (slot.current.generation + 1) slot.current.generation) := by
  refine ⟨?_, ?_, ?_⟩
  · intro α κ ρ ε _ slot wanted rivals
    exact ⟨settles_changeAmid, fun count => attempted_eq count, advances_changeAmid⟩
  · intro slot wanted rivals
    exact value_foldlM foldlM_swapped
  · intro slot wanted rivals count hcount hwanted hrival
    have hfares := fares_changeAmid slot wanted rivals
    have hattempt : (slot.changeAll (rivals.take count)).Accepts
        (slot.attempted wanted rivals count) := by
      rwa [attempted_eq]
    have hagain := (hfares.again_iff hcount).mpr ⟨hattempt, hrival⟩
    exact outdated_of_again (Nat.lt_of_le_of_lt (Nat.succ_le_succ (Nat.zero_le count)) hagain)

/-- Two rivals overtake an addition.  Of two deletions of the same character, one is outdated. -/
theorem settles_amid_two_rivals :
    (Settles (Slot.holding (⟨5, ⟨0, 3⟩⟩ : Counter)) 1 [10, 20]
      ((Slot.holding (⟨5, ⟨0, 3⟩⟩ : Counter)).changeAmid 1 [10, 20]) ∧
    Advances (Slot.holding (⟨5, ⟨0, 3⟩⟩ : Counter)) 1 [10, 20]
      ((Slot.holding (⟨5, ⟨0, 3⟩⟩ : Counter)).changeAmid 1 [10, 20]) ∧
    (Slot.holding (⟨5, ⟨0, 3⟩⟩ : Counter)).attempted 1 [10, 20] 2 = 1 ∧
    (Slot.holding (⟨5, ⟨0, 3⟩⟩ : Counter)).swapped 1 [10, 20] = [10, 20, 1] ∧
    ((Slot.holding (⟨5, ⟨0, 3⟩⟩ : Counter)).changeAmid 1 [10, 20]).slot.current.value = 36) ∧
    (Slot.holding (Document.ofText 0 ['a'])).Accepts ⟨0, [⟨⟨0, 1⟩, []⟩]⟩ ∧
    ((Slot.holding (Document.ofText 0 ['a'])).changeAmid ⟨0, [⟨⟨0, 1⟩, []⟩]⟩
      [⟨0, [⟨⟨0, 1⟩, []⟩]⟩]).result = Outcome.fail (.outdated 1 0) := by
  obtain ⟨hsettles, hvalue, houtdated⟩ := settles_amid_rivals
  obtain ⟨hsettles, hattempted, hadvances⟩ := hsettles Counter Nat Nat Counter.AddError
    (Slot.holding ⟨5, ⟨0, 3⟩⟩) 1 [10, 20]
  have hswapped : (Slot.holding (⟨5, ⟨0, 3⟩⟩ : Counter)).swapped 1 [10, 20] = [10, 20, 1] := by
    decide
  have haccepts : (Slot.holding (Document.ofText 0 ['a'])).Accepts ⟨0, [⟨⟨0, 1⟩, []⟩]⟩ :=
    ⟨⟨⟨[], ⟨0, 1⟩⟩, _, _⟩, rfl⟩
  refine ⟨⟨hsettles, hadvances, hattempted 2, hswapped, ?_⟩, haccepts, ?_⟩
  · rw [hvalue, hswapped]
    rfl
  · exact houtdated _ _ _ 0 (by decide) haccepts ⟨_, rfl, haccepts⟩

/-- A vessel for ten units.  It takes what it has room for, hands back the rest, and counts its
changes by itself. -/
structure Vessel where
  level : Nat
  version : Version

instance : Editable Vessel Nat Nat Empty where
  version vessel := vessel.version
  apply amount := do
    let vessel ← get
    let taken := min amount (10 - vessel.level)
    set (⟨vessel.level + taken, vessel.version.successor⟩ : Vessel)
    return (amount - taken, taken)
  modifyVersion step vessel := { vessel with version := step vessel.version }

/-- An accepted rival does not always cause one more attempt, and does not always outdate a change
of a document.  An addition that does not fit is refused in its first attempt, and so is a deletion
beyond the end of the text, whatever has become of the rival.  Where changes do not hand themselves
back, it is not the wanted change that is made, and where they move the version, the generation
grows by more than the number of changes. -/
theorem not_again_of_refused :
    (¬ ∀ (slot : Slot Counter) (wanted : Nat) (rivals : List Nat),
      (slot.changeAmid wanted rivals).attempts =
        (slot.accepted (rivals.take (slot.changeAmid wanted rivals).attempts)).length + 1) ∧
    (¬ ∀ (slot : Slot Document) (wanted rival : ChangeSet),
      slot.Accepts rival →
      ∃ expected found,
        (slot.changeAmid wanted [rival]).result = Outcome.fail (.outdated expected found)) ∧
    (¬ ∀ (α κ ρ ε : Type) [Editable α κ ρ ε] (slot : Slot α) (wanted : κ) (rivals : List κ)
      (transition : Transition α ρ),
      (slot.changeAmid wanted rivals).result = .ok transition →
      successor transition.before wanted = .ok transition.after) ∧
    ¬ ∀ (α κ ρ ε : Type) [Editable α κ ρ ε] (slot : Slot α) (wanted : κ) (rivals : List κ),
      (Versioned.version (slot.changeAmid wanted rivals).slot.current).generation =
        (Versioned.version slot.current).generation + (slot.swapped wanted rivals).length := by
  refine ⟨?_, ?_, ?_, ?_⟩
  · intro h
    have hattempts := h (Slot.holding ⟨4294967295, ⟨0, 0⟩⟩) 1 [0]
    revert hattempts
    decide
  · intro h
    have haccepts : (Slot.holding (Document.ofText 0 ['a'])).Accepts ⟨0, [⟨⟨0, 1⟩, []⟩]⟩ :=
      ⟨⟨⟨[], ⟨0, 1⟩⟩, _, _⟩, rfl⟩
    have hresult : ((Slot.holding (Document.ofText 0 ['a'])).changeAmid ⟨0, [⟨⟨0, 2⟩, []⟩]⟩
        [⟨0, [⟨⟨0, 1⟩, []⟩]⟩]).result = Outcome.fail (.invalid .beyondEnd) := rfl
    obtain ⟨expected, found, houtdated⟩ := h _ ⟨0, [⟨⟨0, 2⟩, []⟩]⟩ _ haccepts
    rw [hresult] at houtdated
    cases houtdated
  · intro h
    have hafter := h Vessel Nat Nat Empty (Slot.holding ⟨0, ⟨0, 0⟩⟩) 3 [1] _ rfl
    have hlevel := congrArg Vessel.level (Except.ok.inj hafter)
    revert hlevel
    decide
  · intro h
    have hgeneration := h Vessel Nat Nat Empty (Slot.holding ⟨0, ⟨0, 0⟩⟩) 3 [1]
    revert hgeneration
    decide

end Slot

end LiveTokens
