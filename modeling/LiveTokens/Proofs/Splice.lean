import LiveTokens.ChangeSet
import LiveTokens.Proofs.Carry

/-!
# Joined replacements

Replacements that can be applied to a text leave a front and a back of it alone.
The edit they join into tells where these meet the changed part, before the
change and after it.  For texts of less than `2 ^ 63` bytes they always join.
-/

namespace LiveTokens

namespace Replacement

variable {replacement : Replacement}
variable {delta : Int}

theorem delta?_eq_some_iff :
    replacement.delta? = some delta ↔
      Text.size replacement.text < deltaBound ∧
      replacement.target.length < deltaBound ∧
      delta = (Text.size replacement.text : Int) - replacement.target.length := by
  unfold delta?
  split
  next h =>
    rw [Option.some.injEq]
    constructor
    · rintro rfl
      exact ⟨h.1, h.2, rfl⟩
    · rintro ⟨-, -, rfl⟩
      rfl
  next h =>
    constructor
    · intro hnone
      cases hnone
    · rintro ⟨htext, hlength, -⟩
      exact absurd ⟨htext, hlength⟩ h

end Replacement

namespace Edit

variable {replacement : Replacement}
variable {replacements : List Replacement}
variable {reached stop : Nat}
variable {total delta : Int}

theorem joinFrom_cons_eq_ok_iff :
    joinFrom reached total (replacement :: replacements) = .ok (stop, delta) ↔
      ∃ next : Int,
        reached ≤ replacement.target.start ∧
        replacement.target.Fits ∧
        replacement.delta?.bind (addDelta? total) = some next ∧
        joinFrom (replacement.target.start + replacement.target.length) next replacements =
          .ok (stop, delta) := by
  rw [joinFrom]
  split
  next hlt =>
    constructor
    · intro h
      cases h
    · rintro ⟨_, hle, -⟩
      omega
  next hle =>
    rw [Outcome.bind_eq_ok_iff]
    constructor
    · rintro ⟨middle, hmiddle, h⟩
      obtain ⟨rfl, hfits⟩ := Span.stop_eq_ok_iff.mp hmiddle
      cases hnext : replacement.delta?.bind (addDelta? total) with
      | none =>
          rw [hnext] at h
          cases h
      | some next =>
          rw [hnext] at h
          exact ⟨next, by omega, hfits, rfl, h⟩
    · rintro ⟨next, -, hfits, hnext, h⟩
      refine ⟨_, hfits.stop_eq, ?_⟩
      rw [hnext]
      exact h

theorem addDelta?_eq_some_iff
    {next : Int} :
    replacement.delta?.bind (addDelta? total) = some next ↔
      Text.size replacement.text < deltaBound ∧
      replacement.target.length < deltaBound ∧
      next = total + ((Text.size replacement.text : Int) - replacement.target.length) ∧
      -deltaBound ≤ next ∧
      next < deltaBound := by
  rw [Option.bind_eq_some_iff]
  constructor
  · rintro ⟨change, hchange, hsum⟩
    obtain ⟨htext, hlength, rfl⟩ := Replacement.delta?_eq_some_iff.mp hchange
    unfold addDelta? at hsum
    split at hsum
    next hbounds =>
      cases hsum
      exact ⟨htext, hlength, rfl, hbounds.1, hbounds.2⟩
    next =>
      cases hsum
  · rintro ⟨htext, hlength, rfl, hlow, hhigh⟩
    refine ⟨_, Replacement.delta?_eq_some_iff.mpr ⟨htext, hlength, rfl⟩, ?_⟩
    unfold addDelta?
    rw [if_pos ⟨hlow, hhigh⟩]

/-- Replacements end behind the place they start from, and remove no more than what lies between. -/
theorem bounds_of_joinFrom
    (h : joinFrom reached total replacements = .ok (stop, delta))
    (hreached : reached < positionBound) :
    reached ≤ stop ∧
    stop < positionBound ∧
    total ≤ delta + ((stop : Int) - reached) := by
  induction replacements generalizing reached total with
  | nil =>
      cases h
      exact ⟨Nat.le_refl _, hreached, by omega⟩
  | cons replacement replacements ih =>
      obtain ⟨next, hle, hfits, hnext, hrest⟩ := joinFrom_cons_eq_ok_iff.mp h
      obtain ⟨-, -, rfl, -, -⟩ := addDelta?_eq_some_iff.mp hnext
      obtain ⟨hstop, hbound, hdelta⟩ := ih hrest hfits
      exact ⟨by omega, hbound, by omega⟩

theorem join_cons_eq_ok_iff
    {edit : Edit} :
    join (replacement :: replacements) = .ok edit ↔
      ∃ stop delta,
        joinFrom 0 0 (replacement :: replacements) = .ok (stop, delta) ∧
        edit = ⟨Span.ofBounds replacement.target.start stop, delta⟩ := by
  unfold join
  rw [Outcome.bind_eq_ok_iff]
  constructor
  · rintro ⟨⟨stop, delta⟩, hjoin, hedit⟩
    exact ⟨stop, delta, hjoin, (Except.ok.inj hedit).symm⟩
  · rintro ⟨stop, delta, hjoin, rfl⟩
    exact ⟨(stop, delta), hjoin, rfl⟩

/-- A joined edit ends at a position and removes no more than its region. -/
theorem plausible_of_join
    {edit : Edit}
    (h : join replacements = .ok edit) :
    edit.region.Fits ∧ edit.Plausible := by
  cases replacements with
  | nil =>
      cases h
  | cons replacement replacements =>
      obtain ⟨stop, delta, hjoin, rfl⟩ := join_cons_eq_ok_iff.mp h
      obtain ⟨next, -, hfits, hnext, hrest⟩ := joinFrom_cons_eq_ok_iff.mp hjoin
      obtain ⟨-, -, rfl, -, -⟩ := addDelta?_eq_some_iff.mp hnext
      obtain ⟨hstop, hbound, hdelta⟩ := bounds_of_joinFrom hrest hfits
      unfold Span.Fits Plausible Span.ofBounds
      dsimp only
      exact ⟨by omega, by omega⟩

end Edit

namespace Text

variable {text text' rest : Text}
variable {replacement : Replacement}
variable {replacements : List Replacement}
variable {reached : Nat}

/-- A replacement whose target is cut out of the text gives way to its text, and the others go on
behind it. -/
theorem replaceFrom_cons_of_cut
    {kept removed behind : Text}
    (hkept : reached + size kept = replacement.target.start)
    (hremoved : size removed = replacement.target.length)
    (hfits : replacement.target.Fits) :
    replaceFrom reached (kept ++ removed ++ behind) (replacement :: replacements) =
      replaceFrom (replacement.target.start + replacement.target.length) behind replacements >>=
        fun changed => .ok (kept ++ replacement.text ++ changed) := by
  have hkeptSplit : splitAt? (kept ++ removed ++ behind)
      (replacement.target.start - reached) = some (kept, removed ++ behind) :=
    splitAt?_eq_some_iff.mpr ⟨by rw [List.append_assoc], by omega⟩
  have hremovedSplit : splitAt? (removed ++ behind) replacement.target.length =
      some (removed, behind) :=
    splitAt?_eq_some_iff.mpr ⟨rfl, hremoved⟩
  rw [replaceFrom, if_neg (by omega), hfits.stop_eq, Outcome.ok_bind,
    if_neg (by simp only [size_append]; omega), hkeptSplit]
  dsimp only
  rw [hremovedSplit]
  rfl

theorem replaceFrom_cons_eq_ok_iff :
    replaceFrom reached rest (replacement :: replacements) = .ok text ↔
      ∃ kept removed behind changed,
        rest = kept ++ removed ++ behind ∧
        reached + size kept = replacement.target.start ∧
        size removed = replacement.target.length ∧
        replacement.target.Fits ∧
        replaceFrom (replacement.target.start + replacement.target.length) behind replacements =
          .ok changed ∧
        text = kept ++ replacement.text ++ changed := by
  constructor
  · intro h
    rw [replaceFrom] at h
    split at h
    next =>
      cases h
    next hle =>
      obtain ⟨stop, hstop, hstep⟩ := Outcome.bind_eq_ok_iff.mp h
      obtain ⟨rfl, hfits⟩ := Span.stop_eq_ok_iff.mp hstop
      split at hstep
      next =>
        cases hstep
      next =>
        split at hstep
        next =>
          cases hstep
        next kept tail hkept =>
          obtain ⟨rfl, hkeptSize⟩ := splitAt?_eq_some_iff.mp hkept
          split at hstep
          next =>
            cases hstep
          next removed behind hremoved =>
            obtain ⟨rfl, hremovedSize⟩ := splitAt?_eq_some_iff.mp hremoved
            obtain ⟨changed, hchanged, htext⟩ := Outcome.bind_eq_ok_iff.mp hstep
            exact ⟨kept, removed, behind, changed, by rw [List.append_assoc], by omega,
              hremovedSize, hfits, hchanged, (Except.ok.inj htext).symm⟩
  · rintro ⟨kept, removed, behind, changed, rfl, hkept, hremoved, hfits, hchanged, rfl⟩
    rw [replaceFrom_cons_of_cut hkept hremoved hfits, hchanged]
    rfl

/-- From a place on, replacements change a part of the text up to where they end. -/
theorem exists_changed_of_replaceFrom
    {stop : Nat}
    {total delta : Int}
    (h : replaceFrom reached rest replacements = .ok text)
    (hjoin : Edit.joinFrom reached total replacements = .ok (stop, delta)) :
    ∃ old new back,
      rest = old ++ back ∧
      text = new ++ back ∧
      reached + size old = stop ∧
      (size new : Int) + total = size old + delta := by
  induction replacements generalizing reached rest text total with
  | nil =>
      cases h
      cases hjoin
      exact ⟨[], [], text, rfl, rfl, rfl, by simp⟩
  | cons replacement replacements ih =>
      obtain ⟨kept, removed, behind, changed, rfl, hkept, hremoved, hfits, hchanged, rfl⟩ :=
        replaceFrom_cons_eq_ok_iff.mp h
      obtain ⟨next, -, -, hnext, hrest⟩ := Edit.joinFrom_cons_eq_ok_iff.mp hjoin
      obtain ⟨-, -, rfl, -, -⟩ := Edit.addDelta?_eq_some_iff.mp hnext
      obtain ⟨old, new, back, rfl, rfl, hstop, hdelta⟩ := ih hchanged hrest
      refine ⟨kept ++ removed ++ old, kept ++ replacement.text ++ new, back, ?_, ?_, ?_, ?_⟩
      · simp only [List.append_assoc]
      · simp only [List.append_assoc]
      · simp only [size_append]
        omega
      · simp only [size_append]
        omega

/-- Both texts have the front and the back in common that the joined edit leaves alone. -/
theorem exists_changed_of_replaceAll
    {edit : Edit}
    (h : replaceAll text replacements = .ok text')
    (hjoin : Edit.join replacements = .ok edit) :
    ∃ front old new back,
      text = front ++ old ++ back ∧
      text' = front ++ new ++ back ∧
      size front = edit.region.start ∧
      size old = edit.region.length ∧
      (size new : Int) = size old + edit.delta := by
  cases replacements with
  | nil =>
      cases hjoin
  | cons replacement replacements =>
      obtain ⟨stop, delta, hjoinFrom, rfl⟩ := Edit.join_cons_eq_ok_iff.mp hjoin
      obtain ⟨front, removed, behind, changed, rfl, hfront, hremoved, hfits, hchanged, rfl⟩ :=
        replaceFrom_cons_eq_ok_iff.mp h
      obtain ⟨next, -, -, hnext, hrest⟩ := Edit.joinFrom_cons_eq_ok_iff.mp hjoinFrom
      obtain ⟨-, -, rfl, -, -⟩ := Edit.addDelta?_eq_some_iff.mp hnext
      obtain ⟨old, new, back, rfl, rfl, hstop, hdelta⟩ :=
        exists_changed_of_replaceFrom hchanged hrest
      refine ⟨front, removed ++ old, replacement.text ++ new, back, ?_, ?_, ?_, ?_, ?_⟩
      · simp only [List.append_assoc]
      · simp only [List.append_assoc]
      · rw [Nat.zero_add] at hfront
        exact hfront
      · simp only [size_append, Span.ofBounds]
        omega
      · simp only [size_append]
        omega

/-- From a place on, replacements join if neither text is too long. -/
theorem exists_joinFrom_of_replaceFrom
    (total : Int)
    (h : replaceFrom reached rest replacements = .ok text)
    (hrest : size rest < deltaBound)
    (htext : size text < deltaBound)
    (hlow : -(deltaBound : Int) ≤ total - size rest)
    (hhigh : total + size text < deltaBound) :
    ∃ stop delta, Edit.joinFrom reached total replacements = .ok (stop, delta) := by
  induction replacements generalizing reached rest text total with
  | nil =>
      exact ⟨reached, total, rfl⟩
  | cons replacement replacements ih =>
      obtain ⟨kept, removed, behind, changed, rfl, hkept, hremoved, hfits, hchanged, rfl⟩ :=
        replaceFrom_cons_eq_ok_iff.mp h
      simp only [size_append] at hrest htext hlow hhigh
      obtain ⟨stop, delta, hjoin⟩ :=
        ih (total + ((size replacement.text : Int) - replacement.target.length)) hchanged
          (by omega) (by omega) (by omega) (by omega)
      refine ⟨stop, delta, Edit.joinFrom_cons_eq_ok_iff.mpr ⟨_, by omega, hfits, ?_, hjoin⟩⟩
      exact Edit.addDelta?_eq_some_iff.mpr ⟨by omega, by omega, rfl, by omega, by omega⟩

/-- Replacements between texts that are not too long join into one edit. -/
theorem exists_join_of_replaceAll
    (h : replaceAll text replacements = .ok text')
    (hsome : replacements ≠ [])
    (htext : size text < deltaBound)
    (htext' : size text' < deltaBound) :
    ∃ edit, Edit.join replacements = .ok edit := by
  cases replacements with
  | nil =>
      exact absurd rfl hsome
  | cons replacement replacements =>
      obtain ⟨stop, delta, hjoin⟩ :=
        exists_joinFrom_of_replaceFrom 0 h htext htext' (by omega) (by omega)
      exact ⟨_, Edit.join_cons_eq_ok_iff.mpr ⟨stop, delta, hjoin, rfl⟩⟩

end Text

end LiveTokens
