import LiveTokens.Proofs.Joining

/-!
# Spans without an end

A span is given by a start and a length, so that its end may lie beyond every
position.  Such a span lies in no document, and whoever looks for the text under it
should find that there is none.  But the end is computed before it is compared with
the end of the text, and the sum overflows.

Slicing asks every span for its end.  Editing and joining go through replacements in
order, and ask the target of each for its end once all in front of it have passed and
its start is in order.  They overflow exactly if the first target without an end is
reached in this way; a replacement in front of it that is refused hides it.

**Results.**  `answered_iff_not_meetsEndless`, `not_answered_of_endless`.
-/

namespace LiveTokens

namespace Replacement

/-- The first target without an end is asked for it: the replacements in front of it have passed,
and it starts behind them. -/
def MeetsEndless
    (Passed : List Replacement → Nat → Prop)
    (replacements : List Replacement) : Prop :=
  ∃ earlier offender later stop,
    replacements = earlier ++ offender :: later ∧
    (∀ replacement ∈ earlier, replacement.target.Fits) ∧
    ¬ offender.target.Fits ∧
    Passed earlier stop ∧
    stop ≤ offender.target.start

variable {Passed Passed' : List Replacement → Nat → Prop}
variable {reached : Nat}
variable {replacement : Replacement}
variable {replacements : List Replacement}

theorem meetsEndless_head
    (hpassed : Passed [] reached)
    (hordered : reached ≤ replacement.target.start)
    (hendless : ¬ replacement.target.Fits) :
    MeetsEndless Passed (replacement :: replacements) :=
  ⟨[], replacement, replacements, reached, rfl, by simp, hendless, hpassed, hordered⟩

/-- A replacement that passes leads to what is met behind it. -/
theorem MeetsEndless.cons
    (h : MeetsEndless Passed' replacements)
    (hfits : replacement.target.Fits)
    (hpassed : ∀ earlier stop, Passed' earlier stop → Passed (replacement :: earlier) stop) :
    MeetsEndless Passed (replacement :: replacements) := by
  obtain ⟨earlier, offender, later, stop, rfl, hearlier, hendless, hbefore, hordered⟩ := h
  exact ⟨replacement :: earlier, offender, later, stop, rfl,
    List.forall_mem_cons.mpr ⟨hfits, hearlier⟩, hendless, hpassed earlier stop hbefore, hordered⟩

end Replacement

theorem Span.stop_eq_overflow
    {ε : Type}
    {span : Span}
    (h : ¬ span.Fits) :
    (span.stop : Outcome ε Nat) = Outcome.overflow :=
  if_neg h

namespace Document

variable {ε : Type}

/-- The outcome is the text under the span, and nothing if the span does not lie in the document or
splits a character. -/
def Slices
    (document : Document)
    (span : Span)
    (outcome : Outcome ε (Option Text)) : Prop :=
  ∃ answer,
    outcome = .ok answer ∧
    ∀ part, answer = some part ↔
      ∃ front back,
        document.text = front ++ part ++ back ∧
        Text.size front = span.start ∧
        Text.size part = span.length

/-- Only a span with an end is answered. -/
theorem slices_iff_fits
    (document : Document)
    (span : Span) :
    document.Slices span (document.slice? span : Outcome ε (Option Text)) ↔ span.Fits := by
  constructor
  · rintro ⟨answer, hanswer, -⟩
    by_contra hendless
    rw [slice?, Span.stop_eq_overflow hendless] at hanswer
    cases hanswer
  · intro hfits
    refine ⟨Text.slice? document.text span.start span.length, ?_, fun part => ?_⟩
    · rw [slice?, hfits.stop_eq]
      rfl
    · simp only [Text.slice?, Option.map_eq_some_iff, Prod.exists, Text.cut?_eq_some_iff]
      constructor
      · rintro ⟨_, back, ⟨front, htext, hfront, hpart⟩, rfl⟩
        exact ⟨front, back, htext, hfront, hpart⟩
      · rintro ⟨front, back, htext, hfront, hpart⟩
        exact ⟨part, back, ⟨front, htext, hfront, hpart⟩, rfl⟩

end Document

namespace Text

variable {text front rest : Text}
variable {reached : Nat}
variable {replacement : Replacement}
variable {replacements : List Replacement}

theorem replaceFrom_of_endless
    (hordered : reached ≤ replacement.target.start)
    (hendless : ¬ replacement.target.Fits) :
    replaceFrom reached rest (replacement :: replacements) = Outcome.overflow := by
  rw [replaceFrom, if_neg (by omega), Span.stop_eq_overflow hendless]
  rfl

theorem replaceAll_of_meetsEndless
    (h : Replacement.MeetsEndless (text.Placed 0) replacements) :
    replaceAll text replacements = Outcome.overflow := by
  obtain ⟨earlier, offender, later, stop, rfl, hearlier, hendless, hplaced, hordered⟩ := h
  obtain ⟨front, rest, changed, -, -, hgoOn⟩ :=
    hplaced.exists_rest hearlier (List.nil_append text).symm rfl
  have hall := hgoOn (offender :: later)
  rw [replaceFrom_of_endless hordered hendless] at hall
  exact hall

/-- How the pass over the replacements ends, and why. -/
inductive Passes
    (text : Text)
    (reached : Nat)
    (replacements : List Replacement) : Outcome Misfit Text → Prop
  | changed
      {stop : Nat}
      {changed : Text}
      (hplaced : text.Placed reached replacements stop) :
      Passes text reached replacements (.ok changed)
  | refused
      {misfit : Misfit}
      (hmisplaced : text.Misplaced reached replacements misfit) :
      Passes text reached replacements (Outcome.fail misfit)
  | overflown
      (hmeets : Replacement.MeetsEndless (text.Placed reached) replacements) :
      Passes text reached replacements Outcome.overflow

theorem Misplaced.cons
    {misfit : Misfit}
    (h : text.Misplaced replacement.stop replacements misfit)
    (hadmits : text.Admits reached replacement) :
    text.Misplaced reached (replacement :: replacements) misfit := by
  obtain ⟨earlier, offender, later, stop, rfl, hplaced, hoffends⟩ := h
  exact ⟨replacement :: earlier, offender, later, stop, rfl, .cons hadmits hplaced, hoffends⟩

/-- What becomes of the replacements behind one that is admitted becomes of all. -/
theorem Passes.cons
    {outcome : Outcome Misfit Text}
    (h : text.Passes replacement.stop replacements outcome)
    (hadmits : text.Admits reached replacement)
    (hfits : replacement.target.Fits)
    (kept : Text) :
    text.Passes reached (replacement :: replacements)
      (outcome >>= fun changed => .ok (kept ++ changed)) := by
  cases h with
  | changed hplaced =>
      exact .changed (.cons hadmits hplaced)
  | refused hmisplaced =>
      exact .refused (hmisplaced.cons hadmits)
  | overflown hmeets =>
      exact .overflown (hmeets.cons hfits fun earlier stop => .cons hadmits)

theorem passes_replaceFrom
    (front rest : Text)
    (replacements : List Replacement) :
    (front ++ rest).Passes (size front) replacements
      (replaceFrom (size front) rest replacements) := by
  induction replacements generalizing front rest with
  | nil =>
      exact .changed .nil
  | cons replacement replacements ih =>
      by_cases hordered : size front ≤ replacement.target.start
      · by_cases hfits : replacement.target.Fits
        · rcases (front ++ rest).admits_or_offends (size front) replacement with
            hadmits | ⟨misfit, hoffends⟩
          · obtain ⟨kept, removed, behind, rfl, hkept, hremoved⟩ := hadmits.exists_cut
            have hlater := ih (front ++ kept ++ removed) behind
            rw [size_of_cut hkept hremoved, List.append_assoc, List.append_assoc,
              ← List.append_assoc kept] at hlater
            rw [replaceFrom_cons_of_cut hkept hremoved hfits]
            exact hlater.cons hadmits hfits (kept ++ replacement.text)
          · rw [replaceFrom_of_offends hfits hoffends]
            exact .refused ⟨[], replacement, replacements, _, rfl, .nil, hoffends⟩
        · rw [replaceFrom_of_endless hordered hfits]
          exact .overflown (Replacement.meetsEndless_head .nil hordered hfits)
      · have hbefore : replacement.target.start < size front := Nat.lt_of_not_le hordered
        rw [replaceFrom, if_pos hbefore]
        exact .refused ⟨[], replacement, replacements, _, rfl, .nil, .unordered hbefore⟩

end Text

namespace Document

variable {document : Document}
variable {wanted : ChangeSet}
variable {outcome : Outcome ChangeError Document}

/-- A further step that cannot fail does not change how a change set fares. -/
theorem Fares.bind_ok
    (h : document.Fares wanted outcome)
    (f : Document → Document) :
    document.Fares wanted (outcome >>= fun changed => .ok (f changed)) := by
  cases h with
  | outdated hgeneration =>
      exact .outdated hgeneration
  | accepted hgeneration hplaced =>
      exact .accepted hgeneration hplaced
  | invalid hgeneration hmisplaced =>
      exact .invalid hgeneration hmisplaced

theorem fares_or_overflow
    (document : Document)
    (wanted : ChangeSet) :
    document.Fares wanted (applyChanges wanted document) ∨
      wanted.generation = document.generation ∧
      Replacement.MeetsEndless (document.text.Placed 0) wanted.replacements := by
  by_cases hgeneration : wanted.generation = document.generation
  · have hpasses : document.text.Passes 0 wanted.replacements
        (Text.replaceAll document.text wanted.replacements) :=
      Text.passes_replaceFrom [] document.text wanted.replacements
    rw [applyChanges_eq, if_pos hgeneration]
    generalize Text.replaceAll document.text wanted.replacements = outcome at hpasses
    cases hpasses with
    | changed hplaced =>
        exact .inl (.accepted hgeneration ⟨_, hplaced⟩)
    | refused hmisplaced =>
        exact .inl (.invalid hgeneration hmisplaced)
    | overflown hmeets =>
        exact .inr ⟨hgeneration, hmeets⟩
  · rw [applyChanges_of_outdated hgeneration]
    exact .inl (.outdated hgeneration)

end Document

namespace Slot

variable {slot : Slot Document}
variable {snapshot : Document}
variable {replacements : List Replacement}

/-- The host answers an edit as it should.  It reports a transition if every replacement is admitted
behind the one in front of it, and otherwise refuses the first that is not: a target without an end
lies beyond the end of the text. -/
def Answers
    (slot : Slot Document)
    (snapshot : Document)
    (replacements : List Replacement) : Prop :=
  slot.current.Fares ⟨snapshot.generation, replacements⟩
    ((slot.edit snapshot replacements).1.map (·.after))

theorem map_after_change
    (slot : Slot Document)
    (wanted : ChangeSet) :
    (slot.change wanted).1.map (·.after) =
      (slot.current.applyChanges wanted >>= fun changed =>
        .ok { changed with version := slot.current.version.successor }) := by
  rw [change, draft_eq]
  cases hchanged : Document.applyChanges wanted slot.current with
  | error failure =>
      rfl
  | ok changed =>
      rw [← (Document.applyChanges_eq_ok_iff.mp hchanged).2.2]
      rfl

/-- Only an edit that meets no target without an end is answered. -/
theorem answers_iff :
    slot.Answers snapshot replacements ↔
      ¬ (snapshot.generation = slot.current.generation ∧
        Replacement.MeetsEndless (slot.current.text.Placed 0) replacements) := by
  rw [Answers, edit, map_after_change]
  constructor
  · rintro hanswers ⟨hgeneration, hmeets⟩
    rw [Document.applyChanges_eq, if_pos hgeneration,
      Text.replaceAll_of_meetsEndless hmeets] at hanswers
    exact hanswers.returns rfl
  · intro hmeets
    have hfares := slot.current.fares_or_overflow ⟨snapshot.generation, replacements⟩
    exact (hfares.resolve_right hmeets).bind_ok _

end Slot

namespace Edit

/-- The replacements join: each starts behind the one in front of it, and the sum of their deltas is
a delta all along. -/
inductive Joins : Nat → Int → List Replacement → Nat → Prop
  | nil
      {reached : Nat}
      {total : Int} :
      Joins reached total [] reached
  | cons
      {reached stop : Nat}
      {total : Int}
      {replacement : Replacement}
      {replacements : List Replacement}
      (hordered : reached ≤ replacement.target.start)
      (htext : Text.size replacement.text < deltaBound)
      (hlength : replacement.target.length < deltaBound)
      (hlow : -deltaBound ≤ total + replacement.growth)
      (hhigh : total + replacement.growth < deltaBound)
      (hrest : Joins replacement.stop (total + replacement.growth) replacements stop) :
      Joins reached total (replacement :: replacements) stop

variable {reached stop : Nat}
variable {total next : Int}
variable {replacement : Replacement}
variable {replacements earlier : List Replacement}

theorem joinFrom_of_endless
    (hordered : reached ≤ replacement.target.start)
    (hendless : ¬ replacement.target.Fits) :
    joinFrom reached total (replacement :: replacements) = Outcome.overflow := by
  rw [joinFrom, if_neg (by omega), Span.stop_eq_overflow hendless]
  rfl

theorem joinFrom_cons_of_next
    (hordered : reached ≤ replacement.target.start)
    (hfits : replacement.target.Fits)
    (hnext : replacement.delta?.bind (addDelta? total) = some next) :
    joinFrom reached total (replacement :: replacements) =
      joinFrom replacement.stop next replacements := by
  rw [joinFrom, if_neg (by omega), hfits.stop_eq, Outcome.ok_bind, hnext]
  rfl

/-- Replacements that join lead to those behind them. -/
theorem Joins.exists_rest
    (h : Joins reached total earlier stop)
    (hfits : ∀ replacement ∈ earlier, replacement.target.Fits) :
    ∃ next, ∀ later, joinFrom reached total (earlier ++ later) = joinFrom stop next later := by
  induction h with
  | @nil reached total =>
      exact ⟨total, fun later => rfl⟩
  | cons hordered htext hlength hlow hhigh hrest ih =>
      obtain ⟨hfirst, hothers⟩ := List.forall_mem_cons.mp hfits
      obtain ⟨next, hgoOn⟩ := ih hothers
      refine ⟨next, fun later => ?_⟩
      rw [List.cons_append, joinFrom_cons_of_next hordered hfirst
        (addDelta?_eq_some_iff.mpr ⟨htext, hlength, rfl, hlow, hhigh⟩)]
      exact hgoOn later

/-- Joining overflows only at a target without an end. -/
theorem meetsEndless_of_joinFrom
    (h : joinFrom reached total replacements = Outcome.overflow) :
    Replacement.MeetsEndless (Joins reached total) replacements := by
  induction replacements generalizing reached total with
  | nil =>
      cases h
  | cons replacement replacements ih =>
      by_cases hordered : reached ≤ replacement.target.start
      · by_cases hfits : replacement.target.Fits
        · cases hnext : replacement.delta?.bind (addDelta? total) with
          | none =>
              rw [joinFrom, if_neg (by omega), hfits.stop_eq, Outcome.ok_bind, hnext] at h
              cases h
          | some next =>
              rw [joinFrom_cons_of_next hordered hfits hnext] at h
              obtain ⟨htext, hlength, rfl, hlow, hhigh⟩ := addDelta?_eq_some_iff.mp hnext
              exact (ih h).cons hfits fun earlier stop =>
                .cons hordered htext hlength hlow hhigh
        · exact Replacement.meetsEndless_head .nil hordered hfits
      · rw [joinFrom, if_pos (Nat.lt_of_not_le hordered)] at h
        cases h

theorem join_eq_overflow_iff :
    join replacements = Outcome.overflow ↔ joinFrom 0 0 replacements = Outcome.overflow := by
  cases replacements with
  | nil =>
      constructor
      · intro h
        cases h
      · intro h
        cases h
  | cons first rest =>
      rw [join]
      cases joinFrom 0 0 (first :: rest) with
      | error failure =>
          simp [Outcome.overflow]
      | ok joined =>
          constructor
          · intro h
            cases h
          · intro h
            cases h

/-- Joining gives an edit or a cause unless it meets a target without an end. -/
theorem returns_join_iff :
    (join replacements).Returns ↔ ¬ Replacement.MeetsEndless (Joins 0 0) replacements := by
  refine not_congr (join_eq_overflow_iff.trans ⟨meetsEndless_of_joinFrom, ?_⟩)
  rintro ⟨earlier, offender, later, stop, rfl, hearlier, hendless, hjoins, hordered⟩
  obtain ⟨next, hgoOn⟩ := hjoins.exists_rest hearlier
  rw [hgoOn, joinFrom_of_endless hordered hendless]

end Edit

namespace Span

/-- Slicing, editing and joining answer as they should exactly if they ask no span without an end
for it: slicing asks the one that it is given, and the others ask the first that they reach. -/
theorem answered_iff_not_meetsEndless
    {ε : Type}
    (document snapshot : Document)
    (span : Span)
    (slot : Slot Document)
    (replacements : List Replacement) :
    (document.Slices span (document.slice? span : Outcome ε (Option Text)) ↔ span.Fits) ∧
    (slot.Answers snapshot replacements ↔
      ¬ (snapshot.generation = slot.current.generation ∧
        Replacement.MeetsEndless (slot.current.text.Placed 0) replacements)) ∧
    ((Edit.join replacements).Returns ↔
      ¬ Replacement.MeetsEndless (Edit.Joins 0 0) replacements) :=
  ⟨document.slices_iff_fits span, Slot.answers_iff, Edit.returns_join_iff⟩

/-- A span that starts at the end of the text and is as long as a length can be is asked for its end
by all three. -/
theorem not_answered_of_endless :
    (¬ ∀ (document : Document) (span : Span),
      span.start < positionBound →
      span.length < positionBound →
      document.Slices span (document.slice? span : Outcome Empty (Option Text))) ∧
    (¬ ∀ (slot : Slot Document) (snapshot : Document) (replacements : List Replacement),
      (∀ replacement ∈ replacements,
        replacement.target.start < positionBound ∧ replacement.target.length < positionBound) →
      slot.Answers snapshot replacements) ∧
    ¬ ∀ replacements : List Replacement,
      (∀ replacement ∈ replacements,
        replacement.target.start < positionBound ∧ replacement.target.length < positionBound) →
      (Edit.join replacements).Returns := by
  have hspan : ∀ replacement ∈ [(⟨⟨1, 18446744073709551615⟩, []⟩ : Replacement)],
      replacement.target.start < positionBound ∧ replacement.target.length < positionBound := by
    decide
  refine ⟨fun h => ?_, fun h => ?_, fun h => ?_⟩
  · obtain ⟨_, hanswer, -⟩ :=
      h (Document.ofText 0 ['a']) ⟨1, 18446744073709551615⟩ (by decide) (by decide)
    cases hanswer
  · have hanswers := h (.holding (Document.ofText 0 ['a'])) (Document.ofText 0 ['a']) _ hspan
    exact hanswers.returns rfl
  · exact h _ hspan rfl

end Span

end LiveTokens
