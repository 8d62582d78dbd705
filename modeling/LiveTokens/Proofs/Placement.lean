import Mathlib.Algebra.Ring.Int.Defs
import LiveTokens.Proofs.Contention
import LiveTokens.Proofs.Scanning
import LiveTokens.Proofs.Splice

/-!
# One replacement at a time

A change set is applied in one pass over the text.  It means the same as its
replacements one at a time, each on the text that the one before has left, from
the last to the first: in that order, nothing in front of a replacement has moved
when its turn comes.

A text *admits* a replacement behind a position if the replacement starts there or
later, ends in the text and splits no character.  The change set is accepted if each
replacement is admitted behind the one in front of it.  Otherwise the first one that
is not decides how the change set is refused: what is checked first is the order, then
the end of the text, then the characters.

**Results.**  `applyChanges_sequential`.
-/

namespace LiveTokens

namespace Text

/-- The position is between two characters of the text, or one of its ends. -/
def Boundary
    (text : Text)
    (position : Nat) : Prop :=
  ∃ front back, text = front ++ back ∧ size front = position

instance (text : Text) : DecidablePred text.Boundary :=
  fun position => decidable_of_iff ((splitAt? text position).isSome = true) (by
    simp only [Boundary, Option.isSome_iff_exists, Prod.exists, splitAt?_eq_some_iff])

end Text

namespace Replacement

/-- The end of the target. -/
def stop
    (replacement : Replacement) : Nat :=
  replacement.target.start + replacement.target.length

/-- By how many bytes a text grows. -/
def growth
    (replacement : Replacement) : Int :=
  (Text.size replacement.text : Int) - replacement.target.length

/-- The text with this one replacement, if both ends of the target lie between characters. -/
def perform?
    (replacement : Replacement)
    (text : Text) : Option Text := do
  let (front, rest) ← Text.splitAt? text replacement.target.start
  let (_, back) ← Text.splitAt? rest replacement.target.length
  return front ++ replacement.text ++ back

end Replacement

namespace Text

/-- The replacement starts at `reached` or later, ends in the text and splits no character. -/
structure Admits
    (text : Text)
    (reached : Nat)
    (replacement : Replacement) : Prop where
  ordered : reached ≤ replacement.target.start
  inside : replacement.stop ≤ size text
  start : text.Boundary replacement.target.start
  stop : text.Boundary replacement.stop

/-- What is wrong with a replacement that a text does not admit, in the order of the checks. -/
inductive Offends
    (text : Text)
    (reached : Nat)
    (replacement : Replacement) : Misfit → Prop
  | unordered
      (hbefore : replacement.target.start < reached) :
      Offends text reached replacement .unordered
  | beyondEnd
      (hordered : reached ≤ replacement.target.start)
      (hbeyond : size text < replacement.stop) :
      Offends text reached replacement .beyondEnd
  | splitsCharacter
      (hordered : reached ≤ replacement.target.start)
      (hinside : replacement.stop ≤ size text)
      (hsplits : ¬ (text.Boundary replacement.target.start ∧ text.Boundary replacement.stop)) :
      Offends text reached replacement .splitsCharacter

/-- Each replacement is admitted behind the one in front of it.  The first of them starts at
`reached` or later, and the last of them ends at `stop`. -/
inductive Placed
    (text : Text) : Nat → List Replacement → Nat → Prop
  | nil
      {reached : Nat} :
      Placed text reached [] reached
  | cons
      {reached stop : Nat}
      {replacement : Replacement}
      {replacements : List Replacement}
      (hadmits : text.Admits reached replacement)
      (hrest : Placed text replacement.stop replacements stop) :
      Placed text reached (replacement :: replacements) stop

/-- The first replacement that is not admitted behind the one in front of it offends in this way. -/
def Misplaced
    (text : Text)
    (reached : Nat)
    (replacements : List Replacement)
    (misfit : Misfit) : Prop :=
  ∃ earlier offender later stop,
    replacements = earlier ++ offender :: later ∧
    text.Placed reached earlier stop ∧
    text.Offends stop offender misfit

variable {text text' front rest kept removed behind : Text}
variable {reached stop : Nat}
variable {replacement : Replacement}
variable {replacements earlier : List Replacement}
variable {misfit : Misfit}

theorem admits_or_offends
    (text : Text)
    (reached : Nat)
    (replacement : Replacement) :
    text.Admits reached replacement ∨ ∃ misfit, text.Offends reached replacement misfit := by
  rcases Nat.lt_or_ge replacement.target.start reached with hbefore | hordered
  · exact .inr ⟨_, .unordered hbefore⟩
  rcases Nat.lt_or_ge (size text) replacement.stop with hbeyond | hinside
  · exact .inr ⟨_, .beyondEnd hordered hbeyond⟩
  by_cases hboundaries : text.Boundary replacement.target.start ∧ text.Boundary replacement.stop
  · exact .inl ⟨hordered, hinside, hboundaries.1, hboundaries.2⟩
  · exact .inr ⟨_, .splitsCharacter hordered hinside hboundaries⟩

/-- Replacements are placed unless there is a first one that is not. -/
theorem placed_or_misplaced
    (text : Text)
    (reached : Nat)
    (replacements : List Replacement) :
    (∃ stop, text.Placed reached replacements stop) ∨
      ∃ misfit, text.Misplaced reached replacements misfit := by
  induction replacements generalizing reached with
  | nil =>
      exact .inl ⟨reached, .nil⟩
  | cons replacement replacements ih =>
      rcases text.admits_or_offends reached replacement with hadmits | ⟨misfit, hoffends⟩
      · rcases ih replacement.stop with ⟨stop, hplaced⟩ | ⟨misfit, hmisplaced⟩
        · exact .inl ⟨stop, .cons hadmits hplaced⟩
        · obtain ⟨earlier, offender, later, stop, rfl, hearlier, hoffends⟩ := hmisplaced
          exact .inr ⟨misfit, replacement :: earlier, offender, later, stop, rfl,
            .cons hadmits hearlier, hoffends⟩
      · exact .inr ⟨misfit, [], replacement, replacements, reached, rfl, .nil, hoffends⟩

/-- A replacement that a text admits cuts what follows the position into three. -/
theorem Admits.exists_cut
    (h : (front ++ rest).Admits (size front) replacement) :
    ∃ kept removed behind,
      rest = kept ++ removed ++ behind ∧
      size front + size kept = replacement.target.start ∧
      size removed = replacement.target.length := by
  obtain ⟨hordered, -, ⟨front', back', hfront', hstart⟩, ⟨front'', back'', hfront'', hstop⟩⟩ := h
  obtain ⟨kept, rfl, rfl⟩ := exists_append_of_size_le hfront' (by omega)
  have hlonger : size (front ++ kept) ≤ size front'' := by
    rw [hstart, hstop]
    exact Nat.le_add_right _ _
  obtain ⟨removed, rfl, rfl⟩ := exists_append_of_size_le (hfront'.symm.trans hfront'') hlonger
  simp only [size_append, Replacement.stop] at hstart hstop
  exact ⟨kept, removed, back'', by simp, hstart, by omega⟩

theorem size_of_cut
    (hkept : size front + size kept = replacement.target.start)
    (hremoved : size removed = replacement.target.length) :
    size (front ++ kept ++ removed) =
      replacement.target.start + replacement.target.length := by
  simp only [size_append]
  omega

theorem admits_of_cut
    (hkept : size front + size kept = replacement.target.start)
    (hremoved : size removed = replacement.target.length) :
    (front ++ (kept ++ removed ++ behind)).Admits (size front) replacement := by
  refine ⟨by omega, ?_, ⟨front ++ kept, removed ++ behind, by simp, ?_⟩,
    ⟨front ++ kept ++ removed, behind, by simp, ?_⟩⟩
  all_goals
    simp only [size_append, Replacement.stop]
    omega

/-- The pass stops at a replacement that offends. -/
theorem replaceFrom_of_offends
    (hfits : replacement.target.Fits)
    (h : (front ++ rest).Offends (size front) replacement misfit) :
    replaceFrom (size front) rest (replacement :: replacements) = Outcome.fail misfit := by
  rw [replaceFrom]
  cases h with
  | unordered hbefore =>
      exact if_pos hbefore
  | beyondEnd hordered hbeyond =>
      rw [size_append] at hbeyond
      rw [if_neg (by omega), hfits.stop_eq, Outcome.ok_bind]
      exact if_pos hbeyond
  | splitsCharacter hordered hinside hsplits =>
      rw [size_append] at hinside
      rw [if_neg (by omega), hfits.stop_eq, Outcome.ok_bind]
      refine (if_neg (Nat.not_lt.mpr hinside)).trans ?_
      cases hkept : splitAt? rest (replacement.target.start - size front) with
      | none =>
          rfl
      | some parts =>
          obtain ⟨kept, tail⟩ := parts
          cases hremoved : splitAt? tail replacement.target.length with
          | none =>
              simp [hremoved]
          | some parts =>
              obtain ⟨removed, behind⟩ := parts
              obtain ⟨rfl, hkeptSize⟩ := splitAt?_eq_some_iff.mp hkept
              obtain ⟨rfl, hremovedSize⟩ := splitAt?_eq_some_iff.mp hremoved
              have hadmits : (front ++ (kept ++ removed ++ behind)).Admits (size front)
                  replacement :=
                admits_of_cut (by omega) hremovedSize
              rw [List.append_assoc] at hadmits
              exact absurd ⟨hadmits.start, hadmits.stop⟩ hsplits

/-- The pass takes placed replacements one by one and goes on with what follows them.  It has
`front` behind it and `rest` in front of it. -/
theorem Placed.exists_rest
    (h : text.Placed reached earlier stop)
    (hfits : ∀ replacement ∈ earlier, replacement.target.Fits)
    (htext : text = front ++ rest)
    (hreached : size front = reached) :
    ∃ front' rest' changed,
      text = front' ++ rest' ∧
      size front' = stop ∧
      ∀ later, replaceFrom reached rest (earlier ++ later) =
        replaceFrom stop rest' later >>= fun text => .ok (changed ++ text) := by
  induction h generalizing front rest with
  | @nil reached =>
      refine ⟨front, rest, [], htext, hreached, fun later => ?_⟩
      rw [List.nil_append]
      cases replaceFrom reached rest later <;> rfl
  | @cons reached stop replacement replacements hadmits hrest ih =>
      subst htext
      subst hreached
      obtain ⟨hfirst, hothers⟩ := List.forall_mem_cons.mp hfits
      obtain ⟨kept, removed, behind, rfl, hkept, hremoved⟩ := hadmits.exists_cut
      have hsplit : front ++ (kept ++ removed ++ behind) = front ++ kept ++ removed ++ behind := by
        simp
      obtain ⟨front', rest', changed, htext', hfront', hgoOn⟩ :=
        ih hothers hsplit (size_of_cut hkept hremoved)
      refine ⟨front', rest', kept ++ replacement.text ++ changed, htext', hfront', fun later => ?_⟩
      have hlater := hgoOn later
      rw [Replacement.stop] at hlater
      rw [List.cons_append, replaceFrom_cons_of_cut hkept hremoved hfirst, hlater]
      cases replaceFrom stop rest' later <;> simp

/-- A change to a text whose replacements are placed goes through. -/
theorem Placed.exists_replaceAll
    (h : text.Placed 0 replacements stop)
    (hfits : ∀ replacement ∈ replacements, replacement.target.Fits) :
    ∃ text', replaceAll text replacements = .ok text' := by
  obtain ⟨front, rest, changed, -, -, hgoOn⟩ := h.exists_rest hfits (List.nil_append text).symm rfl
  have hall := hgoOn []
  rw [List.append_nil, replaceFrom, Outcome.pure_eq_ok, Outcome.ok_bind] at hall
  exact ⟨changed ++ rest, hall⟩

/-- The first replacement that is misplaced stops the change. -/
theorem Misplaced.replaceAll_eq
    (h : text.Misplaced 0 replacements misfit)
    (hfits : ∀ replacement ∈ replacements, replacement.target.Fits) :
    replaceAll text replacements = Outcome.fail misfit := by
  obtain ⟨earlier, offender, later, stop, rfl, hplaced, hoffends⟩ := h
  obtain ⟨hearlier, hlater⟩ := List.forall_mem_append.mp hfits
  obtain ⟨front, rest, changed, rfl, rfl, hgoOn⟩ :=
    hplaced.exists_rest hearlier (List.nil_append text).symm rfl
  have hall := hgoOn (offender :: later)
  rw [replaceFrom_of_offends (hlater offender List.mem_cons_self) hoffends] at hall
  exact hall

end Text

namespace Replacement

variable {text text' : Text}
variable {replacement : Replacement}
variable {replacements : List Replacement}

theorem perform?_eq_some_iff :
    replacement.perform? text = some text' ↔
      ∃ front removed back,
        text = front ++ removed ++ back ∧
        Text.size front = replacement.target.start ∧
        Text.size removed = replacement.target.length ∧
        text' = front ++ replacement.text ++ back := by
  simp only [perform?, Option.bind_eq_bind, Option.bind_eq_some_iff, Prod.exists,
    Text.splitAt?_eq_some_iff, Option.pure_def, Option.some.injEq]
  constructor
  · rintro ⟨front, rest, ⟨rfl, hfront⟩, removed, back, ⟨rfl, hremoved⟩, rfl⟩
    exact ⟨front, removed, back, by simp, hfront, hremoved, rfl⟩
  · rintro ⟨front, removed, back, rfl, hfront, hremoved, rfl⟩
    exact ⟨front, removed ++ back, ⟨by simp, hfront⟩, removed, back, ⟨rfl, hremoved⟩, rfl⟩

/-- One replacement changes the length of a text by its growth. -/
theorem size_of_perform?
    (h : replacement.perform? text = some text') :
    (Text.size text' : Int) = Text.size text + replacement.growth := by
  obtain ⟨front, removed, back, rfl, -, hremoved, rfl⟩ := perform?_eq_some_iff.mp h
  simp only [Text.size_append, growth]
  omega

/-- Replacements change the length of a text by the sum of what each of them makes it grow. -/
theorem size_of_performAll
    (h : replacements.foldrM perform? text = some text') :
    (Text.size text' : Int) = Text.size text + (replacements.map growth).sum := by
  induction replacements generalizing text' with
  | nil =>
      simp only [List.foldrM_nil, Option.pure_def, Option.some.injEq] at h
      simp [h]
  | cons replacement replacements ih =>
      rw [List.foldrM_cons, Option.bind_eq_bind, Option.bind_eq_some_iff] at h
      obtain ⟨middle, hmiddle, hlast⟩ := h
      rw [size_of_perform? hlast, ih hmiddle, List.map_cons, List.sum_cons]
      omega

/-- What the pass makes of the rest of a text is what the replacements make of it one at a time, the
last one first.  The later ones leave everything up to the end of an earlier target alone. -/
theorem performAll_of_replaceFrom
    {front rest changed : Text}
    (h : Text.replaceFrom (Text.size front) rest replacements = .ok changed) :
    replacements.foldrM perform? (front ++ rest) = some (front ++ changed) := by
  induction replacements generalizing front rest changed with
  | nil =>
      cases h
      simp
  | cons replacement replacements ih =>
      obtain ⟨kept, removed, behind, others, rfl, hkept, hremoved, -, hothers, rfl⟩ :=
        Text.replaceFrom_cons_eq_ok_iff.mp h
      rw [← Text.size_of_cut hkept hremoved] at hothers
      have hlater := ih hothers
      have hlast : replacement.perform? (front ++ kept ++ removed ++ others) =
          some (front ++ kept ++ replacement.text ++ others) :=
        perform?_eq_some_iff.mpr ⟨front ++ kept, removed, others, rfl,
          by rw [Text.size_append]; exact hkept, hremoved, rfl⟩
      rw [List.foldrM_cons]
      simp only [← List.append_assoc] at hlater ⊢
      rw [hlater, Option.bind_eq_bind, Option.bind_some]
      exact hlast

end Replacement

namespace Document

variable {document : Document}
variable {wanted : ChangeSet}

/-- A change set is accepted, carried out and refused as its replacements are one at a time. -/
structure Sequential
    (document : Document)
    (wanted : ChangeSet) : Prop where
  returns : (applyChanges wanted document).Returns
  accepted :
    (∃ changed, applyChanges wanted document = .ok changed) ↔
      wanted.generation = document.generation ∧
      ∃ stop, document.text.Placed 0 wanted.replacements stop
  carriedOut : ∀ changed,
    applyChanges wanted document = .ok changed →
    changed.version = document.version ∧
    wanted.replacements.foldrM Replacement.perform? document.text = some changed.text ∧
    (changed.size : Int) = document.size + (wanted.replacements.map Replacement.growth).sum
  outdated : ∀ expected found,
    applyChanges wanted document = Outcome.fail (.outdated expected found) ↔
      wanted.generation ≠ document.generation ∧
      expected = document.generation ∧
      found = wanted.generation
  invalid : ∀ misfit,
    applyChanges wanted document = Outcome.fail (.invalid misfit) ↔
      wanted.generation = document.generation ∧
      document.text.Misplaced 0 wanted.replacements misfit
  /-- A host that refuses the change set is left as it is. -/
  untouched : ∀ (slot : Slot Document) error,
    slot.current = document →
    applyChanges wanted document = Outcome.fail error →
    slot.change wanted = (Outcome.fail error, slot)

theorem applyChanges_of_outdated
    (hgeneration : wanted.generation ≠ document.generation) :
    applyChanges wanted document =
      Outcome.fail (.outdated document.generation wanted.generation) := by
  rw [applyChanges_eq, if_neg hgeneration]

section Current

variable (hgeneration : wanted.generation = document.generation)
variable (hfits : ∀ replacement ∈ wanted.replacements, replacement.target.Fits)

include hgeneration hfits

theorem exists_applyChanges_of_placed
    {stop : Nat}
    (h : document.text.Placed 0 wanted.replacements stop) :
    ∃ changed, applyChanges wanted document = .ok changed := by
  obtain ⟨text, htext⟩ := h.exists_replaceAll hfits
  exact ⟨⟨text, document.version⟩, applyChanges_eq_ok_iff.mpr ⟨hgeneration, htext, rfl⟩⟩

theorem applyChanges_of_misplaced
    {misfit : Misfit}
    (h : document.text.Misplaced 0 wanted.replacements misfit) :
    applyChanges wanted document = Outcome.fail (.invalid misfit) := by
  rw [applyChanges_eq, if_pos hgeneration, h.replaceAll_eq hfits]
  rfl

end Current

/-- How a change set fares, and why. -/
inductive Fares
    (document : Document)
    (wanted : ChangeSet) : Outcome ChangeError Document → Prop
  | outdated
      (hgeneration : wanted.generation ≠ document.generation) :
      Fares document wanted (Outcome.fail (.outdated document.generation wanted.generation))
  | accepted
      {changed : Document}
      (hgeneration : wanted.generation = document.generation)
      (hplaced : ∃ stop, document.text.Placed 0 wanted.replacements stop) :
      Fares document wanted (.ok changed)
  | invalid
      {misfit : Misfit}
      (hgeneration : wanted.generation = document.generation)
      (hmisplaced : document.text.Misplaced 0 wanted.replacements misfit) :
      Fares document wanted (Outcome.fail (.invalid misfit))

theorem Fares.returns
    {outcome : Outcome ChangeError Document}
    (h : document.Fares wanted outcome) :
    outcome.Returns := by
  cases h <;> simp

theorem fares_applyChanges
    (hfits : ∀ replacement ∈ wanted.replacements, replacement.target.Fits) :
    document.Fares wanted (applyChanges wanted document) := by
  by_cases hgeneration : wanted.generation = document.generation
  · rcases document.text.placed_or_misplaced 0 wanted.replacements with
      ⟨stop, hplaced⟩ | ⟨misfit, hmisplaced⟩
    · obtain ⟨changed, hchanged⟩ := exists_applyChanges_of_placed hgeneration hfits hplaced
      rw [hchanged]
      exact .accepted hgeneration ⟨stop, hplaced⟩
    · rw [applyChanges_of_misplaced hgeneration hfits hmisplaced]
      exact .invalid hgeneration hmisplaced
  · rw [applyChanges_of_outdated hgeneration]
    exact .outdated hgeneration

/-- A change set whose spans have ends means the same as its replacements one at a time. -/
theorem applyChanges_sequential
    (hfits : ∀ replacement ∈ wanted.replacements, replacement.target.Fits) :
    document.Sequential wanted := by
  have hfares := document.fares_applyChanges hfits
  refine ⟨?returns, ⟨?refused, ?placed⟩, ?carriedOut, ?outdated, ?invalid, ?untouched⟩
  case returns =>
    exact hfares.returns
  case refused =>
    rintro ⟨changed, h⟩
    rw [h] at hfares
    cases hfares with
    | accepted hgeneration hplaced =>
        exact ⟨hgeneration, hplaced⟩
  case placed =>
    rintro ⟨hgeneration, stop, hplaced⟩
    exact exists_applyChanges_of_placed hgeneration hfits hplaced
  case carriedOut =>
    intro changed h
    obtain ⟨-, htext, hversion⟩ := applyChanges_eq_ok_iff.mp h
    have hinTurn : wanted.replacements.foldrM Replacement.perform? ([] ++ document.text) =
        some ([] ++ changed.text) :=
      Replacement.performAll_of_replaceFrom htext
    exact ⟨hversion, hinTurn, Replacement.size_of_performAll hinTurn⟩
  case outdated =>
    intro expected found
    constructor
    · intro h
      rw [h] at hfares
      cases hfares with
      | outdated hgeneration =>
          exact ⟨hgeneration, rfl, rfl⟩
    · rintro ⟨hgeneration, rfl, rfl⟩
      exact applyChanges_of_outdated hgeneration
  case invalid =>
    intro misfit
    constructor
    · intro h
      rw [h] at hfares
      cases hfares with
      | invalid hgeneration hmisplaced =>
          exact ⟨hgeneration, hmisplaced⟩
    · rintro ⟨hgeneration, hmisplaced⟩
      exact applyChanges_of_misplaced hgeneration hfits hmisplaced
  case untouched =>
    rintro slot error rfl h
    have hdraft : Slot.draft slot.current wanted = Outcome.fail error := by
      rw [Slot.draft_eq, h]
      rfl
    exact Slot.change_of_error hdraft

/-- Two insertions at one place go in front of the letter behind them, which takes two bytes and is
deleted.  An insertion into the letter is refused, whatever comes first. -/
theorem applyChanges_sequential_of_letters :
    ((∀ replacement ∈ [⟨⟨1, 0⟩, ['x']⟩, ⟨⟨1, 0⟩, ['y']⟩, (⟨⟨1, 2⟩, []⟩ : Replacement)],
        replacement.target.Fits) ∧
      (∃ stop, Text.Placed ['a', 'é', 'b'] 0
        [⟨⟨1, 0⟩, ['x']⟩, ⟨⟨1, 0⟩, ['y']⟩, ⟨⟨1, 2⟩, []⟩] stop) ∧
      [⟨⟨1, 0⟩, ['x']⟩, ⟨⟨1, 0⟩, ['y']⟩, ⟨⟨1, 2⟩, []⟩].foldrM Replacement.perform?
        ['a', 'é', 'b'] = some ['a', 'x', 'y', 'b']) ∧
    ((∀ replacement ∈ [⟨⟨0, 0⟩, ['x']⟩, (⟨⟨2, 0⟩, ['y']⟩ : Replacement)],
        replacement.target.Fits) ∧
      Text.Misplaced ['a', 'é', 'b'] 0 [⟨⟨0, 0⟩, ['x']⟩, ⟨⟨2, 0⟩, ['y']⟩] .splitsCharacter ∧
      (Slot.holding (Document.ofText 0 ['a', 'é', 'b'])).change
        ⟨0, [⟨⟨0, 0⟩, ['x']⟩, ⟨⟨2, 0⟩, ['y']⟩]⟩ =
        (Outcome.fail (.invalid .splitsCharacter),
          Slot.holding (Document.ofText 0 ['a', 'é', 'b']))) := by
  have hfits : ∀ replacement ∈ [⟨⟨1, 0⟩, ['x']⟩, ⟨⟨1, 0⟩, ['y']⟩, (⟨⟨1, 2⟩, []⟩ : Replacement)],
      replacement.target.Fits := by
    decide
  have hfits' : ∀ replacement ∈ [⟨⟨0, 0⟩, ['x']⟩, (⟨⟨2, 0⟩, ['y']⟩ : Replacement)],
      replacement.target.Fits := by
    decide
  have hchanged : applyChanges ⟨0, [⟨⟨1, 0⟩, ['x']⟩, ⟨⟨1, 0⟩, ['y']⟩, ⟨⟨1, 2⟩, []⟩]⟩
      (Document.ofText 0 ['a', 'é', 'b']) = .ok ⟨['a', 'x', 'y', 'b'], ⟨0, 0⟩⟩ := rfl
  have hrefused : applyChanges ⟨0, [⟨⟨0, 0⟩, ['x']⟩, ⟨⟨2, 0⟩, ['y']⟩]⟩
      (Document.ofText 0 ['a', 'é', 'b']) = Outcome.fail (.invalid .splitsCharacter) := rfl
  have haccepts : (Document.ofText 0 ['a', 'é', 'b']).Sequential ⟨0, _⟩ :=
    applyChanges_sequential hfits
  have hrefuses : (Document.ofText 0 ['a', 'é', 'b']).Sequential ⟨0, _⟩ :=
    applyChanges_sequential hfits'
  exact ⟨⟨hfits, (haccepts.accepted.mp ⟨_, hchanged⟩).2, (haccepts.carriedOut _ hchanged).2.1⟩,
    hfits', ((hrefuses.invalid _).mp hrefused).2, hrefuses.untouched _ _ rfl hrefused⟩

end Document

end LiveTokens
