import LiveTokens.CommandLine.EditArgument
import LiveTokens.Proofs.Decimals
import LiveTokens.Proofs.Outcome

/-!
# The form of edit arguments

An argument is read as an edit exactly if it has the form `START..END=TEXT`.  The
first equals sign ends the range, the first two dots in front of it separate two
decimal numerals, both are positions, and the second is not below the first.
Everything behind the equals sign is the text, whatever it holds.

Both separators are found in the same way, so one search serves for both.  The
numerals are read digit by digit; no prefix of a numeral is worth more than the
whole, so the bound on every step is the bound on the value.
-/

namespace LiveTokens

namespace EditArgument

/-- The text is `front`, the mark and `back`, and the mark is nowhere further in front. -/
structure FirstMark
    (mark front back text : Text) : Prop where
  text_eq : text = front ++ mark ++ back
  earliest : ∀ other rest, text = other ++ mark ++ rest → front.length ≤ other.length

/-- A decimal numeral with its value: one or more digits, with or without a plus sign in front. -/
inductive Numeral : Text → Nat → Prop
  | plain {digits : Text}
      (nonempty : digits ≠ [])
      (decimal : ∀ c ∈ digits, c.isDigit = true) :
      Numeral digits (Nat.ofDigitChars 10 digits 0)
  | plus {digits : Text}
      (nonempty : digits ≠ [])
      (decimal : ∀ c ∈ digits, c.isDigit = true) :
      Numeral ('+' :: digits) (Nat.ofDigitChars 10 digits 0)

/-- The argument has the form of an edit. -/
inductive Denotes : Text → Replacement → Prop
  | edit {argument range front back text : Text} {start stop : Nat}
      (equals : FirstMark ['='] range text argument)
      (dots : FirstMark ['.', '.'] front back range)
      (first : Numeral front start)
      (last : Numeral back stop)
      (ordered : start ≤ stop)
      (bounded : stop < positionBound) :
      Denotes argument ⟨⟨start, stop - start⟩, text⟩

/-- An edit, written down with the plainest numerals. -/
def written
    (start stop : Nat)
    (text : Text) : Text :=
  Nat.toDigits 10 start ++ ['.', '.'] ++ Nat.toDigits 10 stop ++ ['='] ++ text

variable {mark front back text range digits argument : Text}
variable {c : Char}
variable {number value : Nat}
variable {span : Span}
variable {edit : Replacement}

section Marks

theorem firstMark_nil :
    FirstMark mark [] back (mark ++ back) :=
  ⟨rfl, fun _ _ _ => Nat.zero_le _⟩

/-- A mark that is not at the front is further behind. -/
theorem firstMark_cons_iff
    (h : ¬ mark <+: c :: text) :
    FirstMark mark front back (c :: text) ↔
      ∃ rest, front = c :: rest ∧ FirstMark mark rest back text := by
  constructor
  · rintro ⟨htext, hearliest⟩
    cases front with
    | nil =>
        exact absurd ⟨back, htext.symm⟩ h
    | cons d rest =>
        obtain ⟨rfl, hrest⟩ := List.cons.inj htext
        refine ⟨rest, rfl, hrest, fun other behind hother => ?_⟩
        have hle := hearliest (c :: other) behind (congrArg (c :: ·) hother)
        rw [List.length_cons, List.length_cons] at hle
        exact Nat.le_of_succ_le_succ hle
  · rintro ⟨rest, rfl, rfl, hearliest⟩
    refine ⟨rfl, fun other behind hother => ?_⟩
    cases other with
    | nil =>
        exact absurd ⟨behind, hother.symm⟩ h
    | cons d other =>
        obtain ⟨rfl, hbehind⟩ := List.cons.inj hother
        exact Nat.succ_le_succ (hearliest other behind hbehind)

theorem FirstMark.eq_nil
    (h : FirstMark mark front back (mark ++ text)) :
    front = [] ∧ back = text := by
  have hfront : front = [] :=
    List.eq_nil_of_length_eq_zero (Nat.le_zero.mp (h.earliest [] text rfl))
  subst hfront
  exact ⟨rfl, (List.append_cancel_left h.text_eq).symm⟩

/-- A search that stops at the mark and otherwise goes on behind the next character finds the first
mark, if there is one.  Either the mark is at the front, or every mark is at least one character
behind. -/
theorem eq_some_iff_firstMark
    {search : Text → Option (Text × Text)}
    (hmark : mark ≠ [])
    (hempty : search [] = none)
    (hfound : ∀ text, search (mark ++ text) = some ([], text))
    (hskip : ∀ c text, ¬ mark <+: c :: text →
      search (c :: text) = (search text).map fun (front, back) => (c :: front, back)) :
    search text = some (front, back) ↔ FirstMark mark front back text := by
  induction text generalizing front with
  | nil =>
      rw [hempty]
      constructor
      · rintro ⟨⟩
      · rintro ⟨htext, -⟩
        have hparts := List.append_eq_nil_iff.mp htext.symm
        exact absurd (List.append_eq_nil_iff.mp hparts.1).2 hmark
  | cons c text ih =>
      by_cases hprefix : mark <+: c :: text
      · obtain ⟨rest, hrest⟩ := hprefix
        rw [← hrest, hfound]
        constructor
        · rintro ⟨⟩
          exact firstMark_nil
        · intro h
          obtain ⟨rfl, rfl⟩ := h.eq_nil
          rfl
      · rw [hskip c text hprefix, firstMark_cons_iff hprefix, Option.map_eq_some_iff]
        constructor
        · rintro ⟨⟨rest, behind⟩, hsearch, hpair⟩
          obtain ⟨rfl, rfl⟩ := Prod.mk.inj hpair
          exact ⟨rest, rfl, ih.mp hsearch⟩
        · rintro ⟨rest, rfl, hrest⟩
          exact ⟨(rest, back), ih.mpr hrest, rfl⟩

theorem splitText_eq_some_iff :
    splitText text = some (front, back) ↔ FirstMark ['='] front back text := by
  refine eq_some_iff_firstMark (List.cons_ne_nil _ _) rfl (fun _ => rfl) fun c text hprefix => ?_
  have hne : c ≠ '=' := by
    rintro rfl
    exact hprefix ⟨text, rfl⟩
  rw [splitText]
  exact hne

theorem splitRange_eq_some_iff :
    splitRange text = some (front, back) ↔ FirstMark ['.', '.'] front back text := by
  refine eq_some_iff_firstMark (List.cons_ne_nil _ _) rfl (fun _ => rfl) fun c text hprefix => ?_
  rw [splitRange]
  rintro rest rfl rfl
  exact hprefix ⟨rest, rfl⟩

/-- A text without the first character of a mark ends in front of the mark. -/
theorem firstMark_of_not_mem
    (h : c ∉ front) :
    FirstMark (c :: mark) front back (front ++ c :: mark ++ back) := by
  induction front with
  | nil =>
      exact firstMark_nil
  | cons d front ih =>
      have hprefix : ¬ c :: mark <+: d :: (front ++ c :: mark ++ back) :=
        fun hprefix => List.ne_of_not_mem_cons h (List.cons_prefix_cons.mp hprefix).1
      exact (firstMark_cons_iff hprefix).mpr ⟨front, rfl, ih (List.not_mem_of_not_mem_cons h)⟩

end Marks

section Numerals

/-- A number that has become too large stays so, as the rest of the digits adds to it. -/
theorem readDigits_eq_ok_iff
    (hnumber : number < positionBound) :
    readDigits number digits = .ok value ↔
      (∀ c ∈ digits, c.isDigit = true) ∧
      Nat.ofDigitChars 10 digits number = value ∧
      value < positionBound := by
  induction digits generalizing number with
  | nil =>
      simp only [readDigits, Except.ok.injEq, Nat.ofDigitChars_nil, List.not_mem_nil, false_implies,
        implies_true, true_and]
      constructor
      · rintro rfl
        exact ⟨rfl, hnumber⟩
      · exact And.left
  | cons c digits ih =>
      have hdigits : Nat.ofDigitChars 10 (c :: digits) number =
          Nat.ofDigitChars 10 digits (number * 10 + (c.toNat - '0'.toNat)) := by
        rw [Nat.ofDigitChars_cons, Nat.mul_comm]
      rw [hdigits, List.forall_mem_cons, readDigits]
      by_cases hdigit : c.isDigit = true
      · rw [if_pos hdigit]
        by_cases hfits : number * 10 + (c.toNat - '0'.toNat) < positionBound
        · simp only [if_pos hfits, ih hfits, hdigit, true_and]
        · have hle := le_ofDigitChars digits (number * 10 + (c.toNat - '0'.toNat))
          simp only [if_neg hfits, reduceCtorEq, false_iff]
          rintro ⟨-, rfl, hvalue⟩
          exact hfits (hle.trans_lt hvalue)
      · rw [if_neg hdigit]
        simp only [reduceCtorEq, hdigit, Bool.false_eq_true, false_and]

theorem readPosition_eq_ok_iff :
    readPosition text = .ok value ↔ Numeral text value ∧ value < positionBound := by
  have hzero : 0 < positionBound := by decide
  constructor
  · intro h
    unfold readPosition at h
    split at h
    · cases h
    · cases h
    · next digits hnonempty =>
        obtain ⟨hdecimal, rfl, hbound⟩ := (readDigits_eq_ok_iff hzero).mp h
        exact ⟨.plus (fun hnil => hnonempty hnil) hdecimal, hbound⟩
    · next hnonempty _ _ =>
        obtain ⟨hdecimal, rfl, hbound⟩ := (readDigits_eq_ok_iff hzero).mp h
        exact ⟨.plain hnonempty hdecimal, hbound⟩
  · rintro ⟨hnumeral, hbound⟩
    cases hnumeral with
    | plain hnonempty hdecimal =>
        have hread := (readDigits_eq_ok_iff hzero).mpr ⟨hdecimal, rfl, hbound⟩
        obtain ⟨c, digits, rfl⟩ := List.exists_cons_of_ne_nil hnonempty
        have hne : c ≠ '+' := by
          rintro rfl
          exact absurd (hdecimal '+' List.mem_cons_self) (by decide)
        simpa [readPosition, hne] using hread
    | plus hnonempty hdecimal =>
        have hread := (readDigits_eq_ok_iff hzero).mpr ⟨hdecimal, rfl, hbound⟩
        obtain ⟨c, digits, rfl⟩ := List.exists_cons_of_ne_nil hnonempty
        exact hread

theorem numeral_toDigits :
    Numeral (Nat.toDigits 10 number) number := by
  have hnumeral : Numeral (Nat.toDigits 10 number)
      (Nat.ofDigitChars 10 (Nat.toDigits 10 number) 0) :=
    .plain Nat.toDigits_ne_nil fun _ => isDigit_of_mem_toDigits
  rwa [Nat.ofDigitChars_ten_toDigits] at hnumeral

end Numerals

section Parts

theorem between?_eq_some_iff
    {start stop : Nat} :
    Span.between? start stop = some span ↔ start ≤ stop ∧ span = ⟨start, stop - start⟩ := by
  rw [Span.between?, Option.ite_none_right_eq_some, Option.some.injEq, eq_comm (b := span)]

theorem parseRange_eq_ok_iff :
    parseRange range = .ok span ↔
      ∃ front back start stop,
        FirstMark ['.', '.'] front back range ∧
        Numeral front start ∧
        Numeral back stop ∧
        start ≤ stop ∧
        stop < positionBound ∧
        span = ⟨start, stop - start⟩ := by
  unfold parseRange
  constructor
  · intro h
    split at h
    · cases h
    · next front back hsplit =>
        obtain ⟨start, hstart, h⟩ := Except.bind_eq_ok_iff.mp h
        obtain ⟨stop, hstop, h⟩ := Except.bind_eq_ok_iff.mp h
        obtain ⟨hfirst, -⟩ := readPosition_eq_ok_iff.mp (Except.mapError_eq_ok_iff.mp hstart)
        obtain ⟨hlast, hbound⟩ := readPosition_eq_ok_iff.mp (Except.mapError_eq_ok_iff.mp hstop)
        split at h
        · cases h
        · next hbetween =>
            obtain ⟨hordered, hspan⟩ := between?_eq_some_iff.mp hbetween
            cases h
            exact ⟨front, back, start, stop, splitRange_eq_some_iff.mp hsplit, hfirst, hlast,
              hordered, hbound, hspan⟩
  · rintro ⟨front, back, start, stop, hdots, hfirst, hlast, hordered, hbound, hspan⟩
    have hstart := readPosition_eq_ok_iff.mpr ⟨hfirst, hordered.trans_lt hbound⟩
    have hstop := readPosition_eq_ok_iff.mpr ⟨hlast, hbound⟩
    rw [splitRange_eq_some_iff.mpr hdots]
    simp only [Except.bind_eq_ok_iff, Except.mapError_eq_ok_iff]
    refine ⟨start, hstart, stop, hstop, ?_⟩
    rw [between?_eq_some_iff.mpr ⟨hordered, hspan⟩]
    rfl

theorem parse_eq_ok_iff :
    parse argument = .ok edit ↔ Denotes argument edit := by
  unfold parse
  constructor
  · intro h
    split at h
    · cases h
    · next range text hsplit =>
        obtain ⟨span, hrange, h⟩ := Except.bind_eq_ok_iff.mp h
        obtain ⟨front, back, start, stop, hdots, hfirst, hlast, hordered, hbound, rfl⟩ :=
          parseRange_eq_ok_iff.mp hrange
        cases h
        exact .edit (splitText_eq_some_iff.mp hsplit) hdots hfirst hlast hordered hbound
  · rintro ⟨hequals, hdots, hfirst, hlast, hordered, hbound⟩
    have hrange := parseRange_eq_ok_iff.mpr
      ⟨_, _, _, _, hdots, hfirst, hlast, hordered, hbound, rfl⟩
    rw [splitText_eq_some_iff.mpr hequals]
    exact Except.bind_eq_ok_iff.mpr ⟨_, hrange, rfl⟩

end Parts

theorem denotes_written
    {start stop : Nat}
    (hordered : start ≤ stop)
    (hbound : stop < positionBound) :
    Denotes (written start stop text) ⟨⟨start, stop - start⟩, text⟩ := by
  have hrange : '=' ∉ Nat.toDigits 10 start ++ ['.', '.'] ++ Nat.toDigits 10 stop := by
    simp [not_mem_toDigits]
  exact .edit (firstMark_of_not_mem hrange) (firstMark_of_not_mem (not_mem_toDigits rfl))
    numeral_toDigits numeral_toDigits hordered hbound

/-- Exactly the arguments of the form `START..END=TEXT` are read, as the edits they denote.  In
particular the plainest way to write an edit down reads back as that edit, whatever its text. -/
theorem parse_exactly :
    (∀ argument edit, parse argument = .ok edit ↔ Denotes argument edit) ∧
    ∀ start stop text,
      start ≤ stop →
      stop < positionBound →
      parse (written start stop text) = .ok ⟨⟨start, stop - start⟩, text⟩ :=
  ⟨fun _ _ => parse_eq_ok_iff, fun _ _ _ hordered hbound =>
    parse_eq_ok_iff.mpr (denotes_written hordered hbound)⟩

/-- The text holds both separators once more, and the range ends at the last position. -/
theorem parse_exactly_of_separators :
    7 ≤ 18446744073709551615 ∧
    18446744073709551615 < positionBound ∧
    written 7 18446744073709551615 ['1', '.', '.', '2', '=', 'é'] =
      "7..18446744073709551615=1..2=é".toList ∧
    parse "7..18446744073709551615=1..2=é".toList =
      .ok ⟨⟨7, 18446744073709551608⟩, ['1', '.', '.', '2', '=', 'é']⟩ := by
  have hwritten : written 7 18446744073709551615 ['1', '.', '.', '2', '=', 'é'] =
      "7..18446744073709551615=1..2=é".toList := by
    decide
  refine ⟨by decide, by decide, hwritten, ?_⟩
  rw [← hwritten]
  exact parse_exactly.2 7 18446744073709551615 _ (by decide) (by decide)

end EditArgument

end LiveTokens
