import LiveTokens.Proofs.Decimals
import LiveTokens.Proofs.Libraries

/-!
# Plain pairs

A pair is plain if neither its key nor its value needs quotes or brackets.  On a line in
front of all headers it adds its key to the document, and if the document does not have
that key yet, it changes nothing else, wherever the line is put in (`readLines_insert`).

The line may stand between any two others.  What is in front of it can be read by itself,
and no table is open at its end (`Opening`).  What stands behind it may be anything.

Whether a table is open shows in where a new pair comes to stand
(`header_eq_nil_of_readLines`).
-/

namespace LiveTokens

namespace Toml

/-- The key needs no quotes, and the value is written without quotes or brackets. -/
structure Plain
    (key written : Text)
    (value : Value) : Prop extends Bare key where
  value_parts : ∀ c ∈ written, isBarePart c = true
  value_eq : bareValue? written = some value

/-- The text is a number of whole lines, with nothing open at their end: no value, and no table. -/
def Opening
    (front : Text) : Prop :=
  WholeLines front ∧ ∃ entries, readLines {} front front = some ⟨entries, []⟩

section Numerals

variable {digits : Text}
variable {number : Nat}

theorem ofDigits_digitValues :
    ofDigits 10 (digitValues digits) = Nat.ofDigitChars 10 digits 0 :=
  (ofDigitChars_eq_foldl digits).symm

theorem ofDigits_significant
    (base : Nat)
    (digits : List Nat) :
    ofDigits base (significant digits) = ofDigits base digits := by
  induction digits with
  | nil =>
      rfl
  | cons digit digits ih =>
      unfold significant at ih ⊢
      cases digit with
      | zero =>
          rw [List.dropWhile_cons_of_pos rfl, ih]
          simp [ofDigits]
      | succ digit =>
          rw [List.dropWhile_cons_of_neg (by simp)]

theorem digit?_eq
    {c : Char}
    (h : c.isDigit = true) :
    digit? 10 c = some (c.toNat - '0'.toNat) := by
  have hbound : c.toNat - '0'.toNat < 10 := by
    rw [Char.isDigit, Bool.and_eq_true, decide_eq_true_eq, decide_eq_true_eq] at h
    have hle : c.toNat ≤ '9'.toNat := h.2
    have hnine : '9'.toNat = 57 := rfl
    have hzero : '0'.toNat = 48 := rfl
    omega
  simp only [digit?, if_pos h, if_pos hbound]

theorem digits?_eq
    (hne : digits ≠ [])
    (h : ∀ c ∈ digits, c.isDigit = true) :
    digits? 10 digits = some (digitValues digits) := by
  fun_induction digits? 10 digits with
  | case1 =>
      exact absurd rfl hne
  | case2 c =>
      rw [digit?_eq (h c List.mem_cons_self)]
      rfl
  | case3 c rest ih =>
      exact absurd (h '_' (by simp)) (by decide)
  | case4 c rest hnil hmark ih =>
      rw [digit?_eq (h c List.mem_cons_self), ih hnil fun d hd => h d (List.mem_cons_of_mem c hd)]
      rfl

theorem decimal?_toDigits :
    decimal? (Nat.toDigits 10 number) = some (digitValues (Nat.toDigits 10 number)) := by
  have hdigits : digits? 10 (Nat.toDigits 10 number) =
      some (digitValues (Nat.toDigits 10 number)) :=
    digits?_eq Nat.toDigits_ne_nil fun _ => isDigit_of_mem_toDigits
  unfold decimal?
  rw [hdigits, Option.bind_eq_bind, Option.bind_some]
  split
  · next hzero =>
    cases eq_nil_of_digitValues_toDigits hzero
  · rfl

theorem fitting?_toDigits
    (h : number < 2 ^ 63) :
    fitting? false 10 (digitValues (Nat.toDigits 10 number)) = some (number : Int) := by
  have hlength : (significant (digitValues (Nat.toDigits 10 number))).length ≤ 64 := by
    have hdigits : (Nat.toDigits 10 number).length ≤ 19 :=
      (Nat.length_toDigits_le_iff (by decide) (by decide)).mpr (h.trans (by decide))
    have hsignificant := (List.dropWhile_sublist (· == 0)
      (l := digitValues (Nat.toDigits 10 number))).length_le
    rw [digitValues, List.length_map] at hsignificant
    exact hsignificant.trans (hdigits.trans (by decide))
  have hvalue : ofDigits 10 (significant (digitValues (Nat.toDigits 10 number))) = number := by
    rw [ofDigits_significant, ofDigits_digitValues, Nat.ofDigitChars_ten_toDigits]
  have hlimit : ((1 <<< 63 : Nat) : Int) = 2 ^ 63 := rfl
  simp only [fitting?, if_neg (Nat.not_lt.mpr hlength), hvalue, hlimit, signed, Bool.false_eq_true,
    if_false]
  exact if_pos ⟨by omega, by omega⟩

theorem integer?_toDigits
    (h : number < 2 ^ 63) :
    integer? (Nat.toDigits 10 number) = some (number : Int) := by
  have hsign : sign (Nat.toDigits 10 number) = (false, Nat.toDigits 10 number) := by
    rw [sign]
    · exact toDigits_ne rfl []
    · exact toDigits_ne rfl []
  rw [integer?, hsign]
  · simp only [decimal?_toDigits, Option.bind_some, fitting?_toDigits h]
  · exact toDigits_ne rfl ['0']
  · exact toDigits_ne rfl ['0']
  · exact toDigits_ne rfl ['0']

/-- A number below the limit is the value of its numeral. -/
theorem bareValue?_toDigits
    (h : number < 2 ^ 63) :
    bareValue? (Nat.toDigits 10 number) = some (.integer number) := by
  have htrue : Nat.toDigits 10 number ≠ "true".toList :=
    toDigits_ne rfl [] ['r', 'u', 'e']
  have hfalse : Nat.toDigits 10 number ≠ "false".toList :=
    toDigits_ne rfl [] ['a', 'l', 's', 'e']
  rw [bareValue?, if_neg htrue, if_neg hfalse, integer?_toDigits h]

theorem plain_scalar
    {key : Text}
    {scalar : Scalar}
    (hkey : Bare key)
    (hfits : scalar.value.Fits) :
    Plain key scalar.written scalar.value := by
  cases scalar with
  | number given =>
      have hbound : given < 2 ^ 63 := Int.ofNat_lt.mp (hfits given rfl).2
      refine ⟨hkey, fun c hc => ?_, bareValue?_toDigits hbound⟩
      have hdigit : c.isDigit = true := isDigit_of_mem_toDigits hc
      simp [isBarePart, Char.isAlphanum, hdigit]
  | truth given =>
      cases given with
      | true =>
          exact ⟨hkey, List.all_eq_true.mp rfl, rfl⟩
      | false =>
          exact ⟨hkey, List.all_eq_true.mp rfl, rfl⟩

end Numerals

section Lines

variable {key written text front rest : Text}
variable {value : Value}
variable {entries : Entries}
variable {c : Char}
variable {p : Char → Bool}

theorem takeWhile_append_cons
    (h : ∀ d ∈ front, p d = true)
    (hc : p c = false) :
    (front ++ c :: rest).takeWhile p = front := by
  rw [List.takeWhile_append_of_pos h, List.takeWhile_cons_of_neg (by simp [hc]), List.append_nil]

theorem dropWhile_append_cons
    (h : ∀ d ∈ front, p d = true)
    (hc : p c = false) :
    (front ++ c :: rest).dropWhile p = c :: rest := by
  rw [List.dropWhile_append_of_pos h, List.dropWhile_cons_of_neg (by simp [hc])]

theorem skipBlanks_cons
    (h : isBlank c = false) :
    skipBlanks (c :: text) = c :: text :=
  List.dropWhile_cons_of_neg (by simp [h])

theorem isBlank_eq_false
    (h : p c = true)
    (hspace : p ' ' = false)
    (htab : p '\t' = false) :
    isBlank c = false := by
  have hne {d : Char} (hd : p d = false) : c ≠ d := by
    rintro rfl
    rw [h] at hd
    cases hd
  simp [isBlank, hne hspace, hne htab]

/-- No path leads to a truth value. -/
theorem Entries.onward_ne_boolean
    {missing : Origin}
    {alter : Origin → Entries → Option Entries}
    {old : Option Value}
    {truth : Bool} :
    onward missing alter old ≠ some (.boolean truth) := by
  intro h
  unfold onward at h
  split at h
  · obtain ⟨table, -, hvalue⟩ := Option.map_eq_some_iff.mp h
    cases hvalue
  · obtain ⟨-, h⟩ := Option.ite_none_left_eq_some.mp h
    obtain ⟨table, -, hvalue⟩ := Option.map_eq_some_iff.mp h
    cases hvalue
  · obtain ⟨last, -, h⟩ := Option.bind_eq_some_iff.mp h
    obtain ⟨table, -, hvalue⟩ := Option.map_eq_some_iff.mp h
    cases hvalue
  · cases h

theorem Entries.assignUnder_nil :
    entries.assignUnder [] [] key value = entries.insertNew? key value := by
  rw [assignUnder, alterAt, assign, alterAt, if_pos (.inl rfl)]

theorem skipLines_cons
    (h : isKeyPart c = true) :
    skipLines (c :: text) = c :: text := by
  have hblanks : skipBlanks (c :: text) = c :: text :=
    skipBlanks_cons (isBlank_eq_false h rfl rfl)
  have hcomment : skipComment (c :: text) = c :: text := by
    rw [skipComment]
    rintro rest ⟨⟩
    cases h
  rw [skipLines_of_none, hblanks]
  unfold nextLine?
  rw [hblanks, hcomment]
  simp only
  rw [lineEnd?]
  · rintro rest ⟨⟩
    cases h
  · rintro rest ⟨⟩
    cases h

theorem readKey_plain
    {limit : Nat}
    (hne : key ≠ [])
    (hparts : ∀ c ∈ key, isKeyPart c = true) :
    readKey (limit + 1) (key ++ ' ' :: '=' :: rest) = some ([], key, '=' :: rest) := by
  obtain ⟨c, others, rfl⟩ := List.exists_cons_of_ne_nil hne
  have hc : isKeyPart c = true := hparts c List.mem_cons_self
  have hpart : readKeyPart (c :: others ++ ' ' :: '=' :: rest) =
      some (c :: others, ' ' :: '=' :: rest) := by
    rw [readKeyPart, takeWhile_append_cons hparts rfl, dropWhile_append_cons hparts rfl]
    · rintro rest ⟨⟩
      cases hc
    · rintro rest ⟨⟩
      cases hc
  rw [readKey, List.cons_append, skipBlanks_cons (isBlank_eq_false hc rfl rfl), ← List.cons_append,
    hpart]
  rfl

theorem readBare_plain
    (hparts : ∀ c ∈ written, isBarePart c = true)
    (hvalue : bareValue? written = some value) :
    readBare (written ++ '\n' :: rest) = some (value, '\n' :: rest) := by
  unfold readBare
  simp only [takeWhile_append_cons hparts (c := '\n') rfl,
    dropWhile_append_cons hparts (c := '\n') rfl, hvalue, Option.map_some]
  rfl

theorem readValue_plain
    {depth : Nat}
    (hparts : ∀ c ∈ written, isBarePart c = true)
    (hvalue : bareValue? written = some value) :
    readValue depth (written ++ '\n' :: rest) = some (value, '\n' :: rest) := by
  have hne : written ≠ [] := by
    rintro rfl
    cases hvalue
  obtain ⟨c, others, rfl⟩ := List.exists_cons_of_ne_nil hne
  have hc : isBarePart c = true := hparts c List.mem_cons_self
  rw [← readBare_plain hparts hvalue, readValue]
  · rintro rest ⟨⟩
    cases hc
  · rintro rest ⟨⟩
    cases hc
  · rintro rest - ⟨⟩
    cases hc
  · rintro depth rest - ⟨⟩
    cases hc
  · rintro rest - ⟨⟩
    cases hc
  · rintro depth rest - ⟨⟩
    cases hc

theorem readPair_line
    {header : List Text}
    (h : Plain key written value) :
    readPair (readValue (nestingLimit - 1)) (entries.assignUnder header)
        (line key written ++ rest) =
      (entries.assignUnder header [] key value).map fun entries => (entries, '\n' :: rest) := by
  have hne : written ≠ [] := by
    rintro rfl
    cases h.value_eq
  obtain ⟨d, digits, hwritten⟩ := List.exists_cons_of_ne_nil hne
  have hd : isBarePart d = true := h.value_parts d (hwritten ▸ List.mem_cons_self)
  have htext : line key written ++ rest =
      key ++ ' ' :: '=' :: ' ' :: (written ++ '\n' :: rest) := by
    simp [line]
  have hblanks : skipBlanks (' ' :: (written ++ '\n' :: rest)) = written ++ '\n' :: rest := by
    rw [hwritten]
    exact skipBlanks_cons (isBlank_eq_false hd rfl rfl)
  unfold readPair
  rw [htext, nestingLimit, readKey_plain h.key_ne h.key_parts]
  simp only [Option.bind_eq_bind, Option.bind_some, hblanks,
    readValue_plain h.value_parts h.value_eq]
  cases entries.assignUnder header [] key value <;> rfl

theorem readLine_line
    {header : List Text}
    (h : Plain key written value) :
    readLine ⟨entries, header⟩ (line key written ++ rest) =
      (entries.assignUnder header [] key value).map fun entries => (⟨entries, header⟩, rest) := by
  obtain ⟨c, others, rfl⟩ := List.exists_cons_of_ne_nil h.key_ne
  have hc : isKeyPart c = true := h.key_parts c List.mem_cons_self
  rw [readLine_pair, readPair_line h]
  · cases entries.assignUnder header [] (c :: others) value <;> rfl
  · intro rest hsame
    cases (List.cons.inj hsame).1
    cases hc
  · intro rest hsame
    cases (List.cons.inj hsame).1
    cases hc

theorem skipLines_line
    (h : Plain key written value) :
    skipLines (line key written ++ rest) = line key written ++ rest := by
  obtain ⟨c, others, rfl⟩ := List.exists_cons_of_ne_nil h.key_ne
  exact skipLines_cons (h.key_parts c List.mem_cons_self)

theorem readLines_line
    {header : List Text}
    {limit : Text}
    (h : Plain key written value) :
    readLines ⟨entries, header⟩ (c :: limit) (line key written ++ rest) =
      (entries.assignUnder header [] key value).bind fun entries =>
        readLines ⟨entries, header⟩ limit rest := by
  have hne : skipLines (line key written ++ rest) ≠ [] := by
    rw [skipLines_line h]
    simp [line]
  rw [readLines_cons hne, skipLines_line h, readLine_line h]
  cases entries.assignUnder header [] key value <;> rfl

end Lines

section Insertions

variable {key written text front back limit : Text}
variable {value : Value}
variable {entries : Entries}
variable {final : Content}
variable {c : Char}

/-- The line of a plain pair in front of all headers adds its key, if it is not there yet. -/
theorem readLines_new
    (h : Plain key written value)
    (hnone : entries.get? key = none) :
    readLines ⟨entries, []⟩ (c :: limit) (line key written ++ back) =
      readLines ⟨entries ++ [(key, value)], []⟩ limit back := by
  rw [readLines_line h, Entries.assignUnder_nil, Entries.insertNew?, hnone]
  rfl

/-- A new pair in front of all headers changes nothing else in a document.  Its line takes one off
the limit, and has made the limit longer by more than that. -/
theorem readLines_insert
    (hfront : Opening front)
    (hplain : Plain key written value)
    (hlines : readLines {} (front ++ back) (front ++ back) = some final)
    (hnone : final.entries.get? key = none) :
    ∃ more,
      readLines {} (front ++ line key written ++ back) (front ++ line key written ++ back) =
        some more ∧
      Entries.Gives key value final.entries more.entries := by
  obtain ⟨hwhole, entries, hentries⟩ := hfront
  obtain ⟨left, hleft⟩ := readLines_append hwhole hentries
  rw [hleft] at hlines
  have hnew : entries.get? key = none := get?_eq_none_of_readLines hlines hnone
  have hadded : Entries.Gives key value (Content.mk entries []).entries
      (Content.mk (entries ++ [(key, value)]) []).entries :=
    Entries.gives_append hnew
  obtain ⟨more, hmore, hgives, -⟩ := readLines_gives hlines hadded rfl hnone
  refine ⟨more, ?_, hgives⟩
  have hlength : (left ++ back).length < (left ++ (line key written ++ back)).length := by
    simp [line]
    omega
  obtain ⟨c, limit, hlimit⟩ := List.exists_cons_of_length_pos (Nat.zero_lt_of_lt hlength)
  rw [hlimit, List.length_cons] at hlength
  rw [List.append_assoc, hleft, hlimit, readLines_new hplain hnew]
  exact readLines_of_length_le hmore (Nat.le_of_lt_succ hlength)

/-- If a pair comes to stand in the table of the whole document, then no table is open in front of
its line. -/
theorem header_eq_nil_of_readLines
    {content : Content}
    {truth : Bool}
    (hfront : WholeLines front)
    (hplain : Plain key written value)
    (hlines : readLines {} front front = some content)
    (hnone : content.entries.get? key = none)
    (hmore : readLines {} (front ++ line key written) (front ++ line key written) = some final)
    (hgiven : final.entries.get? key = some (.boolean truth)) :
    content.header = [] := by
  obtain ⟨entries, header⟩ := content
  obtain ⟨left, hleft⟩ := readLines_append hfront hlines
  obtain ⟨c, limit, hlimit⟩ := List.exists_cons_of_ne_nil (l := left ++ line key written)
    (by simp [line])
  have hline : readLines ⟨entries, header⟩ (c :: limit) (line key written ++ []) = some final := by
    rw [← hlimit, List.append_nil, ← hleft, hmore]
  rw [readLines_line hplain] at hline
  obtain ⟨after, hafter, hline⟩ := Option.bind_eq_some_iff.mp hline
  rw [readLines_nil skipLines_nil] at hline
  cases hline
  cases header with
  | nil =>
      rfl
  | cons name path =>
      rw [Entries.assignUnder, Entries.alterAt_cons] at hafter
      obtain ⟨found, hfound, hgives⟩ := Entries.exists_of_revise_eq_some hafter
      by_cases hsame : key = name
      · rw [hsame, hgives.given] at hgiven
        cases hgiven
        exact absurd hfound Entries.onward_ne_boolean
      · rw [hgives.kept key hsame, hnone] at hgiven
        cases hgiven

end Insertions

section Documents

variable {key written text front back : Text}
variable {value : Value}
variable {entries : Entries}

theorem skipMark_of_head?_ne
    (h : text.head? ≠ some '\ufeff') :
    skipMark text = text := by
  unfold skipMark
  split
  · exact absurd rfl h
  · rfl

theorem skipMark_append
    (h : front = [] → back.head? ≠ some '\ufeff') :
    skipMark (front ++ back) = skipMark front ++ back := by
  cases front with
  | nil =>
      exact skipMark_of_head?_ne (h rfl)
  | cons c front =>
      by_cases hmark : c = '\ufeff'
      · rw [hmark]
        rfl
      · rw [skipMark_of_head?_ne (by simpa), skipMark_of_head?_ne (by simpa)]

theorem wholeLines_skipMark
    (h : WholeLines front) :
    WholeLines (skipMark front) := by
  unfold skipMark
  split
  · exact .inr ((h.resolve_left (List.cons_ne_nil _ _)).of_cons (by decide))
  · exact h

theorem parse?_nil :
    parse? [] = some [] := by
  rw [parse?, skipMark_of_head?_ne (by simp), readLines_nil skipLines_nil]
  rfl

theorem parse?_line
    (h : Plain key written value) :
    parse? (line key written) = some [(key, value)] := by
  obtain ⟨c, limit, hline⟩ := List.exists_cons_of_ne_nil (l := line key written) (by simp [line])
  have hmark : skipMark (line key written ++ []) = line key written ++ [] :=
    skipMark_of_head?_ne h.head?_line
  have hlines : readLines {} (c :: limit) (line key written ++ []) = some ⟨[(key, value)], []⟩ := by
    rw [readLines_new h rfl, List.nil_append, readLines_nil skipLines_nil]
  rw [List.append_nil] at hmark
  rw [List.append_nil, ← hline] at hlines
  rw [parse?, hmark, hlines]
  rfl

theorem parse?_insert
    (hfront : Opening (skipMark front))
    (hplain : Plain key written value)
    (hmark : front = [] → back.head? ≠ some '\ufeff')
    (hparse : parse? (front ++ back) = some entries)
    (hnone : entries.get? key = none) :
    ∃ more,
      parse? (front ++ line key written ++ back) = some more ∧
      Entries.Gives key value entries more := by
  rw [parse?, skipMark_append hmark] at hparse
  obtain ⟨final, hlines, rfl⟩ := Option.map_eq_some_iff.mp hparse
  obtain ⟨more, hmore, hgives⟩ := readLines_insert hfront hplain hlines hnone
  refine ⟨more.entries, ?_, hgives⟩
  rw [List.append_assoc] at hmore
  rw [parse?, List.append_assoc, skipMark_append fun _ => hplain.head?_line, hmore]
  rfl

theorem opening_of_parse?_line
    {more : Entries}
    {truth : Bool}
    (hfront : WholeLines front)
    (hplain : Plain key written value)
    (hparse : parse? front = some entries)
    (hnone : entries.get? key = none)
    (hmore : parse? (front ++ line key written) = some more)
    (hgiven : more.get? key = some (.boolean truth)) :
    Opening (skipMark front) := by
  have hmark : (line key written ++ []).head? ≠ some '\ufeff' := hplain.head?_line
  rw [List.append_nil] at hmark
  rw [parse?, skipMark_append fun _ => hmark] at hmore
  obtain ⟨⟨entries, header⟩, hlines, rfl⟩ := Option.map_eq_some_iff.mp hparse
  obtain ⟨final, hfinal, rfl⟩ := Option.map_eq_some_iff.mp hmore
  have hwhole := wholeLines_skipMark hfront
  obtain rfl : header = [] :=
    header_eq_nil_of_readLines hwhole hplain hlines hnone hfinal hgiven
  exact ⟨hwhole, entries, hlines⟩

theorem fits_of_parse?
    (h : parse? text = some entries)
    (hvalue : entries.get? key = some value) :
    value.Fits := by
  obtain ⟨final, hlines, rfl⟩ := Option.map_eq_some_iff.mp h
  exact fits_of_readLines hlines hvalue

end Documents

end Toml

end LiveTokens
