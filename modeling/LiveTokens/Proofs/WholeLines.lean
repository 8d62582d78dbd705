import LiveTokens.Proofs.LineEnds

/-!
# Documents line by line

A document can be cut behind any line.  The lines in front of the cut are read without
regard to those behind it, and those behind it are read as if the content of the front
were all that there has been (`readLines_append`).

A cut is only a cut if the front is read to its end.  Inside of an array, or of a
quotation over several lines, there is none.

The limits that go along with a text count its characters.  The front does not use up
more of its limit than it has, so enough is left for what stands behind it, and more
than enough does no harm (`readLines_of_length_le`).
-/

namespace LiveTokens

namespace Toml

variable {text rest more : Text}
variable {c : Char}

section Keys

theorem settles_readKeyPart :
    Settles readKeyPart text := by
  fun_cases readKeyPart text with
  | case1 rest =>
      exact settles_readBasic.forward rfl (List.suffix_cons _ _) fun _ _ => rfl
  | case2 rest =>
      exact settles_readLiteral.forward rfl (List.suffix_cons _ _) fun _ _ => rfl
  | case3 text hbasic hliteral hnil =>
      apply settles_of_none
      rw [readKeyPart, hnil]
      · exact hbasic
      · exact hliteral
  | case4 text hbasic hliteral hkey =>
      have hrest : EndsLine text → EndsLine (text.dropWhile isKeyPart) :=
        fun hends => hends.dropWhile rfl
      refine settles_of_found (text.takeWhile isKeyPart) hrest fun hends more => ?_
      rw [readKeyPart, hends.takeWhile_append rfl, hends.dropWhile_append rfl]
      · split
        · contradiction
        · rfl
      · exact hends.append_ne ['"'] (by decide) hbasic
      · exact hends.append_ne ['\x27'] (by decide) hliteral

theorem readKey_append
    {limit : Nat}
    {path : List Text}
    {key : Text}
    (h : EndsLine text)
    (hkey : readKey limit text = some (path, key, rest)) :
    EndsLine rest ∧ ∀ more, readKey limit (text ++ more) = some (path, key, rest ++ more) := by
  induction limit generalizing text path with
  | zero =>
      cases hkey
  | succ limit ih =>
      unfold readKey at hkey ⊢
      obtain ⟨⟨part, tail⟩, hpart, hkey⟩ := Option.bind_eq_some_iff.mp hkey
      obtain ⟨htail, hmore⟩ := settles_readKeyPart (endsLine_skipBlanks h) _ _ hpart
      have hnext := endsLine_skipBlanks htail
      simp only [skipBlanks_append h, hmore, Option.bind_eq_bind, Option.bind_some,
        skipBlanks_append htail]
      simp only at hkey
      split at hkey
      · next dotted hdot =>
        obtain ⟨⟨others, last, behind⟩, hothers, hpair⟩ := Option.bind_eq_some_iff.mp hkey
        cases hpair
        rw [hdot] at hnext ⊢
        obtain ⟨hrest, hothers⟩ := ih (hnext.of_cons (by decide)) hothers
        refine ⟨hrest, fun more => ?_⟩
        simp only [List.cons_append, hothers]
        rfl
      · next hdot =>
        cases hkey
        refine ⟨hnext, fun more => ?_⟩
        split
        · next dotted hsame =>
          exact absurd hsame (hnext.append_ne ['.'] (by decide) hdot _)
        · rfl

end Keys

section Values

variable {reader : ValueReader}
variable {limit : Text}

theorem settles_readBare :
    Settles readBare text := by
  intro hends value rest h
  have hrun := hends.dropWhile (p := isBarePart) rfl
  unfold readBare at h ⊢
  simp only [hends.takeWhile_append (p := isBarePart) rfl,
    hends.dropWhile_append (p := isBarePart) rfl]
  simp only at h
  split at h
  · next behind hblank =>
    rw [hblank] at hrun ⊢
    have hclock := hrun.of_cons (by decide)
    simp only [List.cons_append, hclock.takeWhile_append (p := isBarePart) rfl,
      hclock.dropWhile_append (p := isBarePart) rfl]
    split at h
    · next hdate =>
      cases h
      exact ⟨hclock.dropWhile rfl, fun _ => if_pos hdate⟩
    · next hdate =>
      obtain ⟨value, hvalue, hpair⟩ := Option.map_eq_some_iff.mp h
      cases hpair
      rw [hblank]
      refine ⟨hrun, fun more => ?_⟩
      rw [if_neg hdate, hvalue]
      rfl
  · next hblank =>
    obtain ⟨value, hvalue, hpair⟩ := Option.map_eq_some_iff.mp h
    cases hpair
    refine ⟨hrun, fun more => ?_⟩
    split
    · next hsame =>
      exact absurd hsame (hrun.append_ne [' '] (by decide) hblank _)
    · rw [hvalue]
      rfl

theorem readBare_nil :
    readBare [] = none := by
  decide

theorem readValue_nil
    (depth : Nat) :
    readValue depth [] = none := by
  cases depth <;> exact readBare_nil

theorem readElements_cons
    (h : ∀ rest, skipLines text = ']' :: rest → False) :
    readElements reader (c :: limit) text =
      (reader (skipLines text)).bind fun (element, rest) =>
        match skipLines rest with
        | ']' :: rest => some ([element], rest)
        | ',' :: rest =>
          (readElements reader limit rest).bind fun (elements, rest) =>
            some (element :: elements, rest)
        | _ => none := by
  rw [readElements.eq_2 _ _ _ _ h]
  rfl

theorem readElements_append
    {elements : List Value}
    (hread : ∀ text, Settles reader text)
    (hempty : reader [] = none)
    (h : EndsLine text)
    (helements : readElements reader limit text = some (elements, rest)) :
    EndsLine rest ∧ ∀ left more,
      readElements reader (limit ++ left) (text ++ more) = some (elements, rest ++ more) := by
  fun_induction readElements reader limit text generalizing elements rest with
  | case1 limit text tail hclose =>
      cases helements
      obtain ⟨hrest, hskip⟩ := skipLines_append_of_cons h hclose (by decide)
      refine ⟨hrest, fun left more => ?_⟩
      unfold readElements
      rw [hskip]
      rfl
  | case2 text c limit hclose ih =>
      obtain ⟨⟨element, tail⟩, helement, helements⟩ := Option.bind_eq_some_iff.mp helements
      simp only at helements
      have hne : skipLines text ≠ [] := by
        intro hnil
        rw [hnil, hempty] at helement
        cases helement
      obtain ⟨hends, hskip⟩ := skipLines_append_of_ne h hne
      obtain ⟨htail, helement⟩ := hread _ hends _ _ helement
      have hunfold (left more : Text) :
          readElements reader (c :: limit ++ left) (text ++ more) =
            match skipLines (tail ++ more) with
            | ']' :: rest => some ([element], rest)
            | ',' :: rest =>
              (readElements reader (limit ++ left) rest).bind fun (elements, rest) =>
                some (element :: elements, rest)
            | _ => none := by
        rw [List.cons_append, readElements_cons, hskip, helement]
        · rfl
        · rw [hskip]
          exact hends.append_ne [']'] (by decide) hclose
      simp only [hunfold]
      split at helements
      · next rest hend =>
        cases helements
        obtain ⟨hrest, hskip⟩ := skipLines_append_of_cons htail hend (by decide)
        refine ⟨hrest, fun left more => ?_⟩
        rw [hskip]
        rfl
      · next behind hcomma =>
        obtain ⟨⟨others, rest⟩, hothers, hpair⟩ := Option.bind_eq_some_iff.mp helements
        cases hpair
        obtain ⟨hbehind, hskip⟩ := skipLines_append_of_cons htail hcomma (by decide)
        obtain ⟨hrest, hothers⟩ := ih behind hbehind hothers
        refine ⟨hrest, fun left more => ?_⟩
        simp only [hskip, hothers, Option.bind_some]
      · cases helements
  | case3 text hclose =>
      cases helements

theorem settles_readPair
    {assign : List Text → Text → Value → Option Entries}
    (hread : ∀ text, Settles reader text) :
    Settles (readPair reader assign) text := by
  intro hends entries rest h
  unfold readPair at h ⊢
  obtain ⟨⟨path, key, tail⟩, hkey, h⟩ := Option.bind_eq_some_iff.mp h
  obtain ⟨htail, hkey⟩ := readKey_append hends hkey
  simp only [hkey, Option.bind_eq_bind, Option.bind_some]
  simp only at h
  split at h
  · next text =>
    have htext := htail.of_cons (by decide)
    obtain ⟨⟨value, rest⟩, hvalue, h⟩ := Option.bind_eq_some_iff.mp h
    obtain ⟨entries, hassign, hpair⟩ := Option.bind_eq_some_iff.mp h
    cases hpair
    obtain ⟨hrest, hvalue⟩ := hread _ (endsLine_skipBlanks htext) _ _ hvalue
    refine ⟨hrest, fun more => ?_⟩
    simp only [List.cons_append, skipBlanks_append htext, hvalue, Option.bind_some, hassign]
    rfl
  · cases h

theorem readPairs_cons
    {table : Entries} :
    readPairs reader table (c :: limit) text =
      (readPair reader table.assign text).bind fun (table, rest) =>
        match skipBlanks rest with
        | '}' :: rest => some (table, rest)
        | ',' :: rest => readPairs reader table limit rest
        | _ => none :=
  rfl

theorem readPairs_append
    {table entries : Entries}
    (hread : ∀ text, Settles reader text)
    (h : EndsLine text)
    (hpairs : readPairs reader table limit text = some (entries, rest)) :
    EndsLine rest ∧ ∀ left more,
      readPairs reader table (limit ++ left) (text ++ more) = some (entries, rest ++ more) := by
  induction limit generalizing table text with
  | nil =>
      cases hpairs
  | cons c limit ih =>
      unfold readPairs at hpairs
      obtain ⟨⟨added, tail⟩, hpair, hpairs⟩ := Option.bind_eq_some_iff.mp hpairs
      obtain ⟨htail, hpair⟩ := settles_readPair hread h _ _ hpair
      have hnext := endsLine_skipBlanks htail
      have hunfold (left more : Text) :
          readPairs reader table (c :: limit ++ left) (text ++ more) =
            match skipBlanks tail ++ more with
            | '}' :: rest => some (added, rest)
            | ',' :: rest => readPairs reader added (limit ++ left) rest
            | _ => none := by
        rw [List.cons_append, readPairs_cons, hpair, ← skipBlanks_append htail]
        rfl
      simp only [hunfold]
      simp only at hpairs
      split at hpairs
      · next behind hsame =>
        cases hpairs
        rw [hsame] at hnext ⊢
        exact ⟨hnext.of_cons (by decide), fun _ _ => rfl⟩
      · next behind hsame =>
        rw [hsame] at hnext ⊢
        exact ih (hnext.of_cons (by decide)) hpairs
      · cases hpairs

theorem readElements_nil :
    readElements reader [] [] = none := by
  unfold readElements
  rw [skipLines_nil]

theorem settles_readValue
    (depth : Nat) :
    Settles (readValue depth) text := by
  induction depth using Nat.strong_induction_on generalizing text with
  | _ depth ih =>
      fun_cases readValue depth text with
      | case1 depth rest =>
          refine settles_readQuotation.step .string rfl List.suffix_rfl fun _ more => ?_
          rw [List.cons_append, readValue]
      | case2 depth rest =>
          refine settles_readQuotation.step .string rfl List.suffix_rfl fun _ more => ?_
          rw [List.cons_append, readValue]
      | case3 rest | case5 rest =>
          exact settles_of_none rfl
      | case4 depth rest =>
          have helements : Settles (fun text => readElements (readValue depth) text text)
              rest := by
            intro hends elements behind h
            obtain ⟨hbehind, hmore⟩ := readElements_append
              (fun _ => ih depth (Nat.lt_succ_self depth)) (readValue_nil depth) hends h
            exact ⟨hbehind, fun more => hmore more more⟩
          exact helements.step .array readElements_nil (List.suffix_cons _ _) fun _ _ => rfl
      | case6 depth rest behind hclose =>
          have hbehind : EndsLine ('{' :: rest) → EndsLine behind := by
            intro hends
            have hblanks := endsLine_skipBlanks (hends.of_cons (by decide))
            rw [hclose] at hblanks
            exact hblanks.of_cons (by decide)
          refine settles_of_found (.table .inline []) hbehind fun hends more => ?_
          rw [List.cons_append, readValue, skipBlanks_append (hends.of_cons (by decide)),
            hclose]
          rfl
      | case7 depth rest hclose =>
          have hpairs : Settles (fun text => readPairs (readValue depth) [] text text)
              rest := by
            intro hends table behind h
            obtain ⟨hbehind, hmore⟩ := readPairs_append
              (fun _ => ih depth (Nat.lt_succ_self depth)) hends h
            exact ⟨hbehind, fun more => hmore more more⟩
          refine hpairs.step (.table .inline) rfl (List.suffix_cons _ _) fun hends more => ?_
          have hblanks := endsLine_skipBlanks (hends.of_cons (by decide))
          rw [List.cons_append, readValue, skipBlanks_append (hends.of_cons (by decide))]
          split
          · next hsame =>
            exact absurd hsame (hblanks.append_ne ['}'] (by decide) hclose _)
          · rfl
      | case8 text depth hbasic hliteral hzeroBracket hbracket hzeroBrace hbrace =>
          refine settles_readBare.forward readBare_nil List.suffix_rfl fun hends more => ?_
          rw [readValue]
          · exact hends.append_ne ['"'] (by decide) hbasic
          · exact hends.append_ne ['\x27'] (by decide) hliteral
          · exact fun _ hzero => hends.append_ne ['['] (by decide) (fun _ => hzeroBracket _ hzero) _
          · exact fun _ _ hsucc => hends.append_ne ['['] (by decide) (fun _ => hbracket _ _ hsucc) _
          · exact fun _ hzero => hends.append_ne ['{'] (by decide) (fun _ => hzeroBrace _ hzero) _
          · exact fun _ _ hsucc => hends.append_ne ['{'] (by decide) (fun _ => hbrace _ _ hsucc) _

end Values

section Lines

variable {content final : Content}
variable {limit : Text}

/-- The end of a line is found whatever stands behind the text. -/
theorem nextLine?_settles
    (h : EndsLine text)
    (hnext : nextLine? text = some rest) :
    WholeLines rest ∧ ∀ more, nextLine? (text ++ more) = some (rest ++ more) := by
  refine ⟨wholeLines_of_nextLine? h hnext, fun more => ?_⟩
  rw [nextLine?_append h, hnext]
  rfl

theorem readHeader_append
    (close : Text)
    {openAt : List Text → Text → Option Entries}
    (h : EndsLine text)
    (hclose : '\n' ∉ close)
    (hheader : readHeader close openAt text = some (final, rest)) :
    WholeLines rest ∧
      ∀ more, readHeader close openAt (text ++ more) = some (final, rest ++ more) := by
  unfold readHeader at hheader ⊢
  obtain ⟨⟨path, key, tail⟩, hkey, hheader⟩ := Option.bind_eq_some_iff.mp hheader
  obtain ⟨htail, hkey⟩ := readKey_append h hkey
  simp only [hkey, Option.bind_eq_bind, Option.bind_some]
  simp only at hheader
  split at hheader
  · next hprefix =>
    obtain ⟨entries, hopen, hheader⟩ := Option.bind_eq_some_iff.mp hheader
    obtain ⟨behind, hnext, hpair⟩ := Option.bind_eq_some_iff.mp hheader
    cases hpair
    obtain ⟨line, rfl⟩ := List.prefix_iff_eq_take.mpr hprefix.symm
    rw [List.drop_left] at hnext
    have hline : EndsLine line := by
      refine htail.of_suffix (List.suffix_append close line) ?_
      rintro rfl
      rw [List.append_nil] at htail
      exact hclose (List.mem_of_getLast? htail)
    obtain ⟨hbehind, hnext⟩ := nextLine?_settles hline hnext
    refine ⟨hbehind, fun more => ?_⟩
    rw [List.append_assoc, List.take_left, if_pos rfl, List.drop_left, hopen, hnext]
    rfl
  · cases hheader

theorem readLine_header
    (h : ∀ rest, text = '[' :: rest → False) :
    readLine content ('[' :: text) = readHeader [']'] content.entries.openTable text := by
  rw [readLine]
  exact h

theorem readLine_pair
    (hdouble : ∀ rest, text = '[' :: '[' :: rest → False)
    (hsingle : ∀ rest, text = '[' :: rest → False) :
    readLine content text = do
      let (entries, rest) ← readPair (readValue (nestingLimit - 1))
        (content.entries.assignUnder content.header) text
      return ({ content with entries := entries }, ← nextLine? rest) := by
  rw [readLine]
  · exact hdouble
  · exact hsingle

theorem readLine_append
    (h : EndsLine text)
    (hline : readLine content text = some (final, rest)) :
    WholeLines rest ∧ ∀ more, readLine content (text ++ more) = some (final, rest ++ more) := by
  fun_cases readLine content text with
  | case1 behind =>
      have hbehind := (h.of_cons (by decide)).of_cons (by decide)
      exact readHeader_append [']', ']'] hbehind (by decide) hline
  | case2 behind hsingle =>
      have hbehind := h.of_cons (by decide)
      rw [readLine_header hsingle] at hline
      obtain ⟨hrest, hmore⟩ := readHeader_append [']'] hbehind (by decide) hline
      refine ⟨hrest, fun more => ?_⟩
      rw [List.cons_append, readLine_header]
      · exact hmore more
      · exact hbehind.append_ne ['['] (by decide) hsingle
  | case3 text hdouble hsingle =>
      rw [readLine_pair hdouble hsingle] at hline
      obtain ⟨⟨entries, tail⟩, hpair, hline⟩ := Option.bind_eq_some_iff.mp hline
      obtain ⟨behind, hnext, hfinal⟩ := Option.bind_eq_some_iff.mp hline
      cases hfinal
      obtain ⟨htail, hpair⟩ := settles_readPair (fun _ => settles_readValue _) h _ _ hpair
      obtain ⟨hrest, hnext⟩ := nextLine?_settles htail hnext
      refine ⟨hrest, fun more => ?_⟩
      rw [readLine_pair, hpair]
      · simp only [Option.bind_eq_bind, Option.bind_some, hnext]
        rfl
      · exact h.append_ne ['[', '['] (by decide) hdouble
      · exact h.append_ne ['['] (by decide) hsingle

theorem readLines_eq_of_skipLines_eq
    {other : Text}
    (h : skipLines text = skipLines other) :
    readLines content limit text = readLines content limit other := by
  unfold readLines
  rw [h]

theorem readLines_nil
    (h : skipLines text = []) :
    readLines content limit text = some content := by
  unfold readLines
  rw [h]

theorem readLines_cons
    (h : skipLines text ≠ []) :
    readLines content (c :: limit) text =
      (readLine content (skipLines text)).bind fun (content, rest) =>
        readLines content limit rest := by
  rw [readLines.eq_2 _ _ _ _ h]
  rfl

/-- Lines are read one after the other: what stands behind whole lines is read as if it stood alone,
added to the content of those lines. -/
theorem readLines_append
    (h : WholeLines text)
    (hlines : readLines content limit text = some final) :
    ∃ left, ∀ others more,
      readLines content (limit ++ others) (text ++ more) =
        readLines final (left ++ others) more := by
  fun_induction readLines content limit text with
  | case1 limit content text hnil =>
      cases hlines
      refine ⟨limit, fun others more => readLines_eq_of_skipLines_eq ?_⟩
      rcases h with rfl | hends
      · rfl
      · rcases skipLines_append hends with ⟨-, hskip⟩ | ⟨hline, -⟩
        · exact hskip more
        · rw [hnil] at hline
          exact absurd hline not_endsLine_nil
  | case2 content text c limit hline ih =>
      obtain ⟨⟨middle, rest⟩, hread, hlines⟩ := Option.bind_eq_some_iff.mp hlines
      have hends : EndsLine text := h.resolve_left fun hnil => hline (hnil ▸ skipLines_nil)
      obtain ⟨hskipped, hskip⟩ := skipLines_append_of_ne hends hline
      obtain ⟨hrest, hread⟩ := readLine_append hskipped hread
      obtain ⟨left, hleft⟩ := ih middle rest hrest hlines
      refine ⟨left, fun others more => ?_⟩
      have hne : skipLines (text ++ more) ≠ [] := by
        rw [hskip]
        exact fun hnil => hline (List.append_eq_nil_iff.mp hnil).1
      rw [List.cons_append, readLines_cons hne, hskip, hread]
      exact hleft others more
  | case3 content text hline =>
      cases hlines

/-- A longer limit gives the same content. -/
theorem readLines_of_length_le
    {other : Text}
    (h : readLines content limit text = some final)
    (hlength : limit.length ≤ other.length) :
    readLines content other text = some final := by
  fun_induction readLines content limit text generalizing other with
  | case1 limit content text hnil =>
      rw [readLines_nil hnil, h]
  | case2 content text c limit hline ih =>
      obtain ⟨⟨middle, rest⟩, hread, hlines⟩ := Option.bind_eq_some_iff.mp h
      cases other with
      | nil =>
          simp at hlength
      | cons d other =>
          rw [readLines_cons hline, hread]
          exact ih middle rest hlines (Nat.le_of_succ_le_succ hlength)
  | case3 content text hline =>
      cases h

end Lines

end Toml

end LiveTokens
