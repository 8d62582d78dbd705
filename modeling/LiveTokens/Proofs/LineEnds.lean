import Mathlib.Data.List.TakeWhile
import Mathlib.Data.List.Infix
import LiveTokens.Toml.Document

/-!
# Readers in front of a line end

A reader takes something from the front of a text and gives the rest.  If the text ends
with a line feed, then that line feed stops it: the reader does not see whether more
text stands behind.  It finds the same thing in the longer text, with a longer rest.

`Settles read text` says this of a reader and a text.  It says nothing about a reader
that finds nothing, which may well find something in the longer text, such as the end
of a quotation over several lines.

Whether a reader takes one case or another depends on the first few characters.  These
could come from behind the text only if the text ended in the middle of them.  None of
the marks that are looked for holds a line feed before its end, so the same case
applies to the longer text (`EndsLine.append_ne`).
-/

namespace LiveTokens

namespace Toml

/-- The text ends with a line feed. -/
def EndsLine
    (text : Text) : Prop :=
  text.getLast? = some '\n'

/-- The text is empty or ends with a line feed. -/
def WholeLines
    (text : Text) : Prop :=
  text = [] ∨ EndsLine text

/-- If the text ends with a line feed, then what the reader finds at its front ends before that line
feed, and it finds the same whatever stands behind the text. -/
def Settles
    {α : Type}
    (read : Text → Option (α × Text))
    (text : Text) : Prop :=
  EndsLine text →
  ∀ value rest,
    read text = some (value, rest) →
    EndsLine rest ∧ ∀ more, read (text ++ more) = some (value, rest ++ more)

variable {α β : Type}
variable {read : Text → Option (α × Text)}
variable {c : Char}
variable {text front rest more behind : Text}
variable {p : Char → Bool}

section Ends

@[simp] theorem not_endsLine_nil :
    ¬ EndsLine [] := by
  simp [EndsLine]

@[simp] theorem endsLine_cons_iff :
    EndsLine (c :: text) ↔ c = '\n' ∧ text = [] ∨ EndsLine text := by
  cases text <;> simp [EndsLine]

theorem EndsLine.of_cons
    (h : EndsLine (c :: text))
    (hc : c ≠ '\n') :
    EndsLine text := by
  simpa [hc] using h

theorem EndsLine.of_suffix
    (h : EndsLine text)
    (hsuffix : rest <:+ text)
    (hrest : rest ≠ []) :
    EndsLine rest := by
  obtain ⟨front, rfl⟩ := hsuffix
  rwa [EndsLine, List.getLast?_append_of_ne_nil _ hrest] at h

/-- A front whose only line feed is at its end does not come about by what stands behind the text.
Otherwise the text would end inside the front, with a line feed. -/
theorem EndsLine.append_ne
    (h : EndsLine text)
    (front : Text)
    (hfront : '\n' ∉ front.dropLast)
    (hnot : ∀ rest, text = front ++ rest → False)
    (behind : Text) :
    text ++ more = front ++ behind → False := by
  intro hsame
  rcases List.append_eq_append_iff.mp hsame with ⟨tail, rfl, -⟩ | ⟨tail, rfl, -⟩
  · by_cases htail : tail = []
    · subst htail
      exact hnot [] (by simp)
    · rw [List.dropLast_append_of_ne_nil htail] at hfront
      exact hfront (List.mem_append_left _ (List.mem_of_getLast? h))
  · exact hnot tail rfl

theorem EndsLine.dropWhile
    (h : EndsLine text)
    (hp : p '\n' = false) :
    EndsLine (text.dropWhile p) := by
  refine h.of_suffix (List.dropWhile_suffix p) fun hnil => ?_
  have hall := List.dropWhile_eq_nil_iff.mp hnil '\n' (List.mem_of_getLast? h)
  rw [hp] at hall
  cases hall

theorem EndsLine.dropWhile_append
    (h : EndsLine text)
    (hp : p '\n' = false)
    (more : Text) :
    (text ++ more).dropWhile p = text.dropWhile p ++ more := by
  have hne : text.dropWhile p ≠ [] := fun hnil =>
    not_endsLine_nil (hnil ▸ h.dropWhile hp)
  rw [List.dropWhile_append, if_neg (by simpa using hne)]

theorem EndsLine.takeWhile_append
    (h : EndsLine text)
    (hp : p '\n' = false)
    (more : Text) :
    (text ++ more).takeWhile p = text.takeWhile p := by
  have hwhole : (text ++ more).takeWhile p ++ (text.dropWhile p ++ more) =
      text.takeWhile p ++ (text.dropWhile p ++ more) := by
    rw [← h.dropWhile_append hp, List.takeWhile_append_dropWhile, h.dropWhile_append hp,
      ← List.append_assoc, List.takeWhile_append_dropWhile]
  exact List.append_cancel_right hwhole

theorem EndsLine.lineEnd?_append
    (h : EndsLine text)
    (more : Text) :
    lineEnd? (text ++ more) = (lineEnd? text).map (· ++ more) := by
  fun_cases lineEnd? text with
  | case1 rest | case2 rest =>
      rfl
  | case3 _ hfeed hreturn =>
      rw [Option.map_none, lineEnd?]
      · exact h.append_ne ['\n'] (by decide) hfeed
      · exact h.append_ne ['\r', '\n'] (by decide) hreturn

end Ends

section Steps

theorem settles_of_none
    (h : read text = none) :
    Settles read text := by
  intro _ value rest hread
  rw [h] at hread
  cases hread

theorem settles_of_found
    (value : α)
    (hrest : EndsLine text → EndsLine rest)
    (hread : EndsLine text → ∀ more, read (text ++ more) = some (value, rest ++ more)) :
    Settles read text := by
  intro hends other behind hother
  have hfound := hread hends []
  rw [List.append_nil, List.append_nil, hother] at hfound
  cases hfound
  exact ⟨hrest hends, hread hends⟩

/-- A reader that goes on behind the front of the text, and changes what is found there.  The text
does not end with that front: nothing could be found behind it. -/
theorem Settles.step
    {other : Text → Option (β × Text)}
    (hrest : Settles read rest)
    (change : α → β)
    (hempty : read [] = none)
    (hsuffix : rest <:+ text)
    (hread : EndsLine text → ∀ more,
      other (text ++ more) =
        (read (rest ++ more)).map fun (value, behind) => (change value, behind)) :
    Settles other text := by
  intro hends value behind hother
  have hmapped := hread hends []
  rw [List.append_nil, List.append_nil, hother] at hmapped
  obtain ⟨⟨value, behind⟩, hfound, hpair⟩ := Option.map_eq_some_iff.mp hmapped.symm
  cases hpair
  have hne : rest ≠ [] := by
    rintro rfl
    rw [hempty] at hfound
    cases hfound
  obtain ⟨hbehind, hmore⟩ := hrest (hends.of_suffix hsuffix hne) value behind hfound
  refine ⟨hbehind, fun more => ?_⟩
  rw [hread hends, hmore]
  rfl

/-- A reader that leaves everything to another one behind the front of the text. -/
theorem Settles.forward
    {other : Text → Option (α × Text)}
    (hrest : Settles read rest)
    (hempty : read [] = none)
    (hsuffix : rest <:+ text)
    (hread : EndsLine text → ∀ more, other (text ++ more) = read (rest ++ more)) :
    Settles other text :=
  hrest.step id hempty hsuffix fun hends more => by
    rw [hread hends more]
    exact Option.map_id'.symm

/-- A reader of quotations that goes on behind an escape. -/
theorem Settles.escape
    {read other : Text → Option (Text × Text)}
    {scalar : Option Char}
    (hrest : Settles read rest)
    (hempty : read [] = none)
    (hsuffix : rest <:+ text)
    (hread : ∀ more, other (text ++ more) = do
      return prepend (← scalar) (← read (rest ++ more))) :
    Settles other text := by
  cases scalar with
  | none =>
      apply settles_of_none
      rw [← List.append_nil text, hread]
      rfl
  | some c =>
      refine hrest.step (c :: ·) hempty hsuffix fun _ more => ?_
      rw [hread]
      cases read (rest ++ more) <;> rfl

end Steps

section Gaps

theorem lineEnd?_suffix
    (h : lineEnd? text = some rest) :
    rest <:+ text := by
  unfold lineEnd? at h
  split at h
  · cases h
    exact ⟨['\n'], rfl⟩
  · cases h
    exact ⟨['\r', '\n'], rfl⟩
  · cases h

theorem skipLineEnd_suffix :
    skipLineEnd text <:+ text := by
  unfold skipLineEnd
  cases h : lineEnd? text with
  | none =>
      exact List.suffix_rfl
  | some rest =>
      exact lineEnd?_suffix h

theorem skipLineEnd_append
    (h : EndsLine text)
    (more : Text) :
    skipLineEnd (text ++ more) = skipLineEnd text ++ more := by
  unfold skipLineEnd
  rw [h.lineEnd?_append]
  cases lineEnd? text <;> rfl

theorem endsLine_skipBlanks
    (h : EndsLine text) :
    EndsLine (skipBlanks text) :=
  h.dropWhile rfl

theorem skipBlanks_append
    (h : EndsLine text)
    (more : Text) :
    skipBlanks (text ++ more) = skipBlanks text ++ more :=
  h.dropWhile_append rfl more

theorem endsLine_skipComment
    (h : EndsLine text) :
    EndsLine (skipComment text) := by
  fun_cases skipComment text with
  | case1 rest =>
      exact (h.of_cons (by decide)).dropWhile rfl
  | case2 _ _ =>
      exact h

theorem skipComment_append
    (h : EndsLine text)
    (more : Text) :
    skipComment (text ++ more) = skipComment text ++ more := by
  fun_cases skipComment text with
  | case1 rest =>
      exact (h.of_cons (by decide)).dropWhile_append rfl more
  | case2 _ hmark =>
      rw [skipComment]
      exact h.append_ne ['#'] (by decide) hmark

theorem nextLine?_eq
    (h : EndsLine text) :
    nextLine? text = lineEnd? (skipComment (skipBlanks text)) := by
  have hends := endsLine_skipComment (endsLine_skipBlanks h)
  unfold nextLine?
  split
  · next hnil =>
    exact absurd (hnil ▸ hends) not_endsLine_nil
  · rfl

theorem nextLine?_append
    (h : EndsLine text)
    (more : Text) :
    nextLine? (text ++ more) = (nextLine? text).map (· ++ more) := by
  have hblanks := endsLine_skipBlanks h
  have hends := endsLine_skipComment hblanks
  rw [nextLine?_eq h, ← hends.lineEnd?_append, nextLine?, skipBlanks_append h,
    skipComment_append hblanks]
  split
  · next hnil =>
    exact absurd ((List.append_eq_nil_iff.mp hnil).1 ▸ hends) not_endsLine_nil
  · rfl

theorem wholeLines_of_nextLine?
    (h : EndsLine text)
    (hnext : nextLine? text = some rest) :
    WholeLines rest := by
  have hends := endsLine_skipComment (endsLine_skipBlanks h)
  rw [nextLine?_eq h] at hnext
  by_cases hrest : rest = []
  · exact .inl hrest
  · exact .inr (hends.of_suffix (lineEnd?_suffix hnext) hrest)

@[simp] theorem skipLines_nil :
    skipLines [] = [] := by
  rw [skipLines]
  split
  · rfl
  · rfl
  · next hnext =>
    cases hnext

theorem skipLines_of_nextLine?
    (h : nextLine? text = some rest) :
    skipLines text = skipLines rest := by
  rw [skipLines]
  split
  · next hnone =>
    rw [h] at hnone
    cases hnone
  · next hnil =>
    rw [h] at hnil
    cases hnil
    exact skipLines_nil.symm
  · next hcons =>
    rw [h] at hcons
    cases hcons
    rfl

theorem skipLines_of_none
    (h : nextLine? text = none) :
    skipLines text = skipBlanks text := by
  rw [skipLines]
  split
  · rfl
  · next hnext =>
    rw [h] at hnext
    cases hnext
  · next hnext =>
    rw [h] at hnext
    cases hnext

/-- Lines without content at the front of a text do not show whether something stands behind the
text, unless there are no other lines at all. -/
theorem skipLines_append
    (h : EndsLine text) :
    (skipLines text = [] ∧ ∀ more, skipLines (text ++ more) = skipLines more) ∨
    (EndsLine (skipLines text) ∧ ∀ more, skipLines (text ++ more) = skipLines text ++ more) := by
  fun_induction skipLines text with
  | case1 text hnext =>
      refine .inr ⟨endsLine_skipBlanks h, fun more => ?_⟩
      rw [skipLines_of_none, skipBlanks_append h]
      rw [nextLine?_append h more, hnext]
      rfl
  | case2 text hnext =>
      refine .inl ⟨rfl, fun more => skipLines_of_nextLine? ?_⟩
      rw [nextLine?_append h more, hnext]
      rfl
  | case3 text c rest hnext hlength ih =>
      have hskip : ∀ more, skipLines (text ++ more) = skipLines (c :: rest ++ more) := by
        intro more
        apply skipLines_of_nextLine?
        rw [nextLine?_append h more, hnext]
        rfl
      simp only [hskip]
      apply ih
      rcases wholeLines_of_nextLine? h hnext with hnil | hends
      · cases hnil
      · exact hends

theorem skipLines_append_of_ne
    (h : EndsLine text)
    (hne : skipLines text ≠ []) :
    EndsLine (skipLines text) ∧ ∀ more, skipLines (text ++ more) = skipLines text ++ more :=
  (skipLines_append h).resolve_left fun hnil => hne hnil.1

theorem skipLines_append_of_cons
    (h : EndsLine text)
    (hskip : skipLines text = c :: rest)
    (hc : c ≠ '\n') :
    EndsLine rest ∧ ∀ more, skipLines (text ++ more) = c :: (rest ++ more) := by
  obtain ⟨hends, hmore⟩ := skipLines_append_of_ne h (by simp [hskip])
  rw [hskip] at hends hmore
  exact ⟨hends.of_cons hc, hmore⟩

end Gaps

section Quotations

theorem settles_readLiteral :
    Settles readLiteral text := by
  fun_induction readLiteral text with
  | case1 =>
      exact settles_of_none rfl
  | case2 rest =>
      exact settles_of_found _ (by simp) fun _ _ => rfl
  | case3 c rest hquote hplain ih =>
      refine ih.step (c :: ·) rfl (List.suffix_cons c rest) fun _ more => ?_
      rw [List.cons_append, readLiteral, if_pos hplain]
      · rfl
      · exact hquote
  | case4 c rest hquote hplain =>
      apply settles_of_none
      rw [readLiteral, if_neg hplain]
      exact hquote

/-- The marks of code points are no escapes by themselves. -/
theorem ne_of_escaped?
    {escaped : Char}
    (h : escaped? c = some escaped) :
    c ≠ 'u' ∧ c ≠ 'U' := by
  constructor
  · rintro rfl
    cases h
  · rintro rfl
    cases h

/-- More text could only complete a code point, and none is left incomplete by a line feed. -/
theorem settles_readBasic :
    Settles readBasic text := by
  fun_induction readBasic text with
  | case1 =>
      exact settles_of_none rfl
  | case2 rest =>
      exact settles_of_found _ (by simp) fun _ _ => rfl
  | case3 a b c d rest ih =>
      exact ih.escape rfl ⟨['\\', 'u', a, b, c, d], rfl⟩ fun _ => rfl
  | case4 a b c d e f g h rest ih =>
      exact ih.escape rfl ⟨['\\', 'U', a, b, c, d, e, f, g, h], rfl⟩ fun _ => rfl
  | case5 c rest hshort hlong ih =>
      cases hescaped : escaped? c with
      | none =>
          apply settles_of_none
          rw [readBasic, hescaped]
          · rfl
          · exact hshort
          · exact hlong
      | some escaped =>
          obtain ⟨hshort, hlong⟩ := ne_of_escaped? hescaped
          refine ih.step (escaped :: ·) rfl ⟨['\\', c], rfl⟩ fun _ more => ?_
          rw [List.cons_append, List.cons_append, readBasic, hescaped]
          · cases readBasic (rest ++ more) <;> rfl
          · exact fun _ _ _ _ _ h => absurd h hshort
          · exact fun _ _ _ _ _ _ _ _ _ h => absurd h hlong
  | case6 c rest hquote hshort hlong hescape hplain ih =>
      refine ih.step (c :: ·) rfl (List.suffix_cons c rest) fun _ more => ?_
      rw [List.cons_append, readBasic, if_pos hplain]
      · rfl
      · exact hquote
      · exact fun _ _ _ _ _ h => absurd h hplain.2
      · exact fun _ _ _ _ _ _ _ _ _ h => absurd h hplain.2
      · exact fun _ _ h => absurd h hplain.2
  | case7 c rest hquote hshort hlong hescape hplain =>
      apply settles_of_none
      rw [readBasic, if_neg hplain] <;> assumption

/-- Two quotes that end the text would leave no place for its line feed. -/
theorem settles_readLongLiteral :
    Settles readLongLiteral text := by
  fun_induction readLongLiteral text with
  | case1 =>
      exact settles_of_none rfl
  | case2 rest =>
      exact settles_of_found _ (by simp) fun _ _ => rfl
  | case3 rest hfive =>
      have hrest : EndsLine ('\x27' :: '\x27' :: '\x27' :: '\x27' :: rest) → EndsLine rest := by
        simp
      refine settles_of_found ['\x27'] hrest fun hends more => ?_
      simp only [List.cons_append]
      rw [readLongLiteral]
      exact (hrest hends).append_ne ['\x27'] (by decide) hfive
  | case4 rest hfive hfour =>
      have hrest : EndsLine ('\x27' :: '\x27' :: '\x27' :: rest) → EndsLine rest := by
        simp
      refine settles_of_found [] hrest fun hends more => ?_
      simp only [List.cons_append]
      rw [readLongLiteral]
      · exact (hrest hends).append_ne ['\x27', '\x27'] (by decide) hfive
      · exact (hrest hends).append_ne ['\x27'] (by decide) hfour
  | case5 rest ih =>
      exact ih.step ('\n' :: ·) rfl ⟨['\r', '\n'], rfl⟩ fun _ _ => rfl
  | case6 c rest hfive hfour hthree hreturn hplain ih =>
      refine ih.step (c :: ·) rfl (List.suffix_cons c rest) fun hends more => ?_
      have hthree : ∀ behind, c = '\x27' → rest ++ more = '\x27' :: '\x27' :: behind → False := by
        rintro behind rfl
        exact (hends.of_cons (by decide)).append_ne ['\x27', '\x27'] (by decide)
          (fun tail => hthree tail rfl) behind
      rw [List.cons_append, readLongLiteral, if_pos hplain]
      · rfl
      · exact fun behind => hthree _
      · exact fun behind => hthree _
      · exact hthree
      · rintro behind rfl
        exact absurd hplain (by decide)
  | case7 c rest hfive hfour hthree hreturn hplain =>
      apply settles_of_none
      rw [readLongLiteral, if_neg hplain] <;> assumption

/-- An ordinary character of a quotation over several lines. -/
theorem readLongBasic_cons
    {trimming : Bool}
    (hquotes : ∀ behind, c = '"' → rest = '"' :: '"' :: behind → False)
    (hescape : c ≠ '\\')
    (hreturn : c ≠ '\r') :
    readLongBasic trimming (c :: rest) =
      if trimming = true ∧ (isBlank c = true ∨ c = '\n') then readLongBasic true rest
      else if isPlain c = true ∧ c ≠ '\\' ∨ c = '\n' then
        (readLongBasic false rest).map (prepend c)
      else none := by
  rw [readLongBasic]
  · exact fun _ => hquotes _
  · exact fun _ => hquotes _
  · exact hquotes
  · exact fun _ _ _ _ _ h => absurd h hescape
  · exact fun _ _ _ _ _ _ _ _ _ h => absurd h hescape
  · exact fun _ _ h => absurd h hescape
  · exact fun _ h => absurd h hreturn

/-- No code point is written behind a backslash at the end of a line. -/
theorem settles_readLongBasic
    (trimming : Bool) :
    Settles (readLongBasic trimming) text := by
  fun_induction readLongBasic trimming text with
  | case1 =>
      exact settles_of_none rfl
  | case2 trimming rest =>
      exact settles_of_found _ (by simp) fun _ _ => rfl
  | case3 trimming rest hfive =>
      have hrest : EndsLine ('"' :: '"' :: '"' :: '"' :: rest) → EndsLine rest := by
        simp
      refine settles_of_found ['"'] hrest fun hends more => ?_
      simp only [List.cons_append]
      rw [readLongBasic]
      exact (hrest hends).append_ne ['"'] (by decide) hfive
  | case4 trimming rest hfive hfour =>
      have hrest : EndsLine ('"' :: '"' :: '"' :: rest) → EndsLine rest := by
        simp
      refine settles_of_found [] hrest fun hends more => ?_
      simp only [List.cons_append]
      rw [readLongBasic]
      · exact (hrest hends).append_ne ['"', '"'] (by decide) hfive
      · exact (hrest hends).append_ne ['"'] (by decide) hfour
  | case5 trimming a b c d rest ih =>
      exact ih.escape rfl ⟨['\\', 'u', a, b, c, d], rfl⟩ fun _ => rfl
  | case6 trimming a b c d e f g h rest ih =>
      exact ih.escape rfl ⟨['\\', 'U', a, b, c, d, e, f, g, h], rfl⟩ fun _ => rfl
  | case7 trimming c rest hshort hlong escaped hescaped ih =>
      obtain ⟨hshort, hlong⟩ := ne_of_escaped? hescaped
      refine ih.step (escaped :: ·) rfl ⟨['\\', c], rfl⟩ fun _ more => ?_
      rw [List.cons_append, List.cons_append, readLongBasic, hescaped]
      · rfl
      · exact fun _ _ _ _ _ h => absurd h hshort
      · exact fun _ _ _ _ _ _ _ _ _ h => absurd h hlong
  | case8 trimming c rest hshort hlong hescaped hend ih =>
      have hshort : c ≠ 'u' := by
        rintro rfl
        cases hend
      have hlong : c ≠ 'U' := by
        rintro rfl
        cases hend
      refine ih.forward rfl ⟨['\\'], rfl⟩ fun hends more => ?_
      have hline := hends.of_cons (by decide)
      rw [List.cons_append, List.cons_append, readLongBasic, hescaped, ← List.cons_append]
      · refine if_pos ?_
        rw [hline.dropWhile_append rfl, (hline.dropWhile rfl).lineEnd?_append, Option.isSome_map]
        exact hend
      · exact fun _ _ _ _ _ h => absurd h hshort
      · exact fun _ _ _ _ _ _ _ _ _ h => absurd h hlong
  | case9 trimming c rest hshort hlong hescaped hend =>
      apply settles_of_none
      rw [readLongBasic, hescaped]
      · exact if_neg hend
      · exact hshort
      · exact hlong
  | case10 rest ih =>
      exact ih.forward rfl ⟨['\r', '\n'], rfl⟩ fun _ _ => rfl
  | case11 trimming rest htrimming ih =>
      refine ih.step ('\n' :: ·) rfl ⟨['\r', '\n'], rfl⟩ fun _ more => ?_
      rw [List.cons_append, List.cons_append, readLongBasic, if_neg htrimming]
      rfl
  | case12 trimming c rest hfive hfour hthree hshort hlong hescape hreturn hblank ih =>
      refine ih.forward rfl (List.suffix_cons c rest) fun hends more => ?_
      rw [List.cons_append, readLongBasic_cons, if_pos hblank]
      · rintro behind rfl
        exact absurd hblank.2 (by decide)
      · rintro rfl
        exact absurd hblank.2 (by decide)
      · rintro rfl
        exact absurd hblank.2 (by decide)
  | case13 trimming c rest hfive hfour hthree hshort hlong hescape hreturn hblank hplain ih =>
      refine ih.step (c :: ·) rfl (List.suffix_cons c rest) fun hends more => ?_
      rw [List.cons_append, readLongBasic_cons, if_neg hblank, if_pos hplain]
      · rfl
      · rintro behind rfl
        exact (hends.of_cons (by decide)).append_ne ['"', '"'] (by decide)
          (fun tail => hthree tail rfl) behind
      · rintro rfl
        exact absurd hplain (by decide)
      · rintro rfl
        exact absurd hplain (by decide)
  | case14 trimming c rest hfive hfour hthree hshort hlong hescape hreturn hblank hplain =>
      apply settles_of_none
      rw [readLongBasic, if_neg hblank, if_neg hplain] <;> assumption

theorem settles_readQuotation :
    Settles readQuotation text := by
  fun_cases readQuotation text with
  | case1 rest =>
      have hsuffix : rest <:+ '"' :: '"' :: '"' :: rest := ⟨['"', '"', '"'], rfl⟩
      refine (settles_readLongBasic false).forward rfl (skipLineEnd_suffix.trans hsuffix)
        fun hends more => ?_
      rw [← skipLineEnd_append (by simpa using hends)]
      rfl
  | case2 rest =>
      have hsuffix : rest <:+ '\x27' :: '\x27' :: '\x27' :: rest := ⟨['\x27', '\x27', '\x27'], rfl⟩
      refine settles_readLongLiteral.forward rfl (skipLineEnd_suffix.trans hsuffix)
        fun hends more => ?_
      rw [← skipLineEnd_append (by simpa using hends)]
      rfl
  | case3 rest hlong =>
      refine settles_readBasic.forward rfl (List.suffix_cons _ _) fun hends more => ?_
      rw [List.cons_append, readQuotation]
      exact (hends.of_cons (by decide)).append_ne ['"', '"'] (by decide) hlong
  | case4 rest hlong =>
      refine settles_readLiteral.forward rfl (List.suffix_cons _ _) fun hends more => ?_
      rw [List.cons_append, readQuotation]
      exact (hends.of_cons (by decide)).append_ne ['\x27', '\x27'] (by decide) hlong
  | case5 text hlongBasic hlongLiteral hbasic hliteral =>
      apply settles_of_none
      rw [readQuotation] <;> assumption

end Quotations

end Toml

end LiveTokens
