import Mathlib.Algebra.Ring.Parity
import Mathlib.Data.List.DropRight
import LiveTokens.Proofs.AssemblyPatterns

/-!
# The declared grammar of assembly source

What the first token of a text is, said without scanning.

* A *word* is a run of blanks, a line end, a line comment, an identifier, a
  number, a mark or an operator.
* A block comment goes through the first end mark behind its opening.
* A string goes through the first quote behind an even number of backslashes,
  within its line.

A text that opens a block comment or a string starts with it, any other text
with its longest word.  Where none of this is found, the first character is a
token of unknown kind.

**Results.**
* `blockRest_of_firstEnd`, `blockRest_of_no_end`, `stringRest_of_inside`: where
  the loops that finish comments and strings stop.
* `Declared.exists_recognise`, `exists_declared_of_longest`: a token of the
  grammar is recognised, and the grammar has a token where a pattern is found.
* `scanBy_recognises`: the scan finds a token at the front of every text that is
  not empty, and finds exactly the tokens of this grammar.
-/

namespace LiveTokens

namespace Assembly

section Grammar

/-- The letters of an identifier. -/
def Letter
    (c : Char) : Prop :=
  ('A' ≤ c ∧ c ≤ 'Z') ∨ ('a' ≤ c ∧ c ≤ 'z')

def Digit
    (c : Char) : Prop :=
  '0' ≤ c ∧ c ≤ '9'

/-- What an identifier and a number go on with. -/
def WordPart
    (c : Char) : Prop :=
  Letter c ∨ Digit c ∨ c = '_'

/-- The marks that have a kind of their own. -/
def marks : List (Kind × Char) :=
  [(.comma, ','), (.colon, ':'), (.semicolon, ';'), (.lParen, '('), (.rParen, ')'),
    (.lBracket, '['), (.rBracket, ']'), (.lBrace, '{'), (.rBrace, '}')]

def operators : List Char :=
  ['/', '-', '+', '*', '%', '&', '|', '^', '~', '!', '=', '<', '>', '?', '@', '#', '$', '.']

/-- The texts that are tokens wherever nothing longer is. -/
inductive Word : Kind → Text → Prop where
  | whitespace {word : Text} :
      word ≠ [] →
      (∀ c ∈ word, c = ' ' ∨ c = '\t' ∨ c = '\x0c') →
      Word .whitespace word
  | feed :
      Word .eol ['\n']
  | returnFeed :
      Word .eol ['\r', '\n']
  | lineComment {body : Text} :
      (∀ c ∈ body, c ≠ '\r' ∧ c ≠ '\n') →
      Word .lineComment (['/', '/'] ++ body)
  | identifier {c : Char} {body : Text} :
      Letter c ∨ c = '_' →
      (∀ d ∈ body, WordPart d) →
      Word .identifier (c :: body)
  | number {c : Char} {body : Text} :
      Digit c →
      (∀ d ∈ body, WordPart d) →
      Word .number (c :: body)
  | mark {kind : Kind} {c : Char} :
      (kind, c) ∈ marks →
      Word kind [c]
  | operator {c : Char} :
      c ∈ operators →
      Word .operator [c]

/-- No end mark of a comment comes before the one behind the body. -/
def FirstEnd
    (body behind : Text) : Prop :=
  ∀ before after,
    body ++ ['*', '/'] ++ behind = before ++ ['*', '/'] ++ after →
    body.length ≤ before.length

/-- How many backslashes there are at the end of a text. -/
def backslashes
    (text : Text) : Nat :=
  (text.rtakeWhile (· = '\\')).length

/-- What a string may hold: characters of one line, and quotes only if they are escaped. -/
structure Inside
    (body : Text) : Prop where
  in_line : ∀ c ∈ body, c ≠ '\r' ∧ c ≠ '\n'
  escaped : ∀ before after, body = before ++ '"' :: after → Odd (backslashes before)

/-- A token of the grammar at the front of a text, and what follows it. -/
inductive Declared : Kind → Text → Text → Prop where
  | word {kind : Kind} {word behind : Text} :
      ¬ ['/', '*'] <+: word ++ behind →
      Word kind word →
      (∀ other longer rest,
        word ++ behind = longer ++ rest →
        Word other longer →
        longer.length ≤ word.length) →
      Declared kind word behind
  | closedComment {body behind : Text} :
      FirstEnd body behind →
      Declared .blockComment (['/', '*'] ++ (body ++ ['*', '/'])) behind
  | openComment {body : Text} :
      ¬ ['*', '/'] <:+: body →
      Declared .blockComment (['/', '*'] ++ body) []
  | closedString {body behind : Text} :
      Inside body →
      Even (backslashes body) →
      Declared .stringLiteral (['"'] ++ (body ++ ['"'])) behind
  | openString {body behind : Text} :
      Inside body →
      (∀ c ∈ behind.head?, c = '\r' ∨ c = '\n') →
      Declared .stringLiteral (['"'] ++ body) behind

/-- The first token of a text: one of the grammar, or else a character that starts none. -/
inductive Leads : Kind → Text → Text → Prop where
  | declared {kind : Kind} {front behind : Text} :
      Declared kind front behind →
      Leads kind front behind
  | unknown {c : Char} {behind : Text} :
      (∀ kind front rest, c :: behind = front ++ rest → ¬ Declared kind front rest) →
      Leads .unknown [c] behind

end Grammar

variable {c : Char}
variable {kind : Kind}
variable {pattern : Pattern}
variable {text word front body behind read : Text}
variable {engine : Text → Option (Kind × Text × Text)}

section Classes

theorem isBlank_iff :
    isBlank c = true ↔ c = ' ' ∨ c = '\t' ∨ c = '\x0c' := by
  simp only [isBlank, Bool.or_eq_true, decide_eq_true_eq, or_assoc]

theorem isLineEnd_iff :
    isLineEnd c = true ↔ c = '\r' ∨ c = '\n' := by
  simp only [isLineEnd, Bool.or_eq_true, decide_eq_true_eq]

theorem not_isLineEnd_iff :
    (!isLineEnd c) = true ↔ c ≠ '\r' ∧ c ≠ '\n' := by
  rw [Bool.not_eq_true', Bool.eq_false_iff, ne_eq, isLineEnd_iff, not_or]

theorem isDigit_iff :
    c.isDigit = true ↔ Digit c :=
  Bool.and_eq_true_iff.trans (and_congr decide_eq_true_iff decide_eq_true_iff)

theorem isAlpha_iff :
    c.isAlpha = true ↔ Letter c := by
  have hupper : c.isUpper = true ↔ 'A' ≤ c ∧ c ≤ 'Z' :=
    decide_eq_true_iff
  have hlower : c.isLower = true ↔ 'a' ≤ c ∧ c ≤ 'z' :=
    Bool.and_eq_true_iff.trans (and_congr decide_eq_true_iff decide_eq_true_iff)
  exact Bool.or_eq_true_iff.trans (or_congr hupper hlower)

theorem isWordStart_iff :
    isWordStart c = true ↔ Letter c ∨ c = '_' := by
  rw [isWordStart, Bool.or_eq_true, isAlpha_iff, decide_eq_true_eq]

theorem isWordPart_iff :
    isWordPart c = true ↔ WordPart c := by
  rw [isWordPart, Bool.or_eq_true, isWordStart_iff, isDigit_iff, WordPart, or_assoc,
    or_comm (a := c = '_')]

end Classes

section Words

theorem Word.ne_nil
    (h : Word kind word) :
    word ≠ [] := by
  cases h with
  | whitespace hne _ =>
      exact hne
  | feed | returnFeed | lineComment _ | identifier _ _ | number _ _ | mark _ | operator _ =>
      exact List.cons_ne_nil _ _

/-- No word opens a block comment. -/
theorem Word.not_opening
    {rest : Text}
    (h : Word kind ('/' :: '*' :: rest)) :
    False := by
  cases h with
  | whitespace _ hblank =>
      have := hblank '/' List.mem_cons_self
      simp at this
  | identifier hstart _ =>
      simp [Letter] at hstart
  | number hstart _ =>
      simp [Digit] at hstart

theorem marks_kind_not_mem :
    ∀ mark ∈ marks, mark.1 ∉ [Kind.blockComment, .stringLiteral, .unknown] := by
  decide

/-- Block comments, strings and unknown characters are no words. -/
theorem Word.kind_not_mem
    (h : Word kind word) :
    kind ∉ [Kind.blockComment, .stringLiteral, .unknown] := by
  cases h with
  | mark hmark =>
      exact marks_kind_not_mem _ hmark
  | whitespace | feed | returnFeed | lineComment | identifier | number | operator =>
      decide

/-- Nothing goes on behind a word. -/
theorem Word.extension_eq_zero
    (h : Word kind word)
    (behind : Text) :
    extension kind behind = 0 := by
  have hkind := h.kind_not_mem
  unfold extension
  split
  · exact absurd (by decide) hkind
  · exact absurd (by decide) hkind
  · rfl

theorem literal_mem_patterns :
    ∀ mark ∈ marks, (mark.1, Pattern.literal [mark.2]) ∈ patterns := by
  simp [marks, patterns]

/-- A pattern is declared for every word. -/
theorem Word.exists_accepts
    (h : Word kind word) :
    ∃ pattern, (kind, pattern) ∈ patterns ∧ pattern.accepts word = true := by
  cases h with
  | whitespace hne hblank =>
      obtain ⟨c, body, rfl⟩ := List.exists_cons_of_ne_nil hne
      refine ⟨.run isBlank isBlank, by simp [patterns], Pattern.accepts_run_iff.mpr ?_⟩
      exact ⟨c, body, rfl, isBlank_iff.mpr (hblank c List.mem_cons_self),
        fun d hd => isBlank_iff.mpr (hblank d (List.mem_cons_of_mem _ hd))⟩
  | feed =>
      exact ⟨.literal ['\n'], by simp [patterns], Pattern.accepts_literal_iff.mpr rfl⟩
  | returnFeed =>
      exact ⟨.literal ['\r', '\n'], by simp [patterns], Pattern.accepts_literal_iff.mpr rfl⟩
  | lineComment hbody =>
      refine ⟨.opening ['/', '/'] (!isLineEnd ·), by simp [patterns],
        Pattern.accepts_opening_iff.mpr ⟨_, rfl, ?_⟩⟩
      exact fun d hd => not_isLineEnd_iff.mpr (hbody d hd)
  | identifier hstart hbody =>
      refine ⟨.run isWordStart isWordPart, by simp [patterns], Pattern.accepts_run_iff.mpr ?_⟩
      exact ⟨_, _, rfl, isWordStart_iff.mpr hstart, fun d hd => isWordPart_iff.mpr (hbody d hd)⟩
  | number hstart hbody =>
      refine ⟨.run Char.isDigit isWordPart, by simp [patterns], Pattern.accepts_run_iff.mpr ?_⟩
      exact ⟨_, _, rfl, isDigit_iff.mpr hstart, fun d hd => isWordPart_iff.mpr (hbody d hd)⟩
  | @mark kind c hmark =>
      exact ⟨.literal [c], literal_mem_patterns _ hmark, Pattern.accepts_literal_iff.mpr rfl⟩
  | @operator c hoperator =>
      rcases List.mem_cons.mp hoperator with rfl | hother
      · exact ⟨.literal ['/'], by simp [patterns], Pattern.accepts_literal_iff.mpr rfl⟩
      · refine ⟨.run isOperator fun _ => false, by simp [patterns], Pattern.accepts_run_iff.mpr ?_⟩
        exact ⟨c, [], rfl, decide_eq_true hother, by simp⟩

theorem word_of_mark
    (hmark : (kind, c) ∈ marks)
    (haccepts : (Pattern.literal [c]).accepts word = true) :
    Word kind word := by
  obtain rfl := Pattern.accepts_literal_iff.mp haccepts
  exact .mark hmark

/-- What a pattern accepts is a word, unless it opens a block comment or a string. -/
theorem word_of_accepts
    (hmem : (kind, pattern) ∈ patterns)
    (haccepts : pattern.accepts word = true) :
    (kind = .blockComment ∧ word = ['/', '*']) ∨
    (kind = .stringLiteral ∧ word = ['"']) ∨
    Word kind word := by
  simp only [patterns, List.mem_cons, Prod.mk.injEq, List.not_mem_nil, or_false] at hmem
  rcases hmem with ⟨rfl, rfl⟩ | ⟨rfl, rfl⟩ | ⟨rfl, rfl⟩ | ⟨rfl, rfl⟩ | ⟨rfl, rfl⟩ | ⟨rfl, rfl⟩ |
    ⟨rfl, rfl⟩ | ⟨rfl, rfl⟩ | ⟨rfl, rfl⟩ | ⟨rfl, rfl⟩ | ⟨rfl, rfl⟩ | ⟨rfl, rfl⟩ | ⟨rfl, rfl⟩ |
    ⟨rfl, rfl⟩ | ⟨rfl, rfl⟩ | ⟨rfl, rfl⟩ | ⟨rfl, rfl⟩ | ⟨rfl, rfl⟩ | ⟨rfl, rfl⟩
  · obtain ⟨c, body, rfl, hstart, hbody⟩ := Pattern.accepts_run_iff.mp haccepts
    have hblank : ∀ d ∈ c :: body, isBlank d = true := List.forall_mem_cons.mpr ⟨hstart, hbody⟩
    exact .inr (.inr (.whitespace (List.cons_ne_nil _ _) fun d hd => isBlank_iff.mp (hblank d hd)))
  · obtain rfl := Pattern.accepts_literal_iff.mp haccepts
    exact .inr (.inr .feed)
  · obtain rfl := Pattern.accepts_literal_iff.mp haccepts
    exact .inr (.inr .returnFeed)
  · obtain ⟨body, rfl, hbody⟩ := Pattern.accepts_opening_iff.mp haccepts
    exact .inr (.inr (.lineComment fun d hd => not_isLineEnd_iff.mp (hbody d hd)))
  · exact .inl ⟨rfl, Pattern.accepts_literal_iff.mp haccepts⟩
  · exact .inr (.inl ⟨rfl, Pattern.accepts_literal_iff.mp haccepts⟩)
  · obtain ⟨c, body, rfl, hstart, hbody⟩ := Pattern.accepts_run_iff.mp haccepts
    exact .inr (.inr (.identifier (isWordStart_iff.mp hstart)
      fun d hd => isWordPart_iff.mp (hbody d hd)))
  · obtain ⟨c, body, rfl, hstart, hbody⟩ := Pattern.accepts_run_iff.mp haccepts
    exact .inr (.inr (.number (isDigit_iff.mp hstart)
      fun d hd => isWordPart_iff.mp (hbody d hd)))
  iterate 9
    · exact .inr (.inr (word_of_mark (by simp [marks]) haccepts))
  · obtain rfl := Pattern.accepts_literal_iff.mp haccepts
    exact .inr (.inr (.operator List.mem_cons_self))
  · obtain ⟨c, body, rfl, hstart, hbody⟩ := Pattern.accepts_run_iff.mp haccepts
    obtain rfl : body = [] :=
      List.eq_nil_iff_forall_not_mem.mpr fun d hd => Bool.false_ne_true (hbody d hd)
    exact .inr (.inr (.operator (List.mem_cons_of_mem _ (of_decide_eq_true hstart))))

end Words

section Comments

theorem blockRest_cons :
    blockRest (c :: text) =
      if ['*', '/'] <+: c :: text then 2 else c.utf8Size + blockRest text := by
  have hmark : ['*', '/'] <+: c :: text ↔ c = '*' ∧ text.head? = some '/' := by
    cases text <;> simp [List.cons_prefix_cons, eq_comm]
  rw [blockRest, if_congr hmark.symm rfl rfl]

theorem FirstEnd.nil :
    FirstEnd [] behind :=
  fun _ _ _ => Nat.zero_le _

theorem FirstEnd.cons
    (h : FirstEnd body behind)
    (hmark : ¬ ['*', '/'] <+: c :: (body ++ ['*', '/'] ++ behind)) :
    FirstEnd (c :: body) behind := by
  intro before after hsame
  cases before with
  | nil =>
      exact absurd ⟨after, hsame.symm⟩ hmark
  | cons d before =>
      exact Nat.succ_le_succ (h before after (List.cons.inj hsame).2)

/-- A comment is finished where its first end mark is. -/
theorem blockRest_of_firstEnd
    (h : FirstEnd body behind) :
    blockRest (body ++ ['*', '/'] ++ behind) = Text.size (body ++ ['*', '/']) := by
  induction body with
  | nil =>
      rfl
  | cons c body ih =>
      have hmark : ¬ ['*', '/'] <+: c :: (body ++ ['*', '/'] ++ behind) := by
        rintro ⟨after, hsame⟩
        exact Nat.not_succ_le_zero _ (h [] after hsame.symm)
      have hbody : FirstEnd body behind := by
        intro before after hsame
        exact Nat.le_of_succ_le_succ (h (c :: before) after (congrArg (c :: ·) hsame))
      rw [List.cons_append, List.cons_append, blockRest_cons, if_neg hmark, ih hbody,
        Text.size_cons]

/-- A comment without an end mark goes on to the end of the text. -/
theorem blockRest_of_no_end
    (h : ¬ ['*', '/'] <:+: text) :
    blockRest text = Text.size text := by
  induction text with
  | nil =>
      rfl
  | cons c text ih =>
      rw [List.infix_cons_iff, not_or] at h
      rw [blockRest_cons, if_neg h.1, ih h.2, Text.size_cons]

theorem exists_firstEnd
    (h : ['*', '/'] <:+: text) :
    ∃ body behind, text = body ++ ['*', '/'] ++ behind ∧ FirstEnd body behind := by
  induction text with
  | nil =>
      exact absurd h (by decide)
  | cons c text ih =>
      by_cases hmark : ['*', '/'] <+: c :: text
      · obtain ⟨behind, hbehind⟩ := hmark
        exact ⟨[], behind, hbehind.symm, .nil⟩
      · have htext := (List.infix_cons_iff.mp h).resolve_left hmark
        obtain ⟨body, behind, rfl, hfirst⟩ := ih htext
        exact ⟨c :: body, behind, rfl, hfirst.cons hmark⟩

end Comments

section Strings

/-- A character is escaped if it follows a backslash that is not. -/
theorem odd_backslashes_concat :
    Odd (backslashes (text ++ [c])) ↔ c = '\\' ∧ ¬ Odd (backslashes text) := by
  rw [backslashes, List.rtakeWhile_concat]
  by_cases hc : c = '\\'
  · rw [if_pos (decide_eq_true hc), List.length_append, List.length_singleton, Nat.odd_add_one]
    exact (and_iff_right hc).symm
  · rw [if_neg (by simpa using hc)]
    exact iff_of_false (by decide) fun h => hc h.1

theorem Inside.nil :
    Inside [] where
  in_line := by
    intro c hc
    cases hc
  escaped := by
    intro before after hsame
    cases before <;> cases hsame

theorem Inside.concat
    (h : Inside body)
    (hline : c ≠ '\r' ∧ c ≠ '\n')
    (hquote : c = '"' → Odd (backslashes body)) :
    Inside (body ++ [c]) where
  in_line := by
    intro d hd
    rcases List.mem_append.mp hd with hbody | hlast
    · exact h.in_line d hbody
    · obtain rfl := List.mem_singleton.mp hlast
      exact hline
  escaped := by
    intro before after hsame
    rcases List.eq_nil_or_concat after with rfl | ⟨rest, d, rfl⟩
    · obtain ⟨rfl, hlast⟩ := List.append_inj' hsame rfl
      exact hquote (List.singleton_inj.mp hlast)
    · rw [List.concat_eq_append, ← List.cons_append, ← List.append_assoc] at hsame
      exact h.escaped before rest (List.append_inj' hsame rfl).1

/-- The loop that finishes a string knows whether the next character is escaped. -/
theorem stringRest_of_inside
    (h : Inside (read ++ body)) :
    stringRest (decide (Odd (backslashes read))) (body ++ behind) =
      Text.size body + stringRest (decide (Odd (backslashes (read ++ body)))) behind := by
  induction body generalizing read with
  | nil =>
      rw [List.append_nil, List.nil_append, Text.size_nil, Nat.zero_add]
  | cons c body ih =>
      have hline : isLineEnd c ≠ true := by
        have := h.in_line c (by simp)
        rw [ne_eq, isLineEnd_iff, not_or]
        exact this
      have hquote : ¬ (c = '"' ∧ (!decide (Odd (backslashes read))) = true) := by
        rintro ⟨rfl, hescaped⟩
        have := h.escaped read body rfl
        simp [this] at hescaped
      have hnext : (decide (c = '\\') && !decide (Odd (backslashes read))) =
          decide (Odd (backslashes (read ++ [c]))) := by
        rw [decide_eq_decide.mpr odd_backslashes_concat, Bool.decide_and, decide_not]
      rw [List.append_cons] at h
      rw [List.cons_append, stringRest, if_neg hline, if_neg hquote, hnext, ih h, Text.size_cons,
        Nat.add_assoc, ← List.append_cons]

/-- From wherever a string has been read to, it goes on to a quote that ends it, or to the end of
its line. -/
theorem exists_inside
    (h : Inside read)
    (text : Text) :
    ∃ body behind,
      text = body ++ behind ∧
      Inside (read ++ body) ∧
      ((∃ rest, behind = '"' :: rest ∧ Even (backslashes (read ++ body))) ∨
        ∀ c ∈ behind.head?, c = '\r' ∨ c = '\n') := by
  induction text generalizing read with
  | nil =>
      exact ⟨[], [], rfl, by rwa [List.append_nil], .inr (by simp)⟩
  | cons c text ih =>
      by_cases hline : c = '\r' ∨ c = '\n'
      · exact ⟨[], c :: text, rfl, by rwa [List.append_nil], .inr (by simpa using hline)⟩
      by_cases hquote : c = '"' ∧ Even (backslashes read)
      · obtain ⟨rfl, heven⟩ := hquote
        exact ⟨[], '"' :: text, rfl, by rwa [List.append_nil],
          .inl ⟨text, rfl, by rwa [List.append_nil]⟩⟩
      have hread : Inside (read ++ [c]) :=
        h.concat (not_or.mp hline) fun hc => Nat.not_even_iff_odd.mp fun heven => hquote ⟨hc, heven⟩
      obtain ⟨body, behind, rfl, hinside, hend⟩ := ih hread
      rw [← List.append_cons] at hinside hend
      exact ⟨c :: body, behind, rfl, hinside, hend⟩

/-- A string is read from its first character. -/
theorem stringRest_false_of_inside
    (h : Inside body)
    (behind : Text) :
    stringRest false (body ++ behind) =
      Text.size body + stringRest (decide (Odd (backslashes body))) behind := by
  change stringRest (decide (Odd (backslashes []))) (body ++ behind) = _
  exact stringRest_of_inside h

theorem stringRest_of_lineEnd
    {escaped : Bool}
    (h : ∀ c ∈ text.head?, c = '\r' ∨ c = '\n') :
    stringRest escaped text = 0 := by
  cases text with
  | nil =>
      rfl
  | cons c text =>
      rw [stringRest, if_pos (isLineEnd_iff.mpr (h c rfl))]

end Strings

section Tokens

/-- The longest word is the longest match, unless a block comment opens. -/
theorem isLongest_of_word
    (hopening : ¬ ['/', '*'] <+: word ++ behind)
    (hword : Word kind word)
    (hlongest : ∀ other longer rest,
      word ++ behind = longer ++ rest →
      Word other longer →
      longer.length ≤ word.length) :
    IsLongest patterns kind word behind where
  accepts := hword.exists_accepts
  longest := by
    rintro ⟨other, pattern⟩ hmem longer rest hsame haccepts
    rcases word_of_accepts hmem haccepts with ⟨-, rfl⟩ | ⟨-, rfl⟩ | hother
    · exact absurd ⟨rest, hsame.symm⟩ hopening
    · exact List.length_pos_of_ne_nil hword.ne_nil
    · exact hlongest other longer rest hsame hother

/-- A token of the grammar is recognised. -/
theorem Declared.exists_recognise
    (h : Declared kind front behind) :
    ∃ c text,
      front ++ behind = c :: text ∧
      recognise c text = (kind, Text.size front) := by
  cases h with
  | word hopening hword hlongest =>
      have hlongest := isLongest_of_word hopening hword hlongest
      obtain ⟨c, text, hsame, hrecognise⟩ := exists_recognise_of_longest hlongest
      rw [hword.extension_eq_zero, Nat.add_zero] at hrecognise
      exact ⟨c, text, hsame, hrecognise⟩
  | @closedComment body behind hfirst =>
      refine ⟨'/', '*' :: (body ++ ['*', '/'] ++ behind), rfl, ?_⟩
      have hsize := blockRest_of_firstEnd hfirst
      rw [Text.size_append ['/', '*'], ← hsize]
      rfl
  | @openComment body hend =>
      refine ⟨'/', '*' :: (body ++ []), rfl, ?_⟩
      rw [Text.size_append ['/', '*'], ← blockRest_of_no_end hend, List.append_nil]
      rfl
  | @closedString body behind hinside heven =>
      refine ⟨'"', body ++ ['"'] ++ behind, rfl, ?_⟩
      have hrest : stringRest false (body ++ ['"'] ++ behind) = Text.size (body ++ ['"']) := by
        rw [List.append_assoc, stringRest_false_of_inside hinside,
          decide_eq_false (Nat.not_odd_iff_even.mpr heven), Text.size_append]
        rfl
      rw [Text.size_append ['"'], ← hrest]
      rfl
  | @openString body behind hinside hend =>
      refine ⟨'"', body ++ behind, rfl, ?_⟩
      have hrest : stringRest false (body ++ behind) = Text.size body := by
        rw [stringRest_false_of_inside hinside, stringRest_of_lineEnd hend, Nat.add_zero]
      rw [Text.size_append ['"'], ← hrest]
      rfl

/-- Where a pattern is found, the grammar has a token. -/
theorem exists_declared_of_longest
    (h : IsLongest patterns kind front behind) :
    ∃ token rest, front ++ behind = token ++ rest ∧ Declared kind token rest := by
  obtain ⟨pattern, hmem, haccepts⟩ := h.accepts
  rcases word_of_accepts hmem haccepts with ⟨rfl, rfl⟩ | ⟨rfl, rfl⟩ | hword
  · by_cases hend : ['*', '/'] <:+: behind
    · obtain ⟨body, rest, rfl, hfirst⟩ := exists_firstEnd hend
      exact ⟨_, rest, rfl, .closedComment hfirst⟩
    · exact ⟨_, [], (List.append_nil _).symm, .openComment hend⟩
  · obtain ⟨body, rest, rfl, hinside, hend⟩ := exists_inside .nil behind
    rcases hend with ⟨rest, rfl, heven⟩ | hline
    · exact ⟨['"'] ++ (body ++ ['"']), rest, by simp, .closedString hinside heven⟩
    · exact ⟨['"'] ++ body, rest, rfl, .openString hinside hline⟩
  · refine ⟨front, behind, rfl, .word ?_ hword ?_⟩
    · rintro ⟨rest, hsame⟩
      have hlength := h.longest (.blockComment, .literal ['/', '*']) (by simp [patterns])
        ['/', '*'] rest hsame.symm (Pattern.accepts_literal_iff.mpr rfl)
      obtain ⟨more, rfl⟩ :=
        List.prefix_of_prefix_length_le ⟨rest, hsame⟩ (List.prefix_append front behind) hlength
      exact hword.not_opening
    · intro other longer rest hsame hother
      obtain ⟨pattern, hmem, haccepts⟩ := hother.exists_accepts
      exact h.longest _ hmem longer rest hsame haccepts

/-- The first token of a text is recognised. -/
theorem Leads.exists_recognise
    (h : Leads kind front behind) :
    ∃ c text,
      front ++ behind = c :: text ∧
      recognise c text = (kind, Text.size front) := by
  cases h with
  | declared h =>
      exact h.exists_recognise
  | @unknown c behind hnone =>
      have hengine := picksLongest_pickLongest patterns
      refine ⟨c, behind, rfl, ?_⟩
      cases hfound : pickLongest patterns (c :: behind) with
      | none =>
          exact recognise_of_refused (hengine.missed _ hfound)
      | some found =>
          obtain ⟨hsame, hlongest⟩ := hengine.found _ _ _ _ hfound
          obtain ⟨token, rest, htoken, hdeclared⟩ := exists_declared_of_longest hlongest
          exact absurd hdeclared (hnone _ token rest (hsame.trans htoken))

theorem Leads.scan_eq
    (h : Leads kind front behind) :
    scan (front ++ behind) = some (kind.code, Text.size front) := by
  obtain ⟨c, text, hsame, hrecognise⟩ := h.exists_recognise
  rw [hsame, scan_cons, hrecognise]

/-- There is a first token, whatever the text. -/
theorem exists_leads
    (h : text ≠ []) :
    ∃ kind front behind, text = front ++ behind ∧ Leads kind front behind := by
  by_cases hdeclared : ∃ kind front behind, text = front ++ behind ∧ Declared kind front behind
  · obtain ⟨kind, front, behind, hsame, hdeclared⟩ := hdeclared
    exact ⟨kind, front, behind, hsame, .declared hdeclared⟩
  · obtain ⟨c, text, rfl⟩ := List.exists_cons_of_ne_nil h
    exact ⟨.unknown, [c], text, rfl, .unknown fun kind front rest hsame hfront =>
      hdeclared ⟨kind, front, rest, hsame, hfront⟩⟩

theorem Declared.ne_unknown
    (h : Declared kind front behind) :
    kind ≠ .unknown := by
  rintro rfl
  cases h with
  | word _ hword _ =>
      exact hword.kind_not_mem (by decide)

theorem scan_eq_some_iff
    {size : Nat} :
    scan text = some (kind.code, size) ↔
      ∃ front behind, text = front ++ behind ∧ Text.size front = size ∧ Leads kind front behind := by
  constructor
  · intro h
    have hne : text ≠ [] := by
      rintro rfl
      cases h
    obtain ⟨other, front, behind, rfl, hleads⟩ := exists_leads hne
    obtain ⟨hcode, rfl⟩ := Prod.mk.inj (Option.some.inj (hleads.scan_eq.symm.trans h))
    obtain rfl : other = kind := by
      rw [← Option.some_inj, ← Kind.ofCode?_code, hcode, Kind.ofCode?_code]
    exact ⟨front, behind, rfl, rfl, hleads⟩
  · rintro ⟨front, behind, rfl, rfl, hleads⟩
    exact hleads.scan_eq

end Tokens

/-- Whichever engine picks the longest match of the declared patterns, the scan finds a token at the
front of every text that is not empty.  What it finds are the tokens of the grammar, and the first
character is unknown exactly if the grammar has no token there. -/
theorem scanBy_recognises
    (hengine : PicksLongest patterns engine)
    (hne : text ≠ []) :
    scanBy engine text = scan text ∧
    (∃ kind size, scanBy engine text = some (Kind.code kind, size)) ∧
    (∀ kind size,
      scanBy engine text = some (Kind.code kind, size) ↔
        ∃ front behind,
          text = front ++ behind ∧
          Text.size front = size ∧
          Leads kind front behind) ∧
    (scanBy engine text = some (Kind.unknown.code, (text.head hne).utf8Size) ↔
      ∀ kind front behind,
        text = front ++ behind →
        ¬ Declared kind front behind) := by
  rw [scanBy_eq_scan hengine]
  refine ⟨rfl, ?_, fun kind size => scan_eq_some_iff, ?_, ?_⟩
  · obtain ⟨kind, front, behind, rfl, hleads⟩ := exists_leads hne
    exact ⟨kind, Text.size front, hleads.scan_eq⟩
  · intro hunknown kind front behind hsame hdeclared
    have hfound := (Leads.declared hdeclared).scan_eq
    rw [← hsame, hunknown] at hfound
    obtain ⟨hcode, -⟩ := Prod.mk.inj (Option.some.inj hfound)
    have hkind : some kind = some Kind.unknown := by
      rw [← Kind.ofCode?_code, ← hcode, Kind.ofCode?_code]
    exact hdeclared.ne_unknown (Option.some.inj hkind)
  · intro hnone
    obtain ⟨c, text, rfl⟩ := List.exists_cons_of_ne_nil hne
    exact (Leads.unknown hnone).scan_eq

/-- A quote behind one backslash does not end a string, a quote behind two of them does. -/
theorem scanBy_recognises_string :
    PicksLongest patterns (pickLongest patterns) ∧
    scanBy (pickLongest patterns) ['"', '\\', '"', '\\', '\\', '"', 'é', '"'] =
      some (Kind.stringLiteral.code, 6) := by
  have hengine := picksLongest_pickLongest patterns
  have hinside : Inside ['\\', '"', '\\', '\\'] :=
    (((Inside.nil.concat (by decide) (by decide)).concat (by decide) fun _ => by decide).concat
      (by decide) (by decide)).concat (by decide) (by decide)
  have hne : ['"', '\\', '"', '\\', '\\', '"', 'é', '"'] ≠ [] := List.cons_ne_nil _ _
  obtain ⟨-, -, hfinds, -⟩ := scanBy_recognises hengine hne
  exact ⟨hengine, (hfinds .stringLiteral 6).mpr
    ⟨['"'] ++ (['\\', '"', '\\', '\\'] ++ ['"']), ['é', '"'], rfl, rfl,
      .declared (.closedString hinside (by decide))⟩⟩

end Assembly

end LiveTokens
