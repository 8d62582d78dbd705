import LiveTokens.Proofs.Assembly
import LiveTokens.Proofs.LongestMatch

/-!
# The declared patterns of assembly source

The grammar of assembly source declares a pattern for the start of each kind of
token.  An engine that picks the longest match finds where the token starts;
comments and strings go on behind it, and a character that starts nothing is a
token by itself.  This is the same grammar as `Assembly.scan`, whichever engine
picks the longest match, and so it meets what a tokenizer asks of a grammar: it
recognises a token everywhere, tiles every text, and decides with one character
of lookahead.
-/

namespace LiveTokens

namespace Assembly

variable {c : Char}
variable {kind : Kind}
variable {text front body behind : Text}
variable {engine : Text → Option (Kind × Text × Text)}

/-- The characters that are operators by themselves, a slash apart. -/
def isOperator
    (c : Char) : Bool :=
  c ∈ ['-', '+', '*', '%', '&', '|', '^', '~', '!', '=', '<', '>', '?', '@', '#', '$', '.']

/-- Every pattern with the kind of token that it starts. -/
def patterns : List (Kind × Pattern) :=
  [(.whitespace, .run isBlank isBlank),
    (.eol, .literal ['\n']),
    (.eol, .literal ['\r', '\n']),
    (.lineComment, .opening ['/', '/'] (!isLineEnd ·)),
    (.blockComment, .literal ['/', '*']),
    (.stringLiteral, .literal ['"']),
    (.identifier, .run isWordStart isWordPart),
    (.number, .run Char.isDigit isWordPart),
    (.comma, .literal [',']),
    (.colon, .literal [':']),
    (.semicolon, .literal [';']),
    (.lParen, .literal ['(']),
    (.rParen, .literal [')']),
    (.lBracket, .literal ['[']),
    (.rBracket, .literal [']']),
    (.lBrace, .literal ['{']),
    (.rBrace, .literal ['}']),
    (.operator, .literal ['/']),
    (.operator, .run isOperator fun _ => false)]

/-- How far a token goes on behind the pattern that starts it. -/
def extension : Kind → Text → Nat
  | .blockComment, behind => blockRest behind
  | .stringLiteral, behind => stringRest false behind
  | _, _ => 0

/-- The grammar of the declared patterns, with an engine that looks for them. -/
def scanBy
    (engine : Text → Option (Kind × Text × Text)) : Grammar :=
  fun text =>
    match engine text with
    | some (kind, front, behind) => some (kind.code, Text.size front + extension kind behind)
    | none => text.head?.map fun c => (Kind.unknown.code, c.utf8Size)

/-- A run that is as long as it can be is what the characters of its class take from the text. -/
theorem takeWhile_eq_of_longest
    {p : Char → Bool}
    (hbody : ∀ d ∈ body, p d = true)
    (hbehind : behind.takeWhile p = []) :
    (body ++ behind).takeWhile p = body := by
  rw [List.takeWhile_append_of_pos hbody, hbehind, List.append_nil]

section Starts

theorem recognise_of_isBlank
    (h : isBlank c = true) :
    recognise c text = (.whitespace, Text.size (c :: text.takeWhile isBlank)) := by
  unfold recognise
  rw [if_pos h]

/-- A letter, an underscore or a digit starts an identifier or a number. -/
theorem recognise_of_isWordPart
    (h : isWordPart c = true) :
    recognise c text =
      (if isWordStart c then .identifier else .number,
        Text.size (c :: text.takeWhile isWordPart)) := by
  have hne : ∀ d, isWordPart d = false → c ≠ d := by
    rintro d hd rfl
    exact absurd h (Bool.eq_false_iff.mp hd)
  have hblank : isBlank c ≠ true := by
    intro hblank
    simp only [isBlank, Bool.or_eq_true, decide_eq_true_eq] at hblank
    rcases hblank with (hspace | htab) | hfeed
    · exact hne ' ' rfl hspace
    · exact hne '\t' rfl htab
    · exact hne '\x0c' rfl hfeed
  unfold recognise
  rw [if_neg hblank, if_neg (hne '\n' rfl), if_neg fun hcrlf => hne '\r' rfl hcrlf.1,
    if_neg (hne '/' rfl), if_neg (hne '"' rfl)]
  by_cases hstart : isWordStart c = true
  · rw [if_pos hstart, if_pos hstart]
  · have hdigit : c.isDigit = true :=
      (Bool.or_eq_true_iff.mp h).resolve_left hstart
    rw [if_neg hstart, if_pos hdigit, if_neg hstart]

theorem recognise_of_isWordStart
    (h : isWordStart c = true) :
    recognise c text = (.identifier, Text.size (c :: text.takeWhile isWordPart)) := by
  rw [recognise_of_isWordPart (Bool.or_eq_true_iff.mpr (.inl h)), if_pos h]

/-- All digits come before the letters. -/
theorem le_toNat_of_isAlpha
    (h : c.isAlpha = true) :
    65 ≤ c.toNat := by
  rcases Bool.or_eq_true_iff.mp h with hupper | hlower
  · exact UInt32.le_iff_toNat_le.mp (of_decide_eq_true hupper).1
  · have hlow := of_decide_eq_true (Bool.and_eq_true_iff.mp hlower).1
    exact (UInt32.le_iff_toNat_le.mp hlow).trans' (by decide)

/-- No character starts both an identifier and a number. -/
theorem isWordStart_of_isDigit
    (h : c.isDigit = true) :
    isWordStart c = false := by
  have hdigit : c.toNat ≤ 57 := (Char.isDigit_iff_toNat.mp h).2
  refine Bool.eq_false_iff.mpr fun hword => ?_
  rcases Bool.or_eq_true_iff.mp hword with halpha | hunderscore
  · have := le_toNat_of_isAlpha halpha
    omega
  · obtain rfl := of_decide_eq_true hunderscore
    exact absurd h (by decide)

theorem recognise_of_isDigit
    (h : c.isDigit = true) :
    recognise c text = (.number, Text.size (c :: text.takeWhile isWordPart)) := by
  have hword : isWordStart c ≠ true := Bool.eq_false_iff.mp (isWordStart_of_isDigit h)
  rw [recognise_of_isWordPart (Bool.or_eq_true_iff.mpr (.inr h)), if_neg hword]

theorem recognise_of_isOperator
    (h : isOperator c = true) :
    recognise c text = (.operator, Text.size (c :: text.takeWhile fun _ => false)) := by
  have hnone : text.takeWhile (fun _ => false) = [] := by
    cases text <;> rfl
  rw [hnone]
  simp only [isOperator, decide_eq_true_eq, List.mem_cons, List.not_mem_nil, or_false] at h
  rcases h with rfl | rfl | rfl | rfl | rfl | rfl | rfl | rfl | rfl | rfl | rfl | rfl | rfl | rfl |
    rfl | rfl | rfl <;> rfl

/-- A slash that no comment starts with is an operator. -/
theorem recognise_slash
    (hline : ∀ rest, text ≠ '/' :: rest)
    (hblock : ∀ rest, text ≠ '*' :: rest) :
    recognise '/' text = (.operator, 1) := by
  unfold recognise
  rw [if_neg (by decide), if_neg (by decide), if_neg fun hcrlf => absurd hcrlf.1 (by decide),
    if_pos rfl]
  split
  next rest =>
    exact absurd rfl (hline rest)
  next rest =>
    exact absurd rfl (hblock rest)
  next =>
    rfl

section Refused

variable
  (h : ∀ declared ∈ patterns, ∀ front behind,
    c :: text = front ++ behind → declared.2.accepts front = false)

include h

theorem ne_literal_of_refused
    (kind : Kind)
    (word : Text)
    (hmem : (kind, Pattern.literal word) ∈ patterns)
    (behind : Text) :
    c :: text ≠ word ++ behind := by
  intro htext
  have hrefused := h _ hmem word behind htext
  rw [Pattern.accepts_literal_iff.mpr rfl] at hrefused
  cases hrefused

theorem ne_of_refused
    {d : Char}
    (kind : Kind)
    (hmem : (kind, Pattern.literal [d]) ∈ patterns) :
    c ≠ d := by
  rintro rfl
  exact ne_literal_of_refused h kind [c] hmem text rfl

theorem start_ne_of_refused
    {start : Char → Bool}
    (kind : Kind)
    (more : Char → Bool)
    (hmem : (kind, Pattern.run start more) ∈ patterns) :
    start c ≠ true := by
  intro hstart
  have hrefused := h _ hmem [c] text rfl
  rw [Pattern.accepts_run_iff.mpr ⟨c, [], rfl, hstart, by simp⟩] at hrefused
  cases hrefused

theorem ofPunctuation_of_refused :
    ofPunctuation c = none := by
  have hoperator : isOperator c ≠ true :=
    start_ne_of_refused h .operator (fun _ => false) (by simp [patterns])
  unfold ofPunctuation
  rw [if_neg (ne_of_refused h .comma (by simp [patterns])),
    if_neg (ne_of_refused h .colon (by simp [patterns])),
    if_neg (ne_of_refused h .semicolon (by simp [patterns])),
    if_neg (ne_of_refused h .lParen (by simp [patterns])),
    if_neg (ne_of_refused h .rParen (by simp [patterns])),
    if_neg (ne_of_refused h .lBracket (by simp [patterns])),
    if_neg (ne_of_refused h .rBracket (by simp [patterns])),
    if_neg (ne_of_refused h .lBrace (by simp [patterns])),
    if_neg (ne_of_refused h .rBrace (by simp [patterns])),
    if_neg fun hmem => hoperator (decide_eq_true hmem)]

/-- A character that no pattern starts with is unknown. -/
theorem recognise_of_refused :
    recognise c text = (.unknown, c.utf8Size) := by
  have hcrlf : ¬ (c = '\r' ∧ text.head? = some '\n') := by
    rintro ⟨rfl, hnext⟩
    cases text with
    | nil =>
        cases hnext
    | cons d text =>
        cases hnext
        exact ne_literal_of_refused h .eol ['\r', '\n'] (by simp [patterns]) text rfl
  unfold recognise
  rw [if_neg (start_ne_of_refused h .whitespace isBlank (by simp [patterns])),
    if_neg (ne_of_refused h .eol (by simp [patterns])), if_neg hcrlf,
    if_neg (ne_of_refused h .operator (by simp [patterns])),
    if_neg (ne_of_refused h .stringLiteral (by simp [patterns])),
    if_neg (start_ne_of_refused h .identifier isWordPart (by simp [patterns])),
    if_neg (start_ne_of_refused h .number isWordPart (by simp [patterns])),
    ofPunctuation_of_refused h]

end Refused

end Starts

/-- A run of characters is recognised if each of its first characters starts one. -/
theorem exists_recognise_of_run
    {start more : Char → Bool}
    (hstart : ∀ c text, start c = true →
      recognise c text = (kind, Text.size (c :: text.takeWhile more)))
    (haccepts : (Pattern.run start more).accepts front = true)
    (hbehind : behind.takeWhile more = []) :
    ∃ c text,
      front ++ behind = c :: text ∧
      recognise c text = (kind, Text.size front) := by
  obtain ⟨c, body, rfl, hc, hbody⟩ := Pattern.accepts_run_iff.mp haccepts
  refine ⟨c, body ++ behind, rfl, ?_⟩
  rw [hstart c _ hc, takeWhile_eq_of_longest hbody hbehind]

/-- A fixed text is recognised by looking at it. -/
theorem exists_recognise_of_literal
    (haccepts : (Pattern.literal (c :: body)).accepts front = true)
    (hrecognise : recognise c (body ++ behind) =
      (kind, Text.size (c :: body) + extension kind behind)) :
    ∃ c text,
      front ++ behind = c :: text ∧
      recognise c text = (kind, Text.size front + extension kind behind) := by
  obtain rfl := Pattern.accepts_literal_iff.mp haccepts
  exact ⟨c, body ++ behind, rfl, hrecognise⟩

/-- A slash is the longest match only if it starts no comment. -/
theorem recognise_slash_of_longest
    (h : IsLongest patterns kind ['/'] behind) :
    recognise '/' behind = (.operator, 1) := by
  have hcomment : ∀ c more rest, (∃ kind, (kind, Pattern.opening ['/', c] more) ∈ patterns) →
      behind ≠ c :: rest := by
    rintro c more rest ⟨kind, hmem⟩ rfl
    have haccepts : (Pattern.opening ['/', c] more).accepts ['/', c] = true :=
      Pattern.accepts_opening_iff.mpr ⟨[], rfl, by simp⟩
    exact absurd (h.longest _ hmem ['/', c] rest rfl haccepts) (Nat.not_succ_le_self 1)
  exact recognise_slash
    (fun rest => hcomment '/' (!isLineEnd ·) rest ⟨.lineComment, by simp [patterns]⟩)
    (fun rest => hcomment '*' (fun _ => false) rest
      ⟨.blockComment, by simp [patterns, Pattern.literal]⟩)

/-- Where the longest match is found, a token of that kind is recognised. -/
theorem exists_recognise_of_longest
    (h : IsLongest patterns kind front behind) :
    ∃ c text,
      front ++ behind = c :: text ∧
      recognise c text = (kind, Text.size front + extension kind behind) := by
  obtain ⟨pattern, hmem, haccepts⟩ := h.accepts
  have hbehind := h.takeWhile_behind hmem haccepts
  simp only [patterns, List.mem_cons, Prod.mk.injEq, List.not_mem_nil, or_false] at hmem
  rcases hmem with ⟨rfl, rfl⟩ | ⟨rfl, rfl⟩ | ⟨rfl, rfl⟩ | ⟨rfl, rfl⟩ | ⟨rfl, rfl⟩ | ⟨rfl, rfl⟩ |
    ⟨rfl, rfl⟩ | ⟨rfl, rfl⟩ | ⟨rfl, rfl⟩ | ⟨rfl, rfl⟩ | ⟨rfl, rfl⟩ | ⟨rfl, rfl⟩ | ⟨rfl, rfl⟩ |
    ⟨rfl, rfl⟩ | ⟨rfl, rfl⟩ | ⟨rfl, rfl⟩ | ⟨rfl, rfl⟩ | ⟨rfl, rfl⟩ | ⟨rfl, rfl⟩
  · exact exists_recognise_of_run (fun _ _ => recognise_of_isBlank) haccepts hbehind
  · exact exists_recognise_of_literal haccepts rfl
  · exact exists_recognise_of_literal haccepts rfl
  · obtain ⟨body, rfl, hbody⟩ := Pattern.accepts_opening_iff.mp haccepts
    have hline : (body ++ behind).takeWhile (!isLineEnd ·) = body :=
      takeWhile_eq_of_longest hbody hbehind
    refine ⟨'/', '/' :: (body ++ behind), rfl, ?_⟩
    have hsize : (Kind.lineComment, 2 + Text.size body) =
        (Kind.lineComment, Text.size (['/', '/'] ++ body) + 0) := by
      rw [Text.size_append]
      rfl
    exact (congrArg (fun text => (Kind.lineComment, 2 + Text.size text)) hline).trans hsize
  · exact exists_recognise_of_literal haccepts rfl
  · exact exists_recognise_of_literal haccepts rfl
  · exact exists_recognise_of_run (fun _ _ => recognise_of_isWordStart) haccepts hbehind
  · exact exists_recognise_of_run (fun _ _ => recognise_of_isDigit) haccepts hbehind
  iterate 9
    · exact exists_recognise_of_literal haccepts rfl
  · obtain rfl := Pattern.accepts_literal_iff.mp haccepts
    exact ⟨'/', behind, rfl, recognise_slash_of_longest h⟩
  · exact exists_recognise_of_run (fun _ _ => recognise_of_isOperator) haccepts hbehind

/-- The patterns, looked for by any engine that picks the longest match, are the grammar. -/
theorem scanBy_eq_scan
    (hengine : PicksLongest patterns engine) :
    scanBy engine = scan := by
  funext text
  unfold scanBy
  cases hfound : engine text with
  | some found =>
      obtain ⟨kind, front, behind⟩ := found
      obtain ⟨rfl, hlongest⟩ := hengine.found _ _ _ _ hfound
      obtain ⟨c, text, htext, hrecognise⟩ := exists_recognise_of_longest hlongest
      rw [htext, scan_cons, hrecognise]
  | none =>
      cases text with
      | nil =>
          rfl
      | cons c text =>
          rw [scan_cons, recognise_of_refused (hengine.missed _ hfound)]
          rfl

/-- With an engine that picks the longest match of the declared patterns, the grammar recognises a
token at the front of every text, its lexer never fails and tiles every text, and no decision
depends on more than the character behind the token. -/
theorem scanBy_contract
    (hengine : PicksLongest patterns engine) :
    (∀ text : Text,
      text ≠ [] →
      ∃ kind length front back,
        scanBy engine text = some (kind, length) ∧
        0 < length ∧
        text = front ++ back ∧
        Text.size front = length) ∧
    (∀ text : Text,
      Text.size text < positionBound →
      ∃ tokens,
        (Lexer.ofGrammar (scanBy engine) classify).lex text = .ok tokens ∧
        Tiles 0 tokens (Text.size text)) ∧
    (∀ (front back other : Text) (kind length : Nat),
      scanBy engine (front ++ back) = some (kind, length) →
      length < Text.size front →
      scanBy engine (front ++ other) = some (kind, length)) ∧
    Lexer.ofGrammar (scanBy engine) classify = lexer := by
  rw [scanBy_eq_scan hengine]
  refine ⟨wellBehaved_scan.total, ?_, wellBehaved_scan.lookahead, rfl⟩
  intro text hbound
  obtain ⟨tokens, htokens⟩ := Lexer.exists_scans wellBehaved_scan.prefixStable hbound
  have htiles := htokens.tiles (by omega)
  rw [Nat.zero_add] at htiles
  exact ⟨tokens, Lexer.lex_eq_ok wellBehaved_scan.prefixStable classify hbound htokens, htiles⟩

/-- A string with an escaped quote ends at the next one, whatever follows the blank behind it. -/
theorem scanBy_contract_of_string :
    PicksLongest patterns (pickLongest patterns) ∧
    ∀ other : Text,
      scanBy (pickLongest patterns) (['"', '\\', '"', '"', ' '] ++ other) =
        some (Kind.stringLiteral.code, 4) := by
  have hengine := picksLongest_pickLongest patterns
  obtain ⟨-, -, hlookahead, -⟩ := scanBy_contract hengine
  refine ⟨hengine, fun other => ?_⟩
  refine hlookahead ['"', '\\', '"', '"', ' '] ['x', '"'] other _ 4 ?_ (by decide)
  decide +kernel

end Assembly

end LiveTokens
