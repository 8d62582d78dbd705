import Mathlib.Data.List.Chain
import LiveTokens.Proofs.TokenEnds

/-!
# Canonical streams of assembly tokens

The lexer of assembly source cuts a text into *lexemes*, tokens with their texts.
A stream of lexemes is *canonical* if each of them, scanned alone, is found whole,
and if neighbours do not run into one another: no two runs of blanks and no two
words meet, what a comment or a string leaves open is ended by its line or by the
text, and no mark is torn apart.

Every text is the text of exactly one canonical stream, and that is the one which
the lexer finds.  One step of a lexing relates a lexeme to what follows it
(`stops_iff_mayFollow`); the stream follows by induction, in both directions.
-/

namespace LiveTokens

namespace Assembly

/-- A token without its place. -/
structure Lexeme where
  kind : Kind
  text : Text
deriving DecidableEq, Repr

namespace Lexeme

/-- The text that a stream of lexemes is cut out of. -/
def joined
    (lexemes : List Lexeme) : Text :=
  (lexemes.map (·.text)).flatten

/-- Lexemes as tokens, one behind the other. -/
def laidOut
    (position : Nat) : List Lexeme → List Token
  | [] => []
  | lexeme :: lexemes =>
      ⟨lexeme.kind.code, ⟨position, Text.size lexeme.text⟩⟩ ::
        laidOut (position + Text.size lexeme.text) lexemes

/-- An identifier or a number. -/
def IsWord
    (lexeme : Lexeme) : Prop :=
  lexeme.kind = .identifier ∨ lexeme.kind = .number

/-- A line end, or a return without a feed. -/
def EndsLine
    (lexeme : Lexeme) : Prop :=
  lexeme.kind = .eol ∨ lexeme = ⟨.unknown, ['\r']⟩

/-- The second lexeme may stand right behind the first. -/
structure MayFollow
    (first second : Lexeme) : Prop where
  blanks : ¬ (first.kind = .whitespace ∧ second.kind = .whitespace)
  words : ¬ (first.IsWord ∧ second.IsWord)
  lineComment : first.kind = .lineComment → second.EndsLine
  openString : first.kind = .stringLiteral → ¬ ClosedString first.text → second.EndsLine
  /-- Nothing follows a comment that is not closed. -/
  blockComment : first.kind = .blockComment → ClosedComment first.text
  slash : first = ⟨.operator, ['/']⟩ → ∀ c ∈ second.text.head?, c ≠ '/' ∧ c ≠ '*'
  lineEnd : first = ⟨.unknown, ['\r']⟩ → second ≠ ⟨.eol, ['\n']⟩

/-- Each lexeme is found whole by the grammar, and neighbours do not run into one another. -/
structure Canonical
    (grammar : Grammar)
    (lexemes : List Lexeme) : Prop where
  alone : ∀ lexeme ∈ lexemes,
    grammar lexeme.text = some (lexeme.kind.code, Text.size lexeme.text)
  neighbours : lexemes.IsChain MayFollow

end Lexeme

variable {c : Char}
variable {kind : Kind}
variable {text front rest behind : Text}

section Starts

theorem recognise_return_feed
    (h : text.head? = some '\n') :
    recognise '\r' text = (.eol, 2) := by
  unfold recognise
  rw [if_neg (by decide), if_neg (by decide), if_pos ⟨rfl, h⟩]

theorem recognise_return
    (h : text.head? ≠ some '\n') :
    recognise '\r' text = (.unknown, 1) := by
  unfold recognise
  rw [if_neg (by decide), if_neg (by decide), if_neg fun hfeed => h hfeed.2]
  rfl

theorem Leads.recognise_eq
    (h : Leads kind (c :: front) behind) :
    recognise c (front ++ behind) = (kind, Text.size (c :: front)) := by
  obtain ⟨d, text, hsame, hrecognise⟩ := h.exists_recognise
  obtain ⟨rfl, rfl⟩ := List.cons.inj hsame
  exact hrecognise

theorem Leads.ne_nil
    (h : Leads kind front behind) :
    front ≠ [] := by
  cases h with
  | unknown _ =>
      exact List.cons_ne_nil _ _
  | declared hdeclared =>
      cases hdeclared with
      | word _ hword _ =>
          exact hword.ne_nil
      | closedComment _ | openComment _ | closedString _ _ | openString _ _ =>
          exact List.cons_ne_nil _ _

/-- All tokens are words, apart from block comments, strings and unknown characters. -/
theorem Leads.word
    (h : Leads kind front behind)
    (hkind : kind ∉ [Kind.blockComment, .stringLiteral, .unknown]) :
    Word kind front := by
  cases h with
  | unknown _ =>
      exact absurd (by decide) hkind
  | declared hdeclared =>
      cases hdeclared with
      | word _ hword _ =>
          exact hword
      | closedComment _ | openComment _ | closedString _ _ | openString _ _ =>
          exact absurd (by decide) hkind

/-- A blank starts a run of blanks and nothing else. -/
theorem Leads.isBlank_iff
    (h : Leads kind (c :: front) behind) :
    isBlank c = true ↔ kind = .whitespace := by
  constructor
  · intro hblank
    have hrecognise := h.recognise_eq
    rw [recognise_of_isBlank hblank] at hrecognise
    exact (congrArg Prod.fst hrecognise).symm
  · rintro rfl
    cases h.word (by decide) with
    | whitespace _ hblank =>
        exact Assembly.isBlank_iff.mpr (hblank c List.mem_cons_self)
    | mark hmark =>
        simp [marks] at hmark

/-- A letter or a digit starts an identifier or a number, and nothing else does. -/
theorem Leads.isWordPart_iff
    (h : Leads kind (c :: front) behind) :
    isWordPart c = true ↔ kind = .identifier ∨ kind = .number := by
  constructor
  · intro hpart
    have hrecognise := h.recognise_eq
    rw [recognise_of_isWordPart hpart] at hrecognise
    obtain ⟨rfl, -⟩ := Prod.mk.inj hrecognise
    split <;> simp
  · rintro (rfl | rfl)
    · cases h.word (by decide) with
      | identifier hstart _ =>
          exact Bool.or_eq_true_iff.mpr (.inl (isWordStart_iff.mpr hstart))
      | mark hmark =>
          simp [marks] at hmark
    · cases h.word (by decide) with
      | number hstart _ =>
          exact Bool.or_eq_true_iff.mpr (.inr (isDigit_iff.mpr hstart))
      | mark hmark =>
          simp [marks] at hmark

/-- A feed is a line end by itself. -/
theorem Leads.eq_feed_iff
    (h : Leads kind (c :: front) behind) :
    c = '\n' ↔ kind = .eol ∧ c :: front = ['\n'] := by
  constructor
  · rintro rfl
    obtain ⟨rfl, hsize⟩ := Prod.mk.inj h.recognise_eq
    have hfront : front = [] := by
      rw [Text.size_cons] at hsize
      exact Text.size_eq_zero_iff.mp (Nat.add_left_cancel hsize.symm)
    exact ⟨rfl, by rw [hfront]⟩
  · rintro ⟨-, hsame⟩
    exact (List.cons.inj hsame).1

/-- The characters that end a line start a line end, or are a return without a feed. -/
theorem Leads.isLineEnd_iff
    (h : Leads kind (c :: front) behind) :
    isLineEnd c = true ↔ Lexeme.EndsLine ⟨kind, c :: front⟩ := by
  rw [Assembly.isLineEnd_iff]
  constructor
  · rintro (rfl | rfl)
    · by_cases hfeed : (front ++ behind).head? = some '\n'
      · exact .inl (congrArg Prod.fst (h.recognise_eq.symm.trans (recognise_return_feed hfeed)))
      · obtain ⟨rfl, hsize⟩ :=
          Prod.mk.inj (h.recognise_eq.symm.trans (recognise_return hfeed))
        have hfront : front = [] := by
          rw [Text.size_cons] at hsize
          exact Text.size_eq_zero_iff.mp (Nat.add_left_cancel hsize)
        exact .inr (by rw [hfront])
    · exact .inl (h.eq_feed_iff.mp rfl).1
  · rintro (heol | hreturn)
    · obtain rfl : kind = .eol := heol
      cases h.word (by decide) with
      | feed =>
          exact .inr rfl
      | returnFeed =>
          exact .inl rfl
      | mark hmark =>
          simp [marks] at hmark
    · cases hreturn
      exact .inl rfl

end Starts

namespace Lexeme

variable {first second : Lexeme}
variable {lexemes others : List Lexeme}
variable {position : Nat}
variable {tokens : List Token}
variable {engine : Text → Option (Kind × Text × Text)}

section Neighbours

variable {other : Kind}
variable {word : Text}

/-- What may follow a token is told by the first character of the next one. -/
theorem stops_iff_mayFollow
    (hnext : Leads other (c :: rest) []) :
    Stops kind word (c :: rest ++ behind) ↔ MayFollow ⟨kind, word⟩ ⟨other, c :: rest⟩ := by
  constructor
  · intro h
    constructor
    · rintro ⟨hkind, hother⟩
      obtain rfl : kind = .whitespace := hkind
      exact Bool.eq_false_iff.mp (h c rfl) (hnext.isBlank_iff.mpr hother)
    · rintro ⟨hkind, hother⟩
      have hstart : isWordPart c = true := hnext.isWordPart_iff.mpr hother
      rcases hkind with hkind | hkind
      · obtain rfl : kind = .identifier := hkind
        exact Bool.eq_false_iff.mp (h c rfl) hstart
      · obtain rfl : kind = .number := hkind
        exact Bool.eq_false_iff.mp (h c rfl) hstart
    · intro hkind
      obtain rfl : kind = .lineComment := hkind
      exact hnext.isLineEnd_iff.mp (h c rfl)
    · intro hkind hopen
      obtain rfl : kind = .stringLiteral := hkind
      exact hnext.isLineEnd_iff.mp (h.resolve_left hopen c rfl)
    · intro hkind
      obtain rfl : kind = .blockComment := hkind
      exact h.resolve_right (List.cons_ne_nil _ _)
    · intro hslash
      cases hslash
      exact h rfl
    · intro hreturn hfeed
      cases hreturn
      cases hfeed
      exact h rfl '\n' rfl rfl
  · intro h
    have hsingle : ∀ {p : Char → Prop}, p c → ∀ d ∈ (c :: rest ++ behind).head?, p d := by
      simp
    cases kind with
    | whitespace =>
        exact hsingle (Bool.eq_false_iff.mpr fun hc => h.blanks ⟨rfl, hnext.isBlank_iff.mp hc⟩)
    | identifier =>
        exact hsingle (Bool.eq_false_iff.mpr fun hc =>
          h.words ⟨.inl rfl, hnext.isWordPart_iff.mp hc⟩)
    | number =>
        exact hsingle (Bool.eq_false_iff.mpr fun hc =>
          h.words ⟨.inr rfl, hnext.isWordPart_iff.mp hc⟩)
    | lineComment =>
        exact hsingle (hnext.isLineEnd_iff.mpr (h.lineComment rfl))
    | stringLiteral =>
        by_cases hclosed : ClosedString word
        · exact .inl hclosed
        · exact .inr (hsingle (hnext.isLineEnd_iff.mpr (h.openString rfl hclosed)))
    | blockComment =>
        exact .inl (h.blockComment rfl)
    | operator =>
        rintro rfl
        exact h.slash rfl
    | unknown =>
        rintro rfl
        refine hsingle fun hc => h.lineEnd rfl ?_
        obtain ⟨rfl, hfeed⟩ := hnext.eq_feed_iff.mp hc
        rw [hfeed]
    | eol | comma | colon | semicolon | lParen | rParen | lBracket | rBracket | lBrace | rBrace =>
        trivial

end Neighbours

section Streams

/-- A text is found whole by the grammar if it is a token without anything behind it. -/
theorem scan_eq_size_iff :
    scan text = some (kind.code, Text.size text) ↔ Leads kind text [] := by
  rw [scan_eq_some_iff]
  constructor
  · rintro ⟨front, behind, rfl, hsize, hleads⟩
    have hbehind : behind = [] := by
      rw [Text.size_append] at hsize
      exact Text.size_eq_zero_iff.mp (by omega)
    subst hbehind
    rwa [List.append_nil]
  · intro hleads
    exact ⟨text, [], (List.append_nil text).symm, rfl, hleads⟩

/-- What the grammar finds in front of a text is a first token. -/
theorem exists_leads_of_scan
    {code : Nat}
    (hscan : scan (front ++ behind) = some (code, Text.size front))
    (hfront : front ≠ []) :
    ∃ kind, code = Kind.code kind ∧ Leads kind front behind := by
  have htext : front ++ behind ≠ [] := List.append_ne_nil_of_left_ne_nil hfront behind
  obtain ⟨kind, first, rest, hsame, hleads⟩ := exists_leads htext
  rw [hsame, hleads.scan_eq] at hscan
  obtain ⟨hcode, hsize⟩ := Prod.mk.inj (Option.some.inj hscan)
  obtain ⟨rfl, rfl⟩ := Text.append_inj_of_size hsame hsize.symm
  exact ⟨kind, hcode.symm, hleads⟩

/-- A lexing is canonical: each token is one by itself, and it may follow the one in front of it. -/
theorem exists_canonical_of_scans
    (h : Scans scan position text [] tokens) :
    ∃ lexemes,
      joined lexemes = text ∧
      tokens = laidOut position lexemes ∧
      Canonical scan lexemes := by
  generalize hbehind : ([] : Text) = behind at h
  induction h with
  | nil =>
      exact ⟨[], rfl, rfl, by simp, .nil⟩
  | @cons position code front text behind tokens hscan hfront htext ih =>
      subst hbehind
      obtain ⟨lexemes, rfl, rfl, hcanonical⟩ := ih rfl
      rw [List.append_nil] at hscan
      obtain ⟨kind, rfl, hleads⟩ := exists_leads_of_scan hscan hfront
      refine ⟨⟨kind, front⟩ :: lexemes, rfl, rfl, ?_, ?_⟩
      · rw [List.forall_mem_cons]
        exact ⟨scan_eq_size_iff.mpr hleads.alone, hcanonical.alone⟩
      · cases lexemes with
        | nil =>
            exact .singleton _
        | cons second lexemes =>
            have hsecond := scan_eq_size_iff.mp (hcanonical.alone second List.mem_cons_self)
            obtain ⟨other, text⟩ := second
            obtain ⟨c, rest, rfl⟩ := List.exists_cons_of_ne_nil hsecond.ne_nil
            exact .cons_cons ((stops_iff_mayFollow hsecond).mp hleads.stops) hcanonical.neighbours

/-- The text of a canonical stream is lexed into the stream. -/
theorem Canonical.scans
    (h : Canonical scan lexemes)
    (position : Nat) :
    Scans scan position (joined lexemes) [] (laidOut position lexemes) := by
  induction lexemes generalizing position with
  | nil =>
      exact .nil
  | cons first lexemes ih =>
      obtain ⟨hfirst, hothers⟩ := List.forall_mem_cons.mp h.alone
      have hleads := scan_eq_size_iff.mp hfirst
      refine .cons ?_ hleads.ne_nil (ih ⟨hothers, h.neighbours.tail⟩ _)
      rw [List.append_nil]
      refine hleads.resume ?_
      cases lexemes with
      | nil =>
          exact stops_nil _ _
      | cons second lexemes =>
          have hsecond := scan_eq_size_iff.mp (hothers second List.mem_cons_self)
          obtain ⟨other, text⟩ := second
          obtain ⟨c, rest, rfl⟩ := List.exists_cons_of_ne_nil hsecond.ne_nil
          exact (stops_iff_mayFollow hsecond).mpr (List.isChain_cons_cons.mp h.neighbours).1

/-- Lexemes are told apart by their text and their tokens. -/
theorem eq_of_laidOut_eq
    (hjoined : joined others = joined lexemes)
    (hlaidOut : laidOut position others = laidOut position lexemes) :
    others = lexemes := by
  induction lexemes generalizing others position with
  | nil =>
      cases others with
      | nil =>
          rfl
      | cons other others =>
          cases hlaidOut
  | cons lexeme lexemes ih =>
      cases others with
      | nil =>
          cases hlaidOut
      | cons other others =>
          simp only [laidOut, List.cons.injEq, Token.mk.injEq, Span.mk.injEq, true_and] at hlaidOut
          obtain ⟨⟨hcode, hsize⟩, hrest⟩ := hlaidOut
          obtain ⟨htext, hjoined⟩ := Text.append_inj_of_size hjoined hsize
          have hkind : some other.kind = some lexeme.kind := by
            rw [← Kind.ofCode?_code, hcode, Kind.ofCode?_code]
          rw [hsize] at hrest
          rw [ih hjoined hrest]
          congr 1
          cases other
          cases lexeme
          cases hkind
          cases htext
          rfl

end Streams

/-- Whichever engine picks the longest match, the lexer of assembly source cuts every text into a
canonical stream, and no other canonical stream has that text. -/
theorem lex_canonical
    (hengine : PicksLongest patterns engine)
    (hbound : Text.size text < positionBound) :
    ∃ lexemes,
      (Lexer.ofGrammar (scanBy engine) classify).lex text = .ok (laidOut 0 lexemes) ∧
      joined lexemes = text ∧
      Canonical (scanBy engine) lexemes ∧
      ∀ others,
        joined others = text →
        Canonical (scanBy engine) others →
        others = lexemes := by
  rw [scanBy_eq_scan hengine]
  have hstable := wellBehaved_scan.prefixStable
  obtain ⟨tokens, htokens⟩ := Lexer.exists_scans hstable hbound
  obtain ⟨lexemes, hjoined, rfl, hcanonical⟩ := exists_canonical_of_scans htokens
  refine ⟨lexemes, Lexer.lex_eq_ok hstable classify hbound htokens, hjoined, hcanonical, ?_⟩
  rintro others rfl hothers
  exact eq_of_laidOut_eq hjoined.symm ((hothers.scans 0).unique htokens)

/-- The open string ends at the return, which stays alone in front of the slash, and the comment is
the last lexeme. -/
theorem lex_canonical_of_open_string :
    PicksLongest patterns (pickLongest patterns) ∧
    Text.size ['x', '"', '\\', '"', '\r', '/', 'é', '\r', '\n', '/', '*'] < positionBound ∧
    ∃ lexemes,
      laidOut 0 lexemes =
        [⟨5, ⟨0, 1⟩⟩, ⟨4, ⟨1, 3⟩⟩, ⟨17, ⟨4, 1⟩⟩, ⟨16, ⟨5, 1⟩⟩, ⟨17, ⟨6, 2⟩⟩, ⟨1, ⟨8, 2⟩⟩,
          ⟨3, ⟨10, 2⟩⟩] ∧
      Canonical (scanBy (pickLongest patterns)) lexemes := by
  have hengine := picksLongest_pickLongest patterns
  have hbound : Text.size ['x', '"', '\\', '"', '\r', '/', 'é', '\r', '\n', '/', '*'] <
      positionBound := by
    decide
  obtain ⟨lexemes, hlex, -, hcanonical, -⟩ := lex_canonical hengine hbound
  refine ⟨hengine, hbound, lexemes, ?_, hcanonical⟩
  have hfound : (Lexer.ofGrammar (scanBy (pickLongest patterns)) classify).lex
      ['x', '"', '\\', '"', '\r', '/', 'é', '\r', '\n', '/', '*'] =
        .ok [⟨5, ⟨0, 1⟩⟩, ⟨4, ⟨1, 3⟩⟩, ⟨17, ⟨4, 1⟩⟩, ⟨16, ⟨5, 1⟩⟩, ⟨17, ⟨6, 2⟩⟩, ⟨1, ⟨8, 2⟩⟩,
          ⟨3, ⟨10, 2⟩⟩] := by
    rw [scanBy_eq_scan hengine]
    decide +kernel
  exact Except.ok.inj (hlex.symm.trans hfound)

end Lexeme

end Assembly

end LiveTokens
