import LiveTokens.Proofs.AssemblyGrammar

/-!
# Where the tokens of assembly source end

A token at the front of a text is a token by itself as well.  Conversely, a text
that is a token by itself is found in front of whatever does not go on with it:
a run of blanks in front of anything but a blank, a line comment in front of a
line end, a closed string in front of anything.

**Results.**
* `Leads.alone`: what follows a token is not needed to find it.
* `Leads.stops`, `Leads.resume`: what may follow a token, in both directions.
-/

namespace LiveTokens

namespace Assembly

variable {c : Char}
variable {kind : Kind}
variable {text word front body behind : Text}

section Ends

/-- The comment has its end mark. -/
def ClosedComment
    (word : Text) : Prop :=
  ∃ body, word = ['/', '*'] ++ (body ++ ['*', '/'])

/-- The string has the quote that ends it. -/
def ClosedString
    (word : Text) : Prop :=
  ∃ body, word = ['"'] ++ (body ++ ['"']) ∧ Even (backslashes body)

/-- The text does not go on with a token of the kind that has been read up to here. -/
def Stops : Kind → Text → Text → Prop
  | .whitespace, _, behind => ∀ c ∈ behind.head?, isBlank c = false
  | .identifier, _, behind => ∀ c ∈ behind.head?, isWordPart c = false
  | .number, _, behind => ∀ c ∈ behind.head?, isWordPart c = false
  | .lineComment, _, behind => ∀ c ∈ behind.head?, isLineEnd c = true
  | .stringLiteral, word, behind => ClosedString word ∨ ∀ c ∈ behind.head?, isLineEnd c = true
  | .blockComment, word, behind => ClosedComment word ∨ behind = []
  | .operator, word, behind => word = ['/'] → ∀ c ∈ behind.head?, c ≠ '/' ∧ c ≠ '*'
  | .unknown, word, behind => word = ['\r'] → ∀ c ∈ behind.head?, c ≠ '\n'
  | _, _, _ => True

/-- The end of the text stops every token. -/
theorem stops_nil
    (kind : Kind)
    (word : Text) :
    Stops kind word [] := by
  cases kind <;> simp [Stops]

/-- Nothing goes on with a mark. -/
theorem stops_of_mark
    (hmark : (kind, c) ∈ marks)
    (word behind : Text) :
    Stops kind word behind := by
  have hmarks : ∀ mark ∈ marks, Stops mark.1 word behind := by
    simp [marks, Stops]
  exact hmarks _ hmark

end Ends

section Unknown

/-- Marks and operators have kinds of their own. -/
theorem ofPunctuation_ne_unknown :
    ofPunctuation c ≠ some .unknown := by
  simp [ofPunctuation, ite_eq_iff]

/-- A character is unknown whatever follows it, but a return may belong to a line end.  All other
branches have a kind of their own. -/
theorem recognise_of_unknown
    {other : Text}
    (h : (recognise c text).1 = .unknown)
    (hother : c = '\r' → other.head? ≠ some '\n') :
    recognise c other = (.unknown, c.utf8Size) := by
  have hcrlf : ¬ (c = '\r' ∧ other.head? = some '\n') := fun hboth => hother hboth.1 hboth.2
  unfold recognise at h ⊢
  rw [if_neg hcrlf]
  grind [ofPunctuation_ne_unknown]

end Unknown

section Alone

/-- A token of the grammar is one of its own. -/
theorem Declared.alone
    (h : Declared kind front behind) :
    Declared kind front [] := by
  cases h with
  | word hopening hword hlongest =>
      refine .word ?_ hword ?_
      · rw [List.append_nil]
        exact fun hleads => hopening (hleads.trans (List.prefix_append front behind))
      · intro other longer rest hsame _
        have hlength := congrArg List.length hsame
        rw [List.append_nil, List.length_append] at hlength
        omega
  | closedComment hfirst =>
      refine .closedComment fun before after hsame => hfirst before (after ++ behind) ?_
      rw [List.append_nil] at hsame
      rw [hsame, List.append_assoc]
  | openComment hend =>
      exact .openComment hend
  | closedString hinside heven =>
      exact .closedString hinside heven
  | openString hinside _ =>
      exact .openString hinside (by simp)

theorem leads_unknown_of_recognise
    (h : recognise c behind = (.unknown, c.utf8Size)) :
    Leads .unknown [c] behind := by
  have hscan : scan (c :: behind) = some (Kind.unknown.code, c.utf8Size) := by
    rw [scan_cons, h]
  obtain ⟨front, rest, hsame, hsize, hleads⟩ := scan_eq_some_iff.mp hscan
  have hsplit : [c] ++ behind = front ++ rest := hsame
  obtain ⟨rfl, rfl⟩ := Text.append_inj_of_size hsplit (by rw [hsize]; simp)
  exact hleads

/-- The first token of a text is a token without what follows it. -/
theorem Leads.alone
    (h : Leads kind front behind) :
    Leads kind front [] := by
  cases h with
  | declared hdeclared =>
      exact .declared hdeclared.alone
  | @unknown c behind hnone =>
      obtain ⟨d, text, hsame, hrecognise⟩ := (Leads.unknown hnone).exists_recognise
      obtain ⟨rfl, rfl⟩ := List.cons.inj hsame
      have hkind : (recognise c behind).1 = .unknown := congrArg Prod.fst hrecognise
      exact leads_unknown_of_recognise (recognise_of_unknown hkind (by simp))

end Alone

section Stops

/-- A string is closed by its first quote that is not escaped. -/
theorem Inside.not_closed
    (h : Inside body) :
    ¬ ClosedString (['"'] ++ body) := by
  rintro ⟨inner, hsame, heven⟩
  obtain rfl : body = inner ++ ['"'] := List.append_cancel_left hsame
  exact Nat.not_even_iff_odd.mpr (h.escaped inner [] rfl) heven

theorem not_closedComment
    (h : ¬ ['*', '/'] <:+: body) :
    ¬ ClosedComment (['/', '*'] ++ body) := by
  rintro ⟨inner, hsame⟩
  obtain rfl : body = inner ++ ['*', '/'] := List.append_cancel_left hsame
  exact h (List.suffix_append inner ['*', '/']).isInfix

/-- What follows the longest word does not go on with it. -/
theorem stops_of_longest
    (hopening : ¬ ['/', '*'] <+: word ++ behind)
    (hword : Word kind word)
    (hlongest : ∀ other longer rest,
      word ++ behind = longer ++ rest →
      Word other longer →
      longer.length ≤ word.length) :
    Stops kind word behind := by
  cases behind with
  | nil =>
      exact stops_nil kind word
  | cons d behind =>
      have hshort : ∀ other, ¬ Word other (word ++ [d]) := by
        intro other hother
        have hlength := hlongest other (word ++ [d]) behind (by simp) hother
        rw [List.length_append, List.length_singleton] at hlength
        omega
      have hsingle : ∀ {p : Char → Prop}, p d → ∀ c ∈ (d :: behind).head?, p c := by
        simp
      cases hword with
      | whitespace hne hblank =>
          refine hsingle (Bool.eq_false_iff.mpr fun hd => hshort .whitespace ?_)
          exact .whitespace (by simp)
            (List.forall_mem_append.mpr ⟨hblank, by simpa using isBlank_iff.mp hd⟩)
      | feed | returnFeed =>
          trivial
      | @lineComment body hbody =>
          refine hsingle (by_contra fun hd => hshort .lineComment ?_)
          rw [isLineEnd_iff, not_or] at hd
          rw [List.append_assoc]
          exact .lineComment (List.forall_mem_append.mpr ⟨hbody, by simpa using hd⟩)
      | @identifier c body hstart hbody =>
          refine hsingle (Bool.eq_false_iff.mpr fun hd => hshort .identifier ?_)
          rw [List.cons_append]
          exact .identifier hstart
            (List.forall_mem_append.mpr ⟨hbody, by simpa using isWordPart_iff.mp hd⟩)
      | @number c body hstart hbody =>
          refine hsingle (Bool.eq_false_iff.mpr fun hd => hshort .number ?_)
          rw [List.cons_append]
          exact .number hstart
            (List.forall_mem_append.mpr ⟨hbody, by simpa using isWordPart_iff.mp hd⟩)
      | mark hmark =>
          exact stops_of_mark hmark _ _
      | operator _ =>
          rintro hslash
          rw [hslash] at hshort hopening
          refine hsingle ⟨?_, ?_⟩
          · rintro rfl
            have hcomment : Word .lineComment (['/', '/'] ++ []) := .lineComment (by simp)
            exact hshort .lineComment hcomment
          · rintro rfl
            exact hopening (List.prefix_append ['/', '*'] behind)

/-- What follows the first token of a text does not go on with it. -/
theorem Leads.stops
    (h : Leads kind front behind) :
    Stops kind front behind := by
  cases h with
  | declared hdeclared =>
      cases hdeclared with
      | word hopening hword hlongest =>
          exact stops_of_longest hopening hword hlongest
      | closedComment _ =>
          exact .inl ⟨_, rfl⟩
      | openComment _ =>
          exact .inr rfl
      | closedString _ heven =>
          exact .inl ⟨_, rfl, heven⟩
      | openString _ hend =>
          exact .inr fun c hc => isLineEnd_iff.mpr (hend c hc)
  | @unknown c behind hnone =>
      intro hreturn d hd
      rintro rfl
      obtain rfl : c = '\r' := List.singleton_inj.mp hreturn
      cases behind with
      | nil =>
          cases hd
      | cons e behind =>
          obtain rfl : e = '\n' := Option.some.inj hd
          obtain ⟨c, text, hsame, hrecognise⟩ := (Leads.unknown hnone).exists_recognise
          cases hsame
          cases hrecognise

end Stops

section Resume

/-- A run stops where the next character does not go on with it. -/
theorem takeWhile_of_stops
    {p : Char → Bool}
    (hbody : ∀ d ∈ body, p d = true)
    (hbehind : ∀ c ∈ behind.head?, p c = false) :
    (body ++ behind).takeWhile p = body := by
  refine takeWhile_eq_of_longest hbody ?_
  cases behind with
  | nil =>
      rfl
  | cons c behind =>
      rw [List.takeWhile_cons, hbehind c rfl]
      rfl

/-- A word is found in front of what does not go on with it. -/
theorem Word.scan_eq
    (h : Word kind word)
    (hstops : Stops kind word behind) :
    scan (word ++ behind) = some (kind.code, Text.size word) := by
  cases h with
  | whitespace hne hblank =>
      obtain ⟨c, body, rfl⟩ := List.exists_cons_of_ne_nil hne
      obtain ⟨hc, hbody⟩ := List.forall_mem_cons.mp hblank
      rw [List.cons_append, scan_cons, recognise_of_isBlank (isBlank_iff.mpr hc),
        takeWhile_of_stops (fun d hd => isBlank_iff.mpr (hbody d hd)) hstops]
  | feed | returnFeed =>
      rfl
  | @lineComment body hbody =>
      have htake : (body ++ behind).takeWhile (!isLineEnd ·) = body :=
        takeWhile_of_stops (fun d hd => not_isLineEnd_iff.mpr (hbody d hd))
          fun c hc => by simp [hstops c hc]
      have hscan : scan (['/', '/'] ++ body ++ behind) =
          some (Kind.lineComment.code, 2 + Text.size ((body ++ behind).takeWhile (!isLineEnd ·))) :=
        rfl
      rw [hscan, htake, Text.size_append]
      rfl
  | identifier hstart hbody =>
      rw [List.cons_append, scan_cons, recognise_of_isWordStart (isWordStart_iff.mpr hstart),
        takeWhile_of_stops (fun d hd => isWordPart_iff.mpr (hbody d hd)) hstops]
  | number hstart hbody =>
      rw [List.cons_append, scan_cons, recognise_of_isDigit (isDigit_iff.mpr hstart),
        takeWhile_of_stops (fun d hd => isWordPart_iff.mpr (hbody d hd)) hstops]
  | @mark kind c hmark =>
      have hmarks : ∀ mark ∈ marks,
          scan ([mark.2] ++ behind) = some (mark.1.code, Text.size [mark.2]) := by
        simp only [marks, List.forall_mem_cons]
        exact ⟨rfl, rfl, rfl, rfl, rfl, rfl, rfl, rfl, rfl, by simp⟩
      exact hmarks _ hmark
  | @operator c hoperator =>
      rcases List.mem_cons.mp hoperator with rfl | hother
      · have hnext := hstops rfl
        rw [List.singleton_append, scan_cons, recognise_slash]
        · rfl
        · rintro rest rfl
          exact (hnext '/' rfl).1 rfl
        · rintro rest rfl
          exact (hnext '*' rfl).2 rfl
      · have hnone : behind.takeWhile (fun _ => false) = [] := by
          cases behind <;> rfl
        rw [List.singleton_append, scan_cons, recognise_of_isOperator (decide_eq_true hother),
          hnone]

/-- The first end mark of a comment stays the first one, whatever follows it. -/
theorem FirstEnd.append
    (h : FirstEnd body [])
    (behind : Text) :
    FirstEnd body behind := by
  intro before after hsame
  by_contra hshort
  have hlength : (before ++ ['*', '/']).length ≤ (body ++ ['*', '/']).length := by
    simp only [List.length_append]
    omega
  obtain ⟨rest, hrest⟩ := List.prefix_of_prefix_length_le
    ⟨after, hsame.symm⟩ (List.prefix_append (body ++ ['*', '/']) behind) hlength
  exact hshort (h before rest (by rw [List.append_nil, hrest]))

/-- A text that is a token by itself is found in front of what does not go on with it. -/
theorem Leads.resume
    (h : Leads kind front [])
    (hstops : Stops kind front behind) :
    scan (front ++ behind) = some (kind.code, Text.size front) := by
  cases h with
  | declared hdeclared =>
      cases hdeclared with
      | word _ hword _ =>
          exact hword.scan_eq hstops
      | closedComment hfirst =>
          exact (Leads.declared (.closedComment (hfirst.append behind))).scan_eq
      | openComment hend =>
          obtain rfl := hstops.resolve_left (not_closedComment hend)
          exact (Leads.declared (.openComment hend)).scan_eq
      | closedString hinside heven =>
          exact (Leads.declared (.closedString hinside heven)).scan_eq
      | openString hinside _ =>
          have hend := hstops.resolve_left hinside.not_closed
          exact (Leads.declared (.openString hinside fun c hc =>
            isLineEnd_iff.mp (hend c hc))).scan_eq
  | @unknown c _ hnone =>
      obtain ⟨d, text, hsame, hrecognise⟩ := (Leads.unknown hnone).exists_recognise
      obtain ⟨rfl, rfl⟩ := List.cons.inj hsame
      have hother : c = '\r' → behind.head? ≠ some '\n' := by
        rintro rfl hfeed
        exact hstops rfl '\n' hfeed rfl
      exact (leads_unknown_of_recognise
        (recognise_of_unknown (congrArg Prod.fst hrecognise) hother)).scan_eq

end Resume

end Assembly

end LiveTokens
