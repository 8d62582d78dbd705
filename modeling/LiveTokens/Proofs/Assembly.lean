import LiveTokens.Assembly
import LiveTokens.Proofs.Scanning

/-!
# The grammar of assembly source is well-behaved

Every token of assembly source covers whole characters and at least one of them.
Which token it is depends on its own text and on the character behind it, even
for comments and strings, where the end mark is part of the token.
-/

namespace LiveTokens

namespace Assembly

variable {p : Char → Bool}
variable {c : Char}
variable {text front back other : Text}

theorem takeWhile_append
    (h : Text.size ((front ++ back).takeWhile p) < Text.size front) :
    (front ++ other).takeWhile p = (front ++ back).takeWhile p := by
  induction front with
  | nil =>
      exact absurd h (Nat.not_lt_zero _)
  | cons c front ih =>
      rw [List.cons_append, List.takeWhile_cons] at h
      rw [List.cons_append, List.cons_append, List.takeWhile_cons, List.takeWhile_cons]
      split
      next hp =>
        rw [if_pos hp, Text.size_cons, Text.size_cons] at h
        rw [ih (by omega)]
      next =>
        rfl

theorem blockRest_append
    (h : blockRest (front ++ back) < Text.size front) :
    blockRest (front ++ other) = blockRest (front ++ back) := by
  induction front with
  | nil =>
      exact absurd h (Nat.not_lt_zero _)
  | cons c front ih =>
      have hpositive := c.utf8Size_pos
      rw [List.cons_append, blockRest] at h
      rw [List.cons_append, List.cons_append, blockRest, blockRest]
      cases front with
      | nil =>
          rw [Text.size_cons, Text.size_nil] at h
          split at h
          next hmark =>
            rw [hmark.1] at h
            exact absurd h (by decide)
          next =>
            omega
      | cons d front =>
          rw [List.cons_append, List.head?_cons] at h ⊢
          rw [List.cons_append, List.head?_cons]
          split
          next =>
            rfl
          next hmark =>
            rw [if_neg hmark, Text.size_cons] at h
            rw [← List.cons_append, ← List.cons_append, ih (by rw [List.cons_append]; omega)]

theorem stringRest_append
    {escaped : Bool}
    (h : stringRest escaped (front ++ back) < Text.size front) :
    stringRest escaped (front ++ other) = stringRest escaped (front ++ back) := by
  induction front generalizing escaped with
  | nil =>
      exact absurd h (Nat.not_lt_zero _)
  | cons c front ih =>
      rw [List.cons_append, stringRest] at h
      rw [List.cons_append, List.cons_append, stringRest, stringRest]
      split
      next =>
        rfl
      next hline =>
        rw [if_neg hline] at h
        split
        next =>
          rfl
        next hquote =>
          rw [if_neg hquote, Text.size_cons] at h
          rw [ih (by omega)]

/-- The rest of a block comment ends between two characters. -/
theorem exists_front_blockRest
    (text : Text) :
    ∃ front back, text = front ++ back ∧ Text.size front = blockRest text := by
  induction text with
  | nil =>
      exact ⟨[], [], rfl, rfl⟩
  | cons c text ih =>
      rw [blockRest]
      split
      next hmark =>
        obtain ⟨rfl, hnext⟩ := hmark
        cases text with
        | nil =>
            cases hnext
        | cons d text =>
            cases hnext
            exact ⟨['*', '/'], text, rfl, rfl⟩
      next =>
        obtain ⟨front, back, rfl, hsize⟩ := ih
        exact ⟨c :: front, back, rfl, by rw [Text.size_cons, hsize]⟩

/-- The rest of a string ends between two characters. -/
theorem exists_front_stringRest
    (escaped : Bool)
    (text : Text) :
    ∃ front back, text = front ++ back ∧ Text.size front = stringRest escaped text := by
  induction text generalizing escaped with
  | nil =>
      exact ⟨[], [], rfl, rfl⟩
  | cons c text ih =>
      rw [stringRest]
      split
      next =>
        exact ⟨[], c :: text, rfl, rfl⟩
      next =>
        split
        next hquote =>
          obtain ⟨rfl, -⟩ := hquote
          exact ⟨['"'], text, rfl, rfl⟩
        next =>
          obtain ⟨front, back, rfl, hsize⟩ := ih (c = '\\' && !escaped)
          exact ⟨c :: front, back, rfl, by rw [Text.size_cons, hsize]⟩

theorem exists_front_takeWhile
    (p : Char → Bool)
    (c : Char)
    (text : Text) :
    ∃ front back,
      c :: text = front ++ back ∧
      front ≠ [] ∧
      Text.size front = Text.size (c :: text.takeWhile p) :=
  ⟨c :: text.takeWhile p, text.dropWhile p,
    by rw [List.cons_append, List.takeWhile_append_dropWhile], List.cons_ne_nil _ _, rfl⟩

theorem utf8Size_of_ofPunctuation
    {kind : Kind}
    (h : ofPunctuation c = some kind) :
    c.utf8Size = 1 := by
  have hoperators : ∀ d ∈ ['-', '+', '*', '%', '&', '|', '^', '~', '!', '=', '<', '>', '?', '@',
      '#', '$', '.'], d.utf8Size = 1 := by
    simp [Char.utf8Size]
  refine Classical.byContradiction fun hsize => ?_
  have hne : ∀ d : Char, d.utf8Size = 1 → c ≠ d := by
    rintro d hd rfl
    exact hsize hd
  rw [ofPunctuation, if_neg (hne ',' rfl), if_neg (hne ':' rfl), if_neg (hne ';' rfl),
    if_neg (hne '(' rfl), if_neg (hne ')' rfl), if_neg (hne '[' rfl), if_neg (hne ']' rfl),
    if_neg (hne '{' rfl), if_neg (hne '}' rfl), if_neg fun hc => hsize (hoperators c hc)] at h
  cases h

/-- The token in front of a text covers whole characters, and at least one. -/
theorem exists_front_recognise
    (c : Char)
    (text : Text) :
    ∃ front back,
      c :: text = front ++ back ∧
      front ≠ [] ∧
      Text.size front = (recognise c text).2 := by
  unfold recognise
  split
  next =>
    exact exists_front_takeWhile isBlank c text
  split
  next heol =>
    subst heol
    exact ⟨['\n'], text, rfl, List.cons_ne_nil _ _, rfl⟩
  split
  next hcrlf =>
    obtain ⟨rfl, hnext⟩ := hcrlf
    cases text with
    | nil =>
        cases hnext
    | cons d text =>
        cases hnext
        exact ⟨['\r', '\n'], text, rfl, List.cons_ne_nil _ _, rfl⟩
  split
  next hslash =>
    subst hslash
    split
    next rest _ =>
      refine ⟨'/' :: '/' :: rest.takeWhile (!isLineEnd ·), rest.dropWhile (!isLineEnd ·), ?_,
        List.cons_ne_nil _ _, ?_⟩
      · rw [List.cons_append, List.cons_append, List.takeWhile_append_dropWhile]
      · rw [Text.size_cons, Text.size_cons, ← Nat.add_assoc]
        rfl
    next rest _ =>
      obtain ⟨front, back, rfl, hsize⟩ := exists_front_blockRest rest
      refine ⟨'/' :: '*' :: front, back, rfl, List.cons_ne_nil _ _, ?_⟩
      rw [Text.size_cons, Text.size_cons, hsize, ← Nat.add_assoc]
      rfl
    next =>
      exact ⟨['/'], text, rfl, List.cons_ne_nil _ _, rfl⟩
  split
  next hquote =>
    subst hquote
    obtain ⟨front, back, rfl, hsize⟩ := exists_front_stringRest false text
    exact ⟨'"' :: front, back, rfl, List.cons_ne_nil _ _, by rw [Text.size_cons, hsize]; rfl⟩
  split
  next =>
    exact exists_front_takeWhile isWordPart c text
  split
  next =>
    exact exists_front_takeWhile isWordPart c text
  split
  next kind hkind =>
    exact ⟨[c], text, rfl, List.cons_ne_nil _ _, utf8Size_of_ofPunctuation hkind⟩
  next =>
    exact ⟨[c], text, rfl, List.cons_ne_nil _ _, rfl⟩

/-- A token does not depend on what follows the character behind it. -/
theorem recognise_append
    (h : (recognise c (front ++ back)).2 < c.utf8Size + Text.size front) :
    recognise c (front ++ other) = recognise c (front ++ back) := by
  obtain ⟨start, rest, -, hstart, hsize⟩ := exists_front_recognise c (front ++ back)
  have hpositive := Text.size_pos hstart
  rw [hsize] at hpositive
  have hroom : c.utf8Size = 1 → ∃ d front', front = d :: front' := by
    intro hc
    cases front with
    | nil =>
        rw [Text.size_nil] at h
        omega
    | cons d front' =>
        exact ⟨d, front', rfl⟩
  unfold recognise at h ⊢
  split
  next hblank =>
    rw [if_pos hblank, Text.size_cons] at h
    have htake : (front ++ other).takeWhile isBlank = (front ++ back).takeWhile isBlank :=
      takeWhile_append (Nat.lt_of_add_lt_add_left h)
    rw [htake]
  next hblank =>
  rw [if_neg hblank] at h
  split
  next =>
    rfl
  next heol =>
  rw [if_neg heol] at h
  by_cases hreturn : c = '\r'
  · obtain ⟨d, front, rfl⟩ := hroom (hreturn ▸ rfl)
    subst hreturn
    rfl
  have hcrlf : ∀ text : Text, ¬(c = '\r' ∧ text.head? = some '\n') :=
    fun text hboth => hreturn hboth.1
  rw [if_neg (hcrlf _)] at h ⊢
  rw [if_neg (hcrlf _)]
  split
  next hslash =>
    obtain ⟨d, front, rfl⟩ := hroom (hslash ▸ rfl)
    rw [if_pos hslash, hslash] at h
    by_cases hline : d = '/'
    · subst hline
      have hsize : 2 + Text.size ((front ++ back).takeWhile (!isLineEnd ·)) <
          1 + (1 + Text.size front) := h
      have htake : (front ++ other).takeWhile (!isLineEnd ·) =
          (front ++ back).takeWhile (!isLineEnd ·) :=
        takeWhile_append (by omega)
      exact congrArg (fun text => (Kind.lineComment, 2 + Text.size text)) htake
    by_cases hblock : d = '*'
    · subst hblock
      have hsize : 2 + blockRest (front ++ back) < 1 + (1 + Text.size front) := h
      have hrest : blockRest (front ++ other) = blockRest (front ++ back) :=
        blockRest_append (by omega)
      exact congrArg (fun size => (Kind.blockComment, 2 + size)) hrest
    simp [hline, hblock]
  next hslash =>
  rw [if_neg hslash] at h
  split
  next hquote =>
    rw [if_pos hquote, hquote] at h
    have hrest : stringRest false (front ++ other) = stringRest false (front ++ back) :=
      stringRest_append (Nat.lt_of_add_lt_add_left h)
    rw [hrest]
  next hquote =>
  rw [if_neg hquote] at h
  have hword : ∀ kind : Kind,
      (kind, Text.size (c :: (front ++ back).takeWhile isWordPart)).2 <
        c.utf8Size + Text.size front →
      (kind, Text.size (c :: (front ++ other).takeWhile isWordPart)) =
        (kind, Text.size (c :: (front ++ back).takeWhile isWordPart)) := by
    intro kind hsize
    have htake : (front ++ other).takeWhile isWordPart = (front ++ back).takeWhile isWordPart :=
      takeWhile_append (Nat.lt_of_add_lt_add_left hsize)
    rw [htake]
  split
  next hstart =>
    rw [if_pos hstart] at h
    exact hword .identifier h
  next hstart =>
  rw [if_neg hstart] at h
  split
  next hdigit =>
    rw [if_pos hdigit] at h
    exact hword .number h
  next =>
    rfl

theorem scan_cons :
    scan (c :: text) = some ((recognise c text).1.code, (recognise c text).2) := by
  rfl

/-- The grammar of assembly source recognises a token everywhere, with one character of
lookahead. -/
theorem wellBehaved_scan :
    Grammar.WellBehaved scan where
  total text htext := by
    cases text with
    | nil =>
        exact absurd rfl htext
    | cons c text =>
        obtain ⟨front, back, hsplit, hfront, hsize⟩ := exists_front_recognise c text
        have hpositive := Text.size_pos hfront
        exact ⟨_, _, front, back, rfl, hsize ▸ hpositive, hsplit, hsize⟩
  lookahead front back other kind length hscan hlength := by
    cases front with
    | nil =>
        exact absurd hlength (Nat.not_lt_zero _)
    | cons c front =>
        rw [List.cons_append, scan_cons] at hscan
        rw [List.cons_append, scan_cons]
        obtain ⟨rfl, rfl⟩ := Prod.mk.inj (Option.some.inj hscan)
        rw [recognise_append hlength]

end Assembly

end LiveTokens
