import Mathlib.Data.List.MinMax
import LiveTokens.Text

/-!
# Longest matches

A pattern asks for one character of each of some classes, one after the other,
and then allows any number of characters of one more class.  A grammar declares
patterns, each for a kind of token.

An engine *picks the longest* if it finds the longest front of a text that a
declared pattern accepts, and finds nothing only if no front is accepted.  There
is such an engine for all patterns: it tries each of them.
-/

namespace LiveTokens

/-- A way to start a token. -/
structure Pattern where
  /-- The classes of the characters that have to be there. -/
  first : List (Char → Bool)
  /-- The class of the characters that may follow. -/
  more : Char → Bool

namespace Pattern

variable {first : List (Char → Bool)}
variable {more start : Char → Bool}
variable {pattern : Pattern}
variable {word text front behind : Text}
variable {c : Char}

/-- A given text, and then any number of characters of a class. -/
def opening
    (word : Text)
    (more : Char → Bool) : Pattern :=
  ⟨word.map fun c d => decide (d = c), more⟩

/-- A given text, and nothing else. -/
def literal
    (word : Text) : Pattern :=
  opening word fun _ => false

/-- A character of one class, and any number of characters of another one. -/
def run
    (start more : Char → Bool) : Pattern :=
  ⟨[start], more⟩

def acceptsFrom
    (more : Char → Bool) : List (Char → Bool) → Text → Bool
  | [], text => text.all more
  | _ :: _, [] => false
  | start :: first, c :: text => start c && acceptsFrom more first text

/-- The whole text is what the pattern describes. -/
def accepts
    (pattern : Pattern)
    (text : Text) : Bool :=
  acceptsFrom pattern.more pattern.first text

def splitFrom?
    (more : Char → Bool) : List (Char → Bool) → Text → Option (Text × Text)
  | [], text => some (text.takeWhile more, text.dropWhile more)
  | _ :: _, [] => none
  | start :: first, c :: text =>
    if start c then
      (splitFrom? more first text).map fun (front, behind) => (c :: front, behind)
    else
      none

/-- The longest front of a text that the pattern accepts, and what follows it. -/
def split?
    (pattern : Pattern)
    (text : Text) : Option (Text × Text) :=
  splitFrom? pattern.more pattern.first text

theorem accepts_run_iff :
    (run start more).accepts text = true ↔
      ∃ c body, text = c :: body ∧ start c = true ∧ ∀ d ∈ body, more d = true := by
  cases text with
  | nil =>
      simp [accepts, run, acceptsFrom]
  | cons c body =>
      simp only [accepts, run, acceptsFrom, Bool.and_eq_true, List.all_eq_true, List.cons.injEq]
      constructor
      · rintro ⟨hstart, hmore⟩
        exact ⟨c, body, ⟨rfl, rfl⟩, hstart, hmore⟩
      · rintro ⟨c, body, ⟨rfl, rfl⟩, hstart, hmore⟩
        exact ⟨hstart, hmore⟩

theorem accepts_opening_iff :
    (opening word more).accepts text = true ↔
      ∃ body, text = word ++ body ∧ ∀ d ∈ body, more d = true := by
  induction word generalizing text with
  | nil =>
      simp [accepts, opening, acceptsFrom]
  | cons c word ih =>
      cases text with
      | nil =>
          simp [accepts, opening, acceptsFrom]
      | cons d text =>
          have hrest : acceptsFrom more (word.map fun c d => decide (d = c)) text = true ↔
              ∃ body, text = word ++ body ∧ ∀ d ∈ body, more d = true :=
            ih
          simp only [accepts, opening, List.map_cons, acceptsFrom, Bool.and_eq_true,
            decide_eq_true_eq, hrest, List.cons_append, List.cons.injEq, and_assoc,
            exists_and_left]

theorem accepts_literal_iff :
    (literal word).accepts text = true ↔ text = word := by
  rw [literal, accepts_opening_iff]
  constructor
  · rintro ⟨body, rfl, hbody⟩
    cases body with
    | nil =>
        rw [List.append_nil]
    | cons d body =>
        exact absurd (hbody d List.mem_cons_self) Bool.false_ne_true
  · rintro rfl
    exact ⟨[], (List.append_nil _).symm, by simp⟩

theorem acceptsFrom_concat
    (h : acceptsFrom more first front = true)
    (hc : more c = true) :
    acceptsFrom more first (front ++ [c]) = true := by
  induction first generalizing front with
  | nil =>
      rw [acceptsFrom] at h ⊢
      rw [List.all_append, h, Bool.true_and, List.all_cons, hc, List.all_nil, Bool.and_true]
  | cons start first ih =>
      cases front with
      | nil =>
          cases h
      | cons d front =>
          simp only [acceptsFrom, Bool.and_eq_true, List.cons_append] at h ⊢
          exact ⟨h.1, ih h.2⟩

theorem splitFrom?_eq_some
    (h : splitFrom? more first text = some (front, behind)) :
    text = front ++ behind ∧
    acceptsFrom more first front = true ∧
    ∀ longer rest,
      text = longer ++ rest →
      acceptsFrom more first longer = true →
      longer.length ≤ front.length := by
  induction first generalizing text front with
  | nil =>
      cases h
      refine ⟨(List.takeWhile_append_dropWhile ..).symm, List.all_takeWhile, ?_⟩
      rintro longer rest rfl hlonger
      rw [List.takeWhile_append_of_pos (List.all_eq_true.mp hlonger), List.length_append]
      exact Nat.le_add_right _ _
  | cons start first ih =>
      cases text with
      | nil =>
          cases h
      | cons c text =>
          unfold splitFrom? at h
          split at h
          next hstart =>
            obtain ⟨⟨front, behind⟩, hrest, hpair⟩ := Option.map_eq_some_iff.mp h
            cases hpair
            obtain ⟨rfl, haccepts, hlongest⟩ := ih hrest
            refine ⟨rfl, by simp [acceptsFrom, hstart, haccepts], ?_⟩
            intro longer rest htext hlonger
            cases longer with
            | nil =>
                cases hlonger
            | cons d longer =>
                simp only [acceptsFrom, Bool.and_eq_true] at hlonger
                exact Nat.succ_le_succ (hlongest longer rest (List.cons.inj htext).2 hlonger.2)
          next =>
            cases h

theorem splitFrom?_eq_none
    (h : splitFrom? more first text = none)
    (htext : text = front ++ behind) :
    acceptsFrom more first front = false := by
  induction first generalizing text front with
  | nil =>
      cases h
  | cons start first ih =>
      cases front with
      | nil =>
          rfl
      | cons c front =>
          subst htext
          rw [List.cons_append, splitFrom?] at h
          split at h
          next hstart =>
            rw [acceptsFrom, ih (Option.map_eq_none_iff.mp h) rfl, Bool.and_false]
          next hstart =>
            rw [acceptsFrom, Bool.eq_false_iff.mpr hstart, Bool.false_and]

end Pattern

section Engine

variable {κ : Type}
variable {patterns : List (κ × Pattern)}
variable {engine : Text → Option (κ × Text × Text)}
variable {kind : κ}
variable {pattern : Pattern}
variable {front behind : Text}

/-- A pattern of the kind accepts the front, and no pattern accepts a longer one. -/
structure IsLongest
    (patterns : List (κ × Pattern))
    (kind : κ)
    (front behind : Text) : Prop where
  accepts : ∃ pattern, (kind, pattern) ∈ patterns ∧ pattern.accepts front = true
  longest : ∀ declared ∈ patterns, ∀ longer rest,
    front ++ behind = longer ++ rest →
    declared.2.accepts longer = true →
    longer.length ≤ front.length

/-- The engine finds the longest front that a declared pattern accepts. -/
structure PicksLongest
    (patterns : List (κ × Pattern))
    (engine : Text → Option (κ × Text × Text)) : Prop where
  found : ∀ text kind front behind,
    engine text = some (kind, front, behind) →
    text = front ++ behind ∧ IsLongest patterns kind front behind
  missed : ∀ text,
    engine text = none →
    ∀ declared ∈ patterns, ∀ front behind,
      text = front ++ behind →
      declared.2.accepts front = false

/-- What follows a longest match does not go on with it. -/
theorem IsLongest.takeWhile_behind
    (h : IsLongest patterns kind front behind)
    (hmem : (kind, pattern) ∈ patterns)
    (haccepts : pattern.accepts front = true) :
    behind.takeWhile pattern.more = [] := by
  cases behind with
  | nil =>
      rfl
  | cons c behind =>
      rw [List.takeWhile_cons]
      split
      next hmore =>
        have hlonger := h.longest _ hmem (front ++ [c]) behind (by simp)
          (Pattern.acceptsFrom_concat haccepts hmore)
        rw [List.length_append, List.length_singleton] at hlonger
        omega
      next =>
        rfl

/-- What each of the patterns finds at most. -/
def candidates
    (patterns : List (κ × Pattern))
    (text : Text) : List (κ × Text × Text) :=
  patterns.filterMap fun (kind, pattern) =>
    (pattern.split? text).map fun (front, behind) => (kind, front, behind)

theorem mem_candidates_iff
    {text : Text} :
    (kind, front, behind) ∈ candidates patterns text ↔
      ∃ pattern, (kind, pattern) ∈ patterns ∧ pattern.split? text = some (front, behind) := by
  simp only [candidates, List.mem_filterMap, Option.map_eq_some_iff, Prod.exists, Prod.mk.injEq]
  constructor
  · rintro ⟨_, pattern, hmem, _, _, hsplit, rfl, rfl, rfl⟩
    exact ⟨pattern, hmem, hsplit⟩
  · rintro ⟨pattern, hmem, hsplit⟩
    exact ⟨kind, pattern, hmem, front, behind, hsplit, rfl, rfl, rfl⟩

/-- Tries all patterns and keeps the longest match, the first one of several. -/
def pickLongest
    (patterns : List (κ × Pattern))
    (text : Text) : Option (κ × Text × Text) :=
  (candidates patterns text).argmax fun candidate => candidate.2.1.length

theorem picksLongest_pickLongest
    (patterns : List (κ × Pattern)) :
    PicksLongest patterns (pickLongest patterns) where
  found := by
    intro text kind front behind h
    obtain ⟨pattern, hmem, hsplit⟩ := mem_candidates_iff.mp (List.argmax_mem h)
    obtain ⟨rfl, haccepts, -⟩ := Pattern.splitFrom?_eq_some hsplit
    refine ⟨rfl, ⟨pattern, hmem, haccepts⟩, ?_⟩
    rintro ⟨other, declared⟩ hdeclared longer rest htext hlonger
    cases hother : declared.split? (front ++ behind) with
    | none =>
        have hrefused : declared.accepts longer = false :=
          Pattern.splitFrom?_eq_none hother htext
        rw [hrefused] at hlonger
        cases hlonger
    | some pair =>
        obtain ⟨reach, left⟩ := pair
        obtain ⟨-, -, hlongest⟩ := Pattern.splitFrom?_eq_some hother
        have hcandidate : (other, reach, left) ∈ candidates patterns (front ++ behind) :=
          mem_candidates_iff.mpr ⟨declared, hdeclared, hother⟩
        have hreach := List.le_of_mem_argmax hcandidate h
        exact (hlongest longer rest htext hlonger).trans hreach
  missed := by
    rintro text h ⟨kind, pattern⟩ hmem front behind htext
    rw [pickLongest, List.argmax_eq_none] at h
    cases hsplit : pattern.split? text with
    | none =>
        exact Pattern.splitFrom?_eq_none hsplit htext
    | some pair =>
        have hcandidate : (kind, pair.1, pair.2) ∈ candidates patterns text :=
          mem_candidates_iff.mpr ⟨pattern, hmem, hsplit⟩
        rw [h] at hcandidate
        cases hcandidate

end Engine

end LiveTokens
