import LiveTokens.Proofs.Measurement
import LiveTokens.Tokenizer

/-!
# Tokens that tile a range

Tokens *tile* a range if each of them starts where the one before it ended and
none is empty.  A full lexing is accepted exactly if its tokens tile the whole
text, and then they can always be stored.
-/

namespace LiveTokens

variable {position start middle stop : Nat}
variable {token : Token}
variable {tokens front back : List Token}

/-- The tokens follow one another from `position` to `stop` and are not empty. -/
def Tiles
    (position : Nat) : List Token → Nat → Prop
  | [], stop => position = stop
  | token :: tokens, stop =>
      token.span.start = position ∧
      0 < token.span.length ∧
      token.span.Fits ∧
      Tiles (position + token.span.length) tokens stop

@[simp] theorem tiles_nil_iff :
    Tiles position [] stop ↔ position = stop := by
  rfl

@[simp] theorem tiles_cons_iff :
    Tiles position (token :: tokens) stop ↔
      token.span.start = position ∧
      0 < token.span.length ∧
      token.span.Fits ∧
      Tiles (position + token.span.length) tokens stop := by
  rfl

theorem tiles_append_iff :
    Tiles position (front ++ back) stop ↔
      ∃ middle, Tiles position front middle ∧ Tiles middle back stop := by
  induction front generalizing position with
  | nil =>
      simp
  | cons token rest ih =>
      simp only [List.cons_append, tiles_cons_iff, ih]
      constructor
      · rintro ⟨hstart, hlength, hfits, middle, hfront, hback⟩
        exact ⟨middle, ⟨hstart, hlength, hfits, hfront⟩, hback⟩
      · rintro ⟨middle, ⟨hstart, hlength, hfits, hfront⟩, hback⟩
        exact ⟨hstart, hlength, hfits, middle, hfront, hback⟩

/-- The token `delta` bytes further on. -/
def Token.slide
    (delta : Int)
    (token : Token) : Token :=
  ⟨token.kind, token.span.slide delta⟩

namespace Tiles

theorem le
    (h : Tiles position tokens stop) :
    position ≤ stop := by
  induction tokens generalizing position with
  | nil =>
      exact Nat.le_of_eq h
  | cons token tokens ih =>
      have hrest := ih h.2.2.2
      omega

/-- Tokens that tile a range lie in it. -/
theorem bounds_of_mem
    (h : Tiles position tokens stop)
    (hmem : token ∈ tokens) :
    position ≤ token.span.start ∧
    token.span.start + token.span.length ≤ stop ∧
    0 < token.span.length ∧
    token.span.Fits := by
  induction tokens generalizing position with
  | nil =>
      cases hmem
  | cons first tokens ih =>
      obtain ⟨hstart, hlength, hfits, hrest⟩ := h
      rcases List.mem_cons.mp hmem with rfl | hmem
      · have hle := hrest.le
        exact ⟨by omega, by omega, hlength, hfits⟩
      · obtain ⟨hposition, hstop, hpositive, htokenFits⟩ := ih hrest hmem
        exact ⟨by omega, hstop, hpositive, htokenFits⟩

/-- Entries that tile a range lie in it. -/
theorem bounds_of_entry
    {entries : List (TrackedToken × Span)}
    {entry : TrackedToken × Span}
    (h : Tiles position (entries.map TokenStore.placed) stop)
    (hentry : entry ∈ entries) :
    position ≤ entry.2.start ∧
    entry.2.start + entry.2.length ≤ stop ∧
    0 < entry.2.length :=
  let ⟨hstart, hstop, hpositive, _⟩ := h.bounds_of_mem (List.mem_map_of_mem hentry)
  ⟨hstart, hstop, hpositive⟩

/-- The last of the tokens ends where the range does. -/
theorem stop_of_getLast?
    (h : Tiles position tokens stop)
    (hlast : tokens.getLast? = some token) :
    token.span.start + token.span.length = stop := by
  induction tokens generalizing position with
  | nil =>
      cases hlast
  | cons first tokens ih =>
      obtain ⟨hstart, -, -, hrest⟩ := h
      cases tokens with
      | nil =>
          obtain rfl : first = token := Option.some.inj hlast
          rw [hstart]
          exact hrest
      | cons second tokens =>
          rw [List.getLast?_cons_cons] at hlast
          exact ih hrest hlast

/-- The last of the entries ends where the range does. -/
theorem stop_of_concat
    {entries : List (TrackedToken × Span)}
    {entry : TrackedToken × Span}
    (h : Tiles position ((entries ++ [entry]).map TokenStore.placed) stop) :
    entry.2.start + entry.2.length = stop := by
  rw [List.map_append, List.map_singleton] at h
  exact h.stop_of_getLast? List.getLast?_concat

theorem stop_unique
    {stop' : Nat}
    (h : Tiles position tokens stop)
    (h' : Tiles position tokens stop') :
    stop = stop' := by
  induction tokens generalizing position with
  | nil =>
      exact h.symm.trans h'
  | cons token tokens ih =>
      exact ih h.2.2.2 h'.2.2.2

/-- Tokens behind an edit tile the range behind it. -/
theorem slide
    (h : Tiles position tokens stop)
    (delta : Int)
    (hnonneg : 0 ≤ position + delta)
    (hbound : stop + delta < positionBound) :
    Tiles (position + delta).toNat (tokens.map (Token.slide delta)) (stop + delta).toNat := by
  induction tokens generalizing position with
  | nil =>
      rw [tiles_nil_iff] at h
      rw [h]
      rfl
  | cons token tokens ih =>
      obtain ⟨rfl, hlength, hfits, hrest⟩ := h
      have hle := hrest.le
      have hnext : (token.span.start + delta).toNat + token.span.length =
          ((token.span.start + token.span.length : Nat) + delta).toNat := by omega
      refine ⟨rfl, hlength, ?_, ?_⟩
      · simp only [Token.slide, Span.slide, Span.Fits]
        omega
      · simp only [Token.slide, Span.slide]
        rw [hnext]
        exact ih hrest (by omega)

theorem ordered
    (h : Tiles position tokens stop) :
    (tokens.map (·.span)).Pairwise Span.Precedes := by
  induction tokens generalizing position with
  | nil =>
      exact List.Pairwise.nil
  | cons token tokens ih =>
      obtain ⟨hstart, hlength, hfits, hrest⟩ := h
      rw [List.map_cons]
      refine List.pairwise_cons.mpr ⟨?_, ih hrest⟩
      intro span hspan
      obtain ⟨other, hother, rfl⟩ := List.mem_map.mp hspan
      have hbounds := hrest.bounds_of_mem hother
      exact ⟨by omega, hfits⟩

end Tiles

namespace Tokenizer

variable {lexer : Lexer}
variable {document : Document}
variable {progress : Progress}

/-- Following tokens to the end of the last one succeeds if they tile what lies between. -/
theorem tileFrom_eq_ok_iff :
    tileFrom position tokens = .ok stop ↔ Tiles position tokens stop := by
  induction tokens generalizing position with
  | nil =>
      rw [tileFrom, Outcome.pure_eq_ok, Except.ok.injEq, tiles_nil_iff]
  | cons token tokens ih =>
      rw [tileFrom, tiles_cons_iff]
      split
      next hgap =>
        constructor
        · intro h
          cases h
        · rintro ⟨hstart, hlength, -⟩
          omega
      next hnext =>
        rw [Outcome.bind_eq_ok_iff]
        constructor
        · rintro ⟨reached, hreached, h⟩
          obtain ⟨rfl, hfits⟩ := Span.stop_eq_ok_iff.mp hreached
          have hstart : token.span.start = position := by omega
          exact ⟨hstart, by omega, hfits, hstart ▸ ih.mp h⟩
        · rintro ⟨rfl, -, hfits, h⟩
          exact ⟨_, hfits.stop_eq, ih.mpr h⟩

instance (position : Nat) (tokens : List Token) (stop : Nat) :
    Decidable (Tiles position tokens stop) :=
  decidable_of_iff (tileFrom position tokens = .ok stop) tileFrom_eq_ok_iff

/-- A full lexing succeeds if the lexer does and its tokens tile the whole text. -/
theorem lexAll_eq_ok_iff :
    lexAll lexer document = .ok tokens ↔
      lexer.lex document.text = .ok tokens ∧
      Tiles 0 tokens document.size := by
  unfold lexAll
  simp only [Outcome.bind_eq_ok_iff, Outcome.wrap_eq_ok_iff, tileFrom_eq_ok_iff]
  constructor
  · rintro ⟨lexed, hlexed, stop, hstop, h⟩
    split at h
    next =>
      cases h
    next heq =>
      cases h
      rw [Decidable.not_not] at heq
      exact ⟨hlexed, heq ▸ hstop⟩
  · rintro ⟨hlexed, htiles⟩
    refine ⟨tokens, hlexed, document.size, htiles, ?_⟩
    rw [if_neg (not_not_intro rfl)]
    rfl

/-- Tokens that come in order can be numbered and stored. -/
theorem outcome_number_of_ordered
    {generation : Nat}
    (hordered : (tokens.map (·.span)).Pairwise Span.Precedes) :
    (Attempt.number generation tokens).outcome progress =
      (.ok (TokenStore.fresh generation progress.nextId tokens),
        { progress with nextId := progress.nextId + tokens.length }) := by
  have hstore : TokenStore.ofTokens generation progress.nextId tokens =
      (.ok (TokenStore.fresh generation progress.nextId tokens), progress.nextId + tokens.length) :=
    TokenStore.ofTokens_eq_ok_iff.mpr ⟨hordered, rfl, rfl⟩
  unfold Attempt.number
  rw [Work.outcome_bind_of_ok (Work.outcome_get progress), hstore]
  rfl

/-- The store of a whole document holds the tokens of a full lexing, if there is one. -/
theorem outcome_storeOf :
    (storeOf lexer document).outcome progress =
      match lexAll lexer document with
      | .ok tokens =>
        (.ok (TokenStore.fresh document.generation progress.nextId tokens, tokens),
          { progress with nextId := progress.nextId + tokens.length })
      | .error failure => (.error failure, progress) := by
  unfold storeOf
  rw [Work.outcome_bind, Work.outcome_ofOutcome]
  cases htokens : lexAll lexer document with
  | error failure =>
      rfl
  | ok tokens =>
      have hordered := (lexAll_eq_ok_iff.mp htokens).2.ordered
      dsimp only
      rw [Work.outcome_bind_of_ok (outcome_number_of_ordered hordered), Work.outcome_pure]

end Tokenizer

end LiveTokens
