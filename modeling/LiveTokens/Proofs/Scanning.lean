import LiveTokens.Proofs.Tiling
import LiveTokens.Scanner

/-!
# Scanning with a well-behaved grammar

A grammar is *prefix-stable* if it recognises a token at the front of every text,
and the same token if more text is added behind one that does not run into the
end.  It is *well-behaved* if it looks at no more than one character behind a
token.  Its tokens are described by a relation: `Scans grammar position text
behind tokens` says that `text`, which starts at `position` and is followed by
`behind`, is read as `tokens`.

The tokens of a text are unique, and a scanner with a prefix-stable grammar finds
them whatever segments the text comes in.  With a well-behaved grammar they stay
the same if what follows changes, provided that one character in between is kept.
-/

namespace LiveTokens

namespace Text

theorem append_inj_of_size
    {front front' back back' : Text}
    (h : front ++ back = front' ++ back')
    (hsize : size front = size front') :
    front = front' ∧ back = back' := by
  have hfront : splitAt? (front ++ back) (size front') = some (front, back) :=
    splitAt?_eq_some_iff.mpr ⟨rfl, hsize⟩
  have hfront' : splitAt? (front ++ back) (size front') = some (front', back') :=
    splitAt?_eq_some_iff.mpr ⟨h, rfl⟩
  rw [hfront, Option.some.injEq, Prod.mk.injEq] at hfront'
  exact hfront'

theorem eq_append_of_splitAt?
    {text front back : Text}
    {count : Nat}
    (h : splitAt? text (count + 1) = some (front, back)) :
    text = front ++ back ∧
    size front = count + 1 ∧
    front ≠ [] := by
  obtain ⟨hsplit, hsize⟩ := splitAt?_eq_some_iff.mp h
  refine ⟨hsplit, hsize, ?_⟩
  rintro rfl
  cases hsize

/-- The shorter of two fronts of a text is a front of the longer one. -/
theorem exists_append_of_size_le
    {front front' back back' : Text}
    (h : front ++ back = front' ++ back')
    (hsize : size front ≤ size front') :
    ∃ middle, front' = front ++ middle ∧ back = middle ++ back' := by
  rcases List.append_eq_append_iff.mp h with ⟨middle, hfront, hback⟩ | ⟨middle, hfront, hback⟩
  · exact ⟨middle, hfront, hback⟩
  · have hmiddle : middle = [] := by
      rw [hfront, size_append] at hsize
      exact size_eq_zero_iff.mp (by omega)
    subst hmiddle
    rw [List.append_nil] at hfront
    exact ⟨[], by rw [List.append_nil, hfront], hback.symm⟩

theorem size_of_slice?
    {text part : Text}
    {start length : Nat}
    (h : slice? text start length = some part) :
    size part = length ∧
    start + length ≤ size text := by
  rw [slice?, Option.map_eq_some_iff] at h
  obtain ⟨⟨_, behind⟩, hcut, rfl⟩ := h
  obtain ⟨front, rfl, rfl, rfl⟩ := cut?_eq_some_iff.mp hcut
  simp only [size_append]
  exact ⟨trivial, by omega⟩

theorem size_pos
    {text : Text}
    (h : text ≠ []) :
    0 < size text :=
  Nat.pos_of_ne_zero fun hzero => h (size_eq_zero_iff.mp hzero)

end Text

/-- The grammar recognises a token at the front of every text, and the token stays the same if more
is added to a text that goes on behind it. -/
structure Grammar.PrefixStable
    (grammar : Grammar) : Prop where
  total : ∀ text : Text,
    text ≠ [] →
    ∃ kind length front back,
      grammar text = some (kind, length) ∧
      0 < length ∧
      text = front ++ back ∧
      Text.size front = length
  stable : ∀ (text more : Text) (kind length : Nat),
    grammar text = some (kind, length) →
    length < Text.size text →
    grammar (text ++ more) = some (kind, length)

/-- The grammar recognises a token at the front of every text, and the token does not depend on what
follows the character behind it. -/
structure Grammar.WellBehaved
    (grammar : Grammar) : Prop where
  total : ∀ text : Text,
    text ≠ [] →
    ∃ kind length front back,
      grammar text = some (kind, length) ∧
      0 < length ∧
      text = front ++ back ∧
      Text.size front = length
  lookahead : ∀ (front back other : Text) (kind length : Nat),
    grammar (front ++ back) = some (kind, length) →
    length < Text.size front →
    grammar (front ++ other) = some (kind, length)

theorem Grammar.WellBehaved.prefixStable
    {grammar : Grammar}
    (h : grammar.WellBehaved) :
    grammar.PrefixStable where
  total := h.total
  stable text more kind length hscan hlength :=
    h.lookahead text [] more kind length (by rwa [List.append_nil]) hlength

/-- The grammar does not find a token at the front of a text that starts at `position`. -/
inductive Grammar.Misreads
    (grammar : Grammar)
    (position : Nat)
    (text : Text) : LexError → Prop
  | nothing
      (hgrammar : grammar text = none) :
      Misreads grammar position text (.stalled position)
  | empty
      {kind : Nat}
      (hgrammar : grammar text = some (kind, 0)) :
      Misreads grammar position text (.stalled position)
  | overrun
      {kind length : Nat}
      (hgrammar : grammar text = some (kind, length + 1))
      (hsplit : Text.splitAt? text (length + 1) = none) :
      Misreads grammar position text (.overrun position (length + 1))

/-- A grammar that recognises a token at the front of every text misreads none. -/
theorem Grammar.PrefixStable.not_misreads
    {grammar : Grammar}
    {position : Nat}
    {text : Text}
    {error : LexError}
    (h : grammar.PrefixStable)
    (htext : text ≠ []) :
    ¬ grammar.Misreads position text error := by
  obtain ⟨kind, length, front, back, hfound, hlength, rfl, rfl⟩ := h.total text htext
  intro hmisreads
  cases hmisreads with
  | nothing hgrammar =>
      cases hfound.symm.trans hgrammar
  | empty hgrammar =>
      rw [hfound, Option.some.injEq, Prod.mk.injEq] at hgrammar
      exact Nat.ne_of_gt hlength hgrammar.2
  | overrun hgrammar hsplit =>
      rw [hfound, Option.some.injEq, Prod.mk.injEq] at hgrammar
      rw [← hgrammar.2, Text.splitAt?_eq_some_iff.mpr ⟨rfl, rfl⟩] at hsplit
      cases hsplit

/-- The tokens cut a text that starts at `position` into pieces of whole characters. -/
inductive Cuts : Nat → Text → List Token → Prop
  | nil
      {position : Nat} :
      Cuts position [] []
  | cons
      {position kind : Nat}
      {front text : Text}
      {tokens : List Token}
      (hfront : front ≠ [])
      (htext : Cuts (position + Text.size front) text tokens) :
      Cuts position (front ++ text) (⟨kind, ⟨position, Text.size front⟩⟩ :: tokens)

/-- The tokens that `text` is read as if it starts at `position` and `behind` follows. -/
inductive Scans
    (grammar : Grammar) : Nat → Text → Text → List Token → Prop
  | nil
      {position : Nat}
      {behind : Text} :
      Scans grammar position [] behind []
  | cons
      {position kind : Nat}
      {front text behind : Text}
      {tokens : List Token}
      (hgrammar : grammar (front ++ (text ++ behind)) = some (kind, Text.size front))
      (hfront : front ≠ [])
      (htext : Scans grammar (position + Text.size front) text behind tokens) :
      Scans grammar position (front ++ text) behind
        (⟨kind, ⟨position, Text.size front⟩⟩ :: tokens)

namespace Cuts

variable {position : Nat}
variable {text first second : Text}
variable {tokens front back : List Token}

theorem text_eq_nil
    (h : Cuts position text []) :
    text = [] := by
  cases h
  rfl

theorem append
    (h : Cuts position first front)
    (h' : Cuts (position + Text.size first) second back) :
    Cuts position (first ++ second) (front ++ back) := by
  induction h with
  | nil =>
      exact h'
  | cons hstart htext ih =>
      rw [Text.size_append, ← Nat.add_assoc] at h'
      rw [List.append_assoc, List.cons_append]
      exact .cons hstart (ih h')

/-- Cutting the tokens cuts the text. -/
theorem exists_of_append
    (h : Cuts position text (front ++ back)) :
    ∃ first second,
      text = first ++ second ∧
      Cuts position first front ∧
      Cuts (position + Text.size first) second back := by
  induction front generalizing position text with
  | nil =>
      exact ⟨[], text, rfl, .nil, h⟩
  | cons token front ih =>
      rw [List.cons_append] at h
      cases h with
      | @cons _ kind start rest _ hstart hrest =>
          obtain ⟨first, second, rfl, hfirst, hsecond⟩ := ih hrest
          refine ⟨start ++ first, second, by rw [List.append_assoc], .cons hstart hfirst, ?_⟩
          rw [Text.size_append, ← Nat.add_assoc]
          exact hsecond

theorem tiles
    (h : Cuts position text tokens)
    (hbound : position + Text.size text < positionBound) :
    Tiles position tokens (position + Text.size text) := by
  induction h with
  | nil =>
      rfl
  | @cons position kind front text tokens hfront htext ih =>
      rw [Text.size_append, ← Nat.add_assoc] at hbound ⊢
      have hfits : position + Text.size front < positionBound := by omega
      exact ⟨rfl, Text.size_pos hfront, hfits, ih hbound⟩

/-- Texts that are cut into the same tokens have the same size. -/
theorem size_eq
    (h : Cuts position first tokens)
    (h' : Cuts position second tokens) :
    Text.size first = Text.size second := by
  induction h generalizing second with
  | nil =>
      rw [h'.text_eq_nil]
  | cons hfront htext ih =>
      generalize htokens : (_ :: _ : List Token) = tokens at h'
      cases h' with
      | nil =>
          cases htokens
      | @cons _ _ front' text' _ hfront' htext' =>
          simp only [List.cons.injEq, Token.mk.injEq, Span.mk.injEq] at htokens
          obtain ⟨⟨-, -, hsize⟩, rfl⟩ := htokens
          rw [← hsize] at htext'
          rw [Text.size_append, Text.size_append, ih htext', hsize]

/-- The texts under the tokens of a text are the text. -/
theorem flatten_slices
    {ahead : Text}
    (behind : Text)
    (h : Cuts position text tokens)
    (hposition : Text.size ahead = position) :
    (∀ token ∈ tokens,
      Text.slice? (ahead ++ (text ++ behind)) token.span.start token.span.length ≠ none) ∧
    (tokens.map fun token =>
      (Text.slice? (ahead ++ (text ++ behind)) token.span.start token.span.length).getD
        []).flatten = text := by
  induction h generalizing ahead with
  | nil =>
      exact ⟨by simp, rfl⟩
  | @cons position kind first text tokens hfirst htext ih =>
      have hslice : Text.slice? (ahead ++ (first ++ text ++ behind)) position (Text.size first) =
          some first := by
        rw [Text.slice?, Option.map_eq_some_iff]
        refine ⟨(first, text ++ behind), Text.cut?_eq_some_iff.mpr ⟨ahead, ?_, hposition, rfl⟩, rfl⟩
        simp only [List.append_assoc]
      have hwhole : ahead ++ (first ++ text ++ behind) = ahead ++ first ++ (text ++ behind) := by
        simp only [List.append_assoc]
      have hnext : Text.size (ahead ++ first) = position + Text.size first := by
        rw [Text.size_append, hposition]
      obtain ⟨hslices, hflatten⟩ := ih hnext
      rw [← hwhole] at hslices hflatten
      constructor
      · intro token htoken
        rcases List.mem_cons.mp htoken with rfl | hmem
        · rw [hslice]
          exact Option.some_ne_none first
        · exact hslices token hmem
      · rw [List.map_cons, List.flatten_cons, hslice, hflatten]
        rfl

/-- Tokens that tile a range cut the text there, if their ends lie between characters. -/
theorem exists_of_tiles
    {stop : Nat}
    (ahead behind : Text)
    (h : Tiles position tokens stop)
    (hposition : Text.size ahead = position)
    (hslices : ∀ token ∈ tokens,
      Text.slice? (ahead ++ behind) token.span.start token.span.length ≠ none) :
    ∃ text rest,
      behind = text ++ rest ∧
      position + Text.size text = stop ∧
      Cuts position text tokens := by
  induction tokens generalizing position ahead behind with
  | nil =>
      exact ⟨[], behind, rfl, h, .nil⟩
  | cons token tokens ih =>
      obtain ⟨hstart, hlength, -, hrest⟩ := h
      obtain ⟨part, hpart⟩ := Option.ne_none_iff_exists'.mp (hslices token List.mem_cons_self)
      rw [Text.slice?, Option.map_eq_some_iff] at hpart
      obtain ⟨⟨_, remaining⟩, hcut, rfl⟩ := hpart
      obtain ⟨ahead', hwhole, hahead', hsize⟩ := Text.cut?_eq_some_iff.mp hcut
      rw [List.append_assoc] at hwhole
      obtain ⟨rfl, rfl⟩ := Text.append_inj_of_size hwhole (by omega)
      rw [← List.append_assoc] at hslices
      obtain ⟨text, rest, rfl, hstop, htext⟩ :=
        ih _ _ hrest (by rw [Text.size_append]; omega)
          fun other hother => hslices other (List.mem_cons_of_mem _ hother)
      have hcuts := htext
      rw [← hsize] at hcuts
      obtain ⟨kind, ⟨start, length⟩⟩ := token
      dsimp only at hstart hlength hsize hstop
      subst hstart hsize
      refine ⟨_, rest, (List.append_assoc _ _ _).symm, ?_, .cons ?_ hcuts⟩
      · rw [Text.size_append]
        omega
      · rintro rfl
        exact Nat.lt_irrefl 0 hlength

end Cuts

namespace Scans

variable {grammar : Grammar}
variable {position : Nat}
variable {text first second behind gap other : Text}
variable {tokens tokens' front back : List Token}

theorem text_eq_nil
    (h : Scans grammar position text behind []) :
    text = [] := by
  cases h
  rfl

theorem append
    (h : Scans grammar position first (second ++ behind) front)
    (h' : Scans grammar (position + Text.size first) second behind back) :
    Scans grammar position (first ++ second) behind (front ++ back) := by
  generalize hfollowing : second ++ behind = following at h
  induction h with
  | nil =>
      exact h'
  | @cons position kind start text _ tokens hgrammar hstart htext ih =>
      subst hfollowing
      rw [Text.size_append, ← Nat.add_assoc] at h'
      rw [List.append_assoc, List.cons_append]
      refine .cons ?_ hstart (ih h' rfl)
      rw [List.append_assoc]
      exact hgrammar

/-- Cutting the tokens cuts the text. -/
theorem exists_of_append
    (h : Scans grammar position text behind (front ++ back)) :
    ∃ first second,
      text = first ++ second ∧
      Scans grammar position first (second ++ behind) front ∧
      Scans grammar (position + Text.size first) second behind back := by
  induction front generalizing position text with
  | nil =>
      exact ⟨[], text, rfl, .nil, h⟩
  | cons token front ih =>
      rw [List.cons_append] at h
      cases h with
      | @cons _ kind start rest _ _ hgrammar hstart hrest =>
          obtain ⟨first, second, rfl, hfirst, hsecond⟩ := ih hrest
          refine ⟨start ++ first, second, by rw [List.append_assoc], ?_, ?_⟩
          · rw [List.append_assoc] at hgrammar
            exact .cons hgrammar hstart hfirst
          · rw [Text.size_append, ← Nat.add_assoc]
            exact hsecond

theorem cuts
    (h : Scans grammar position text behind tokens) :
    Cuts position text tokens := by
  induction h with
  | nil =>
      exact .nil
  | cons hgrammar hfront htext ih =>
      exact .cons hfront ih

theorem tiles
    (h : Scans grammar position text behind tokens)
    (hbound : position + Text.size text < positionBound) :
    Tiles position tokens (position + Text.size text) :=
  h.cuts.tiles hbound

/-- A text is cut where the first of its tokens are cut. -/
theorem of_cuts
    (h : Scans grammar position (first ++ second) behind (front ++ back))
    (hfirst : Cuts position first front) :
    Scans grammar position first (second ++ behind) front ∧
    Scans grammar (position + Text.size first) second behind back := by
  obtain ⟨first', second', hsplit, hfront, hback⟩ := h.exists_of_append
  obtain ⟨rfl, rfl⟩ := Text.append_inj_of_size hsplit (hfirst.size_eq hfront.cuts)
  exact ⟨hfront, hback⟩

/-- A text is read in one way only. -/
theorem unique
    (h : Scans grammar position text behind tokens)
    (h' : Scans grammar position text behind tokens') :
    tokens = tokens' := by
  induction h generalizing tokens' with
  | nil =>
      generalize hempty : ([] : Text) = text at h'
      cases h' with
      | nil =>
          rfl
      | cons hgrammar hfront htext =>
          exact absurd (List.append_eq_nil_iff.mp hempty.symm).1 hfront
  | @cons position kind front text behind tokens hgrammar hfront htext ih =>
      generalize hwhole : front ++ text = whole at h'
      cases h' with
      | nil =>
          exact absurd (List.append_eq_nil_iff.mp hwhole).1 hfront
      | @cons _ kind' front' text' _ tokens' hgrammar' hfront' htext' =>
          rw [← List.append_assoc, hwhole, List.append_assoc, hgrammar'] at hgrammar
          obtain ⟨rfl, hsize⟩ := Prod.mk.inj (Option.some.inj hgrammar)
          obtain ⟨rfl, rfl⟩ := Text.append_inj_of_size hwhole hsize.symm
          rw [ih htext']

/-- What follows the text may change behind a gap of at least one character. -/
theorem change_behind
    (hgrammar : grammar.WellBehaved)
    (h : Scans grammar position text (gap ++ behind) tokens)
    (hgap : tokens = [] ∨ gap ≠ []) :
    Scans grammar position text (gap ++ other) tokens := by
  generalize hfollowing : gap ++ behind = following at h
  induction h with
  | nil =>
      exact .nil
  | @cons position kind front text _ tokens hfirst hfront htext ih =>
      subst hfollowing
      have hgap : gap ≠ [] := hgap.resolve_left (List.cons_ne_nil _ _)
      refine .cons ?_ hfront (ih (.inr hgap) rfl)
      rw [← List.append_assoc, ← List.append_assoc] at hfirst ⊢
      refine hgrammar.lookahead _ behind other kind _ hfirst ?_
      have hpositive := Text.size_pos hgap
      rw [Text.size_append, Text.size_append]
      omega

/-- More text may follow, if some follows already. -/
theorem extend_behind
    (hgrammar : grammar.PrefixStable)
    (other : Text)
    (h : Scans grammar position text behind tokens)
    (hbehind : behind ≠ []) :
    Scans grammar position text (behind ++ other) tokens := by
  induction h with
  | nil =>
      exact .nil
  | @cons position kind front text behind tokens hfirst hfront htext ih =>
      refine .cons ?_ hfront (ih hbehind)
      rw [← List.append_assoc, ← List.append_assoc]
      rw [← List.append_assoc] at hfirst
      refine hgrammar.stable _ other kind _ hfirst ?_
      have hpositive := Text.size_pos hbehind
      rw [Text.size_append, Text.size_append]
      omega

/-- The text may start at another position. -/
theorem slide
    (delta : Int)
    (h : Scans grammar position text behind tokens)
    (hnonneg : 0 ≤ position + delta) :
    Scans grammar (position + delta).toNat text behind
      (tokens.map fun token => ⟨token.kind, token.span.slide delta⟩) := by
  induction h with
  | nil =>
      exact .nil
  | @cons position kind front text behind tokens hfirst hfront htext ih =>
      rw [List.map_cons]
      refine .cons hfirst hfront ?_
      have hnext : (position + delta).toNat + Text.size front =
          ((position + Text.size front : Nat) + delta).toNat := by omega
      rw [hnext]
      exact ih (by omega)

end Scans

namespace Supply

variable {supply : Supply}
variable {rest : Text}
variable {wanted requests : Nat}
variable {segments : List Text}

/-- Nothing can be asked for after the end. -/
def Sound
    (supply : Supply) : Prop :=
  supply.ended = true → supply.segments = []

/-- Number of requests by the time the end has been met. -/
def limit
    (supply : Supply) : Nat :=
  if supply.ended then supply.requests else supply.requests + supply.segments.length + 1

theorem drawFrom_sound :
    (drawFrom wanted requests segments).2.Sound := by
  induction segments generalizing wanted requests with
  | nil =>
      intro _
      rfl
  | cons segment segments ih =>
      unfold drawFrom
      split
      · exact ih
      · intro hended
        cases hended

theorem limit_drawFrom :
    (drawFrom wanted requests segments).2.limit = requests + segments.length + 1 := by
  induction segments generalizing wanted requests with
  | nil =>
      rfl
  | cons segment segments ih =>
      unfold drawFrom
      rw [List.length_cons]
      split
      · dsimp only
        rw [ih]
        omega
      · rw [limit, if_neg (by simp)]
        dsimp only
        omega

theorem drawFrom_append :
    (drawFrom wanted requests segments).1 ++
        (drawFrom wanted requests segments).2.segments.flatten =
      segments.flatten := by
  induction segments generalizing wanted requests with
  | nil =>
      rfl
  | cons segment segments ih =>
      unfold drawFrom
      rw [List.flatten_cons]
      split
      · dsimp only
        rw [List.append_assoc, ih]
      · rfl

/-- Each request supplies one segment, or finds none left. -/
theorem exists_drawFrom_eq :
    ∃ count,
      (drawFrom wanted requests segments).1 = (segments.take count).flatten ∧
      (drawFrom wanted requests segments).2.segments = segments.drop count ∧
      (drawFrom wanted requests segments).2.requests = requests + count := by
  induction segments generalizing wanted requests with
  | nil =>
      exact ⟨1, rfl, rfl, rfl⟩
  | cons segment segments ih =>
      unfold drawFrom
      split
      · obtain ⟨count, htext, hsegments, hrequests⟩ := ih
        refine ⟨count + 1, congrArg (segment ++ ·) htext, hsegments, hrequests.trans ?_⟩
        rw [Nat.add_assoc, Nat.add_comm 1]
      · exact ⟨1, (List.append_nil segment).symm, rfl, rfl⟩

/-- What is supplied until there were so many requests. -/
def drawnBy
    (supply : Supply)
    (requests : Nat) : Text :=
  (supply.segments.take (requests - supply.requests)).flatten

theorem size_drawnBy_le
    (supply : Supply)
    (requests : Nat) :
    Text.size (supply.drawnBy requests) ≤ Text.size supply.segments.flatten := by
  have hsplit : supply.segments.flatten = supply.drawnBy requests ++
      (supply.segments.drop (requests - supply.requests)).flatten := by
    rw [drawnBy, ← List.flatten_append, List.take_append_drop]
  rw [hsplit, Text.size_append]
  exact Nat.le_add_right _ _

theorem drawnBy_draw
    (hrequests : (supply.draw wanted).2.requests ≤ requests) :
    supply.requests ≤ requests ∧
    supply.drawnBy requests =
      (supply.draw wanted).1 ++ (supply.draw wanted).2.drawnBy requests := by
  unfold draw at hrequests ⊢
  split
  next hended =>
    rw [if_pos hended] at hrequests
    exact ⟨hrequests, rfl⟩
  next hopen =>
    rw [if_neg hopen] at hrequests
    obtain ⟨count, htext, hsegments, hcount⟩ :
        ∃ count,
          (drawFrom (max wanted 1) supply.requests supply.segments).1 =
            (supply.segments.take count).flatten ∧
          (drawFrom (max wanted 1) supply.requests supply.segments).2.segments =
            supply.segments.drop count ∧
          (drawFrom (max wanted 1) supply.requests supply.segments).2.requests =
            supply.requests + count := exists_drawFrom_eq
    rw [hcount] at hrequests
    refine ⟨by omega, ?_⟩
    have hsum : requests - supply.requests = count + (requests - (supply.requests + count)) := by
      omega
    rw [drawnBy, drawnBy, htext, hsegments, hcount, hsum, List.take_add, List.flatten_append]

theorem drawnBy_drawBehind
    (hrequests : (supply.drawBehind rest wanted).2.requests ≤ requests) :
    supply.requests ≤ requests ∧
    supply.drawnBy requests =
      (supply.drawBehind rest wanted).1 ++ (supply.drawBehind rest wanted).2.drawnBy requests := by
  cases rest with
  | nil =>
      exact drawnBy_draw hrequests
  | cons c rest =>
      exact ⟨hrequests, rfl⟩

theorem ended_of_drawFrom_eq_nil
    (hwanted : 0 < wanted)
    (h : (drawFrom wanted requests segments).1 = []) :
    (drawFrom wanted requests segments).2.ended = true := by
  induction segments generalizing wanted requests with
  | nil =>
      rfl
  | cons segment segments ih =>
      unfold drawFrom at h ⊢
      split at h
      next hshort =>
        rw [if_pos hshort]
        obtain ⟨rfl, hrest⟩ := List.append_eq_nil_iff.mp h
        exact ih hwanted hrest
      next hlong =>
        obtain rfl : segment = [] := h
        exact absurd hwanted hlong

/-- Drawing changes neither the text in all nor the number of requests in all, and only the end of
the text gives nothing. -/
theorem draw_sound
    (wanted : Nat)
    (h : supply.Sound) :
    (supply.draw wanted).2.Sound ∧
    (supply.draw wanted).2.limit = supply.limit ∧
    (supply.draw wanted).1 ++ (supply.draw wanted).2.segments.flatten = supply.segments.flatten ∧
    ((supply.draw wanted).1 = [] → (supply.draw wanted).2.ended = true) := by
  unfold draw
  split
  next hended =>
    exact ⟨h, rfl, rfl, fun _ => hended⟩
  next hopen =>
    refine ⟨drawFrom_sound, ?_, drawFrom_append, ended_of_drawFrom_eq_nil (by omega)⟩
    rw [limit_drawFrom, limit, if_neg hopen]

theorem flatten_of_ended
    (h : supply.Sound)
    (hended : supply.ended = true) :
    supply.segments.flatten = [] := by
  rw [h hended, List.flatten_nil]

theorem requests_of_ended
    (hended : supply.ended = true) :
    supply.requests = supply.limit := by
  rw [limit, if_pos hended]

/-- Nothing is drawn behind a token if there is some text left, or at the end. -/
theorem drawBehind_eq_nil
    (h : supply.Sound)
    (hdrawn : (supply.drawBehind rest wanted).1 = []) :
    (supply.drawBehind rest wanted).2.Sound ∧
    (supply.drawBehind rest wanted).2.limit = supply.limit ∧
    (supply.drawBehind rest wanted).2.segments.flatten = supply.segments.flatten ∧
    (rest ≠ [] ∨
      supply.segments.flatten = [] ∧
        (supply.drawBehind rest wanted).2.requests = supply.limit) := by
  cases rest with
  | cons c rest =>
      exact ⟨h, rfl, rfl, .inl (List.cons_ne_nil c rest)⟩
  | nil =>
      obtain ⟨hsound, hlimit, happend, hend⟩ := draw_sound wanted h
      have hended := hend hdrawn
      have hflatten : (supply.draw wanted).2.segments.flatten = supply.segments.flatten := by
        rw [← happend, show (supply.draw wanted).1 = [] from hdrawn, List.nil_append]
      refine ⟨hsound, hlimit, hflatten, .inr ⟨?_, ?_⟩⟩
      · rw [← hflatten]
        exact flatten_of_ended hsound hended
      · exact (requests_of_ended hended).trans hlimit

/-- Text is drawn behind a token only if there is none left. -/
theorem drawBehind_ne_nil
    (h : supply.Sound)
    (hdrawn : (supply.drawBehind rest wanted).1 ≠ []) :
    rest = [] ∧
    (supply.drawBehind rest wanted).2.Sound ∧
    (supply.drawBehind rest wanted).2.limit = supply.limit ∧
    (supply.drawBehind rest wanted).1 ++ (supply.drawBehind rest wanted).2.segments.flatten =
      supply.segments.flatten := by
  cases rest with
  | cons c rest =>
      exact absurd rfl hdrawn
  | nil =>
      obtain ⟨hsound, hlimit, happend, -⟩ := draw_sound wanted h
      exact ⟨rfl, hsound, hlimit, happend⟩

end Supply

namespace Scanner

variable {grammar : Grammar}
variable {position : Nat}
variable {buffer : Text}
variable {supply : Supply}

theorem scanFrom_nil_of_end
    (hdrawn : (supply.draw 1).1 = []) :
    scanFrom grammar position [] supply = ⟨[], (supply.draw 1).2.requests⟩ := by
  rw [scanFrom, if_pos rfl]
  exact dif_pos hdrawn

theorem scanFrom_nil_of_more
    (hdrawn : (supply.draw 1).1 ≠ []) :
    scanFrom grammar position [] supply =
      scanFrom grammar position (supply.draw 1).1 (supply.draw 1).2 := by
  rw [scanFrom, if_pos rfl]
  exact dif_neg hdrawn

section Token

variable {kind : Nat}
variable {front rest : Text}

/-- A token that is found is returned if it ends at a position, but looked at again with more text if
it runs into the end of the buffer. -/
theorem scanFrom_of_found
    (hfound : grammar (front ++ rest) = some (kind, Text.size front))
    (hfront : front ≠ []) :
    scanFrom grammar position (front ++ rest) supply =
      if (supply.drawBehind rest (Text.size front)).1 = [] then
        match (advance position (Text.size front) : Outcome LexError Nat) with
        | .error failure =>
          .last ⟨.error failure, (supply.drawBehind rest (Text.size front)).2.requests⟩
        | .ok next =>
          .cons
            ⟨.ok ⟨kind, ⟨position, Text.size front⟩⟩,
              (supply.drawBehind rest (Text.size front)).2.requests⟩
            (scanFrom grammar next rest (supply.drawBehind rest (Text.size front)).2)
      else
        scanFrom grammar position (front ++ rest ++ (supply.drawBehind rest (Text.size front)).1)
          (supply.drawBehind rest (Text.size front)).2 := by
  have hcut : Text.splitAt? (front ++ rest) (Text.size front) = some (front, rest) :=
    Text.splitAt?_eq_some_iff.mpr ⟨rfl, rfl⟩
  obtain ⟨length, hlength⟩ : ∃ length, Text.size front = length + 1 :=
    ⟨Text.size front - 1, by have := Text.size_pos hfront; omega⟩
  rw [hlength] at hfound hcut ⊢
  rw [scanFrom, if_neg (by simp [hfront]), hfound]
  dsimp only
  split
  next hnone =>
    rw [hnone] at hcut
    cases hcut
  next front' rest' hrest =>
    rw [hrest] at hcut
    cases hcut
    exact dite_eq_ite

theorem scanFrom_of_token
    (hfound : grammar (front ++ rest) = some (kind, Text.size front))
    (hfront : front ≠ [])
    (hdrawn : (supply.drawBehind rest (Text.size front)).1 = [])
    (hbound : position + Text.size front < positionBound) :
    scanFrom grammar position (front ++ rest) supply =
      .cons
        ⟨.ok ⟨kind, ⟨position, Text.size front⟩⟩,
          (supply.drawBehind rest (Text.size front)).2.requests⟩
        (scanFrom grammar (position + Text.size front) rest
          (supply.drawBehind rest (Text.size front)).2) := by
  rw [scanFrom_of_found hfound hfront, if_pos hdrawn, advance_eq_ok hbound]

theorem scanFrom_of_more
    (hfound : grammar (front ++ rest) = some (kind, Text.size front))
    (hfront : front ≠ [])
    (hdrawn : (supply.drawBehind rest (Text.size front)).1 ≠ []) :
    scanFrom grammar position (front ++ rest) supply =
      scanFrom grammar position (front ++ rest ++ (supply.drawBehind rest (Text.size front)).1)
        (supply.drawBehind rest (Text.size front)).2 := by
  rw [scanFrom_of_found hfound hfront, if_neg hdrawn]

end Token

theorem scanFrom_of_misread
    {error : LexError}
    (hbuffer : buffer ≠ [])
    (h : grammar.Misreads position buffer error) :
    scanFrom grammar position buffer supply = .last ⟨Outcome.fail error, supply.requests⟩ := by
  rw [scanFrom, if_neg hbuffer]
  cases h with
  | nothing hgrammar =>
      rw [hgrammar]
  | empty hgrammar =>
      rw [hgrammar]
  | overrun hgrammar hsplit =>
      rw [hgrammar]
      dsimp only
      split
      next =>
        rfl
      next hsome =>
        rw [hsplit] at hsome
        cases hsome

/-- A scanner goes on with more text, or behind a token, until the text ends or there is no token. -/
@[elab_as_elim]
theorem scanFrom_induction
    (grammar : Grammar)
    {motive : Nat → Text → Supply → Prop}
    (ended : ∀ position supply,
      (supply.draw 1).1 = [] →
      motive position [] supply)
    (more : ∀ position supply,
      (supply.draw 1).1 ≠ [] →
      motive position (supply.draw 1).1 (supply.draw 1).2 →
      motive position [] supply)
    (misread : ∀ position buffer supply error,
      buffer ≠ [] →
      grammar.Misreads position buffer error →
      motive position buffer supply)
    (token : ∀ position kind front rest supply,
      grammar (front ++ rest) = some (kind, Text.size front) →
      front ≠ [] →
      (supply.drawBehind rest (Text.size front)).1 = [] →
      (position + Text.size front < positionBound →
        motive (position + Text.size front) rest (supply.drawBehind rest (Text.size front)).2) →
      motive position (front ++ rest) supply)
    (again : ∀ position kind front rest supply,
      grammar (front ++ rest) = some (kind, Text.size front) →
      front ≠ [] →
      (supply.drawBehind rest (Text.size front)).1 ≠ [] →
      motive position (front ++ rest ++ (supply.drawBehind rest (Text.size front)).1)
        (supply.drawBehind rest (Text.size front)).2 →
      motive position (front ++ rest) supply)
    (position : Nat)
    (buffer : Text)
    (supply : Supply) :
    motive position buffer supply := by
  induction position, buffer, supply using scanFrom.induct grammar with
  | case1 position supply drawn hdrawn =>
      exact ended position supply hdrawn
  | case2 position supply drawn hdrawn ih =>
      exact more position supply hdrawn ih
  | case3 position buffer supply hbuffer hnone =>
      exact misread position buffer supply _ hbuffer (.nothing hnone)
  | case4 position buffer supply hbuffer kind hempty =>
      exact misread position buffer supply _ hbuffer (.empty hempty)
  | case5 position buffer supply hbuffer kind length hfound hsplit =>
      exact misread position buffer supply _ hbuffer (.overrun hfound hsplit)
  | case6 position buffer supply hbuffer kind length hfound front rest hsplit drawn hdrawn failure
      hadvance =>
      obtain ⟨rfl, hsize, hfront⟩ := Text.eq_append_of_splitAt? hsplit
      rw [Nat.succ_eq_add_one, ← hsize] at hfound
      rw [← hsize] at hadvance
      refine token position kind front rest supply hfound hfront (by rw [hsize]; exact hdrawn) ?_
      intro hbound
      rw [advance_eq_ok hbound] at hadvance
      cases hadvance
  | case7 position buffer supply hbuffer kind length hfound front rest hsplit drawn hdrawn next
      hadvance ih =>
      obtain ⟨rfl, hsize, hfront⟩ := Text.eq_append_of_splitAt? hsplit
      rw [Nat.succ_eq_add_one, ← hsize] at hfound
      obtain ⟨rfl, -⟩ := advance_eq_ok_iff.mp hadvance
      refine token position kind front rest supply hfound hfront (by rw [hsize]; exact hdrawn) ?_
      intro _
      rw [hsize]
      exact ih
  | case8 position buffer supply hbuffer kind length hfound front rest hsplit drawn hdrawn ih =>
      obtain ⟨rfl, hsize, hfront⟩ := Text.eq_append_of_splitAt? hsplit
      rw [Nat.succ_eq_add_one, ← hsize] at hfound
      refine again position kind front rest supply hfound hfront (by rw [hsize]; exact hdrawn) ?_
      rw [hsize]
      exact ih

section Supplied

/-- An item that a scanner returns depends on no more text than it was supplied with by then. -/
structure Supplied
    (position : Nat)
    (buffer : Text)
    (supply : Supply)
    (item : LexItem) : Prop where
  requests : supply.requests ≤ item.requests
  token : ∀ token,
    item.result = .ok token →
    token.span.start + token.span.length ≤
      position + Text.size (buffer ++ supply.drawnBy item.requests)
  overflow : item.result = Outcome.overflow →
    positionBound ≤ position + Text.size (buffer ++ supply.drawnBy item.requests)

variable {front rest more : Text}
variable {later : Supply}
variable {item : LexItem}

theorem supplied_of_cause
    (error : LexError) :
    Supplied position buffer supply ⟨Outcome.fail error, supply.requests⟩ where
  requests := Nat.le_refl _
  token token heq := by
    cases heq
  overflow heq := by
    cases heq

/-- What has been drawn is a part of what was supplied. -/
theorem Supplied.of_drawn
    (h : Supplied position (buffer ++ more) later item)
    (hdrawn : ∀ {requests : Nat}, later.requests ≤ requests →
      supply.requests ≤ requests ∧ supply.drawnBy requests = more ++ later.drawnBy requests) :
    Supplied position buffer supply item := by
  obtain ⟨hrequests, heq⟩ := hdrawn h.requests
  have htext : buffer ++ more ++ later.drawnBy item.requests =
      buffer ++ supply.drawnBy item.requests := by
    rw [heq, List.append_assoc]
  exact ⟨hrequests, htext ▸ h.token, htext ▸ h.overflow⟩

/-- What belongs to earlier tokens has been supplied as well. -/
theorem Supplied.of_behind
    (h : Supplied (position + Text.size front) buffer supply item) :
    Supplied position (front ++ buffer) supply item := by
  have hsize : position + Text.size front + Text.size (buffer ++ supply.drawnBy item.requests) =
      position + Text.size (front ++ buffer ++ supply.drawnBy item.requests) := by
    rw [List.append_assoc, Text.size_append front, Nat.add_assoc]
  exact ⟨h.requests, hsize ▸ h.token, hsize ▸ h.overflow⟩

/-- An item that ends with a front of the buffer has been supplied. -/
theorem Supplied.of_front
    (rest : Text)
    (hrequests : supply.requests ≤ item.requests)
    (htoken : ∀ token,
      item.result = .ok token →
      token.span.start + token.span.length ≤ position + Text.size front)
    (hoverflow : item.result = Outcome.overflow → positionBound ≤ position + Text.size front) :
    Supplied position (front ++ rest) supply item := by
  have hreach : position + Text.size front ≤
      position + Text.size (front ++ rest ++ supply.drawnBy item.requests) := by
    rw [List.append_assoc, Text.size_append]
    omega
  exact ⟨hrequests, fun token heq => Nat.le_trans (htoken token heq) hreach,
    fun heq => Nat.le_trans (hoverflow heq) hreach⟩

/-- A found token has been supplied when it is returned. -/
theorem supplied_of_found
    {kind : Nat}
    (hfound : grammar (front ++ rest) = some (kind, Text.size front))
    (hfront : front ≠ [])
    (hdrawn : (supply.drawBehind rest (Text.size front)).1 = [])
    (hlater : position + Text.size front < positionBound →
      ∀ item ∈ (scanFrom grammar (position + Text.size front) rest
          (supply.drawBehind rest (Text.size front)).2).items,
        Supplied (position + Text.size front) rest
          (supply.drawBehind rest (Text.size front)).2 item) :
    ∀ item ∈ (scanFrom grammar position (front ++ rest) supply).items,
      Supplied position (front ++ rest) supply item := by
  have hrequests : supply.requests ≤ (supply.drawBehind rest (Text.size front)).2.requests :=
    (Supply.drawnBy_drawBehind (Nat.le_refl _)).1
  rw [scanFrom_of_found hfound hfront, if_pos hdrawn]
  intro item hitem
  split at hitem
  next failure hadvance =>
    rw [List.mem_singleton.mp hitem]
    refine .of_front rest hrequests ?_ ?_
    · intro token heq
      cases heq
    · intro _
      unfold advance at hadvance
      split at hadvance
      next =>
        cases hadvance
      next hbeyond =>
        exact Nat.le_of_not_lt hbeyond
  next next hadvance =>
    rcases List.mem_cons.mp hitem with rfl | hmem
    · refine .of_front rest hrequests ?_ ?_
      · intro token heq
        cases heq
        exact Nat.le_refl _
      · intro heq
        cases heq
    · obtain ⟨rfl, hbound⟩ := advance_eq_ok_iff.mp hadvance
      have hsupplied := hlater hbound item hmem
      have hmore : Supplied (position + Text.size front)
          (rest ++ (supply.drawBehind rest (Text.size front)).1)
          (supply.drawBehind rest (Text.size front)).2 item := by
        rw [hdrawn, List.append_nil]
        exact hsupplied
      exact (hmore.of_drawn Supply.drawnBy_drawBehind).of_behind

/-- Tokens end in the text that has been supplied when they are returned. -/
theorem supplied_of_mem_scanFrom :
    ∀ item ∈ (scanFrom grammar position buffer supply).items,
      Supplied position buffer supply item := by
  induction position, buffer, supply using scanFrom_induction grammar with
  | ended position supply hdrawn =>
      rw [scanFrom_nil_of_end hdrawn]
      exact fun item hitem => absurd hitem List.not_mem_nil
  | more position supply hdrawn ih =>
      rw [scanFrom_nil_of_more hdrawn]
      exact fun item hitem => (ih item hitem).of_drawn Supply.drawnBy_draw
  | misread position buffer supply error hbuffer herror =>
      rw [scanFrom_of_misread hbuffer herror]
      intro item hitem
      rw [List.mem_singleton.mp hitem]
      exact supplied_of_cause _
  | token position kind front rest supply hfound hfront hdrawn ih =>
      exact supplied_of_found hfound hfront hdrawn ih
  | again position kind front rest supply hfound hfront hdrawn ih =>
      rw [scanFrom_of_more hfound hfront hdrawn]
      exact fun item hitem => (ih item hitem).of_drawn Supply.drawnBy_drawBehind

end Supplied

/-- A lexing of a whole text: its tokens in order, and each that was returned before the end was met
stops in front of the end. -/
structure Complete
    (lexing : Lexing)
    (tokens : List Token)
    (stop limit : Nat) : Prop where
  results : lexing.items.map (·.result) = tokens.map .ok
  requests : lexing.requests = limit
  early : ∀ item ∈ lexing.items, ∀ token,
    item.result = .ok token →
    item.requests < limit →
    token.span.start + token.span.length < stop

/-- A found token comes in front of a lexing of what follows.  It does not depend on the segments
that have not been asked for. -/
theorem complete_of_found
    {kind : Nat}
    {front rest : Text}
    {tokens : List Token}
    (hgrammar : grammar.PrefixStable)
    (hsound : supply.Sound)
    (hfound : grammar (front ++ rest) = some (kind, Text.size front))
    (hfront : front ≠ [])
    (hdrawn : (supply.drawBehind rest (Text.size front)).1 = [])
    (hbound : position + Text.size front < positionBound)
    (htokens : Scans grammar (position + Text.size front) (rest ++ supply.segments.flatten) []
      tokens)
    (hcomplete : Complete
      (scanFrom grammar (position + Text.size front) rest
        (supply.drawBehind rest (Text.size front)).2)
      tokens
      (position + Text.size front + Text.size (rest ++ supply.segments.flatten)) supply.limit) :
    Scans grammar position (front ++ (rest ++ supply.segments.flatten)) []
      (⟨kind, ⟨position, Text.size front⟩⟩ :: tokens) ∧
    Complete (scanFrom grammar position (front ++ rest) supply)
      (⟨kind, ⟨position, Text.size front⟩⟩ :: tokens)
      (position + Text.size (front ++ (rest ++ supply.segments.flatten))) supply.limit := by
  obtain ⟨-, -, -, hbehind⟩ := Supply.drawBehind_eq_nil hsound hdrawn
  rw [scanFrom_of_token hfound hfront hdrawn hbound]
  have hwhole : grammar (front ++ (rest ++ supply.segments.flatten ++ [])) =
      some (kind, Text.size front) := by
    rw [List.append_nil, ← List.append_assoc]
    rcases hbehind with hrest | ⟨hnothing, -⟩
    · refine hgrammar.stable (front ++ rest) _ kind _ hfound ?_
      have hsize := Text.size_pos hrest
      rw [Text.size_append]
      omega
    · rw [hnothing, List.append_nil]
      exact hfound
  refine ⟨.cons hwhole hfront htokens, ?_, hcomplete.requests, ?_⟩
  · exact congrArg _ hcomplete.results
  · intro item hitem token hresult hearly
    rcases List.mem_cons.mp hitem with rfl | hitem
    · cases hresult
      rcases hbehind with hrest | ⟨-, hrequests⟩
      · have hsize := Text.size_pos hrest
        rw [Text.size_append, Text.size_append]
        dsimp only
        omega
      · exact absurd hearly (by rw [hrequests]; exact Nat.lt_irrefl _)
    · have hstop := hcomplete.early item hitem token hresult hearly
      rw [Text.size_append]
      omega

/-- With a prefix-stable grammar, the scanner reads the tokens of the text that it is supplied
with. -/
theorem exists_complete_scanFrom
    (hgrammar : grammar.PrefixStable)
    (hsound : supply.Sound)
    (hbound : position + Text.size (buffer ++ supply.segments.flatten) < positionBound) :
    ∃ tokens,
      Scans grammar position (buffer ++ supply.segments.flatten) [] tokens ∧
      Complete (scanFrom grammar position buffer supply) tokens
        (position + Text.size (buffer ++ supply.segments.flatten)) supply.limit := by
  induction position, buffer, supply using scanFrom_induction grammar with
  | ended position supply hdrawn =>
      obtain ⟨hdrawnSound, hlimit, happend, hend⟩ := Supply.draw_sound 1 hsound
      have hended := hend hdrawn
      rw [hdrawn, List.nil_append, Supply.flatten_of_ended hdrawnSound hended] at happend
      rw [scanFrom_nil_of_end hdrawn, ← happend]
      refine ⟨[], .nil, rfl, (Supply.requests_of_ended hended).trans hlimit, ?_⟩
      intro item hitem
      cases hitem
  | more position supply hdrawn ih =>
      obtain ⟨hdrawnSound, hlimit, happend, -⟩ := Supply.draw_sound 1 hsound
      rw [List.nil_append, ← happend] at hbound ⊢
      rw [scanFrom_nil_of_more hdrawn, ← hlimit]
      exact ih hdrawnSound hbound
  | misread position buffer supply error hbuffer herror =>
      exact absurd herror (hgrammar.not_misreads hbuffer)
  | token position kind front rest supply hfound hfront hdrawn ih =>
      obtain ⟨hdrawnSound, hlimit, hflatten, -⟩ := Supply.drawBehind_eq_nil hsound hdrawn
      rw [Text.size_append, Text.size_append] at hbound
      have hfits : position + Text.size front < positionBound := by omega
      have hrestBound : position + Text.size front + Text.size (rest ++
          (supply.drawBehind rest (Text.size front)).2.segments.flatten) < positionBound := by
        rw [hflatten, Text.size_append]
        omega
      obtain ⟨tokens, htokens, hcomplete⟩ := ih hfits hdrawnSound hrestBound
      rw [hflatten] at htokens hcomplete
      rw [hlimit] at hcomplete
      rw [List.append_assoc]
      exact ⟨_, complete_of_found hgrammar hsound hfound hfront hdrawn hfits htokens hcomplete⟩
  | again position kind front rest supply hfound hfront hdrawn ih =>
      rw [scanFrom_of_more hfound hfront hdrawn]
      obtain ⟨rfl, hdrawnSound, hlimit, happend⟩ := Supply.drawBehind_ne_nil hsound hdrawn
      rw [List.append_nil, ← happend, ← List.append_assoc] at hbound ⊢
      rw [← hlimit]
      rw [List.append_nil] at ih
      exact ih hdrawnSound hbound

end Scanner

namespace Lexer

variable {grammar : Grammar}

/-- The lexer of a prefix-stable grammar reads the text of all segments. -/
theorem exists_complete_run
    (hgrammar : grammar.PrefixStable)
    (classify : Nat → TokenClass)
    (offset : Nat)
    (segments : List Text)
    (hbound : offset + Text.size segments.flatten < positionBound) :
    ∃ tokens,
      Scans grammar offset segments.flatten [] tokens ∧
      Scanner.Complete ((ofGrammar grammar classify).run offset segments) tokens
        (offset + Text.size segments.flatten) (segments.length + 1) := by
  have hsound : Supply.Sound { segments := segments } := by
    intro hended
    cases hended
  have hbuffer : offset + Text.size ([] ++ segments.flatten) < positionBound := hbound
  obtain ⟨tokens, htokens, hcomplete⟩ :=
    Scanner.exists_complete_scanFrom hgrammar hsound hbuffer
  have hlimit : Supply.limit { segments := segments } = segments.length + 1 := by
    rw [Supply.limit, if_neg (by simp)]
    dsimp only
    omega
  rw [hlimit] at hcomplete
  exact ⟨tokens, htokens, hcomplete⟩

theorem exists_scans
    (hgrammar : grammar.PrefixStable)
    {text : Text}
    (hbound : Text.size text < positionBound) :
    ∃ tokens, Scans grammar 0 text [] tokens := by
  obtain ⟨tokens, htokens, -⟩ :=
    exists_complete_run hgrammar (fun _ => .unknown) 0 [text]
      (by rw [List.flatten_singleton]; omega)
  rw [List.flatten_singleton] at htokens
  exact ⟨tokens, htokens⟩

/-- A full lexing gives the tokens of the text. -/
theorem lex_eq_ok
    (hgrammar : grammar.PrefixStable)
    (classify : Nat → TokenClass)
    {text : Text}
    {tokens : List Token}
    (hbound : Text.size text < positionBound)
    (h : Scans grammar 0 text [] tokens) :
    (ofGrammar grammar classify).lex text = .ok tokens := by
  obtain ⟨tokens', htokens', hcomplete⟩ :=
    exists_complete_run hgrammar classify 0 [text]
      (by rw [List.flatten_singleton]; omega)
  rw [List.flatten_singleton] at htokens'
  rw [lex, Outcome.mapM_eq_ok_iff, h.unique htokens']
  exact hcomplete.results

end Lexer

end LiveTokens
