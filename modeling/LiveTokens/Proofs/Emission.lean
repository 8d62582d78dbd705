import LiveTokens.Proofs.Placement
import LiveTokens.Scanner.Samples

/-!
# What scanners emit

Nothing is asked of the grammar here.  It may recognise nothing, claim an empty token,
more text than there is or a part of a character, and it may look at all the text that
is in sight.  A scanner with such a grammar still reads its text from the front, token
by token, in whole characters.  It stops at the end of the text, or at the first place
where the grammar does not find a token.

`Emits grammar position text results` says that a text which starts at `position` is
read like this.  Each result comes from some part of the text that was in sight.

Call by call, a scanner returns what it emits, and nothing for ever after.

**Results.**  `scan_wellFormed`.
-/

namespace LiveTokens

/-- Where the lexer has given up. -/
def LexError.position : LexError → Nat
  | .stalled position => position
  | .overrun position _ => position

theorem Grammar.Misreads.position_eq
    {grammar : Grammar}
    {position : Nat}
    {text : Text}
    {error : LexError}
    (h : grammar.Misreads position text error) :
    error.position = position := by
  cases h <;> rfl

theorem Text.Boundary.behind
    {text : Text}
    {position : Nat}
    (h : text.Boundary position)
    (front : Text) :
    (front ++ text).Boundary (size front + position) := by
  obtain ⟨middle, back, rfl, rfl⟩ := h
  exact ⟨front ++ middle, back, by simp, by simp⟩

namespace Supply

variable {supply : Supply}
variable {wanted : Nat}

theorem ended_of_draw_eq_nil
    (h : (supply.draw wanted).1 = []) :
    (supply.draw wanted).2.ended = true := by
  unfold draw at h ⊢
  split at h
  next hended =>
    rw [if_pos hended]
    exact hended
  next hopen =>
    rw [if_neg hopen]
    exact ended_of_drawFrom_eq_nil (by omega) h

/-- After the end of the text, nothing is drawn any more. -/
theorem draw_draw_eq_nil
    (h : (supply.draw wanted).1 = [])
    (wanted' : Nat) :
    ((supply.draw wanted).2.draw wanted').1 = [] := by
  rw [draw, if_pos (ended_of_draw_eq_nil h)]

end Supply

namespace Scanner

variable {grammar : Grammar}
variable {position : Nat}
variable {text buffer : Text}
variable {supply : Supply}
variable {results : List (Outcome LexError Token)}

namespace Reader

/-- What the scanner has still to return. -/
def rest
    (reader : Reader) : List LexItem :=
  if reader.failed then
    []
  else
    (scanFrom reader.grammar reader.position reader.buffer reader.supply).items

theorem nextFrom_nil_of_end
    (hdrawn : (supply.draw 1).1 = []) :
    nextFrom grammar position [] supply =
      (none, ⟨grammar, position, [], (supply.draw 1).2, false⟩) := by
  rw [nextFrom, if_pos rfl]
  exact dif_pos hdrawn

theorem nextFrom_nil_of_more
    (hdrawn : (supply.draw 1).1 ≠ []) :
    nextFrom grammar position [] supply =
      nextFrom grammar position (supply.draw 1).1 (supply.draw 1).2 := by
  rw [nextFrom, if_pos rfl]
  exact dif_neg hdrawn

/-- A token that is found ends the call, unless it has to be looked at again with more text. -/
theorem nextFrom_of_found
    {kind : Nat}
    {front behind : Text}
    (hfound : grammar (front ++ behind) = some (kind, Text.size front))
    (hfront : front ≠ []) :
    nextFrom grammar position (front ++ behind) supply =
      if (supply.drawBehind behind (Text.size front)).1 = [] then
        match (advance position (Text.size front) : Outcome LexError Nat) with
        | .error failure =>
          giveUp ⟨grammar, position, front ++ behind,
            (supply.drawBehind behind (Text.size front)).2, false⟩ failure
        | .ok next =>
          (some ⟨.ok ⟨kind, ⟨position, Text.size front⟩⟩,
              (supply.drawBehind behind (Text.size front)).2.requests⟩,
            ⟨grammar, next, behind, (supply.drawBehind behind (Text.size front)).2, false⟩)
      else
        nextFrom grammar position
          (front ++ behind ++ (supply.drawBehind behind (Text.size front)).1)
          (supply.drawBehind behind (Text.size front)).2 := by
  have hcut : Text.splitAt? (front ++ behind) (Text.size front) = some (front, behind) :=
    Text.splitAt?_eq_some_iff.mpr ⟨rfl, rfl⟩
  obtain ⟨length, hlength⟩ : ∃ length, Text.size front = length + 1 :=
    ⟨Text.size front - 1, by have := Text.size_pos hfront; omega⟩
  rw [hlength] at hfound hcut ⊢
  rw [nextFrom, if_neg (by simp [hfront]), hfound]
  dsimp only
  rw [hcut]
  exact dite_eq_ite

theorem nextFrom_of_misread
    {error : LexError}
    (hbuffer : buffer ≠ [])
    (h : grammar.Misreads position buffer error) :
    nextFrom grammar position buffer supply =
      giveUp ⟨grammar, position, buffer, supply, false⟩ (.cause error) := by
  rw [nextFrom, if_neg hbuffer]
  cases h with
  | nothing hgrammar =>
      rw [hgrammar]
  | empty hgrammar =>
      rw [hgrammar]
  | overrun hgrammar hsplit =>
      rw [hgrammar]
      dsimp only
      rw [hsplit]

/-- One call returns the first item of the scan, and leaves the others. -/
theorem nextFrom_eq :
    (nextFrom grammar position buffer supply).1 =
      (scanFrom grammar position buffer supply).items.head? ∧
    (nextFrom grammar position buffer supply).2.rest =
      (scanFrom grammar position buffer supply).items.tail := by
  induction position, buffer, supply using scanFrom_induction grammar with
  | ended position supply hdrawn =>
      rw [nextFrom_nil_of_end hdrawn, scanFrom_nil_of_end hdrawn]
      refine ⟨rfl, ?_⟩
      have hend : scanFrom grammar position [] (supply.draw 1).2 = ⟨[], _⟩ :=
        scanFrom_nil_of_end (Supply.draw_draw_eq_nil hdrawn 1)
      exact congrArg Lexing.items hend
  | more position supply hdrawn ih =>
      rw [nextFrom_nil_of_more hdrawn, scanFrom_nil_of_more hdrawn]
      exact ih
  | misread position buffer supply error hbuffer herror =>
      rw [nextFrom_of_misread hbuffer herror, scanFrom_of_misread hbuffer herror]
      exact ⟨rfl, rfl⟩
  | token position kind front rest supply hfound hfront hdrawn ih =>
      rw [nextFrom_of_found hfound hfront, scanFrom_of_found hfound hfront, if_pos hdrawn,
        if_pos hdrawn]
      cases (advance position (Text.size front) : Outcome LexError Nat) with
      | error failure =>
          exact ⟨rfl, rfl⟩
      | ok next =>
          exact ⟨rfl, rfl⟩
  | again position kind front rest supply hfound hfront hdrawn ih =>
      rw [nextFrom_of_found hfound hfront, scanFrom_of_more hfound hfront hdrawn, if_neg hdrawn]
      exact ih

theorem next_eq
    (reader : Reader) :
    reader.next.1 = reader.rest.head? ∧
    reader.next.2.rest = reader.rest.tail := by
  unfold next
  cases hfailed : reader.failed with
  | true =>
      simp [rest, hfailed]
  | false =>
      simp only [Bool.false_eq_true, if_false]
      rw [show reader.rest = (scanFrom reader.grammar reader.position reader.buffer
        reader.supply).items by simp [rest, hfailed]]
      exact nextFrom_eq

/-- Call by call, a scanner returns what it has still to return, and then nothing for ever. -/
theorem answer_eq
    (reader : Reader)
    (count : Nat) :
    reader.answer count = reader.rest[count]? := by
  induction count generalizing reader with
  | zero =>
      rw [answer, reader.next_eq.1, List.head?_eq_getElem?]
  | succ count ih =>
      rw [answer, ih, reader.next_eq.2, List.getElem?_tail]

end Reader

section Emits

/-- The results of reading a text that starts at `position`.  Whether there is a token, and which,
is up to the grammar and the text that is in sight; a token that takes all of that is the last
one. -/
inductive Emits
    (grammar : Grammar) : Nat → Text → List (Outcome LexError Token) → Prop
  | ended
      {position : Nat} :
      Emits grammar position [] []
  | token
      {position kind : Nat}
      {front sight behind : Text}
      {results : List (Outcome LexError Token)}
      (hgrammar : grammar (front ++ sight) = some (kind, Text.size front))
      (hfront : front ≠ [])
      (hsight : sight <+: behind)
      (hend : sight = [] → behind = [])
      (hbehind : Emits grammar (position + Text.size front) behind results) :
      Emits grammar position (front ++ behind)
        (.ok ⟨kind, ⟨position, Text.size front⟩⟩ :: results)
  | failed
      {position : Nat}
      {sight behind : Text}
      {error : LexError}
      (hsight : sight ≠ [])
      (herror : grammar.Misreads position sight error) :
      Emits grammar position (sight ++ behind) [Outcome.fail error]

/-- A scanner reads the text in its buffer and all that is still to be drawn. -/
theorem emits_scanFrom
    (hsound : supply.Sound)
    (hbound : position + Text.size (buffer ++ supply.segments.flatten) < positionBound) :
    Emits grammar position (buffer ++ supply.segments.flatten)
      ((scanFrom grammar position buffer supply).items.map (·.result)) := by
  induction position, buffer, supply using scanFrom_induction grammar with
  | ended position supply hdrawn =>
      obtain ⟨hdrawnSound, -, happend, hend⟩ := Supply.draw_sound 1 hsound
      rw [hdrawn, List.nil_append,
        Supply.flatten_of_ended hdrawnSound (hend hdrawn)] at happend
      rw [scanFrom_nil_of_end hdrawn, ← happend]
      exact .ended
  | more position supply hdrawn ih =>
      obtain ⟨hdrawnSound, -, happend, -⟩ := Supply.draw_sound 1 hsound
      rw [List.nil_append, ← happend] at hbound ⊢
      rw [scanFrom_nil_of_more hdrawn]
      exact ih hdrawnSound hbound
  | misread position buffer supply error hbuffer herror =>
      rw [scanFrom_of_misread hbuffer herror]
      exact .failed hbuffer herror
  | token position kind front rest supply hfound hfront hdrawn ih =>
      obtain ⟨hdrawnSound, -, hflatten, hbehind⟩ := Supply.drawBehind_eq_nil hsound hdrawn
      rw [List.append_assoc, Text.size_append] at hbound
      have hfits : position + Text.size front < positionBound := by omega
      rw [hflatten, Nat.add_assoc] at ih
      rw [scanFrom_of_token hfound hfront hdrawn hfits, List.append_assoc]
      refine .token hfound hfront (List.prefix_append _ _) ?_ (ih hfits hdrawnSound hbound)
      rintro rfl
      rw [(hbehind.resolve_left fun hsome => hsome rfl).1, List.append_nil]
  | again position kind front rest supply hfound hfront hdrawn ih =>
      rw [scanFrom_of_more hfound hfront hdrawn]
      obtain ⟨rfl, hdrawnSound, -, happend⟩ := Supply.drawBehind_ne_nil hsound hdrawn
      rw [List.append_nil, ← happend, ← List.append_assoc] at hbound ⊢
      rw [List.append_nil] at ih
      exact ih hdrawnSound hbound

/-- The tokens cut a front of the text.  There is an error behind them unless that is all of it. -/
theorem Emits.exists_cuts
    (h : Emits grammar position text results) :
    ∃ front behind tokens, ∃ failure : Option LexError,
      text = front ++ behind ∧
      Cuts position front tokens ∧
      results = tokens.map .ok ++ failure.toList.map Outcome.fail ∧
      (∀ error ∈ failure, error.position = position + Text.size front) ∧
      (failure = none ↔ behind = []) := by
  induction h with
  | ended =>
      exact ⟨[], [], [], none, rfl, .nil, rfl, by simp, by simp⟩
  | @token position kind first sight behind results hgrammar hfirst hsight hend hbehind ih =>
      obtain ⟨front, behind, tokens, failure, rfl, hcuts, rfl, hposition, hwhole⟩ := ih
      refine ⟨first ++ front, behind, _ :: tokens, failure, by rw [List.append_assoc],
        .cons hfirst hcuts, rfl, ?_, hwhole⟩
      rw [Text.size_append, ← Nat.add_assoc]
      exact hposition
  | @failed position sight behind error hsight herror =>
      refine ⟨[], sight ++ behind, [], some error, rfl, .nil, rfl, ?_, by simp [hsight]⟩
      rintro _ ⟨⟩
      exact herror.position_eq

end Emits

/-- The tokens follow one another from the start of a text at `offset` to `reached`, in whole
characters.  A scanner that fails does so there, and one that does not has reached the end. -/
structure WellFormed
    (text : Text)
    (offset : Nat)
    (tokens : List Token)
    (failure : Option LexError)
    (reached : Nat) : Prop where
  tiles : Tiles offset tokens reached
  boundaries : ∀ token ∈ tokens, text.Boundary (token.span.start + token.span.length - offset)
  position_eq : ∀ error ∈ failure, error.position = reached
  within : reached ≤ offset + Text.size text
  complete : failure = none ↔ reached = offset + Text.size text

/-- Tokens that cut a text end between its characters. -/
theorem boundary_of_cuts
    {tokens : List Token}
    (h : Cuts position text tokens) :
    ∀ token ∈ tokens,
      position ≤ token.span.start ∧
      text.Boundary (token.span.start + token.span.length - position) := by
  induction h with
  | nil =>
      exact fun token hmem => absurd hmem List.not_mem_nil
  | @cons position kind front text tokens hfront htext ih =>
      intro token hmem
      rcases List.mem_cons.mp hmem with rfl | hmem
      · exact ⟨Nat.le_refl _, front, text, rfl, by dsimp only; omega⟩
      · obtain ⟨hstart, hboundary⟩ := ih token hmem
        have hmoved := hboundary.behind front
        refine ⟨by omega, ?_⟩
        rwa [show token.span.start + token.span.length - position = Text.size front +
          (token.span.start + token.span.length - (position + Text.size front)) by omega]

theorem Emits.exists_wellFormed
    (h : Emits grammar position text results)
    (hbound : position + Text.size text < positionBound) :
    ∃ tokens failure reached,
      results = tokens.map .ok ++ failure.toList.map Outcome.fail ∧
      WellFormed text position tokens failure reached := by
  obtain ⟨front, behind, tokens, failure, rfl, hcuts, rfl, hposition, hwhole⟩ := h.exists_cuts
  rw [Text.size_append] at hbound
  refine ⟨tokens, failure, position + Text.size front, rfl,
    hcuts.tiles (by omega), ?_, hposition, ?_, ?_⟩
  · intro token hmem
    obtain ⟨-, first, rest, rfl, hsize⟩ := boundary_of_cuts hcuts token hmem
    exact ⟨first, rest ++ behind, List.append_assoc .., hsize⟩
  · rw [Text.size_append]
    omega
  · rw [hwhole, Text.size_append, ← Text.size_eq_zero_iff]
    omega

/-- Whatever the grammar is and whatever segments the text comes in, a scanner returns tokens that
follow one another from the start of the text, and at most one error, about the place behind them.
After that it returns nothing, however often it is called. -/
theorem scan_wellFormed
    (grammar : Grammar)
    (offset : Nat)
    (segments : List Text)
    (hbound : offset + Text.size segments.flatten < positionBound) :
    ∃ tokens failure reached,
      WellFormed segments.flatten offset tokens failure reached ∧
      Emits grammar offset segments.flatten
        (tokens.map .ok ++ failure.toList.map Outcome.fail) ∧
      (scan grammar offset segments).items.map (·.result) =
        tokens.map .ok ++ failure.toList.map Outcome.fail ∧
      ∀ count,
        ((Reader.opened grammar offset segments).answer count).map (·.result) =
          (tokens.map .ok ++ failure.toList.map Outcome.fail)[count]? := by
  have hsound : Supply.Sound { segments := segments } := by
    intro hended
    cases hended
  have hbuffer : offset + Text.size ([] ++ segments.flatten) < positionBound := hbound
  have hemits : Emits grammar offset segments.flatten
      ((scan grammar offset segments).items.map (·.result)) :=
    emits_scanFrom hsound hbuffer
  obtain ⟨tokens, failure, reached, hresults, hformed⟩ := hemits.exists_wellFormed hbound
  refine ⟨tokens, failure, reached, hformed, hresults ▸ hemits, hresults, fun count => ?_⟩
  rw [Reader.answer_eq, ← List.getElem?_map, ← hresults]
  rfl

/-- The exclamation mark is said to be two bytes long, but the character behind it has two. -/
theorem scan_split_character :
    5 + Text.size ['a', '!', 'é'] < positionBound ∧
    ∀ count,
      ((Reader.opened (Samples.scanUnless fun _ => some (1, 2)) 5
          [['a'], [], ['!', 'é']]).answer count).map (·.result) =
        [.ok ⟨Assembly.Kind.identifier.code, ⟨5, 1⟩⟩, Outcome.fail (.overrun 6 2)][count]? := by
  have hbound : 5 + Text.size ['a', '!', 'é'] < positionBound := by decide
  obtain ⟨tokens, failure, reached, -, -, hscan, hanswer⟩ :=
    scan_wellFormed (Samples.scanUnless fun _ => some (1, 2)) 5 [['a'], [], ['!', 'é']] hbound
  have hresults : (scan (Samples.scanUnless fun _ => some (1, 2)) 5
      [['a'], [], ['!', 'é']]).items.map (·.result) =
        [.ok ⟨Assembly.Kind.identifier.code, ⟨5, 1⟩⟩, Outcome.fail (.overrun 6 2)] := by
    decide +kernel
  refine ⟨hbound, fun count => ?_⟩
  rw [hanswer, ← hscan, hresults]

end Scanner

end LiveTokens
