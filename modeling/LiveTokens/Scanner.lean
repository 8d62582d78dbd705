import LiveTokens.Lexer

/-!
# Scanners

A grammar is a function that recognises one token at the front of a text. The scanner makes it into
a lexer over segments. It keeps a buffer of text that has been supplied and not been used up. A
token that runs into the end of the buffer might go on in the next segment; the scanner then asks
for at least as much text as the token already spans and has the grammar look again.

`scan` gives all that a scanner returns. A `Reader` is a scanner that is called for one item at a
time.
-/

namespace LiveTokens

/-- Recognises the token at the front of a text: its kind and its size in bytes. -/
abbrev Grammar : Type :=
  Text → Option (Nat × Nat)

/-- The segments that have not been asked for, and how many requests there were. -/
structure Supply where
  segments : List Text
  requests : Nat := 0
  /-- A request has been answered by the end of the text. -/
  ended : Bool := false
deriving Repr

namespace Supply

/-- What is left to ask for: every character, and every segment. -/
def weight (supply : Supply) : Nat :=
  supply.segments.flatten.length + supply.segments.length

/-- Asks for segments until `wanted` bytes have come or the text ends. There is always a request. -/
def drawFrom (wanted requests : Nat) : List Text → Text × Supply
  | [] => ([], ⟨[], requests + 1, true⟩)
  | segment :: segments =>
    if Text.size segment < wanted then
      let (text, supply) := drawFrom (wanted - Text.size segment) (requests + 1) segments
      (segment ++ text, supply)
    else
      (segment, ⟨segments, requests + 1, false⟩)

/-- Asks for `wanted` more bytes, at least one. After the end of the text there is no request. -/
def draw (supply : Supply) (wanted : Nat) : Text × Supply :=
  if supply.ended then ([], supply)
  else drawFrom (max wanted 1) supply.requests supply.segments

theorem weight_drawFrom (wanted requests : Nat) (segments : List Text) :
    (drawFrom wanted requests segments).1.length + (drawFrom wanted requests segments).2.weight ≤
        segments.flatten.length + segments.length ∧
      ((drawFrom wanted requests segments).1 ≠ [] →
        (drawFrom wanted requests segments).1.length +
            (drawFrom wanted requests segments).2.weight <
          segments.flatten.length + segments.length) := by
  induction segments generalizing wanted requests with
  | nil => simp [drawFrom, weight]
  | cons segment segments ih =>
    have := ih (wanted - Text.size segment) (requests + 1)
    unfold drawFrom
    split
    · simp only [List.flatten_cons, List.length_append, List.length_cons]
      omega
    · simp only [weight, List.flatten_cons, List.length_append, List.length_cons]
      omega

/-- What was drawn and what is left to draw is no more than before. -/
theorem weight_draw_le (supply : Supply) (wanted : Nat) :
    (supply.draw wanted).1.length + (supply.draw wanted).2.weight ≤ supply.weight := by
  unfold draw
  split
  · simp
  · exact (weight_drawFrom _ _ _).1

/-- Drawing any text uses up a segment. -/
theorem weight_draw_lt {supply : Supply} {wanted : Nat} (h : (supply.draw wanted).1 ≠ []) :
    (supply.draw wanted).1.length + (supply.draw wanted).2.weight < supply.weight := by
  unfold draw at h ⊢
  split at h
  · simp at h
  next hended =>
    rw [if_neg hended]
    exact (weight_drawFrom _ _ _).2 h

/-- Asks for more text behind a token, unless there is some left already. -/
def drawBehind (supply : Supply) (rest : Text) (wanted : Nat) : Text × Supply :=
  match rest with
  | [] => supply.draw wanted
  | _ :: _ => ([], supply)

theorem weight_drawBehind_le (supply : Supply) (rest : Text) (wanted : Nat) :
    (supply.drawBehind rest wanted).1.length + (supply.drawBehind rest wanted).2.weight ≤
      supply.weight := by
  unfold drawBehind
  split
  · exact supply.weight_draw_le wanted
  · simp

theorem weight_drawBehind_lt {supply : Supply} {rest : Text} {wanted : Nat}
    (h : (supply.drawBehind rest wanted).1 ≠ []) :
    (supply.drawBehind rest wanted).1.length + (supply.drawBehind rest wanted).2.weight <
      supply.weight := by
  unfold drawBehind at h ⊢
  split at h
  · exact weight_draw_lt h
  · simp at h

end Supply

namespace Scanner

/-- Scans on from `position`, where the buffered text starts. -/
def scanFrom (grammar : Grammar) (position : Nat) (buffer : Text) (supply : Supply) : Lexing :=
  if buffer = [] then
    let drawn := supply.draw 1
    if _ : drawn.1 = [] then
      ⟨[], drawn.2.requests⟩
    else
      scanFrom grammar position drawn.1 drawn.2
  else
    match grammar buffer with
    | none => .last ⟨Outcome.fail (.stalled position), supply.requests⟩
    | some (_, 0) => .last ⟨Outcome.fail (.stalled position), supply.requests⟩
    | some (kind, length + 1) =>
      match hsplit : Text.splitAt? buffer (length + 1) with
      | none => .last ⟨Outcome.fail (.overrun position (length + 1)), supply.requests⟩
      | some (_, rest) =>
        let drawn := supply.drawBehind rest (length + 1)
        if _ : drawn.1 = [] then
          match (advance position (length + 1) : Outcome LexError Nat) with
          | .error failure => .last ⟨.error failure, drawn.2.requests⟩
          | .ok next =>
            .cons ⟨.ok ⟨kind, ⟨position, length + 1⟩⟩, drawn.2.requests⟩
              (scanFrom grammar next rest drawn.2)
        else
          scanFrom grammar position (buffer ++ drawn.1) drawn.2
termination_by buffer.length + supply.weight
decreasing_by
  · have := Supply.weight_draw_lt ‹_›
    simp_all
  · have := Text.length_lt_of_splitAt? hsplit (by omega)
    have := supply.weight_drawBehind_le rest (length + 1)
    omega
  · have := Supply.weight_drawBehind_lt ‹_›
    simp only [List.length_append]
    omega

/-- Scans the concatenation of the segments, which starts at an offset in the document. -/
def scan (grammar : Grammar) (offset : Nat) (segments : List Text) : Lexing :=
  scanFrom grammar offset [] { segments := segments }

/-- A scanner between two calls. The text in its buffer starts at `position`, and it may have given
up. -/
structure Reader where
  grammar : Grammar
  position : Nat
  buffer : Text
  supply : Supply
  failed : Bool := false

namespace Reader

/-- A scanner that has not been called yet. -/
def opened (grammar : Grammar) (offset : Nat) (segments : List Text) : Reader :=
  ⟨grammar, offset, [], { segments := segments }, false⟩

/-- Returns a reason to stop, and nothing afterwards. -/
def giveUp (reader : Reader) (failure : Failure LexError) : Option LexItem × Reader :=
  (some ⟨.error failure, reader.supply.requests⟩, { reader with failed := true })

/-- Looks for the next token, with as much text as it takes. -/
def nextFrom (grammar : Grammar) (position : Nat) (buffer : Text) (supply : Supply) :
    Option LexItem × Reader :=
  let reader : Reader := ⟨grammar, position, buffer, supply, false⟩
  if buffer = [] then
    let drawn := supply.draw 1
    if _ : drawn.1 = [] then
      (none, { reader with supply := drawn.2 })
    else
      nextFrom grammar position drawn.1 drawn.2
  else
    match grammar buffer with
    | none => reader.giveUp (.cause (.stalled position))
    | some (_, 0) => reader.giveUp (.cause (.stalled position))
    | some (kind, length + 1) =>
      match Text.splitAt? buffer (length + 1) with
      | none => reader.giveUp (.cause (.overrun position (length + 1)))
      | some (_, rest) =>
        let drawn := supply.drawBehind rest (length + 1)
        if _ : drawn.1 = [] then
          match (advance position (length + 1) : Outcome LexError Nat) with
          | .error failure => { reader with supply := drawn.2 }.giveUp failure
          | .ok next =>
            (some ⟨.ok ⟨kind, ⟨position, length + 1⟩⟩, drawn.2.requests⟩,
              ⟨grammar, next, rest, drawn.2, false⟩)
        else
          nextFrom grammar position (buffer ++ drawn.1) drawn.2
termination_by buffer.length + supply.weight
decreasing_by
  · have := Supply.weight_draw_lt ‹_›
    simp_all
  · have := Supply.weight_drawBehind_lt ‹_›
    simp only [List.length_append]
    omega

/-- One call. -/
def next (reader : Reader) : Option LexItem × Reader :=
  if reader.failed then
    (none, reader)
  else
    nextFrom reader.grammar reader.position reader.buffer reader.supply

/-- What the scanner returns when it has been called `count` times before. -/
def answer (reader : Reader) : Nat → Option LexItem
  | 0 => reader.next.1
  | count + 1 => reader.next.2.answer count

end Reader

end Scanner

/-- The lexer that scans with a grammar. -/
def Lexer.ofGrammar (grammar : Grammar) (classify : Nat → TokenClass) : Lexer :=
  ⟨Scanner.scan grammar, classify⟩

end LiveTokens
