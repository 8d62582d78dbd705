import LiveTokens.Assembly

/-!
# Sample lexers

Small lexers that put the tokenizer to the test. Some are well behaved; the others break one of the
rules that a tokenizer relies on, each in its own way. None of them has classes.
-/

namespace LiveTokens

namespace Samples

/-- Lexers without classes. -/
def unclassified : Nat → TokenClass :=
  fun _ => .unknown

/-- Kind of a run of anything but blanks. -/
def wordKind : Nat := 1

/-- Kind of a run of blanks. -/
def blankKind : Nat := 2

/-- The longest run of blanks, or of anything else. -/
def scanRun : Grammar
  | [] => none
  | c :: text =>
    let blank := decide (c = ' ')
    some (if blank then blankKind else wordKind,
      Text.size (c :: text.takeWhile fun d => decide (d = ' ') == blank))

/-- As `scanRun`, but the kind of a word depends on all the text that is in sight. -/
def scanPeeking : Grammar :=
  fun text =>
    (scanRun text).map fun (kind, size) =>
      (if kind = wordKind ∧ '!' ∈ text then 3 else kind, size)

/-- The assembly grammar, except for texts that start with an exclamation mark. -/
def scanUnless (marked : Text → Option (Nat × Nat)) : Grammar :=
  fun text => if text.head? = some '!' then marked text else Assembly.scan text

/-- Changes the items of every lexing, each in the light of its number of requests. -/
def mapItems (f : LexItem → List LexItem) (lexer : Lexer) : Lexer :=
  { lexer with
    run := fun offset segments =>
      let lexing := lexer.run offset segments
      { lexing with items := lexing.items.flatMap f } }

/-- Asks a lexer for a limited number of items only. -/
def takeItems (limit : Nat) (lexer : Lexer) : Lexer :=
  { lexer with
    run := fun offset segments =>
      let lexing := lexer.run offset segments
      match (lexing.items.take limit)[limit - 1]? with
      | some item => ⟨lexing.items.take limit, item.requests⟩
      | none => lexing }

/-- Words and runs of blanks. -/
def words : Lexer :=
  .ofGrammar scanRun unclassified

/-- Words whose kind depends on far-away text. -/
def peek : Lexer :=
  .ofGrammar scanPeeking unclassified

/-- Recognises nothing at an exclamation mark. -/
def picky : Lexer :=
  .ofGrammar (scanUnless fun _ => none) unclassified

/-- Recognises an empty token at an exclamation mark. -/
def stall : Lexer :=
  .ofGrammar (scanUnless fun _ => some (1, 0)) unclassified

/-- Claims more than the whole text at an exclamation mark. -/
def overrun : Lexer :=
  .ofGrammar (scanUnless fun text => some (1, Text.size text + 1)) unclassified

/-- Claims two bytes at an exclamation mark. -/
def pair : Lexer :=
  .ofGrammar (scanUnless fun _ => some (1, 2)) unclassified

/-- Words without the blanks between them. -/
def gappy : Lexer :=
  mapItems (fun item =>
    match item.result with
    | .ok token => if token.kind = blankKind then [] else [item]
    | .error _ => [item]) words

/-- Words and blanks, with an empty token behind each run of blanks. -/
def empties : Lexer :=
  mapItems (fun item =>
    match item.result with
    | .ok token =>
      if token.kind = blankKind then
        [item, { item with
          result := .ok ⟨4, ⟨token.span.start + token.span.length, 0⟩⟩ }]
      else
        [item]
    | .error _ => [item]) words

/-- The first four words and runs of blanks. -/
def first4 : Lexer :=
  takeItems 4 words

/-- The sample lexers by their names. -/
def named : List (String × Lexer) :=
  [("words", words), ("peek", peek), ("picky", picky), ("stall", stall), ("overrun", overrun),
    ("pair", pair), ("gappy", gappy), ("empties", empties), ("first4", first4)]

end Samples

end LiveTokens
