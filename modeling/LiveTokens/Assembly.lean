import LiveTokens.Scanner

/-!
# Assembly source

The reference grammar, for assembly-flavoured source. Every character ends up in some token: blanks,
comments and characters that mean nothing included. The longest match wins, and no decision looks
further than one character behind the token.
-/

namespace LiveTokens

namespace Assembly

/-- What a token is. -/
inductive Kind where
  | whitespace
  | eol
  | lineComment
  | blockComment
  | stringLiteral
  | identifier
  | number
  | comma
  | colon
  | semicolon
  | lParen
  | rParen
  | lBracket
  | rBracket
  | lBrace
  | rBrace
  | operator
  /-- A single character that starts nothing else. -/
  | unknown
deriving DecidableEq, Repr

namespace Kind

/-- All kinds, in the order of their codes. -/
def all : List Kind :=
  [whitespace, eol, lineComment, blockComment, stringLiteral, identifier, number, comma, colon,
    semicolon, lParen, rParen, lBracket, rBracket, lBrace, rBrace, operator, unknown]

/-- The code under which a kind appears in tokens. -/
def code (kind : Kind) : Nat :=
  kind.ctorIdx

/-- The kind with a given code. -/
def ofCode? (code : Nat) : Option Kind :=
  all[code]?

theorem ofCode?_code (kind : Kind) : ofCode? kind.code = some kind := by
  cases kind <;> rfl

/-- The written name of a kind. -/
def name : Kind → String
  | whitespace => "Whitespace"
  | eol => "Eol"
  | lineComment => "LineComment"
  | blockComment => "BlockComment"
  | stringLiteral => "StringLiteral"
  | identifier => "Identifier"
  | number => "Number"
  | comma => "Comma"
  | colon => "Colon"
  | semicolon => "Semicolon"
  | lParen => "LParen"
  | rParen => "RParen"
  | lBracket => "LBracket"
  | rBracket => "RBracket"
  | lBrace => "LBrace"
  | rBrace => "RBrace"
  | operator => "Operator"
  | unknown => "Unknown"

/-- The class of a kind. -/
def toClass : Kind → TokenClass
  | whitespace => .whitespace
  | eol => .newline
  | lineComment => .comment
  | blockComment => .comment
  | stringLiteral => .stringLiteral
  | identifier => .identifier
  | number => .number
  | unknown => .unknown
  | _ => .punctuation

end Kind

/-- Blanks between tokens of a line. -/
def isBlank (c : Char) : Bool :=
  c = ' ' || c = '\t' || c = '\x0c'

/-- The characters that end a line. -/
def isLineEnd (c : Char) : Bool :=
  c = '\r' || c = '\n'

/-- The characters that start an identifier. -/
def isWordStart (c : Char) : Bool :=
  c.isAlpha || c = '_'

/-- The characters that go on with an identifier or a number. -/
def isWordPart (c : Char) : Bool :=
  isWordStart c || c.isDigit

/-- The kind of a character that is a token by itself, whatever follows. -/
def ofPunctuation (c : Char) : Option Kind :=
  if c = ',' then some .comma
  else if c = ':' then some .colon
  else if c = ';' then some .semicolon
  else if c = '(' then some .lParen
  else if c = ')' then some .rParen
  else if c = '[' then some .lBracket
  else if c = ']' then some .rBracket
  else if c = '{' then some .lBrace
  else if c = '}' then some .rBrace
  else if c ∈ ['-', '+', '*', '%', '&', '|', '^', '~', '!', '=', '<', '>', '?', '@', '#', '$', '.']
  then some .operator
  else none

/-- Size of the rest of a block comment: through the first end mark, or to the end of the text. -/
def blockRest : Text → Nat
  | [] => 0
  | c :: text => if c = '*' ∧ text.head? = some '/' then 2 else c.utf8Size + blockRest text

/-- Size of the rest of a string: through the first quote that is not escaped, but the line and the
text end it as well. -/
def stringRest (escaped : Bool) : Text → Nat
  | [] => 0
  | c :: text =>
    if isLineEnd c then 0
    else if c = '"' ∧ !escaped then 1
    else c.utf8Size + stringRest (c = '\\' && !escaped) text

/-- The token that starts with `c`, where `text` follows: its kind and its size. -/
def recognise (c : Char) (text : Text) : Kind × Nat :=
  if isBlank c then (.whitespace, Text.size (c :: text.takeWhile isBlank))
  else if c = '\n' then (.eol, 1)
  else if c = '\r' ∧ text.head? = some '\n' then (.eol, 2)
  else if c = '/' then
    match text with
    | '/' :: text => (.lineComment, 2 + Text.size (text.takeWhile (!isLineEnd ·)))
    | '*' :: text => (.blockComment, 2 + blockRest text)
    | _ => (.operator, 1)
  else if c = '"' then (.stringLiteral, 1 + stringRest false text)
  else if isWordStart c then (.identifier, Text.size (c :: text.takeWhile isWordPart))
  else if c.isDigit then (.number, Text.size (c :: text.takeWhile isWordPart))
  else
    match ofPunctuation c with
    | some kind => (kind, 1)
    | none => (.unknown, c.utf8Size)

/-- The grammar. Only the empty text has no token at its front. -/
def scan : Grammar
  | [] => none
  | c :: text =>
    let (kind, size) := recognise c text
    some (kind.code, size)

/-- The class of a token code; codes of other grammars are unknown. -/
def classify (code : Nat) : TokenClass :=
  ((Kind.ofCode? code).map Kind.toClass).getD .unknown

/-- The lexer for assembly source. -/
def lexer : Lexer :=
  .ofGrammar scan classify

end Assembly

end LiveTokens
