import LiveTokens.Toml.Bare

/-!
# Quotations in TOML

There are four kinds of quotations: basic ones with escapes, literal ones without, and both of them
over several lines. The readers here start behind the opening mark and give the quoted text and what
follows the closing mark.
-/

namespace LiveTokens

namespace Toml

/-- Blanks inside a line. -/
def isBlank (c : Char) : Bool :=
  c = ' ' || c = '\t'

/-- Characters that may stand in a comment or a quotation: no controls except for the tab. -/
def isPlain (c : Char) : Bool :=
  c = '\t' || (decide (' ' ≤ c) && c != '\x7f')

/-- The text behind an end of line, if there is one at the front. -/
def lineEnd? : Text → Option Text
  | '\n' :: rest => some rest
  | '\r' :: '\n' :: rest => some rest
  | _ => none

theorem length_lt_of_lineEnd? {text rest : Text} (h : lineEnd? text = some rest) :
    rest.length < text.length := by
  unfold lineEnd? at h
  split at h
  · simp only [Option.some.injEq] at h
    rw [List.length_cons, h]
    omega
  · simp only [Option.some.injEq] at h
    rw [List.length_cons, List.length_cons, h]
    omega
  · simp at h

/-- The character behind a one-letter escape. -/
def escaped? (c : Char) : Option Char :=
  if c = 'b' then some '\x08'
  else if c = 't' then some '\t'
  else if c = 'n' then some '\n'
  else if c = 'f' then some '\x0c'
  else if c = 'r' then some '\r'
  else if c = '"' ∨ c = '\\' then some c
  else none

/-- The character with a code point written in hexadecimal digits. -/
def codePoint? (written : Text) : Option Char := do
  let digits ← written.mapM (digit? 16)
  let number := ofDigits 16 digits
  if h : number.isValidChar then some (Char.ofNatAux number h) else none

/-- Puts a character in front of what was read. -/
def prepend (c : Char) : Text × Text → Text × Text
  | (front, rest) => (c :: front, rest)

/-- The rest of a basic quotation. -/
def readBasic : Text → Option (Text × Text)
  | [] => none
  | '"' :: rest => some ([], rest)
  | '\\' :: 'u' :: a :: b :: c :: d :: rest => do
    return prepend (← codePoint? [a, b, c, d]) (← readBasic rest)
  | '\\' :: 'U' :: a :: b :: c :: d :: e :: f :: g :: h :: rest => do
    return prepend (← codePoint? [a, b, c, d, e, f, g, h]) (← readBasic rest)
  | '\\' :: c :: rest => do
    return prepend (← escaped? c) (← readBasic rest)
  | c :: rest =>
    if isPlain c ∧ c ≠ '\\' then (readBasic rest).map (prepend c) else none

/-- The rest of a literal quotation. -/
def readLiteral : Text → Option (Text × Text)
  | [] => none
  | '\x27' :: rest => some ([], rest)
  | c :: rest => if isPlain c then (readLiteral rest).map (prepend c) else none

/-- The rest of a basic quotation over several lines. Up to two quotes may stand in front of the
closing mark. After a backslash at the end of a line, `trimming` is on until the next character that
can be seen. -/
def readLongBasic (trimming : Bool) : Text → Option (Text × Text)
  | [] => none
  | '"' :: '"' :: '"' :: '"' :: '"' :: rest => some (['"', '"'], rest)
  | '"' :: '"' :: '"' :: '"' :: rest => some (['"'], rest)
  | '"' :: '"' :: '"' :: rest => some ([], rest)
  | '\\' :: 'u' :: a :: b :: c :: d :: rest => do
    return prepend (← codePoint? [a, b, c, d]) (← readLongBasic false rest)
  | '\\' :: 'U' :: a :: b :: c :: d :: e :: f :: g :: h :: rest => do
    return prepend (← codePoint? [a, b, c, d, e, f, g, h]) (← readLongBasic false rest)
  | '\\' :: c :: rest =>
    match escaped? c with
    | some escaped => (readLongBasic false rest).map (prepend escaped)
    | none =>
      if (lineEnd? ((c :: rest).dropWhile isBlank)).isSome then readLongBasic true (c :: rest)
      else none
  | '\r' :: '\n' :: rest =>
    if trimming then readLongBasic true rest
    else (readLongBasic false rest).map (prepend '\n')
  | c :: rest =>
    if trimming ∧ (isBlank c ∨ c = '\n') then readLongBasic true rest
    else if (isPlain c ∧ c ≠ '\\') ∨ c = '\n' then (readLongBasic false rest).map (prepend c)
    else none

/-- The rest of a literal quotation over several lines. -/
def readLongLiteral : Text → Option (Text × Text)
  | [] => none
  | '\x27' :: '\x27' :: '\x27' :: '\x27' :: '\x27' :: rest => some (['\x27', '\x27'], rest)
  | '\x27' :: '\x27' :: '\x27' :: '\x27' :: rest => some (['\x27'], rest)
  | '\x27' :: '\x27' :: '\x27' :: rest => some ([], rest)
  | '\r' :: '\n' :: rest => (readLongLiteral rest).map (prepend '\n')
  | c :: rest =>
    if isPlain c ∨ c = '\n' then (readLongLiteral rest).map (prepend c) else none

/-- The text without an end of line at its front. -/
def skipLineEnd (text : Text) : Text :=
  (lineEnd? text).getD text

/-- A quotation of any kind at the front of a text. -/
def readQuotation : Text → Option (Text × Text)
  | '"' :: '"' :: '"' :: rest => readLongBasic false (skipLineEnd rest)
  | '\x27' :: '\x27' :: '\x27' :: rest => readLongLiteral (skipLineEnd rest)
  | '"' :: rest => readBasic rest
  | '\x27' :: rest => readLiteral rest
  | _ => none

end Toml

end LiveTokens
