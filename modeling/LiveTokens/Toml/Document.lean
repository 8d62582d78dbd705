import LiveTokens.Toml.Quotation

/-!
# TOML documents

A document is a sequence of lines: headers, and keys with their values. Arrays and inline tables
nest, up to a depth of `nestingLimit`. A document that breaks a rule has no content at all.
-/

namespace LiveTokens

namespace Toml

/-- Arrays and inline tables nest less deep than this, and dotted keys have fewer parts. -/
def nestingLimit : Nat := 80

/-- The text without the blanks at its front. -/
def skipBlanks (text : Text) : Text :=
  text.dropWhile isBlank

/-- The text without a comment at its front. -/
def skipComment : Text → Text
  | '#' :: rest => rest.dropWhile isPlain
  | text => text

/-- The next line, if there is nothing on this one but blanks and a comment. -/
def nextLine? (text : Text) : Option Text :=
  match skipComment (skipBlanks text) with
  | [] => some []
  | rest => lineEnd? rest

theorem length_skipBlanks_le (text : Text) : (skipBlanks text).length ≤ text.length :=
  (List.dropWhile_sublist isBlank).length_le

theorem length_skipComment_le (text : Text) : (skipComment text).length ≤ text.length := by
  unfold skipComment
  split
  · next rest =>
    have := (List.dropWhile_sublist isPlain (l := rest)).length_le
    rw [List.length_cons]
    omega
  · exact Nat.le_refl _

/-- The next line is shorter than the text, unless there is no more text at all. -/
theorem length_lt_of_nextLine? {text rest : Text} (h : nextLine? text = some rest)
    (hrest : rest ≠ []) : rest.length < text.length := by
  have hle : (skipComment (skipBlanks text)).length ≤ text.length :=
    Nat.le_trans (length_skipComment_le _) (length_skipBlanks_le _)
  unfold nextLine? at h
  split at h
  · simp only [Option.some.injEq] at h
    exact absurd h.symm hrest
  · have := length_lt_of_lineEnd? h
    omega

/-- The text without blank lines and comments at its front. -/
def skipLines (text : Text) : Text :=
  match h : nextLine? text with
  | none => skipBlanks text
  | some [] => []
  | some (c :: rest) =>
    have := length_lt_of_nextLine? h (by simp)
    skipLines (c :: rest)
termination_by text.length

/-- The characters of a key without quotes. -/
def isKeyPart (c : Char) : Bool :=
  c.isAlphanum || c = '_' || c = '-'

/-- One part of a key. Quotations over several lines are no keys. -/
def readKeyPart : Text → Option (Text × Text)
  | '"' :: rest => readBasic rest
  | '\x27' :: rest => readLiteral rest
  | text =>
    match text.takeWhile isKeyPart with
    | [] => none
    | key => some (key, text.dropWhile isKeyPart)

/-- A key of at most `limit` parts: all but the last, the last, and the text behind it. -/
def readKey : (limit : Nat) → Text → Option (List Text × Text × Text)
  | 0, _ => none
  | limit + 1, text => do
    let (part, rest) ← readKeyPart (skipBlanks text)
    match skipBlanks rest with
    | '.' :: rest => do
      let (path, key, rest) ← readKey limit rest
      return (part :: path, key, rest)
    | rest => return ([], part, rest)

/-- A reader of values. -/
abbrev ValueReader : Type :=
  Text → Option (Value × Text)

/-- The rest of an array, in front of an element or the end. A comma may stand behind the last
element. There are no more elements than characters in `limit`, a text that is as long. -/
def readElements (readValue : ValueReader) (limit text : Text) : Option (List Value × Text) :=
  match skipLines text, limit with
  | ']' :: rest, _ => some ([], rest)
  | elementText, _ :: limit => do
    let (element, rest) ← readValue elementText
    match skipLines rest with
    | ']' :: rest => return ([element], rest)
    | ',' :: rest => do
      let (elements, rest) ← readElements readValue limit rest
      return (element :: elements, rest)
    | _ => none
  | _, [] => none

/-- A key with its value, put into a table. -/
def readPair (readValue : ValueReader) (assign : List Text → Text → Value → Option Entries)
    (text : Text) : Option (Entries × Text) := do
  let (path, key, rest) ← readKey (nestingLimit - 1) text
  match rest with
  | '=' :: rest => do
    let (value, rest) ← readValue (skipBlanks rest)
    return (← assign path key value, rest)
  | _ => none

/-- The rest of an inline table, in front of a key. All of it is on one line. There are no more keys
than characters in `limit`, a text that is as long. -/
def readPairs (readValue : ValueReader) (table : Entries) (limit text : Text) :
    Option (Entries × Text) :=
  match limit with
  | [] => none
  | _ :: limit => do
    let (table, rest) ← readPair readValue table.assign text
    match skipBlanks rest with
    | '}' :: rest => return (table, rest)
    | ',' :: rest => readPairs readValue table limit rest
    | _ => none

/-- The value at the front of a text, and the rest. Arrays and inline tables nest at most `depth`
levels deep. -/
def readValue : (depth : Nat) → ValueReader
  | _, '"' :: rest => (readQuotation ('"' :: rest)).map fun (text, rest) => (.string text, rest)
  | _, '\x27' :: rest =>
    (readQuotation ('\x27' :: rest)).map fun (text, rest) => (.string text, rest)
  | 0, '[' :: _ => none
  | depth + 1, '[' :: rest =>
    (readElements (readValue depth) rest rest).map fun (elements, rest) => (.array elements, rest)
  | 0, '{' :: _ => none
  | depth + 1, '{' :: rest =>
    match skipBlanks rest with
    | '}' :: rest => some (.table .inline [], rest)
    | _ =>
      (readPairs (readValue depth) [] rest rest).map fun (table, rest) =>
        (.table .inline table, rest)
  | _, text => readBare text

/-- The content of the lines so far, and the path of the table that was opened last. -/
structure Content where
  entries : Entries := []
  header : List Text := []
deriving Repr

/-- A header line behind its opening brackets. -/
def readHeader (close : Text) (openAt : List Text → Text → Option Entries)
    (text : Text) : Option (Content × Text) := do
  let (path, key, rest) ← readKey (nestingLimit - 1) text
  if rest.take close.length = close then do
    let entries ← openAt path key
    return ({ entries := entries, header := path ++ [key] }, ← nextLine? (rest.drop close.length))
  else
    none

/-- One line that is not blank. -/
def readLine (content : Content) : Text → Option (Content × Text)
  | '[' :: '[' :: rest => readHeader [']', ']'] content.entries.openElement rest
  | '[' :: rest => readHeader [']'] content.entries.openTable rest
  | text => do
    let (entries, rest) ← readPair (readValue (nestingLimit - 1))
      (content.entries.assignUnder content.header) text
    return ({ content with entries := entries }, ← nextLine? rest)

/-- All lines, added to the content of the lines in front of them. There are no more lines than
characters in `limit`, a text that is as long. -/
def readLines (content : Content) (limit text : Text) : Option Content :=
  match skipLines text, limit with
  | [], _ => some content
  | line, _ :: limit => do
    let (content, rest) ← readLine content line
    readLines content limit rest
  | _, [] => none

/-- The text without a byte order mark at its start. -/
def skipMark : Text → Text
  | '\ufeff' :: rest => rest
  | text => text

/-- The content of a document. A byte order mark at its start does not count. -/
def parse? (text : Text) : Option Entries :=
  (readLines {} (skipMark text) (skipMark text)).map (·.entries)

end Toml

end LiveTokens
