import LiveTokens.Text

/-!
# Control sequences

Some characters tell a terminal what to do instead of being shown, alone or as the start of a longer
sequence. The escape character starts one: a bracket behind it leads to parameters up to a letter,
other characters to a string up to its end, and all others to one more letter or digit.

A text is shown without them. Once a character is shown, all that follow are, up to the next control
character. So a line end, which is shown even inside a sequence, takes the rest of it along.
-/

namespace LiveTokens

namespace Text

/-- How far a control sequence has come. -/
inductive Sequence where
  /-- There is none. -/
  | outside
  /-- Behind the escape character. -/
  | escape
  /-- In front of the character that ends a sequence of a few characters. -/
  | intermediate
  /-- In the parameters of a control function. -/
  | parameters
  /-- In a command to the operating system, which the bell character ends. -/
  | command
  /-- At the start of a string for the device. -/
  | device
  /-- In the parameters of such a string. -/
  | deviceParameters
  /-- Behind the parameters of such a string. -/
  | deviceIntermediate
  /-- In a string of any other kind, or in the body of one for the device. -/
  | string
deriving DecidableEq, Repr

namespace Sequence

/-- The character lies between two others, the ends included. -/
def between (first last c : Char) : Bool :=
  decide (first ≤ c) && decide (c ≤ last)

/-- One of the bytes of the character ends a string. -/
def endsString (c : Char) : Bool :=
  (String.utf8EncodeChar c).any (· == 0x9c)

/-- Where a character that is not shown leads. An escape starts anew from everywhere, and two
control characters break a sequence off. -/
def next (sequence : Sequence) (c : Char) : Sequence :=
  if c = '\x1b' then .escape
  else if c = '\x18' ∨ c = '\x1a' then .outside
  else
    match sequence with
    | .outside => .outside
    | .escape =>
      if between ' ' '/' c then .intermediate
      else if c = '[' then .parameters
      else if c = ']' then .command
      else if c = 'P' then .device
      else if c = 'X' ∨ c = '^' ∨ c = '_' then .string
      else if between '0' '~' c then .outside
      else .escape
    | .intermediate => if between '0' '~' c then .outside else .intermediate
    | .parameters => if between '@' '~' c then .outside else .parameters
    | .command => if c = '\x07' then .outside else .command
    | .device =>
      if between ' ' '/' c then .deviceIntermediate
      else if between '0' '?' c then .deviceParameters
      else if between '@' '~' c then .string
      else .device
    | .deviceParameters =>
      if between ' ' '/' c then .deviceIntermediate
      else if between '<' '~' c then .string
      else .deviceParameters
    | .deviceIntermediate => if between '0' '~' c then .string else .deviceIntermediate
    | .string => if endsString c then .outside else .string

/-- Line ends, form feeds and tabs. -/
def isLayout (c : Char) : Bool :=
  c = '\t' || c = '\n' || c = '\x0c' || c = '\r'

/-- Whether a character is shown at this point of a sequence. -/
def shows (sequence : Sequence) (c : Char) : Bool :=
  match sequence with
  | .outside => isLayout c || (decide (' ' ≤ c) && c ≠ '\x7f')
  | .escape => isLayout c
  | .intermediate => isLayout c
  | .parameters => isLayout c
  | _ => false

/-- What is shown of a text. While characters are being shown, the sequence that was interrupted is
kept in mind for the next control character. -/
def shown (sequence : Sequence) (showing : Bool) : Text → Text
  | [] => []
  | c :: text =>
    if shows (if showing then .outside else sequence) c then
      c :: shown (if c ≤ '\x7f' then sequence else .outside) true text
    else
      shown (sequence.next c) false text

end Sequence

/-- The text without control characters and control sequences. -/
def withoutControls (text : Text) : Text :=
  Sequence.shown .outside false text

end Text

end LiveTokens
