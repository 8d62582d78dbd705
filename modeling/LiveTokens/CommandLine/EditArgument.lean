import LiveTokens.Edit

/-!
# Edit arguments

An edit on the command line has the form `START..END=TEXT`. The first equals sign ends the range,
and the first two dots in it separate the numbers; whatever follows the equals sign is the text.
-/

namespace LiveTokens

/-- Why a text is no position. -/
inductive NumeralError where
  | empty
  | invalidDigit
  | tooLarge
deriving DecidableEq, Repr

/-- The wording of a numeral error. -/
def NumeralError.message : NumeralError → String
  | .empty => "cannot parse integer from empty string"
  | .invalidDigit => "invalid digit found in string"
  | .tooLarge => "number too large to fit in target type"

/-- Why an argument is no edit. -/
inductive EditArgumentError where
  | noText
  | noRange
  | badStart (error : NumeralError)
  | badEnd (error : NumeralError)
  | reversed
deriving DecidableEq, Repr

/-- The wording of an argument error. -/
def EditArgumentError.message : EditArgumentError → String
  | .noText => "expected START..END=TEXT"
  | .noRange => "expected START..END"
  | .badStart error => s!"bad start offset: {error.message}"
  | .badEnd error => s!"bad end offset: {error.message}"
  | .reversed => "end comes before start"

namespace EditArgument

/-- Reads decimal digits behind those that gave `number`. The first fault counts, be it a character
that is no digit or a number that is no position. -/
def readDigits (number : Nat) : Text → Except NumeralError Nat
  | [] => .ok number
  | c :: rest =>
    if c.isDigit then
      let number := number * 10 + (c.toNat - '0'.toNat)
      if number < positionBound then readDigits number rest else .error .tooLarge
    else
      .error .invalidDigit

/-- Reads a position: decimal digits, with or without a plus sign in front. -/
def readPosition : Text → Except NumeralError Nat
  | [] => .error .empty
  | ['+'] => .error .invalidDigit
  | '+' :: digits => readDigits 0 digits
  | digits => readDigits 0 digits

/-- The text in front of the first equals sign and the text behind it. -/
def splitText : Text → Option (Text × Text)
  | [] => none
  | '=' :: rest => some ([], rest)
  | c :: rest => (splitText rest).map fun (front, back) => (c :: front, back)

/-- The text in front of the first two dots and the text behind them. -/
def splitRange : Text → Option (Text × Text)
  | [] => none
  | '.' :: '.' :: rest => some ([], rest)
  | c :: rest => (splitRange rest).map fun (front, back) => (c :: front, back)

/-- Reads the range of an edit. -/
def parseRange (range : Text) : Except EditArgumentError Span :=
  match splitRange range with
  | none => .error .noRange
  | some (front, back) => do
    let start ← (readPosition front).mapError .badStart
    let stop ← (readPosition back).mapError .badEnd
    match Span.between? start stop with
    | none => .error .reversed
    | some span => return span

/-- Reads an edit. -/
def parse (argument : Text) : Except EditArgumentError Replacement :=
  match splitText argument with
  | none => .error .noText
  | some (range, text) => do
    return ⟨← parseRange range, text⟩

end EditArgument

end LiveTokens
