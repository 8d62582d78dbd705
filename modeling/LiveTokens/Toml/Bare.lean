import LiveTokens.Toml.Value

/-!
# Bare TOML values

Values that are written without quotes or brackets: truth values, integers, floating-point numbers,
dates and times. Each is a run of letters, digits and a few signs, and the whole run has to make
sense.
-/

namespace LiveTokens

namespace Toml

/-- The characters that a bare value is made of. -/
def isBarePart (c : Char) : Bool :=
  c.isAlphanum || c ∈ ['+', '-', '.', '_', ':']

/-- The value of a digit, if it is one in the given base. -/
def digit? (base : Nat) (c : Char) : Option Nat :=
  let value :=
    if c.isDigit then c.toNat - '0'.toNat
    else if 'a' ≤ c ∧ c ≤ 'z' then c.toNat - 'a'.toNat + 10
    else if 'A' ≤ c ∧ c ≤ 'Z' then c.toNat - 'A'.toNat + 10
    else base
  if value < base then some value else none

/-- The digits of a number without the underscores between them. -/
def digits? (base : Nat) : Text → Option (List Nat)
  | [] => none
  | [c] => (digit? base c).map fun value => [value]
  | c :: '_' :: rest => do
    let value ← digit? base c
    return value :: (← digits? base rest)
  | c :: rest => do
    let value ← digit? base c
    return value :: (← digits? base rest)

/-- The number with the given digits, the highest first. -/
def ofDigits (base : Nat) (digits : List Nat) : Nat :=
  digits.foldl (fun number digit => number * base + digit) 0

/-- Decimal digits, of which the first is only zero if it is alone. -/
def decimal? (text : Text) : Option (List Nat) := do
  match ← digits? 10 text with
  | 0 :: _ :: _ => none
  | digits => return digits

/-- A sign in front of a number, and the rest. -/
def sign : Text → Bool × Text
  | '+' :: rest => (false, rest)
  | '-' :: rest => (true, rest)
  | rest => (false, rest)

/-- A number with a minus in front of it, or without. -/
def signed (negative : Bool) (number : Nat) : Int :=
  if negative then -number else number

/-- The digits without the zeros in front of them. -/
def significant (digits : List Nat) : List Nat :=
  digits.dropWhile (· == 0)

/-- An integer that fits into 64 bits with its sign. In no base it has more digits than bits. -/
def fitting? (negative : Bool) (base : Nat) (digits : List Nat) : Option Int :=
  let digits := significant digits
  if 64 < digits.length then none
  else
    let number := signed negative (ofDigits base digits)
    let limit : Nat := 1 <<< 63
    if -limit ≤ number ∧ number < limit then some number else none

/-- An integer in one of four bases. -/
def integer? : Text → Option Int
  | '0' :: 'x' :: rest => (digits? 16 rest).bind (fitting? false 16)
  | '0' :: 'o' :: rest => (digits? 8 rest).bind (fitting? false 8)
  | '0' :: 'b' :: rest => (digits? 2 rest).bind (fitting? false 2)
  | text =>
    let (negative, rest) := sign text
    (decimal? rest).bind (fitting? negative 10)

/-- Splits a text at the first character with a property. -/
def splitFirst (p : Char → Bool) (text : Text) : Text × Option Text :=
  match text.dropWhile (!p ·) with
  | [] => (text, none)
  | _ :: rest => (text.takeWhile (!p ·), some rest)

/-- The number with the given digits times a power of ten is too large to be told from infinity by a
64-bit floating-point number. The bound is an integer, so digits behind the point do not matter. -/
def isHuge (digits : List Nat) (exponent : Int) : Bool :=
  let digits := significant digits
  let magnitude := exponent + digits.length
  if digits.isEmpty || magnitude < 300 then false
  else if 400 < magnitude then true
  else
    let whole := ofDigits 10 (digits.take magnitude.toNat) * Nat.pow 10 exponent.toNat
    decide (1 <<< 1024 - 1 <<< 970 ≤ whole)

/-- The exponent with the given digits. Digits behind one that brings it to `2 ^ 16` do not count. -/
def ofExponentDigits (digits : List Nat) : Nat :=
  digits.foldl (fun number digit => if number < 1 <<< 16 then number * 10 + digit else number) 0

/-- The exponent of a floating-point number; zero if there is none. -/
def exponent? : Option Text → Option Int
  | none => some 0
  | some text =>
    let (negative, rest) := sign text
    (digits? 10 rest).map fun digits => signed negative (ofExponentDigits digits)

/-- The digits of a fraction, if there is one. -/
def fraction? : Option Text → Option (List Nat)
  | none => some []
  | some text => digits? 10 text

/-- A floating-point number. There is a fraction, an exponent, or both; a huge positive one is no
number. -/
def isFloat (text : Text) : Bool :=
  let (negative, unsigned) := sign text
  let (mantissa, exponent) := splitFirst (fun c => c = 'e' || c = 'E') unsigned
  let (whole, fraction) := splitFirst (· = '.') mantissa
  if unsigned = "inf".toList ∨ unsigned = "nan".toList then
    true
  else
    match decimal? whole, fraction? fraction, exponent? exponent with
    | some wholeDigits, some digits, some power =>
      (fraction.isSome || exponent.isSome) &&
        (negative || !isHuge (wholeDigits ++ digits) (power - digits.length))
    | _, _, _ => false

/-- Number of days in a month. -/
def daysIn (year month : Nat) : Nat :=
  if month = 2 then
    if year % 4 = 0 ∧ (year % 100 ≠ 0 ∨ year % 400 = 0) then 29 else 28
  else if month ∈ [4, 6, 9, 11] then 30
  else 31

/-- A number with a fixed count of decimal digits at the front of a text, and the rest. -/
def fixed? (count : Nat) (text : Text) : Option (Nat × Text) :=
  let front := text.take count
  if front.length = count ∧ front.all Char.isDigit then
    some (ofDigits 10 (front.map fun c => c.toNat - '0'.toNat), text.drop count)
  else
    none

/-- A mark at the front of a text. -/
def mark? (p : Char → Bool) : Text → Option Text
  | [] => none
  | c :: rest => if p c then some rest else none

/-- The rest of a text behind a date. -/
def date? (text : Text) : Option Text := do
  let (year, text) ← fixed? 4 text
  let (month, text) ← fixed? 2 (← mark? (· = '-') text)
  let (day, text) ← fixed? 2 (← mark? (· = '-') text)
  if 1 ≤ month ∧ month ≤ 12 ∧ 1 ≤ day ∧ day ≤ daysIn year month then some text else none

/-- The rest of a text behind a time of day. A leap second is a second. -/
def time? (text : Text) : Option Text := do
  let (hour, text) ← fixed? 2 text
  let (minute, text) ← fixed? 2 (← mark? (· = ':') text)
  let (second, text) ← fixed? 2 (← mark? (· = ':') text)
  if hour < 24 ∧ minute < 60 ∧ second ≤ 60 then
    match text with
    | '.' :: c :: rest => if c.isDigit then some (rest.dropWhile Char.isDigit) else none
    | _ => some text
  else
    none

/-- The rest of a text behind an offset from universal time, if there is one. -/
def offset? (text : Text) : Option Text :=
  match text with
  | [] => some []
  | c :: rest =>
    if c = 'Z' ∨ c = 'z' then some rest
    else if c = '+' ∨ c = '-' then do
      let (hour, text) ← fixed? 2 rest
      let (minute, text) ← fixed? 2 (← mark? (· = ':') text)
      if hour < 24 ∧ minute < 60 then some text else none
    else none

/-- A time of day and an optional offset, and nothing else. -/
def isTimeWithOffset (text : Text) : Bool :=
  ((time? text).bind offset?) = some []

/-- A date by itself. -/
def isDate (text : Text) : Bool :=
  date? text = some []

/-- A date, a time of day, or both with an optional offset. -/
def isDateTime (text : Text) : Bool :=
  match date? text with
  | none => time? text = some []
  | some [] => true
  | some (c :: rest) => (c = 'T' || c = 't' || c = ' ') && isTimeWithOffset rest

/-- The value of a whole run of characters. -/
def bareValue? (text : Text) : Option Value :=
  if text = "true".toList then some (.boolean true)
  else if text = "false".toList then some (.boolean false)
  else
    match integer? text with
    | some number => some (.integer number)
    | none =>
      if isFloat text then some (.float text)
      else if isDateTime text then some (.dateTime text)
      else none

/-- The value at the front of a text, and the rest. A time may follow its date after a space. -/
def readBare (text : Text) : Option (Value × Text) :=
  let run := text.takeWhile isBarePart
  let rest := text.dropWhile isBarePart
  match rest with
  | ' ' :: behind =>
    let clock := behind.takeWhile isBarePart
    if isDate run && isTimeWithOffset clock then
      some (.dateTime (run ++ ' ' :: clock), behind.dropWhile isBarePart)
    else
      (bareValue? run).map fun value => (value, rest)
  | _ => (bareValue? run).map fun value => (value, rest)

end Toml

end LiveTokens
