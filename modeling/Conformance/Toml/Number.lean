import Conformance.Toml.Text
import Conformance.Value

/-!
# Numbers and dates in configuration files

Integers may be written to four bases and with underscores between their digits.  Numbers with a
fraction or an exponent, dates and times are checked for their form; what they mean is not used.
-/

namespace Conformance
namespace Toml

/-- Digits with underscores between them: the digits, and what follows. -/
def moreDigits (isDigit : Char → Bool) : List Char → List Char × List Char
  | '_' :: character :: rest =>
      if isDigit character then
        let (digits, after) := moreDigits isDigit rest
        (character :: digits, after)
      else ([], '_' :: character :: rest)
  | character :: rest =>
      if isDigit character then
        let (digits, after) := moreDigits isDigit rest
        (character :: digits, after)
      else ([], character :: rest)
  | [] => ([], [])

/-- One or more digits with underscores between them. -/
def readDigits? (isDigit : Char → Bool) : List Char → Option (List Char × List Char)
  | character :: rest =>
      if isDigit character then
        let (digits, after) := moreDigits isDigit rest
        some (character :: digits, after)
      else none
  | [] => none

/-- The sign that a number begins with: whether it is a minus, and what follows. -/
def readSign : List Char → Bool × List Char
  | '-' :: rest => (true, rest)
  | '+' :: rest => (false, rest)
  | text => (false, text)

/-- Decimal digits without superfluous zeros in front. -/
def readDecimal? : List Char → Option (List Char × List Char)
  | '0' :: rest => some (['0'], rest)
  | text => readDigits? Char.isDigit text

/-- The number that decimal digits write. -/
def decimalValue (digits : List Char) : Nat :=
  digits.foldl (fun number digit => number * 10 + (digit.toNat - '0'.toNat)) 0

/-- The integer, if 64 bits with a sign hold it. -/
def boundedInteger? (number : Int) : Option Value :=
  let limit := Int.ofNat 9223372036854775808
  if -limit ≤ number ∧ number < limit then some (.integer number) else none

/-- Whether a character is a digit to a base of at most sixteen. -/
def isDigitOf (base : Nat) (character : Char) : Bool :=
  (hexadecimal? [character]).any (· < base)

/-- An integer to another base than ten, after the mark of the base. -/
def readBased? (base : Nat) (text : List Char) : Option (Value × List Char) := do
  let (digits, rest) ← readDigits? (isDigitOf base) text
  let number := digits.foldl (fun number digit =>
    number * base + (hexadecimal? [digit]).getD 0) 0
  return (← boundedInteger? (.ofNat number), rest)

/-- The exponent of a number, if it has one. -/
def readExponent? (text : List Char) : Option (Int × List Char) :=
  match text with
  | 'e' :: rest | 'E' :: rest => do
      let (isNegative, rest) := readSign rest
      let (digits, rest) ← readDigits? Char.isDigit rest
      let value := Int.ofNat (decimalValue digits)
      return (if isNegative then -value else value, rest)
  | text => some (0, text)

/-- Whether `digits` times ten to the power `exponent` rounds to a finite floating-point number:
the numbers from half a unit above the largest one on do not. -/
def isFinite (digits : List Char) (exponent : Int) : Bool :=
  let significant := digits.dropWhile (· == '0')
  let magnitude := Int.ofNat significant.length + exponent
  if significant.isEmpty then true
  else if magnitude > 310 then false
  else if magnitude < 300 then true
  else
    let number := decimalValue significant
    let limit := Nat.pow 2 1024 - Nat.pow 2 970
    match exponent with
    | .ofNat power => decide (number * Nat.pow 10 power < limit)
    | .negSucc power => decide (number < limit * Nat.pow 10 (power + 1))

/-- A number with a fraction or an exponent, whose digits before the point are read already.  It
must not be too large, unless it is negative. -/
def readFraction?
    (isNegative : Bool)
    (whole : List Char)
    (text : List Char) :
    Option (List Char) := do
  let (fraction, afterFraction) ←
    match text with
    | '.' :: rest => readDigits? Char.isDigit rest
    | text => some ([], text)
  let (exponent, rest) ← readExponent? afterFraction
  if isNegative || isFinite (whole ++ fraction) (exponent - Int.ofNat fraction.length) then
    some rest
  else none

/-- A decimal number. -/
def readNumber? (text : List Char) : Option (Value × List Char) :=
  let (isNegative, unsigned) := readSign text
  match unsigned with
  | 'i' :: 'n' :: 'f' :: rest => some (.decimal "inf", rest)
  | 'n' :: 'a' :: 'n' :: rest => some (.decimal "nan", rest)
  | _ => do
      let (digits, rest) ← readDecimal? unsigned
      match rest with
      | '.' :: _ | 'e' :: _ | 'E' :: _ =>
          let after ← readFraction? isNegative digits rest
          return (.decimal (String.ofList (text.take (text.length - after.length))), after)
      | _ =>
          let value := Int.ofNat (decimalValue digits)
          return (← boundedInteger? (if isNegative then -value else value), rest)

/-- A number of exactly so many digits. -/
def readFixed? (count : Nat) (text : List Char) : Option (Nat × List Char) :=
  let digits := text.take count
  if digits.length = count ∧ digits.all Char.isDigit then
    some (decimalValue digits, text.drop count)
  else none

/-- A number of two digits between two limits. -/
def readBetween? (least greatest : Nat) (text : List Char) : Option (Nat × List Char) := do
  let (number, rest) ← readFixed? 2 text
  if least ≤ number ∧ number ≤ greatest then some (number, rest) else none

/-- What follows a character that the text has to begin with. -/
def afterCharacter? (expected : Char) : List Char → Option (List Char)
  | character :: rest => if character = expected then some rest else none
  | [] => none

/-- The number of days in a month. -/
def daysIn (year month : Nat) : Nat :=
  if month = 2 then
    if year % 4 = 0 ∧ (year % 100 ≠ 0 ∨ year % 400 = 0) then 29 else 28
  else if month = 4 ∨ month = 6 ∨ month = 9 ∨ month = 11 then 30
  else 31

/-- What follows a date. -/
def afterDate? (text : List Char) : Option (List Char) := do
  let (year, rest) ← readFixed? 4 text
  let (month, rest) ← readBetween? 1 12 (← afterCharacter? '-' rest)
  let (_, rest) ← readBetween? 1 (daysIn year month) (← afterCharacter? '-' rest)
  return rest

/-- What follows a time of the day. -/
def afterTime? (text : List Char) : Option (List Char) := do
  let (_, rest) ← readBetween? 0 23 text
  let (_, rest) ← readBetween? 0 59 (← afterCharacter? ':' rest)
  let (_, rest) ← readBetween? 0 60 (← afterCharacter? ':' rest)
  match rest with
  | '.' :: fraction =>
      if fraction.head?.any Char.isDigit then some (fraction.dropWhile Char.isDigit) else none
  | rest => some rest

/-- What follows the offset of a time from the universal one, if there is any. -/
def afterOffset? (text : List Char) : Option (List Char) :=
  match text with
  | 'Z' :: rest | 'z' :: rest => some rest
  | '+' :: rest | '-' :: rest => do
      let (_, rest) ← readBetween? 0 23 rest
      let (_, rest) ← readBetween? 0 59 (← afterCharacter? ':' rest)
      return rest
  | text => some text

/-- Whether an hour and a colon stand at the beginning of a text. -/
def beginsWithHour (text : List Char) : Bool :=
  (readBetween? 0 23 text).any fun (_, rest) => rest.head? == some ':'

/-- What follows a date that may be continued by a time. -/
def afterDateTime? (text : List Char) : Option (List Char) := do
  let rest ← afterDate? text
  match rest with
  | 'T' :: time | 't' :: time | ' ' :: time =>
      if beginsWithHour time then afterOffset? (← afterTime? time) else some rest
  | rest => some rest

/-- A date, a time or both. -/
def readDate? (text : List Char) : Option (Value × List Char) := do
  let after ← if beginsWithHour text then afterTime? text else afterDateTime? text
  return (.date (String.ofList (text.take (text.length - after.length))), after)

/-- Whether a text begins like a date or a time. -/
def beginsLikeDate (text : List Char) : Bool :=
  beginsWithHour text || (readFixed? 4 text).any fun (_, rest) => rest.head? == some '-'

/-- A number, a date or a time. -/
def readScalar? (text : List Char) : Option (Value × List Char) :=
  if beginsLikeDate text then readDate? text
  else
    match text with
    | '0' :: 'x' :: rest => readBased? 16 rest
    | '0' :: 'o' :: rest => readBased? 8 rest
    | '0' :: 'b' :: rest => readBased? 2 rest
    | _ => readNumber? text

example : readScalar? "1_000,".toList = some (.integer 1000, [',']) := by
  cbv

example : readScalar? "9223372036854775808".toList = none := by
  cbv

end Toml
end Conformance
