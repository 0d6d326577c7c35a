import DriverHeader.Json.Reader

/-! # Numbers

A number is an integer if it is written without point and exponent and fits into 64 bits, signed
if it is negative. Any other number is a floating-point number: its significand is cut where it
would leave 64 bits, and scaled by a power of ten.
-/
namespace DriverHeader.Json

structure Numeral where
  negative : Bool
  whole : Text
  fraction : Option Text
  exponent : Option Int

inductive Number
  | integer (value : Int)
  | float (value : Binary64)

def readDigits : Reader Text
  | [] => .error .endInValue
  | c :: rest =>
    if c.isDigit then
      .ok ((c :: rest).takeWhile Char.isDigit, (c :: rest).dropWhile Char.isDigit)
    else .error .badNumber

def readWholeDigits (s : Text) : Except Fault (Text × Text) := do
  let (digits, rest) ← readDigits s
  match digits with
  | '0' :: _ :: _ => .error .badNumber
  | _ => .ok (digits, rest)

def readFraction : Reader (Option Text)
  | '.' :: rest => (readDigits rest).map fun (digits, rest) => (some digits, rest)
  | rest => .ok (none, rest)

def readSignedDigits (s : Text) : Except Fault (Int × Text) :=
  let value (digits : Text) : Int := Nat.ofDigitChars 10 digits 0
  match s with
  | '-' :: rest => (readDigits rest).map fun (digits, rest) => (-value digits, rest)
  | '+' :: rest => (readDigits rest).map fun (digits, rest) => (value digits, rest)
  | rest => (readDigits rest).map fun (digits, rest) => (value digits, rest)

def readExponent : Reader (Option Int)
  | 'e' :: rest | 'E' :: rest =>
    (readSignedDigits rest).map fun (exponent, rest) => (some exponent, rest)
  | rest => .ok (none, rest)

def readUnsignedNumeral (negative : Bool) (s : Text) : Except Fault (Numeral × Text) := do
  let (whole, rest) ← readWholeDigits s
  let (fraction, rest) ← readFraction rest
  let (exponent, rest) ← readExponent rest
  .ok ({ negative, whole, fraction, exponent }, rest)

def readNumeral : Reader Numeral
  | '-' :: rest => readUnsignedNumeral true rest
  | rest => readUnsignedNumeral false rest

/-- A significand under construction: digits are appended while it stays below `2 ^ 64`. -/
structure Significand where
  value : Nat
  exponent : Int
  full : Bool

namespace Significand

def push? (significand : Significand) (digit : Char) : Option Nat :=
  let value := Nat.ofDigitChars 10 [digit] significand.value
  if significand.full || UInt64.size ≤ value then none else some value

/-- A digit before the point; one that finds no room raises the exponent. -/
def pushWhole (significand : Significand) (digit : Char) : Significand :=
  match significand.push? digit with
  | some value => { significand with value }
  | none => { significand with exponent := significand.exponent + 1, full := true }

/-- A digit after the point; one that finds no room is dropped with all that follow. -/
def pushFraction (significand : Significand) (digit : Char) : Significand :=
  match significand.push? digit with
  | some value => { significand with value, exponent := significand.exponent - 1 }
  | none => { significand with full := true }

def ofDigits (whole fraction : Text) : Significand :=
  let before := whole.foldl pushWhole ⟨0, 0, false⟩
  fraction.foldl pushFraction { before with full := false }

end Significand

namespace Numeral

def toFloat (numeral : Numeral) : Except Fault Binary64 :=
  let significand := Significand.ofDigits numeral.whole (numeral.fraction.getD [])
  let exponent := significand.exponent + numeral.exponent.getD 0
  match Magnitude.ofDecimal? significand.value exponent with
  | some magnitude => .ok ⟨numeral.negative, magnitude⟩
  | none => .error .numberTooLarge

/-- The integer that a numeral stands for, if it is written as one and fits into 64 bits. A
negative zero is no integer. -/
def toInt? (numeral : Numeral) : Option Int :=
  let value := Nat.ofDigitChars 10 numeral.whole 0
  if numeral.fraction.isSome || numeral.exponent.isSome then none
  else if numeral.negative then
    if 0 < value ∧ 2 * value ≤ UInt64.size then some (-(value : Int)) else none
  else if value < UInt64.size then some value
  else none

def toNumber (numeral : Numeral) : Except Fault Number :=
  match numeral.toInt? with
  | some value => .ok (.integer value)
  | none => numeral.toFloat.map .float

end Numeral

def readNumber (s : Text) : Except Fault (Number × Text) := do
  let (numeral, rest) ← readNumeral s
  let number ← numeral.toNumber
  .ok (number, rest)

/-- Passes over a number of any size; whatever is wrong with it, it is no number. -/
def skipNumber (s : Text) : Except Fault Text :=
  match readNumeral s with
  | .ok (_, rest) => .ok rest
  | .error _ => .error .badNumber

def Number.unexpected : Number → Unexpected
  | integer value => .integer value
  | float value => .float value

end DriverHeader.Json
