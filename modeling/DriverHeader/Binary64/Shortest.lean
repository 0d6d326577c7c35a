import DriverHeader.Binary64
import DriverHeader.Text

/-! # Shortest decimal texts

A floating-point number is written with the fewest digits that read back as the same number; of
several such decimals the nearest is taken, and the even one from a tie.
-/
namespace DriverHeader

structure Decimal where
  coefficient : Nat
  exponent : Int

namespace Magnitude

/-- Whether a quotient rounds to `x`: it lies between the midpoints towards both neighbours of
`x`, which count if the significand is even. Below the least significand of a scale the
neighbour is only half as far away. -/
def isRoundedFrom (x : Magnitude) (numerator denominator : Nat) : Bool :=
  let quarter := numerator <<< 1076
  let unit := denominator <<< x.scale
  let below := if x.significand = 1 <<< 52 ∧ 0 < x.scale then 1 else 2
  let least := unit * (4 * x.significand - below)
  let most := unit * (4 * x.significand + 2)
  if x.significand % 2 = 0 then least ≤ quarter && quarter ≤ most
  else least < quarter && quarter < most

def quotientOf (d : Decimal) : Nat × Nat :=
  match d.exponent with
  | .ofNat e => (d.coefficient * Nat.pow 10 e, 1)
  | .negSucc e => (d.coefficient, Nat.pow 10 (e + 1))

def readsAs (x : Magnitude) (d : Decimal) : Bool :=
  x.isRoundedFrom (quotientOf d).1 (quotientOf d).2

def onGrid (x : Magnitude) (exponent : Int) : Nat × Ordering :=
  let (numerator, denominator) := match exponent with
    | .ofNat e => (x.units, Nat.pow 10 e <<< 1074)
    | .negSucc e => (x.units * Nat.pow 10 (e + 1), 1 <<< 1074)
  (numerator / denominator, compare (2 * (numerator % denominator)) denominator)

/-- The decimal with the given exponent that is nearest to `x` among those that read as `x`. -/
def candidate? (x : Magnitude) (exponent : Int) : Option Decimal :=
  let (coefficient, half) := x.onGrid exponent
  let lower : Decimal := ⟨coefficient, exponent⟩
  let upper : Decimal := ⟨coefficient + 1, exponent⟩
  match x.readsAs lower, x.readsAs upper with
  | true, true =>
    match half with
    | .lt => some lower
    | .gt => some upper
    | .eq => some (if coefficient % 2 = 0 then lower else upper)
  | true, false => some lower
  | false, true => some upper
  | false, false => none

def leadingExponent (x : Magnitude) : Nat → Int → Int
  | 0, exponent => exponent
  | fuel + 1, exponent =>
    if (x.onGrid exponent).1 = 0 then leadingExponent x fuel (exponent - 1) else exponent

def firstCandidate (x : Magnitude) : Nat → Int → Decimal
  | 0, exponent => ⟨(x.onGrid exponent).1, exponent⟩
  | fuel + 1, exponent =>
    match x.candidate? exponent with
    | some d => d
    | none => firstCandidate x fuel (exponent - 1)

/-- Seventeen digits always suffice, and the first digit stands between `10 ^ -324` and
`10 ^ 308`. -/
def shortest (x : Magnitude) : Decimal := x.firstCandidate 17 (x.leadingExponent 633 308)

end Magnitude

namespace Decimal

def trimZeros (digits : Text) : Text :=
  match (digits.reverse.dropWhile (· = '0')).reverse with
  | [] => "0"
  | trimmed => trimmed

def afterPoint (digits : Text) : Text := if digits = [] then [] else '.' :: digits

def scientific (digits : Text) (leading : Int) : Text :=
  digits.take 1 ++ afterPoint (digits.drop 1) ++ ['e', if leading < 0 then '-' else '+']
    ++ Text.decimal leading.natAbs

def positional (digits : Text) (leading : Int) : Text :=
  if leading < 0 then "0." ++ List.replicate (leading.natAbs - 1) '0' ++ digits
  else
    let whole := leading.natAbs + 1
    digits.take whole ++ List.replicate (whole - digits.length) '0'
      ++ afterPoint (if digits.length ≤ whole then "0" else digits.drop whole)

/-- Positional notation from `10 ^ -5` up to `10 ^ 16`, scientific notation elsewhere. -/
def text (d : Decimal) : Text :=
  let digits := Text.decimal d.coefficient
  let leading : Int := d.exponent + digits.length - 1
  if leading < -5 ∨ 16 ≤ leading then scientific (trimZeros digits) leading
  else positional (trimZeros digits) leading

end Decimal

def Magnitude.text (x : Magnitude) : Text :=
  if x.significand = 0 then "0.0" else x.shortest.text

def Binary64.text (x : Binary64) : Text :=
  if x.negative then '-' :: x.magnitude.text else x.magnitude.text

end DriverHeader
