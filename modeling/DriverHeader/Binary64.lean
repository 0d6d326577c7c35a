/-! # Binary floating point with 64 bits

Magnitudes are exact: a whole number of units, where the unit is a power of two not below
`2 ^ -1074`. Every operation is the exact result rounded once to the nearest magnitude, a tie
going to the even one.
-/
namespace DriverHeader

/-- The magnitude `significand * 2 ^ scale / 2 ^ 1074`. -/
structure Magnitude where
  significand : Nat
  scale : Nat
  deriving DecidableEq

namespace Magnitude

def units (x : Magnitude) : Nat := x.significand <<< x.scale

/-- The quotient of two whole numbers, rounded to the nearest one and from a tie to the even
one. -/
def roundDiv (numerator denominator : Nat) : Nat :=
  let quotient := numerator / denominator
  let doubled := 2 * (numerator % denominator)
  if doubled < denominator then quotient
  else if denominator < doubled then quotient + 1
  else quotient + quotient % 2

/-- The magnitude nearest to a quotient, with at most 53 bits in its significand. There is no
largest magnitude here; `isFinite` tells those that 64 bits can hold. -/
def nearest (numerator denominator : Nat) : Magnitude :=
  let scale := ((numerator <<< 1074) / denominator).log2 - 52
  let significand := roundDiv (numerator <<< 1074) (denominator <<< scale)
  if significand = 1 <<< 53 then ⟨1 <<< 52, scale + 1⟩ else ⟨significand, scale⟩

def isFinite (x : Magnitude) : Bool := x.scale ≤ 2045

def ofNat (n : Nat) : Magnitude := nearest n 1

def mul (x y : Magnitude) : Magnitude := nearest (x.units * y.units) (1 <<< 2148)

def div (x y : Magnitude) : Magnitude := nearest x.units y.units

def largestPower : Nat := 308

def divPower (x : Magnitude) (exponent : Nat) : Magnitude :=
  if exponent ≤ largestPower then x.div (ofNat (Nat.pow 10 exponent))
  else if x.significand = 0 then x
  else divPower (x.div (ofNat (Nat.pow 10 largestPower))) (exponent - largestPower)
termination_by exponent
decreasing_by simp only [largestPower] at *; omega

def mulPower? (x : Magnitude) (exponent : Nat) : Option Magnitude :=
  if exponent ≤ largestPower then
    let product := x.mul (ofNat (Nat.pow 10 exponent))
    if product.isFinite then some product else none
  else if x.significand = 0 then some x
  else none

/-- The magnitude of `significand * 10 ^ exponent`: the significand and the power of ten are
rounded before they are combined. -/
def ofDecimal? (significand : Nat) : Int → Option Magnitude
  | .ofNat exponent => (ofNat significand).mulPower? exponent
  | .negSucc exponent => some ((ofNat significand).divPower (exponent + 1))

end Magnitude

structure Binary64 where
  negative : Bool
  magnitude : Magnitude
  deriving DecidableEq

end DriverHeader
