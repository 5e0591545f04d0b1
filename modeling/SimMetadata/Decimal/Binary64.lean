/-!
# Binary floating-point numbers

The floats of a manifest are numbers of the format binary64: a significand of at most 53 bits
times a power of two whose exponent is between -1074 and 971. A decimal is read as the nearest
such number, and of two equally near ones as the one with the even significand. All arithmetic is
on exact natural numbers.

## Main definitions

* `Binary64`: the values of the format.
* `Binary64.ofQuotient`: the value nearest to a quotient.
* `Binary64.ofDecimal`: the value nearest to a decimal.
-/

namespace SimMetadata.Decimal

/-- A number of the format binary64. -/
inductive Binary64 where
  | nan (negative : Bool)
  | infinite (negative : Bool)
  /-- The number `significand * 2 ^ exponent`, with its sign. -/
  | finite (negative : Bool) (significand : Nat) (exponent : Int)
  deriving DecidableEq, Inhabited, Repr

/-- The quotient of two numbers over a power of two, as a quotient of two numbers. -/
def overPowerOfTwo (numerator denominator : Nat) (exponent : Int) : Nat × Nat :=
  (numerator * Nat.pow 2 (-exponent).toNat, denominator * Nat.pow 2 exponent.toNat)

/-- The integer nearest to a quotient; a half goes to the even neighbour. -/
def roundHalfEven (numerator denominator : Nat) : Nat :=
  let below := numerator / denominator
  let twice := 2 * (numerator % denominator)
  if twice < denominator then below
  else if denominator < twice then below + 1
  else below + below % 2

/-- The exponent of the greatest power of two that is not above a positive quotient. -/
def floorLog2 (numerator denominator : Nat) : Int :=
  let estimate : Int := Nat.log2 numerator - Nat.log2 denominator
  let (n, d) := overPowerOfTwo numerator denominator estimate
  if n < d then estimate - 1 else estimate

namespace Binary64

/-- The least exponent of the format. -/
def leastExponent : Int := -1074

/-- The greatest exponent of the format. -/
def greatestExponent : Int := 971

/-- The value with a rounded significand, or infinity if the exponent is out of range. -/
def ofRounded (negative : Bool) (significand : Nat) (exponent : Int) : Binary64 :=
  let (m, q) :=
    if significand = Nat.pow 2 53 then (Nat.pow 2 52, exponent + 1) else (significand, exponent)
  if greatestExponent < q then infinite negative else finite negative m q

/-- The value nearest to a quotient. -/
def ofQuotient (negative : Bool) (numerator denominator : Nat) : Binary64 :=
  if numerator = 0 then finite negative 0 0
  else
    let exponent := max (floorLog2 numerator denominator - 52) leastExponent
    let (n, d) := overPowerOfTwo numerator denominator exponent
    ofRounded negative (roundHalfEven n d) exponent

/-- The value nearest to `digits * 10 ^ exponent`. Beyond the powers of ten that bound the format
no arithmetic is needed. -/
def ofDecimal (negative : Bool) (digits : Nat) (exponent : Int) : Binary64 :=
  let magnitude : Int := (Nat.toDigits 10 digits).length + exponent
  if digits = 0 then finite negative 0 0
  else if 310 < magnitude then infinite negative
  else if magnitude < -330 then finite negative 0 0
  else
    ofQuotient negative (digits * Nat.pow 10 exponent.toNat) (Nat.pow 10 (-exponent).toNat)

end Binary64

end SimMetadata.Decimal
