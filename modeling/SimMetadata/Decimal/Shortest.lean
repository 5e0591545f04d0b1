import SimMetadata.Decimal.Binary64

/-!
# Shortest decimals

A float is shown with the fewest digits that read back as the same number. These are found on the
decimal grids `10 ^ s`: the coarsest grid with a point among the reals that round to the number
gives the fewest digits, and of the points on it the nearest is taken. A point at the end of that
interval counts exactly if the significand is even, because such reals round to the number too.

## Main definitions

* `Shortest.gridPoint?`: the nearest point of one grid, if it reads back.
* `Shortest.digits`: the point of the coarsest grid that has one.
* `Binary64.text`: the number in positional notation.
-/

namespace SimMetadata.Decimal

namespace Shortest

/-- The point of the grid `10 ^ scale` that reads back as `significand * 2 ^ exponent` and is
nearest to it, as a multiple of the grid. Of two points equally near the upper one is taken.

All quantities are multiples of one common unit. In it the number is `4 * significand` over a
power of two, the upper end of the interval is two above it, and the lower end two below it, or
one below it where the numbers beneath lie twice as dense. -/
def gridPoint? (significand : Nat) (exponent : Int) (scale : Int) : Option Nat :=
  let unit := Nat.pow 2 (exponent - 2).toNat * Nat.pow 10 (-scale).toNat
  let grid := Nat.pow 2 (2 - exponent).toNat * Nat.pow 10 scale.toNat
  let value := 4 * significand * unit
  let reach := if significand = Nat.pow 2 52 ∧ Binary64.leastExponent < exponent then 1 else 2
  let low := (4 * significand - reach) * unit
  let high := (4 * significand + 2) * unit
  let readsBack (point : Nat) : Bool :=
    if significand % 2 = 0 then low ≤ point * grid && point * grid ≤ high
    else low < point * grid && point * grid < high
  let below := value / grid
  match readsBack below, readsBack (below + 1) with
  | true, true =>
    if value - below * grid < (below + 1) * grid - value then some below else some (below + 1)
  | true, false => some below
  | false, true => some (below + 1)
  | false, false => none

/-- The grids, from the coarsest on which a finite number can have a point. -/
def scales : List Int := (List.range 700).map fun (i : Nat) => 309 - (i : Int)

/-- The decimal with the fewest digits that reads back as a positive number: the digits and the
power of ten that they are multiplied by. -/
def digits (significand : Nat) (exponent : Int) : Nat × Int :=
  (scales.findSome? fun s => (gridPoint? significand exponent s).map (·, s)).getD (0, 0)

/-- The decimal `digits * 10 ^ scale` in positional notation, with at least one digit on either
side of the point. -/
def positional (digits : Nat) (scale : Int) : String :=
  let cs := Nat.toDigits 10 digits
  if 0 ≤ scale then String.ofList (cs ++ List.replicate scale.toNat '0') ++ ".0"
  else
    let places := (-scale).toNat
    let padded := List.replicate (places + 1 - cs.length) '0' ++ cs
    String.ofList (padded.take (padded.length - places)) ++ "."
      ++ String.ofList (padded.drop (padded.length - places))

end Shortest

/-- The number as text: the shortest decimal that reads back, never with an exponent. -/
def Binary64.text : Binary64 → String
  | nan negative => (if negative then "-" else "") ++ "nan"
  | infinite negative => (if negative then "-" else "") ++ "inf"
  | finite negative significand exponent =>
    let (digits, scale) :=
      if significand = 0 then (0, 0) else Shortest.digits significand exponent
    (if negative then "-" else "") ++ Shortest.positional digits scale

end SimMetadata.Decimal
