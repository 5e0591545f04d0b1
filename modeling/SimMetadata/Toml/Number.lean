import SimMetadata.Toml.Lexical
import SimMetadata.Toml.Value

/-!
# Numbers and truth values of TOML

A number is spelled by a run of letters, digits, signs, dots and underscores, which has to be a
number as a whole. Underscores may separate digits. Integers are of sixty-four bits with a sign;
a float too large for its format is refused if it is positive.

## Main definitions

* `integerOf?`, `floatOf?`: the number that a run of characters spells.
* `scalarOf?`: the number or truth value.
-/

namespace SimMetadata.Toml

/-- The digits of a run in which single underscores may separate digits. -/
def plainDigits? (isDigit : Char → Bool) : List Char → Option (List Char)
  | [] => none
  | [c] => if isDigit c then some [c] else none
  | c :: '_' :: d :: rest =>
    if isDigit c then (plainDigits? isDigit (d :: rest)).map (c :: ·) else none
  | c :: d :: rest => if isDigit c then (plainDigits? isDigit (d :: rest)).map (c :: ·) else none

/-- The number that digits spell in a base. -/
def valueOf (base : Nat) (digits : List Char) : Nat :=
  digits.foldl (fun n c => base * n + (hexDigit? c).getD 0) 0

/-- The sign in front, whether it is negative, and what follows it. -/
def splitSign : List Char → Bool × List Char
  | '-' :: rest => (true, rest)
  | '+' :: rest => (false, rest)
  | cs => (false, cs)

/-- The digits of a decimal integer without a sign: no zero in front of other digits. -/
def decimalDigits? (cs : List Char) : Option (List Char) := do
  let digits ← plainDigits? Char.isDigit cs
  match digits with
  | '0' :: _ :: _ => none
  | _ => some digits

/-- The integer, if sixty-four bits with a sign can hold it. -/
def inRange? (n : Int) : Option Int :=
  if -9223372036854775808 ≤ n ∧ n ≤ 9223372036854775807 then some n else none

/-- An octal digit. -/
def isOctal (c : Char) : Bool := '0' ≤ c && c ≤ '7'

/-- A binary digit. -/
def isBinary (c : Char) : Bool := c = '0' || c = '1'

/-- The integer that a run of characters spells. Only decimals have signs. -/
def integerOf? : List Char → Option Int
  | '0' :: 'x' :: rest => do
    inRange? (valueOf 16 (← plainDigits? (fun c => (hexDigit? c).isSome) rest))
  | '0' :: 'o' :: rest => do inRange? (valueOf 8 (← plainDigits? isOctal rest))
  | '0' :: 'b' :: rest => do inRange? (valueOf 2 (← plainDigits? isBinary rest))
  | cs => do
    let (negative, unsigned) := splitSign cs
    let n : Int := valueOf 10 (← decimalDigits? unsigned)
    inRange? (if negative then -n else n)

/-- The float that a run of characters spells: an infinity, no number, or a decimal with a
fraction or an exponent. -/
def floatOf? (cs : List Char) : Option Decimal.Binary64 := do
  let (negative, unsigned) := splitSign cs
  if unsigned = "inf".toList then return .infinite negative
  if unsigned = "nan".toList then return .nan negative
  let isMark (c : Char) : Bool := c = 'e' || c = 'E'
  let mantissa := unsigned.takeWhile (!isMark ·)
  let power := unsigned.dropWhile (!isMark ·)
  let whole ← decimalDigits? (mantissa.takeWhile (· ≠ '.'))
  let fraction ← match mantissa.dropWhile (· ≠ '.') with
    | [] => if power = [] then none else some []
    | _ :: digits => plainDigits? Char.isDigit digits
  let exponent : Int ← match power with
    | [] => some 0
    | _ :: signed => do
      let (down, digits) := splitSign signed
      let n : Int := valueOf 10 (← plainDigits? Char.isDigit digits)
      some (if down then -n else n)
  let value :=
    Decimal.Binary64.ofDecimal negative (valueOf 10 (whole ++ fraction)) (exponent - fraction.length)
  if value = .infinite false then none else some value

/-- A character of a number, a truth value or the name of a special float. -/
def isScalarChar (c : Char) : Bool :=
  c.isAlphanum || c = '+' || c = '-' || c = '.' || c = '_'

/-- The number or truth value that a run of characters spells. -/
def scalarOf? (cs : List Char) : Option Value :=
  if cs = "true".toList then some (.boolean true)
  else if cs = "false".toList then some (.boolean false)
  else match integerOf? cs with
    | some n => some (.integer n)
    | none => (floatOf? cs).map .float

end SimMetadata.Toml
