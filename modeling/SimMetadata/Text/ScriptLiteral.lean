/-!
# String literals of the scripting layer

Generated scripting modules hold texts as double-quoted literals. The quote and the backslash are
escaped by a backslash, five control characters have a letter of their own, and the other
characters below the space are written as `\u00` and two lower-case hexadecimal digits. All else
stands for itself.

## Main definitions

* `ScriptLiteral.encode`: the literal of a text.
* `ScriptLiteral.decode?`: the text of a literal; it refuses what is not one literal.
* `ScriptLiteral.quote`: `encode` on strings.
-/

namespace SimMetadata.Text.ScriptLiteral

/-- A hexadecimal digit, in lower case. -/
def hexDigit (n : Nat) : Char := Nat.digitChar (n % 16)

/-- How one character is written inside a literal. -/
def escape (c : Char) : List Char :=
  if c = '\"' then ['\\', '\"']
  else if c = '\\' then ['\\', '\\']
  else if c = '\x08' then ['\\', 'b']
  else if c = '\t' then ['\\', 't']
  else if c = '\n' then ['\\', 'n']
  else if c = '\x0c' then ['\\', 'f']
  else if c = '\r' then ['\\', 'r']
  else if c.toNat < 0x20 then
    ['\\', 'u', '0', '0', hexDigit (c.toNat / 16), hexDigit c.toNat]
  else [c]

/-- The literal of a text. -/
def encode (cs : List Char) : List Char := '\"' :: cs.flatMap escape ++ ['\"']

/-- The value of a hexadecimal digit of either case. -/
def hexValue? (c : Char) : Option Nat :=
  if c.isDigit then some (c.toNat - '0'.toNat)
  else if 'a' ≤ c ∧ c ≤ 'f' then some (c.toNat - 'a'.toNat + 10)
  else if 'A' ≤ c ∧ c ≤ 'F' then some (c.toNat - 'A'.toNat + 10)
  else none

/-- The character that a letter after a backslash stands for. -/
def unescape? : Char → Option Char
  | '\"' => some '\"'
  | '\\' => some '\\'
  | '/' => some '/'
  | 'b' => some '\x08'
  | 't' => some '\t'
  | 'n' => some '\n'
  | 'f' => some '\x0c'
  | 'r' => some '\r'
  | _ => none

/-- The text up to the closing quote, which has to end the literal. -/
def decodeBody? : List Char → Option (List Char)
  | [] => none
  | '\"' :: rest => if rest = [] then some [] else none
  | '\\' :: 'u' :: a :: b :: c :: d :: rest => do
    let code := (← hexValue? a) * 4096 + (← hexValue? b) * 256 + (← hexValue? c) * 16
      + (← hexValue? d)
    if code.isValidChar then
      return Char.ofNat code :: (← decodeBody? rest)
    else none
  | '\\' :: c :: rest => do return (← unescape? c) :: (← decodeBody? rest)
  | c :: rest => if c.toNat < 0x20 then none else (decodeBody? rest).map (c :: ·)

/-- The text that a literal stands for. -/
def decode? : List Char → Option (List Char)
  | '\"' :: rest => decodeBody? rest
  | _ => none

/-- The literal of a string. -/
def quote (s : String) : String := String.ofList (encode s.toList)

/-- The string that a literal stands for. -/
def unquote? (s : String) : Option String := (decode? s.toList).map String.ofList

@[simp] theorem toList_quote (s : String) : (quote s).toList = encode s.toList :=
  String.toList_ofList

end SimMetadata.Text.ScriptLiteral
