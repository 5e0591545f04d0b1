/-!
# String literals of the native core

Generated native sources hold texts as C++ string literals. The quote, the backslash, the line
feed, the tab and the carriage return are escaped by a backslash and a letter. The other
characters below the space are written as three octal digits: three is the most that an octal
escape takes, so a digit that follows in the text cannot be taken for a part of the escape.

## Main definitions

* `NativeLiteral.encode`: the literal of a text.
* `NativeLiteral.decode?`: the text of a literal by the rules of C++, where an octal escape takes
  up to three digits; it refuses what is not one literal.
* `NativeLiteral.quote`: `encode` on strings.
-/

namespace SimMetadata.Text.NativeLiteral

/-- An octal digit. -/
def octalDigit (n : Nat) : Char := Nat.digitChar (n % 8)

/-- How one character is written inside a literal. -/
def escape (c : Char) : List Char :=
  if c = '\"' then ['\\', '\"']
  else if c = '\\' then ['\\', '\\']
  else if c = '\n' then ['\\', 'n']
  else if c = '\t' then ['\\', 't']
  else if c = '\r' then ['\\', 'r']
  else if c.toNat < 0x20 then
    ['\\', octalDigit (c.toNat / 64), octalDigit (c.toNat / 8), octalDigit c.toNat]
  else [c]

/-- The literal of a text. -/
def encode (cs : List Char) : List Char := '\"' :: cs.flatMap escape ++ ['\"']

/-- The value of an octal digit. -/
def octalValue? (c : Char) : Option Nat :=
  if '0' ≤ c ∧ c ≤ '7' then some (c.toNat - '0'.toNat) else none

/-- The character that a letter after a backslash stands for. -/
def unescape? : Char → Option Char
  | '\"' => some '\"'
  | '\'' => some '\''
  | '?' => some '?'
  | '\\' => some '\\'
  | 'a' => some '\x07'
  | 'b' => some '\x08'
  | 'f' => some '\x0c'
  | 'n' => some '\n'
  | 'r' => some '\r'
  | 't' => some '\t'
  | 'v' => some '\x0b'
  | _ => none

/-- The octal escape at the beginning of the characters after a backslash: its value and how many
digits it takes, at most three. -/
def octalEscape? (cs : List Char) : Option (Nat × Nat) :=
  match (cs.take 3).takeWhile fun c => (octalValue? c).isSome with
  | [] => none
  | digits => some (digits.foldl (fun n c => 8 * n + (octalValue? c).getD 0) 0, digits.length)

/-- The text up to the closing quote, which has to end the literal. The number says how many
characters in front are digits of an escape that has been read already. -/
def decodeBody? : Nat → List Char → Option (List Char)
  | _, [] => none
  | n + 1, _ :: rest => decodeBody? n rest
  | 0, '\"' :: rest => if rest = [] then some [] else none
  | 0, '\\' :: rest =>
    match octalEscape? rest with
    | some (code, digits) => (decodeBody? digits rest).map (Char.ofNat code :: ·)
    | none =>
      match rest with
      | [] => none
      | c :: _ => do return (← unescape? c) :: (← decodeBody? 1 rest)
  | 0, '\n' :: _ => none
  | 0, c :: rest => (decodeBody? 0 rest).map (c :: ·)

/-- The text that a literal stands for. -/
def decode? : List Char → Option (List Char)
  | '\"' :: rest => decodeBody? 0 rest
  | _ => none

/-- The literal of a string. -/
def quote (s : String) : String := String.ofList (encode s.toList)

/-- The string that a literal stands for. -/
def unquote? (s : String) : Option String := (decode? s.toList).map String.ofList

@[simp] theorem toList_quote (s : String) : (quote s).toList = encode s.toList :=
  String.toList_ofList

end SimMetadata.Text.NativeLiteral
