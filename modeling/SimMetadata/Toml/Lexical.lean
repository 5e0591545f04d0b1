/-!
# The lexical level of TOML

Blanks, comments, strings and keys. A scanner takes the characters that are left and gives what it
read and the characters after it, or refuses.

## Main definitions

* `skipSpaces`, `skipTrivia`, `lineEnd?`: what separates tokens.
* `scanBasic?`, `scanLiteral?`, `scanMultilineBasic?`, `scanMultilineLiteral?`: the four kinds of
  strings, each from behind its opening quotes.
* `scanKeyPath?`: a key and the dotted parts that follow it.

## Implementation notes

A line ends in a line feed, before which a carriage return may stand; a carriage return alone is
refused everywhere. Inside strings of several lines each line end counts as one line feed.
-/

namespace SimMetadata.Toml

/-- What a scanner does with the characters that are left. -/
abbrev Scanner (α : Type) := List Char → Option (α × List Char)

/-- A character that may stand as itself in comments and strings: no control character but the
tab. -/
def isTextChar (c : Char) : Bool := c = '\t' || (0x20 ≤ c.toNat && c.toNat ≠ 0x7F)

/-- A blank within a line. -/
def isSpace (c : Char) : Bool := c = ' ' || c = '\t'

/-! ### Between tokens -/

/-- The characters after the blanks in front. -/
def skipSpaces (cs : List Char) : List Char := cs.dropWhile isSpace

/-- The characters after blanks, line ends and comments, as an array may have them between its
items. The truth value says whether a comment is being skipped. -/
def skipTriviaFrom : Bool → List Char → List Char
  | _, [] => []
  | _, '\r' :: '\n' :: rest => skipTriviaFrom false rest
  | comment, c :: rest =>
    if c = '\n' then skipTriviaFrom false rest
    else if comment then
      if isTextChar c then skipTriviaFrom true rest else c :: rest
    else if isSpace c then skipTriviaFrom false rest
    else if c = '#' then skipTriviaFrom true rest
    else c :: rest

/-- The characters after blanks, line ends and comments. -/
def skipTrivia (cs : List Char) : List Char := skipTriviaFrom false cs

/-- The characters after a comment, if one begins here. -/
def skipComment : List Char → List Char
  | '#' :: rest => rest.dropWhile isTextChar
  | cs => cs

/-- The characters after the end of a line, before which blanks and a comment may stand. The end
of the document ends a line too. -/
def lineEnd? (cs : List Char) : Option (List Char) :=
  match skipComment (skipSpaces cs) with
  | [] => some []
  | '\n' :: rest => some rest
  | '\r' :: '\n' :: rest => some rest
  | _ => none

/-! ### Strings -/

/-- The value of a hexadecimal digit of either case. -/
def hexDigit? (c : Char) : Option Nat :=
  if c.isDigit then some (c.toNat - '0'.toNat)
  else if 'a' ≤ c ∧ c ≤ 'f' then some (c.toNat - 'a'.toNat + 10)
  else if 'A' ≤ c ∧ c ≤ 'F' then some (c.toNat - 'A'.toNat + 10)
  else none

/-- The character whose number the hexadecimal digits spell, if there is one. -/
def charOfHex? (digits : List Char) : Option Char := do
  let code := (← digits.mapM hexDigit?).foldl (fun n d => 16 * n + d) 0
  if code.isValidChar then some (Char.ofNat code) else none

/-- The character that a letter after a backslash stands for. -/
def unescape? : Char → Option Char
  | 'b' => some '\x08'
  | 't' => some '\t'
  | 'n' => some '\n'
  | 'f' => some '\x0c'
  | 'r' => some '\r'
  | '\"' => some '\"'
  | '\\' => some '\\'
  | _ => none

/-- A character put in front of what a scanner read. -/
def push (c : Option Char) (read : Option (List Char × List Char)) :
    Option (List Char × List Char) := do
  let c ← c
  let (cs, rest) ← read
  return (c :: cs, rest)

/-- A character as itself, if it may stand so. -/
def asText (c : Char) : Option Char := if isTextChar c then some c else none

/-- The rest of a basic string. -/
def scanBasic? : Scanner (List Char)
  | [] => none
  | '\"' :: rest => some ([], rest)
  | '\\' :: 'u' :: a :: b :: c :: d :: rest => push (charOfHex? [a, b, c, d]) (scanBasic? rest)
  | '\\' :: 'U' :: a :: b :: c :: d :: e :: f :: g :: h :: rest =>
    push (charOfHex? [a, b, c, d, e, f, g, h]) (scanBasic? rest)
  | '\\' :: c :: rest => push (unescape? c) (scanBasic? rest)
  | c :: rest => if c = '\\' then none else push (asText c) (scanBasic? rest)

/-- The rest of a literal string. -/
def scanLiteral? : Scanner (List Char)
  | [] => none
  | c :: rest => if c = '\'' then some ([], rest) else push (asText c) (scanLiteral? rest)

/-- Whether the line ends here, blanks apart. -/
def endsLine (cs : List Char) : Bool :=
  match skipSpaces cs with
  | '\n' :: _ | '\r' :: '\n' :: _ => true
  | _ => false

/-- The rest of a basic string of several lines. Up to two quotes may stand before the closing
three. A backslash at the end of a line joins the next line that is not blank; the truth value
says whether such a gap is being skipped. -/
def scanMultilineBasicFrom : Bool → Scanner (List Char)
  | _, [] => none
  | _, '\"' :: '\"' :: '\"' :: '\"' :: '\"' :: rest => some (['\"', '\"'], rest)
  | _, '\"' :: '\"' :: '\"' :: '\"' :: rest => some (['\"'], rest)
  | _, '\"' :: '\"' :: '\"' :: rest => some ([], rest)
  | gap, '\r' :: '\n' :: rest =>
    if gap then scanMultilineBasicFrom true rest
    else push (some '\n') (scanMultilineBasicFrom false rest)
  | _, '\\' :: 'u' :: a :: b :: c :: d :: rest =>
    push (charOfHex? [a, b, c, d]) (scanMultilineBasicFrom false rest)
  | _, '\\' :: 'U' :: a :: b :: c :: d :: e :: f :: g :: h :: rest =>
    push (charOfHex? [a, b, c, d, e, f, g, h]) (scanMultilineBasicFrom false rest)
  | _, '\\' :: c :: rest =>
    if endsLine (c :: rest) then scanMultilineBasicFrom true (c :: rest)
    else push (unescape? c) (scanMultilineBasicFrom false rest)
  | gap, c :: rest =>
    if c = '\\' then none
    else if c = '\n' then
      if gap then scanMultilineBasicFrom true rest
      else push (some '\n') (scanMultilineBasicFrom false rest)
    else if gap && isSpace c then scanMultilineBasicFrom true rest
    else push (asText c) (scanMultilineBasicFrom false rest)

/-- The rest of a literal string of several lines. -/
def scanMultilineLiteralBody : Scanner (List Char)
  | [] => none
  | '\'' :: '\'' :: '\'' :: '\'' :: '\'' :: rest => some (['\'', '\''], rest)
  | '\'' :: '\'' :: '\'' :: '\'' :: rest => some (['\''], rest)
  | '\'' :: '\'' :: '\'' :: rest => some ([], rest)
  | '\r' :: '\n' :: rest => push (some '\n') (scanMultilineLiteralBody rest)
  | c :: rest =>
    if c = '\n' then push (some '\n') (scanMultilineLiteralBody rest)
    else push (asText c) (scanMultilineLiteralBody rest)

/-- The characters after a line end in front, if there is one. -/
def skipFirstLineEnd : List Char → List Char
  | '\n' :: rest => rest
  | '\r' :: '\n' :: rest => rest
  | cs => cs

/-- A basic string of several lines; a line end right behind the opening quotes does not count. -/
def scanMultilineBasic? : Scanner (List Char) := fun cs =>
  scanMultilineBasicFrom false (skipFirstLineEnd cs)

/-- A literal string of several lines; a line end right behind the opening quotes does not
count. -/
def scanMultilineLiteral? : Scanner (List Char) := fun cs =>
  scanMultilineLiteralBody (skipFirstLineEnd cs)

/-! ### Keys -/

/-- A character of a bare key. -/
def isBareChar (c : Char) : Bool := c.isAlphanum || c = '_' || c = '-'

/-- One part of a key: a basic or literal string on one line, or a bare key. -/
def scanKey? : Scanner String
  | '\"' :: rest => (scanBasic? rest).map fun (cs, rest) => (String.ofList cs, rest)
  | '\'' :: rest => (scanLiteral? rest).map fun (cs, rest) => (String.ofList cs, rest)
  | cs =>
    match cs.takeWhile isBareChar with
    | [] => none
    | key => some (String.ofList key, cs.dropWhile isBareChar)

/-- How many parts a key may have. -/
def keyPartLimit : Nat := 127

/-- A key of at most so many parts, with blanks around each. -/
def scanKeyParts? : Nat → Scanner (List String)
  | 0, _ => none
  | n + 1, cs => do
    let (key, rest) ← scanKey? (skipSpaces cs)
    match skipSpaces rest with
    | '.' :: rest =>
      let (keys, rest) ← scanKeyParts? n rest
      return (key :: keys, rest)
    | rest => return ([key], rest)

/-- A key, whose parts are separated by dots. -/
def scanKeyPath? : Scanner (List String) := scanKeyParts? keyPartLimit

end SimMetadata.Toml
