import SimMetadata.Decimal.Shortest
import SimMetadata.NameMap
import SimMetadata.Toml.DateTime

/-!
# TOML values

Manifests, flag lists and build configurations are TOML documents. A `Value` is what such a
document holds: scalars, arrays and tables.

## Main definitions

* `Value`: the values. A table lists its entries in the order in which they are written.
* `Value.text`: a value as one would write it.
* `Value.settle?`: turns tables that stand for date-times into these.

## Implementation notes

A written table lists plain entries first, then arrays of tables, then tables, as a document would
have to if it used headers for them; among its like an entry has the place of its key. A table
that begins with `datetimeKey` stands for a date-time.
-/

namespace SimMetadata.Toml

/-- A value of a TOML document. -/
inductive Value where
  | string (s : String)
  | integer (n : Int)
  | float (x : Decimal.Binary64)
  | boolean (b : Bool)
  | datetime (d : DateTime)
  | array (items : List Value)
  | table (entries : List (String × Value))
  deriving Inhabited, Repr

/-- The key under which a table holds the text of a date-time. -/
def datetimeKey : String := "$__toml_private_datetime"

namespace Value

/-- What kind of value it is, in a word. -/
def kind : Value → String
  | string _ => "string"
  | integer _ => "integer"
  | float _ => "float"
  | boolean _ => "boolean"
  | datetime _ => "datetime"
  | array _ => "array"
  | table _ => "table"

/-! ### Written form -/

/-- A character that needs no quotes in a key. -/
def isBareKeyChar (c : Char) : Bool := c.isAlphanum || c = '_' || c = '-'

/-- How one character is written in a basic string. A line feed stands for itself where the string
runs over several lines. -/
def escapeBasic (multiline : Bool) (c : Char) : String :=
  if c = '\x08' then "\\b"
  else if c = '\t' then "\\t"
  else if c = '\n' then if multiline then "\n" else "\\n"
  else if c = '\x0c' then "\\f"
  else if c = '\r' then "\\r"
  else if c = '\"' then "\\\""
  else if c = '\\' then "\\\\"
  else if c.toNat < 0x20 ∨ c.toNat = 0x7F then
    "\\u00" ++ String.ofList
      [(Nat.digitChar (c.toNat / 16)).toUpper, (Nat.digitChar (c.toNat % 16)).toUpper]
  else c.toString

/-- Whether three apostrophes follow each other. -/
def hasTripleApostrophe : List Char → Bool
  | '\'' :: '\'' :: '\'' :: _ => true
  | _ :: rest => hasTripleApostrophe rest
  | [] => false

/-- Whether a literal string is the better form: the text has a backslash and nothing that only a
basic string can hold. -/
def prefersLiteral (cs : List Char) : Bool :=
  cs.contains '\\'
    && cs.all (fun c => c = '\t' || c = '\n' || (0x20 ≤ c.toNat && c.toNat ≠ 0x7F))
    && !hasTripleApostrophe cs && cs.getLast? ≠ some '\''

/-- A text as a string: literal where that saves escapes, else basic, and over several lines where
the text has several. -/
def stringText (s : String) : String :=
  let cs := s.toList
  let multiline := cs.contains '\n'
  if prefersLiteral cs then
    if multiline then "'''\n" ++ s ++ "'''"
    else if cs.contains '\'' then "'''" ++ s ++ "'''"
    else "'" ++ s ++ "'"
  else
    let body := String.join (cs.map (escapeBasic multiline))
    if multiline then "\"\"\"\n" ++ body ++ "\"\"\"" else "\"" ++ body ++ "\""

/-- A key as it is written: bare where that is allowed, else a basic string on one line. -/
def keyText (key : String) : String :=
  let cs := key.toList
  if cs ≠ [] ∧ cs.all isBareKeyChar then key
  else "\"" ++ String.join (cs.map (escapeBasic false)) ++ "\""

/-- The sorts of entries that a written table keeps apart. -/
inductive EntrySort where
  | plain
  /-- An array in which a table stands. -/
  | tableArray
  | table
  deriving DecidableEq, Inhabited, Repr

/-- Whether the value is a table. -/
def isTable : Value → Bool
  | table _ => true
  | _ => false

/-- The sort of an entry with this value. Only the items of the array itself count. -/
def entrySort : Value → EntrySort
  | table _ => .table
  | array items => if items.any isTable then .tableArray else .plain
  | _ => .plain

/-- Entries with their sort and their written value as an inline table: sort by sort, and by the
order of the keys within one. -/
def tableText (entries : List (String × EntrySort × String)) : String :=
  let sorted := (NameMap.ofList entries).entries
  let ofSort (sort : EntrySort) := sorted.filter fun e => e.2.1 = sort
  let listed := ofSort .plain ++ ofSort .tableArray ++ ofSort .table
  if listed = [] then "\x7b\x7d"
  else "\x7b " ++ Text.joinWith ", " (listed.map fun e => keyText e.1 ++ " = " ++ e.2.2) ++ " \x7d"

mutual

/-- The value as it is written. -/
def text : Value → String
  | string s => stringText s
  | integer n => toString n
  | float x => x.text
  | boolean b => if b then "true" else "false"
  | datetime d => d.text
  | array items => "[" ++ Text.joinWith ", " (texts items) ++ "]"
  | table entries => tableText (entryTexts entries)

/-- The values of a list as they are written. -/
def texts : List Value → List String
  | [] => []
  | v :: rest => v.text :: texts rest

/-- The entries of a table with their sorts, and their values as they are written. -/
def entryTexts : List (String × Value) → List (String × EntrySort × String)
  | [] => []
  | (k, v) :: rest => (k, v.entrySort, v.text) :: entryTexts rest

end

/-! ### Date-times in the form of tables -/

mutual

/-- The value with every table that begins with the reserved key read as a date-time. Such a table
has to hold the text of one, whatever else is in it, and every date-time has to be valid. -/
def settle? : Value → Option Value
  | datetime d => if d.isValid then some (datetime d) else none
  | array items => (settleItems? items).map array
  | table ((k, v) :: rest) =>
    if k = datetimeKey then
      match v with
      | string s => (DateTime.ofText? s).map datetime
      | _ => none
    else do return table ((k, ← v.settle?) :: (← settleEntries? rest))
  | v => some v

/-- The same for the values of a list. -/
def settleItems? : List Value → Option (List Value)
  | [] => some []
  | v :: rest => do return (← v.settle?) :: (← settleItems? rest)

/-- The same for the entries of a table. -/
def settleEntries? : List (String × Value) → Option (List (String × Value))
  | [] => some []
  | (k, v) :: rest => do return (k, ← v.settle?) :: (← settleEntries? rest)

end

end Value

end SimMetadata.Toml
