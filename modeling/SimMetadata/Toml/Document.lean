import SimMetadata.Toml.Number

/-!
# TOML documents

A document is a sequence of statements: pairs of a key and a value, and headers that say to which
table the pairs after them belong. Reading the statements is one step, building the tables that
they describe is the other.

## Main definitions

* `Statement`, `statements?`: the text as statements.
* `Node`, `Entries.update?`: tables under construction, and the one way in which they are changed.
* `Document.ofText?`: the entries of the top table.

## Implementation notes

A table can be described only once. It comes into being in one of three ways, its `Origin`: by a
header of its own, by a header of a table in it, or by a dotted key. A header of its own may follow
only the second; dotted keys may add only to tables that dotted keys brought into being, though
they may lead through those of the second way. Tables in braces are values, to which only the
dotted keys of a table in braces around them may add.

The entries of a table keep the order in which they came into being, because a table that begins
with the reserved key is a date-time. A header of its own puts a table at the end, even where a
header of a table in it came before.
-/

namespace SimMetadata.Toml

/-! ### Building tables -/

/-- How a table came into being. -/
inductive Origin where
  /-- By a header of its own, or as the top table. -/
  | explicit
  /-- By the header of a table inside it. -/
  | implied
  /-- By a dotted key. -/
  | dotted
  deriving DecidableEq, Inhabited, Repr

/-- What a key stands for while the document is being read. -/
inductive Node where
  | value (v : Value)
  | table (origin : Origin) (entries : List (String × Node))
  /-- The tables that headers in double brackets have begun. -/
  | series (tables : List (List (String × Node)))
  deriving Inhabited

/-- Pairs with a key standing for something new, in the place it has or at the end. -/
def assign {α : Type} (key : String) (a : α) : List (String × α) → List (String × α)
  | [] => [(key, a)]
  | (k, b) :: rest => if k = key then (k, a) :: rest else (k, b) :: assign key a rest

/-- The entries of a table under construction. -/
abbrev Entries := List (String × Node)

namespace Entries

/-- The entries with a change made to the table that some keys lead to. Tables that are missing on
the way come into being as `created` says, and the last table of a series stands for the series.
Dotted keys do not lead through a table that has a header of its own. -/
def update? (created : Origin) (change : Origin → Entries → Option Entries) :
    List String → Origin → Entries → Option Entries
  | [], origin, entries => change origin entries
  | key :: keys, _, entries =>
    match entries.lookup key with
    | none => do
      return assign key (.table created (← update? created change keys created [])) entries
    | some (.value _) => none
    | some (.table origin inner) => do
      if created = .dotted ∧ origin = .explicit then none
      else return assign key (.table origin (← update? created change keys origin inner)) entries
    | some (.series tables) => do
      let last ← tables.getLast?
      let changed ← update? created change keys .explicit last
      return assign key (.series (tables.dropLast ++ [changed])) entries

/-- The entries with one more key; it has to be new. -/
def addNew? (key : String) (n : Node) (entries : Entries) : Option Entries :=
  match entries.lookup key with
  | none => some (assign key n entries)
  | some _ => none

/-- The entries with a pair added whose key may be dotted. -/
def addPair? (path : List String) (v : Value) (origin : Origin) (entries : Entries) :
    Option Entries := do
  let key ← path.getLast?
  let add (reached : Origin) (inner : Entries) : Option Entries :=
    if path.dropLast ≠ [] ∧ reached ≠ .dotted then none else addNew? key (.value v) inner
  update? .dotted add path.dropLast origin entries

/-- The entries with the table begun that a header names. It comes last, also where it was there
already because of a header inside it. -/
def openTable? (path : List String) (entries : Entries) : Option Entries := do
  let key ← path.getLast?
  let begun (_ : Origin) (inner : Entries) : Option Entries :=
    match inner.lookup key with
    | none => some (assign key (.table .explicit []) inner)
    | some (.table .implied found) =>
      some (inner.filter (fun e => e.1 ≠ key) ++ [(key, .table .explicit found)])
    | some _ => none
  update? .implied begun path.dropLast .explicit entries

/-- The entries with one more table begun in the series that a header names. -/
def openSeries? (path : List String) (entries : Entries) : Option Entries := do
  let key ← path.getLast?
  let begun (_ : Origin) (inner : Entries) : Option Entries :=
    match inner.lookup key with
    | none => some (assign key (.series [[]]) inner)
    | some (.series tables) => some (assign key (.series (tables ++ [[]])) inner)
    | some _ => none
  update? .implied begun path.dropLast .explicit entries

end Entries

mutual

/-- The value that a node stands for once the document is complete. -/
def Node.toValue : Node → Value
  | .value v => v
  | .table _ entries => .table (entriesToValues entries)
  | .series tables => .array (tablesToValues tables)

/-- The entries with their values. -/
def entriesToValues : List (String × Node) → List (String × Value)
  | [] => []
  | (k, n) :: rest => (k, n.toValue) :: entriesToValues rest

/-- The tables of a series as values. -/
def tablesToValues : List (List (String × Node)) → List Value
  | [] => []
  | t :: rest => .table (entriesToValues t) :: tablesToValues rest

end

/-- The entries of a table in braces with a pair added whose key may be dotted. The dots lead
through any table, however it was written; the last part of the key has to be new there. -/
def addInline? (v : Value) :
    List String → List (String × Value) → Option (List (String × Value))
  | [], _ => none
  | [key], entries =>
    match entries.lookup key with
    | none => some (assign key v entries)
    | some _ => none
  | key :: keys, entries =>
    match entries.lookup key with
    | none => do return assign key (.table (← addInline? v keys [])) entries
    | some (.table inner) => do return assign key (.table (← addInline? v keys inner)) entries
    | some _ => none

/-- The table that pairs in braces describe. -/
def inlineTable? (pairs : List (List String × Value)) : Option Value :=
  (pairs.foldlM (fun entries p => addInline? p.2 p.1 entries) []).map .table

/-! ### Values -/

/-- The items of an array from behind its bracket or a comma, which a comma may end too. The
number bounds how many there are. -/
def scanItems? (item : Scanner Value) : Nat → Scanner (List Value)
  | 0, _ => none
  | n + 1, cs =>
    match skipTrivia cs with
    | ']' :: rest => some ([], rest)
    | cs => do
      let (v, rest) ← item cs
      match skipTrivia rest with
      | ']' :: rest => return ([v], rest)
      | ',' :: rest =>
        let (vs, rest) ← scanItems? item n rest
        return (v :: vs, rest)
      | _ => none

/-- The pairs of a table in braces, on one line, from behind the brace or a comma. The number
bounds how many there are. -/
def scanPairs? (item : Scanner Value) : Nat → Scanner (List (List String × Value))
  | 0, _ => none
  | n + 1, cs => do
    let (path, rest) ← scanKeyPath? cs
    match rest with
    | '=' :: rest =>
      let (v, rest) ← item (skipSpaces rest)
      match skipSpaces rest with
      | '\x7d' :: rest => return ([(path, v)], rest)
      | ',' :: rest =>
        let (pairs, rest) ← scanPairs? item n rest
        return ((path, v) :: pairs, rest)
      | _ => none
    | _ => none

/-- How deeply arrays and tables in braces may be nested. -/
def nestingLimit : Nat := 127

/-- A scalar that is no string. -/
def scanScalar? : Scanner Value := fun cs =>
  match DateTime.scan? cs with
  | some (d, rest) => some (.datetime d, rest)
  | none => (scalarOf? (cs.takeWhile isScalarChar)).map (·, cs.dropWhile isScalarChar)

/-- A string of any of the four kinds. -/
def scanString? : Scanner Value := fun cs =>
  let read := match cs with
    | '\"' :: '\"' :: '\"' :: rest => scanMultilineBasic? rest
    | '\"' :: rest => scanBasic? rest
    | '\'' :: '\'' :: '\'' :: rest => scanMultilineLiteral? rest
    | '\'' :: rest => scanLiteral? rest
    | _ => none
  read.map fun (s, rest) => (.string (String.ofList s), rest)

/-- A value in which arrays and tables are nested at most so deeply. -/
def scanValue? : Nat → Scanner Value
  | _, '\"' :: rest => scanString? ('\"' :: rest)
  | _, '\'' :: rest => scanString? ('\'' :: rest)
  | 0, '[' :: _ => none
  | n + 1, '[' :: rest => do
    let (items, rest) ← scanItems? (scanValue? n) (rest.length + 1) rest
    return (.array items, rest)
  | 0, '\x7b' :: _ => none
  | n + 1, '\x7b' :: rest =>
    match skipSpaces rest with
    | '\x7d' :: rest => some (.table [], rest)
    | cs => do
      let (pairs, rest) ← scanPairs? (scanValue? n) (cs.length + 1) cs
      return (← inlineTable? pairs, rest)
  | _, cs => scanScalar? cs

/-! ### Statements -/

/-- A statement of a document. -/
inductive Statement where
  /-- A pair for the table that was begun last. -/
  | pair (path : List String) (v : Value)
  /-- The header of a table. -/
  | table (path : List String)
  /-- The header of one more table of a series. -/
  | series (path : List String)
  deriving Inhabited

/-- The statement at the beginning and what follows its line. -/
def scanStatement? : Scanner Statement
  | '[' :: '[' :: rest => do
    let (path, rest) ← scanKeyPath? rest
    match rest with
    | ']' :: ']' :: rest => return (.series path, ← lineEnd? rest)
    | _ => none
  | '[' :: rest => do
    let (path, rest) ← scanKeyPath? rest
    match rest with
    | ']' :: rest => return (.table path, ← lineEnd? rest)
    | _ => none
  | cs => do
    let (path, rest) ← scanKeyPath? cs
    match rest with
    | '=' :: rest =>
      let (v, rest) ← scanValue? nestingLimit (skipSpaces rest)
      return (.pair path v, ← lineEnd? rest)
    | _ => none

/-- The statements of the characters that are left. The number bounds how many lines there are. -/
def scanStatements? : Nat → List Char → Option (List Statement)
  | 0, _ => none
  | n + 1, cs =>
    match skipSpaces cs with
    | [] => some []
    | c :: rest =>
      if c = '#' ∨ c = '\n' ∨ c = '\r' then do scanStatements? n (← lineEnd? (c :: rest))
      else do
        let (s, rest) ← scanStatement? (c :: rest)
        return s :: (← scanStatements? n rest)

/-- The statements of a document. A byte-order mark in front is ignored. -/
def statements? (text : String) : Option (List Statement) :=
  let cs := match text.toList with
    | '\ufeff' :: rest => rest
    | cs => cs
  scanStatements? (cs.length + 1) cs

namespace Document

/-- The entries so far, and the keys that lead to the table that was begun last. -/
structure Progress where
  entries : Entries
  current : List String

/-- What is built after one more statement. -/
def step? (p : Progress) : Statement → Option Progress
  | .pair path v => do
    let entries ← Entries.update? .implied (Entries.addPair? path v) p.current .explicit p.entries
    return { p with entries }
  | .table path => do return ⟨← Entries.openTable? path p.entries, path⟩
  | .series path => do return ⟨← Entries.openSeries? path p.entries, path⟩

/-- The entries of the top table of a document. -/
def ofText? (text : String) : Option (List (String × Value)) := do
  let progress ← (← statements? text).foldlM step? ⟨[], []⟩
  return entriesToValues progress.entries

end Document

end SimMetadata.Toml
