import SimMetadata.Enumeration
import SimMetadata.Text.Layout

/-!
# Native tables of enumerations

For every enumeration a native header declares the enumerators and their count, and a native
source defines a table with the names as texts.

## Main definitions

* `EnumHeader`, `EnumSource`: what the two files declare.
-/

namespace SimMetadata

/-- The path of an enumeration's header, as it is included. -/
def enumHeaderPath (name : String) : String := "enums/" ++ name ++ ".hh"

/-- A name in a native enumeration and its number. -/
structure Enumerator where
  name : String
  value : Int
  deriving DecidableEq, Inhabited, Repr

/-- The definition of the enumerator. -/
def Enumerator.text (e : Enumerator) : String := e.name ++ " = " ++ toString e.value

/-- The header of an enumeration. -/
structure EnumHeader where
  name : String
  /-- The values of the enumeration. -/
  enumerators : List Enumerator
  /-- The enumerator that counts them. -/
  count : Enumerator
  /-- The table of the names as texts. -/
  table : String
  deriving DecidableEq, Inhabited, Repr

namespace EnumHeader

/-- The header of an enumeration. -/
def ofEnumeration (e : Enumeration) : EnumHeader where
  name := e.name
  enumerators := e.values.map fun v => ⟨v.name, v.value⟩
  count := ⟨e.countSymbol, e.values.length⟩
  table := e.stringsSymbol

/-- The lines of the header. -/
def lines (h : EnumHeader) : List String :=
  let guardMacro := "__ENUM__" ++ h.name ++ "__"
  ["#ifndef " ++ guardMacro, "#define " ++ guardMacro, "", "namespace Enums \x7b",
    "    enum " ++ h.name ++ " \x7b"]
    ++ h.enumerators.map (fun e => "        " ++ e.text ++ ",")
    ++ ["        " ++ h.count.text, "    \x7d;",
      "extern const char *" ++ h.table ++ "[" ++ h.count.name ++ "];", "\x7d", "",
      "#endif // " ++ guardMacro]

/-- The header as it is written. -/
def text (h : EnumHeader) : String := Text.unlines h.lines

end EnumHeader

/-- The source of an enumeration. -/
structure EnumSource where
  /-- The header that declares the table. -/
  header : String
  /-- The table of the names as texts. -/
  table : String
  /-- The constant that is the size of the table. -/
  size : String
  /-- The entries of the table: the names in quotes, as they are written. -/
  literals : List String
  deriving DecidableEq, Inhabited, Repr

namespace EnumSource

/-- The source of an enumeration. -/
def ofEnumeration (e : Enumeration) : EnumSource where
  header := enumHeaderPath e.name
  table := e.stringsSymbol
  size := e.countSymbol
  literals := e.values.map fun v => "\"" ++ v.name ++ "\""

/-- The lines of the source. -/
def lines (s : EnumSource) : List String :=
  ["#include \"" ++ s.header ++ "\"", "", "namespace Enums \x7b",
    "    const char *" ++ s.table ++ "[" ++ s.size ++ "] =", "    \x7b"]
    ++ s.literals.map (fun l => "        " ++ l ++ ",")
    ++ ["    \x7d;", "/* namespace Enums */ \x7d"]

/-- The source as it is written. -/
def text (s : EnumSource) : String := Text.unlines s.lines

end EnumSource

end SimMetadata
