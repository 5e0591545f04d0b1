import SimMetadata.Failure

/-!
# Enumerations

An enumeration is a list of named integers that can serve as a parameter type. A declaration may
leave numbers out; counting then goes on from the number before.

## Main definitions

* `Enumeration`: names with their numbers, in order.
* `EnumDecl`: the declaration; `EnumDecl.number` gives each entry its number.
* `EnumDecl.toEnumeration?`: the enumeration, unless a name repeats.
-/

namespace SimMetadata

/-- A named integer. -/
structure EnumValue where
  name : String
  value : Int
  deriving DecidableEq, Inhabited, Repr

/-- A list of named integers. -/
structure Enumeration where
  name : String
  values : List EnumValue
  deriving DecidableEq, Inhabited, Repr

namespace Enumeration

/-- Names numbered from zero. -/
def sequential (name : String) (names : List String) : Enumeration :=
  ⟨name, names.mapIdx fun i n => ⟨n, i⟩⟩

/-- The name of the generated table of texts. -/
def stringsSymbol (e : Enumeration) : String := e.name ++ "Strings"

/-- The name of the generated constant that counts the values. -/
def countSymbol (e : Enumeration) : String := "Num_" ++ e.name

end Enumeration

/-- An entry of a declaration. -/
inductive EnumEntry where
  /-- A name that takes the next number. -/
  | bare (name : String)
  /-- A name with a number of its own. -/
  | explicit (name : String) (value : Int)
  deriving DecidableEq, Inhabited, Repr

/-- The name of an entry. -/
def EnumEntry.name : EnumEntry → String
  | bare name => name
  | explicit name _ => name

/-- The declaration of an enumeration. -/
structure EnumDecl where
  name : String
  entries : List EnumEntry
  deriving DecidableEq, Inhabited, Repr

namespace EnumDecl

/-- The entries with their numbers, where `next` is the number that a bare entry in front takes.

The numbers are integers without bound. The program holds them in signed words of 64 bits, and a
manifest gives no others, so the two agree until counting would go past the largest word;
`EnumDecl.numberWords` counts in words. -/
def number (next : Int) : List EnumEntry → List EnumValue
  | [] => []
  | .bare name :: rest => ⟨name, next⟩ :: number (next + 1) rest
  | .explicit name value :: rest => ⟨name, value⟩ :: number (value + 1) rest

/-- The first name of a list that is among the names before it. -/
def firstRepeat? (seen : List String) : List String → Option String
  | [] => none
  | n :: rest => if n ∈ seen then some n else firstRepeat? (n :: seen) rest

/-- The enumeration that a declaration describes. -/
def toEnumeration? (d : EnumDecl) : Except Failure Enumeration :=
  match firstRepeat? [] (d.entries.map EnumEntry.name) with
  | some value => .error (.duplicateEnumValue d.name value)
  | none => .ok ⟨d.name, number 0 d.entries⟩

end EnumDecl

end SimMetadata
