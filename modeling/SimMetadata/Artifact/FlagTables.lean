import SimMetadata.Artifact.EnumTables
import SimMetadata.Text.ScriptLiteral
import SimMetadata.TraceFlag

/-!
# Tables of trace flags

One list of flags is written three times: as a scripting module, as a native source with tables of
texts and members, and as a native header that numbers the flags. The simple flags come first in
the order in which they are declared, then `All`, the implicit compound of all simple flags, then
the declared compounds.

## Main definitions

* `TraceFlag.validate?`: whether a list can be written.
* `FlagTables`: the simple flags and the compounds with their members.
* `FlagScript`, `FlagSource`, `FlagHeader`: what the three files contain.
-/

namespace SimMetadata

namespace TraceFlag

/-- The name of the implicit compound. -/
def allFlag : String := "All"

/-- No flag has the name of the implicit compound, and no two have one name. -/
def checkNames? (seen : List String) : List TraceFlag → Except Failure Unit
  | [] => .ok ()
  | f :: fs =>
    if f.name = allFlag then .error (.invalidFlags (.reserved allFlag))
    else if f.name ∈ seen then .error (.invalidFlags (.declaredTwice f.name))
    else checkNames? (f.name :: seen) fs

/-- The names of the simple flags, in order. -/
def simpleNames (flags : List TraceFlag) : List String :=
  (flags.filter fun f => !f.isCompound).map TraceFlag.name

/-- The compound flags, in order. -/
def compounds (flags : List TraceFlag) : List TraceFlag := flags.filter TraceFlag.isCompound

/-- The members of compounds are simple flags. -/
def checkCompounds? (simple : List String) : List TraceFlag → Except Failure Unit
  | [] => .ok ()
  | f :: fs =>
    match f.members.find? (· ∉ simple) with
    | some member => .error (.invalidFlags (.notSimple f.name member))
    | none => checkCompounds? simple fs

/-- Whether a list of flags can be written. -/
def validate? (flags : List TraceFlag) : Except Failure Unit := do
  checkNames? [] flags
  checkCompounds? (simpleNames flags) (compounds flags)

end TraceFlag

/-- A compound flag with its members. -/
structure CompoundFlag where
  name : String
  members : List String
  deriving DecidableEq, Inhabited, Repr

/-- What the three files are about. -/
structure FlagTables where
  /-- The simple flags. -/
  simple : List String
  /-- The compounds, of which the first is the implicit one. -/
  compounds : List CompoundFlag
  /-- The description of every flag, of which the first is the implicit one. -/
  descriptions : List (String × String)
  deriving DecidableEq, Inhabited, Repr

/-- The tables of a list of flags. -/
def FlagTables.ofFlags? (flags : List TraceFlag) : Except Failure FlagTables := do
  TraceFlag.validate? flags
  let simple := TraceFlag.simpleNames flags
  return {
    simple
    compounds := ⟨TraceFlag.allFlag, simple⟩
      :: (TraceFlag.compounds flags).map fun f => ⟨f.name, f.members⟩
    descriptions := (TraceFlag.allFlag, "All flags") :: flags.map fun f => (f.name, f.desc) }

/-! ### The scripting module -/

/-- What the scripting module defines. -/
structure FlagScript where
  baseFlags : List String
  compoundFlags : List String
  compoundFlagMap : List CompoundFlag
  flagDescriptions : List (String × String)
  deriving DecidableEq, Inhabited, Repr

namespace FlagScript

open Text.ScriptLiteral (quote)

/-- The scripting module of some tables. -/
def ofTables (t : FlagTables) : FlagScript where
  baseFlags := t.simple
  compoundFlags := t.compounds.map CompoundFlag.name
  compoundFlagMap := t.compounds
  flagDescriptions := t.descriptions

/-- Texts as a list on one line. -/
def listText (items : List String) : String :=
  "[" ++ Text.joinWith ", " (items.map quote) ++ "]"

/-- The lines of the module. -/
def lines (s : FlagScript) : List String :=
  ["baseFlags = ["] ++ s.baseFlags.map (fun n => "    " ++ quote n ++ ",") ++ ["]", ""]
    ++ ["compoundFlags = ["] ++ s.compoundFlags.map (fun n => "    " ++ quote n ++ ",")
    ++ ["]", ""]
    ++ ["allFlags = frozenset(baseFlags + compoundFlags)", ""]
    ++ ["compoundFlagMap = \x7b"]
    ++ s.compoundFlagMap.map
      (fun c => "    " ++ quote c.name ++ " : " ++ listText c.members ++ ",")
    ++ ["\x7d", ""]
    ++ ["flagDescriptions = \x7b"]
    ++ s.flagDescriptions.map
      (fun d => "    " ++ quote d.1 ++ " : " ++ quote d.2 ++ ",")
    ++ ["\x7d"]

/-- The module as it is written. -/
def text (s : FlagScript) : String := Text.unlines s.lines

end FlagScript

/-! ### The native source -/

/-- The table of a compound's members. -/
structure MemberArray where
  symbol : String
  /-- The entries, of which the last ends the table. -/
  entries : List String
  deriving DecidableEq, Inhabited, Repr

/-- The entry that ends a table of members. -/
def memberSentinel : String := "(Flags)-1"

/-- The name of the table of a compound's members. -/
def memberSymbol (compound : String) : String := compound ++ "Map"

namespace MemberArray

/-- The table of a compound. -/
def ofCompound (c : CompoundFlag) : MemberArray :=
  ⟨memberSymbol c.name, c.members ++ [memberSentinel]⟩

/-- The lines that define the table. Every entry but the last is followed by a comma. -/
def lines (a : MemberArray) : List String :=
  ["static const Flags " ++ a.symbol ++ "[] = \x7b"]
    ++ a.entries.dropLast.map (fun e => "    " ++ e ++ ",")
    ++ a.entries.getLast?.toList.map (fun e => "    " ++ e) ++ ["\x7d;", ""]

end MemberArray

/-- What the native source defines. -/
structure FlagSource where
  /-- The table of names: the names in quotes, as they are written. -/
  flagStrings : List String
  numFlagStrings : Nat
  memberArrays : List MemberArray
  /-- The tables of members, by the number of the compound. -/
  compoundFlags : List String
  deriving DecidableEq, Inhabited, Repr

namespace FlagSource

/-- A loop over names: their entries in the table of names, and the count of the entries, where
`count` of them are already there. -/
def enter (count : Nat) : List String → List String × Nat
  | [] => ([], count)
  | name :: names =>
    let (entries, total) := enter (count + 1) names
    (("\"" ++ name ++ "\"") :: entries, total)

/-- The native source of some tables. The count goes on from the simple flags to the compounds. -/
def ofTables (t : FlagTables) : FlagSource :=
  let (simple, count) := enter 0 t.simple
  let (compounds, count) := enter count (t.compounds.map CompoundFlag.name)
  { flagStrings := simple ++ compounds
    numFlagStrings := count
    memberArrays := t.compounds.map MemberArray.ofCompound
    compoundFlags := t.compounds.map fun c => memberSymbol c.name }

/-- The lines of the source. -/
def lines (s : FlagSource) : List String :=
  ["/*", " * DO NOT EDIT THIS FILE! Automatically generated", " */", "",
    "#include \"base/traceflags.hh\"", "", "using namespace Trace;", "",
    "const char *Trace::flagStrings[] =", "\x7b"]
    ++ s.flagStrings.map (fun l => "    " ++ l ++ ",")
    ++ ["\x7d;", "", "const int Trace::numFlagStrings = " ++ toString s.numFlagStrings ++ ";", ""]
    ++ s.memberArrays.flatMap MemberArray.lines
    ++ ["const Flags *Trace::compoundFlags[] =", "\x7b"]
    ++ s.compoundFlags.map (fun n => "    " ++ n ++ ",")
    ++ ["\x7d;"]

/-- The source as it is written. -/
def text (s : FlagSource) : String := Text.unlines s.lines

end FlagSource

/-! ### The native header -/

/-- What the native header defines: the numbers of the flags. -/
structure FlagHeader where
  simple : List Enumerator
  numFlags : Enumerator
  compounds : List Enumerator
  numCompoundFlags : Enumerator
  deriving DecidableEq, Inhabited, Repr

namespace FlagHeader

/-- A loop over names: their enumerators, and the next number, where `idx` is the first. -/
def number (idx : Nat) : List String → List Enumerator × Nat
  | [] => ([], idx)
  | name :: names =>
    let (enumerators, next) := number (idx + 1) names
    (⟨name, idx⟩ :: enumerators, next)

/-- The native header of some tables. The numbers go on from the simple flags to the compounds, and
the two counts are read off them. -/
def ofTables (t : FlagTables) : FlagHeader :=
  let (simple, idx) := number 0 t.simple
  let numFlags := idx
  let (compounds, idx) := number idx (t.compounds.map CompoundFlag.name)
  { simple
    numFlags := ⟨"NumFlags", numFlags⟩
    compounds
    numCompoundFlags := ⟨"NumCompoundFlags", (idx - numFlags : Nat)⟩ }

/-- All enumerators, in the order in which they are written. -/
def enumerators (h : FlagHeader) : List Enumerator :=
  h.simple ++ [h.numFlags] ++ h.compounds ++ [h.numCompoundFlags]

/-- The line of an enumerator that another one follows. -/
def enumeratorLine (e : Enumerator) : String := "    " ++ e.text ++ ","

/-- The lines of the header. -/
def lines (h : FlagHeader) : List String :=
  ["/*", " * DO NOT EDIT THIS FILE!", " *",
    " * Automatically generated from the trace flag list", " */", "",
    "#ifndef __BASE_TRACE_FLAGS_HH__", "#define __BASE_TRACE_FLAGS_HH__", "",
    "namespace Trace \x7b", "", "enum Flags \x7b"]
    ++ h.simple.map enumeratorLine
    ++ [enumeratorLine h.numFlags, "",
      "// The remaining enum values are *not* valid indices for Trace::flags.",
      "// They are \"compound\" flags, which correspond to sets of base",
      "// flags, and are used by changeFlag."]
    ++ h.compounds.map enumeratorLine
    ++ ["    " ++ h.numCompoundFlags.text, "\x7d; // enum Flags", "",
      "// Array of strings for SimpleEnumParam", "extern const char *flagStrings[];",
      "extern const int numFlagStrings;", "",
      "// Array of array pointers: for each compound flag, gives the list of",
      "// base flags to set.  Individual flag arrays are terminated by -1.",
      "extern const Flags *compoundFlags[];", "", "/* namespace Trace */ \x7d", "",
      "#endif // __BASE_TRACE_FLAGS_HH__"]

/-- The header as it is written. -/
def text (h : FlagHeader) : String := Text.unlines h.lines

end FlagHeader

/-! ### The three files of a list of flags -/

/-- The scripting module. -/
def flagScriptText (flags : List TraceFlag) : Except Failure String :=
  (FlagTables.ofFlags? flags).map fun t => (FlagScript.ofTables t).text

/-- The native source. -/
def flagSourceText (flags : List TraceFlag) : Except Failure String :=
  (FlagTables.ofFlags? flags).map fun t => (FlagSource.ofTables t).text

/-- The native header. -/
def flagHeaderText (flags : List TraceFlag) : Except Failure String :=
  (FlagTables.ofFlags? flags).map fun t => (FlagHeader.ofTables t).text

end SimMetadata
