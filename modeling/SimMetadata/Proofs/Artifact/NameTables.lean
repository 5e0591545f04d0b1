import SimMetadata.Proofs.Generation.Enumerators
import SimMetadata.Proofs.Text.Layout
import SimMetadata.Proofs.Text.NativeLiteral

/-!
# Tables of names in native sources

The source of the trace flags and that of an enumeration each hold a table with the names of what
they define, so that a name can be found by its number. The table is read as a compiler reads it: an
entry is a literal with a comma behind it, and the table ends at the brace behind its entries.

Names are put between quotes as they are, and may be any texts. A name with a character that is
special in a literal is therefore not spelled by its entry: a quote in it ends the literal early, a
backslash begins an escape, and a line feed breaks the literal off. The condition is exact, also for
the table as a whole: a literal stands on one line, so no entry makes good what is wrong with the one
before it.

## Main definitions

* `NameTable.read?`: the names that the entries of a table stand for.
* `NameTable.isPlain`: there is nothing special in a name.
* `NameTable.Holds`: the table of a file lists some names.

## Main results

* `NameTable.unquote?_quoted_iff`, `NameTable.read?_entryLines_iff`: when an entry spells its name,
  and when a table spells its names.
* `NameTable.tables_spell`: this for the two tables that are written.
* `NameTable.marked_tables_misspell`: lists that are accepted and not spelled.
-/

namespace SimMetadata

open Text

/-! ### Reading a table -/

namespace NameTable

variable {cs rest : List Char} {name : String} {names : List String}

/-- The entry that the characters begin with, and what follows it: a literal with a comma. -/
def item? (cs : List Char) : Option (List Char × List Char) :=
  (Literal.read? NativeLiteral.decode? cs).bind fun p =>
    match p.2.dropWhile Char.isWhitespace with
    | ',' :: rest => some (p.1, rest)
    | _ => none

theorem item?_eq_some {p : List Char × List Char} (h : item? cs = some p) :
    ∃ after, Literal.read? NativeLiteral.decode? cs = some (p.1, after)
      ∧ after.dropWhile Char.isWhitespace = ',' :: p.2 := by
  obtain ⟨⟨text, after⟩, hread, hafter⟩ := Option.bind_eq_some_iff.mp h
  dsimp only at hafter
  split at hafter
  · next hdrop =>
    cases hafter
    exact ⟨after, hread, hdrop⟩
  · cases hafter

/-- An entry leaves less to be read. -/
theorem length_item? {p : List Char × List Char} (h : item? cs = some p) :
    p.2.length < cs.length := by
  obtain ⟨after, hread, hdrop⟩ := item?_eq_some h
  have hle : (after.dropWhile Char.isWhitespace).length ≤ after.length :=
    (List.dropWhile_sublist _).length_le
  rw [hdrop, List.length_cons] at hle
  have hlt := Literal.length_read? hread
  omega

/-- The names that a table lists, where the characters begin behind its opening brace: entries up to
the closing brace, with white space around them. -/
def read? (cs : List Char) : Option (List String) :=
  match cs with
  | [] => none
  | c :: rest =>
    if c.isWhitespace then read? rest
    else if c = '}' then some []
    else
      match _h : item? (c :: rest) with
      | none => none
      | some p => (read? p.2).map (String.ofList p.1 :: ·)
termination_by cs.length
decreasing_by
  · exact Nat.lt_succ_self _
  · exact length_item? _h

theorem read?_blank {c : Char} (hc : c.isWhitespace = true) (cs : List Char) :
    read? (c :: cs) = read? cs := by
  rw [read?, if_pos hc]

theorem read?_indented {indent : List Char} (h : indent.all Char.isWhitespace = true)
    (cs : List Char) : read? (indent ++ cs) = read? cs := by
  induction indent with
  | nil => rfl
  | cons c indent ih =>
    rw [List.all_cons, Bool.and_eq_true] at h
    rw [List.cons_append, read?_blank h.1, ih h.2]

theorem read?_closing (cs : List Char) : read? ('}' :: cs) = some [] := by
  rw [read?, if_neg (by decide), if_pos rfl]

theorem read?_entry (cs : List Char) :
    read? ('\"' :: cs) = (item? ('\"' :: cs)).bind fun p =>
      (read? p.2).map (String.ofList p.1 :: ·) := by
  rw [read?, if_neg (by decide), if_neg (by decide)]
  split
  · next h => rw [h]; rfl
  · next h => rw [h]; rfl

/-- A name in quotes as it is. -/
def quoted (name : String) : String := "\"" ++ name ++ "\""

/-- Nothing in the name is special in a literal. -/
def isPlain (name : String) : Bool := name.toList.all Literal.isPlain

/-- A name in quotes stands for itself exactly if nothing in it is special. -/
theorem unquote?_quoted_iff : NativeLiteral.unquote? (quoted name) = some name ↔ isPlain name := by
  have hchars : (quoted name).toList = '\"' :: name.toList ++ ['\"'] := by simp [quoted]
  rw [isPlain, ← NativeLiteral.decode?_quoted_iff, NativeLiteral.unquote?, hchars,
    Option.map_eq_some_iff]
  constructor
  · rintro ⟨text, htext, rfl⟩
    rwa [String.toList_ofList] at htext ⊢
  · intro h
    exact ⟨_, h, String.ofList_toList⟩

/-- The next name of a table is read from its quotes exactly if nothing in it is special. If
something is, then what is read is another name, or nothing. -/
theorem read?_quoted_iff (more : List Char) :
    read? ('\"' :: name.toList ++ '\"' :: ',' :: '\n' :: more) = some (name :: names)
      ↔ isPlain name = true ∧ read? more = some names := by
  rw [List.cons_append, read?_entry, ← List.cons_append]
  constructor
  · intro h
    obtain ⟨⟨text, behind⟩, hentry, h⟩ := Option.bind_eq_some_iff.mp h
    obtain ⟨rest, hrest, hcons⟩ := Option.map_eq_some_iff.mp h
    obtain ⟨rfl, rfl⟩ := List.cons.inj hcons
    obtain ⟨after, hread, hafter⟩ := item?_eq_some hentry
    rw [String.toList_ofList] at hread
    have hplain := NativeLiteral.isPlain_of_read?_quoted hread
    rw [NativeLiteral.read?_quoted hplain] at hread
    cases hread
    cases hafter
    rw [read?_blank (by decide)] at hrest
    exact ⟨by rwa [isPlain, String.toList_ofList], hrest⟩
  · rintro ⟨hplain, hmore⟩
    have hentry : item? ('\"' :: name.toList ++ '\"' :: ',' :: '\n' :: more)
        = some (name.toList, '\n' :: more) := by
      rw [item?, NativeLiteral.read?_quoted hplain]
      rfl
    rw [hentry, Option.bind_some, read?_blank (by decide), hmore, String.ofList_toList]
    rfl

/-- The lines of a table's entries. -/
def entryLines (indent : String) (names : List String) : List String :=
  names.map fun n => indent ++ quoted n ++ ","

theorem read?_entryLines_iff {indent : String}
    (hindent : indent.toList.all Char.isWhitespace = true) {closing : List Char}
    (hclosing : read? closing = some []) :
    read? ((Text.unlines (entryLines indent names)).toList ++ closing) = some names
      ↔ ∀ n ∈ names, isPlain n = true := by
  induction names with
  | nil => simpa [entryLines, toList_unlines] using hclosing
  | cons n names ih =>
    have hchars : (Text.unlines (entryLines indent (n :: names))).toList ++ closing
        = indent.toList ++ ('\"' :: n.toList ++ '\"' :: ',' :: '\n' ::
          ((Text.unlines (entryLines indent names)).toList ++ closing)) := by
      simp [entryLines, toList_unlines, quoted]
    rw [hchars, read?_indented hindent, read?_quoted_iff, ih, List.forall_mem_cons]

/-- Behind its opening lines, a file holds a table that lists the names. -/
def Holds (opening names : List String) (text : String) : Prop :=
  ∃ rest, text = Text.unlines opening ++ rest ∧ read? rest.toList = some names

theorem holds_iff {opening : List String} {indent closing : String}
    (hindent : indent.toList.all Char.isWhitespace = true)
    (hclosing : read? closing.toList = some []) :
    Holds opening names
        (Text.unlines opening ++ (Text.unlines (entryLines indent names) ++ closing))
      ↔ ∀ n ∈ names, isPlain n = true := by
  rw [← read?_entryLines_iff hindent hclosing, ← String.toList_append]
  constructor
  · rintro ⟨rest, htext, hread⟩
    rwa [(String.append_right_inj _).mp htext]
  · intro hread
    exact ⟨_, rfl, hread⟩

/-- The literal of a table's entry stands for the name exactly if nothing in the name is special. -/
def Entry (literal name : String) : Prop :=
  NativeLiteral.unquote? literal = some name ↔ isPlain name = true

theorem forall₂_entry (names : List String) : List.Forall₂ Entry (names.map quoted) names := by
  rw [List.forall₂_map_left_iff, List.forall₂_same]
  exact fun _ _ => unquote?_quoted_iff

end NameTable

/-! ### The table of the trace flags -/

/-- The lines in front of the table of the flags' names. -/
def FlagSource.opening : List String :=
  ["/*", " * DO NOT EDIT THIS FILE! Automatically generated", " */", "",
    "#include \"base/traceflags.hh\"", "", "using namespace Trace;", "",
    "const char *Trace::flagStrings[] =", "\x7b"]

namespace FlagTables

open TraceFlag

variable {flags : List TraceFlag} {t : FlagTables}

theorem flagStrings_ofTables (hsimple : t.simple = simpleNames flags)
    (hcompounds : t.compounds = withMembers flags) :
    (FlagSource.ofTables t).flagStrings = (namesInOrder flags).map NameTable.quoted := by
  rw [FlagSource.ofTables_eq, hsimple, hcompounds]
  rfl

theorem length_namesInOrder (flags : List TraceFlag) :
    (namesInOrder flags).length = flags.length + 1 := by
  have hlength := (names_perm flags).length_eq
  rw [namesInOrder, map_name_withMembers]
  simp only [List.length_append, List.length_cons, List.length_map] at hlength ⊢
  omega

theorem isPlain_namesInOrder_iff :
    (∀ n ∈ namesInOrder flags, NameTable.isPlain n = true)
      ↔ ∀ f ∈ flags, NameTable.isPlain f.name = true := by
  have hall : NameTable.isPlain "All" = true := by decide
  simp only [mem_namesInOrder]
  constructor
  · exact fun h f hf => h f.name (.inr ⟨f, hf, rfl⟩)
  · rintro h n (rfl | ⟨f, hf, rfl⟩)
    · exact hall
    · exact h f hf

/-- The source is its opening, the table, and the rest, which begins with the closing brace. -/
theorem holds_text_iff {s : FlagSource} {names : List String}
    (h : s.flagStrings = names.map NameTable.quoted) :
    NameTable.Holds FlagSource.opening names s.text
      ↔ ∀ n ∈ names, NameTable.isPlain n = true := by
  have hentries : s.flagStrings.map (fun l => "    " ++ l ++ ",")
      = NameTable.entryLines "    " names := by
    rw [h, List.map_map]
    rfl
  have hindent : "    ".toList.all Char.isWhitespace = true := by decide
  rw [FlagSource.text, FlagSource.lines, hentries]
  simp only [List.append_assoc]
  rw [unlines_append, unlines_append]
  refine NameTable.holds_iff hindent ?_
  rw [toList_unlines]
  exact NameTable.read?_closing _

end FlagTables

/-! ### The table of an enumeration -/

/-- The lines in front of the table of an enumeration's names. -/
def EnumSource.opening (s : EnumSource) : List String :=
  ["#include \"" ++ s.header ++ "\"", "", "namespace Enums \x7b",
    "    const char *" ++ s.table ++ "[" ++ s.size ++ "] =", "    \x7b"]

theorem EnumSource.holds_text_iff {s : EnumSource} {names : List String}
    (h : s.literals = names.map NameTable.quoted) :
    NameTable.Holds s.opening names s.text ↔ ∀ n ∈ names, NameTable.isPlain n = true := by
  have hentries : s.literals.map (fun l => "        " ++ l ++ ",")
      = NameTable.entryLines "        " names := by
    rw [h, List.map_map]
    rfl
  have hindent : "        ".toList.all Char.isWhitespace = true := by decide
  have hclosing : "    ".toList.all Char.isWhitespace = true := by decide
  rw [EnumSource.text, EnumSource.lines, hentries, List.append_assoc, unlines_append,
    unlines_append]
  refine NameTable.holds_iff hindent ?_
  rw [toList_unlines]
  exact (NameTable.read?_indented hclosing _).trans (NameTable.read?_closing _)

theorem Enumeration.literals_ofEnumeration (e : Enumeration) :
    (EnumSource.ofEnumeration e).literals
      = (e.values.map EnumValue.name).map NameTable.quoted := by
  rw [List.map_map]
  rfl

/-! ### Both tables -/

namespace NameTable

open TraceFlag (validate? namesInOrder)
open FlagTables (ofFlags?)
open Registry (discover)

/-- **When native tables spell their names.** The source of an accepted list of flags is written,
and so is that of an enumeration that discovery publishes. Each has a table with one entry for each
name, in order: the flags by number, `All` included, or the values. Names are put between quotes as
they are. So the literal of an entry stands for its name exactly if nothing in the name is special
in a literal, and what is read from the table in the file is the list of the names exactly if this
holds of all of them. Neither the check of the flags nor discovery asks for it. -/
theorem tables_spell (flags : List TraceFlag) (host : ModuleTable) (d : Disk)
    (sources : List ScriptSource) (requested : List String) (env : BuildEnv) (r : Registry)
    (name : String) (e : Enumeration) :
    (validate? flags = .ok () → ∃ t, ofFlags? flags = .ok t
      ∧ flagSourceText flags = .ok (FlagSource.ofTables t).text
      ∧ (FlagSource.ofTables t).flagStrings.length = flags.length + 1
      ∧ List.Forall₂ Entry (FlagSource.ofTables t).flagStrings (namesInOrder flags)
      ∧ (Holds FlagSource.opening (namesInOrder flags) (FlagSource.ofTables t).text
        ↔ ∀ f ∈ flags, isPlain f.name = true))
    ∧ ((discover host d sources requested env).1 = .ok r → r.enums.get? name = some e →
      let source := EnumSource.ofEnumeration e
      (∀ ctx : RenderContext, ctx.registry = r →
        (Artifact.enumSource name).render? ctx = .ok source.text)
      ∧ source.literals.length = e.values.length
      ∧ List.Forall₂ Entry source.literals (e.values.map EnumValue.name)
      ∧ (Holds source.opening (e.values.map EnumValue.name) source.text
        ↔ ∀ v ∈ e.values, isPlain v.name = true)) := by
  constructor
  · intro hvalid
    obtain ⟨t, ht, hsimple, hcompounds⟩ := FlagTables.exists_ofFlags?_ok hvalid
    have hstrings := FlagTables.flagStrings_ofTables hsimple hcompounds
    refine ⟨t, ht, ?_, ?_, ?_, ?_⟩
    · rw [flagSourceText, ht]
      rfl
    · rw [hstrings, List.length_map, FlagTables.length_namesInOrder]
    · rw [hstrings]
      exact forall₂_entry _
    · rw [FlagTables.holds_text_iff hstrings, FlagTables.isPlain_namesInOrder_iff]
  · intro _ he
    have hliterals := e.literals_ofEnumeration
    refine ⟨fun ctx hctx => (Artifact.HasLines.enumSource he).render? hctx, ?_, ?_, ?_⟩
    · rw [hliterals, List.length_map, List.length_map]
    · rw [hliterals]
      exact forall₂_entry _
    · rw [EnumSource.holds_text_iff hliterals, List.forall_mem_map]

/-- The tables of a list of flags and of an enumeration with plain names are read as these names. -/
theorem plain_tables_spell :
    validate? FlagTables.interleaved = .ok ()
      ∧ (discover Registry.gearHost (Disk.blank []) [] [] Registry.sampleEnv).1 = .ok Registry.gears
      ∧ Registry.gears.enums.get? "Gear" = some Registry.gear
      ∧ (∃ t, ofFlags? FlagTables.interleaved = .ok t
        ∧ Holds FlagSource.opening ["Exec", "Fetch", "Bus", "All", "ExecAll", "MemAll"]
          (FlagSource.ofTables t).text)
      ∧ Holds (EnumSource.ofEnumeration Registry.gear).opening ["low", "high", "Num_Gear"]
        (EnumSource.ofEnumeration Registry.gear).text := by
  have hvalid : validate? FlagTables.interleaved = .ok () := by decide
  have he : Registry.gears.enums.get? "Gear" = some Registry.gear := by decide
  obtain ⟨hflags, henum⟩ := tables_spell FlagTables.interleaved Registry.gearHost (Disk.blank []) []
    [] Registry.sampleEnv Registry.gears "Gear" Registry.gear
  obtain ⟨t, ht, -, -, -, hholds⟩ := hflags hvalid
  obtain ⟨-, -, -, hholds'⟩ := henum Registry.discover_gearHost he
  exact ⟨hvalid, Registry.discover_gearHost, he, ⟨t, ht, hholds.mpr (by decide)⟩,
    hholds'.mpr (by decide)⟩

/-! ### Names that are something else between quotes -/

/-- A flag with a quote in its name. -/
def markedFlags : List TraceFlag := [⟨"a\"b", false, [], ""⟩]

/-- An enumeration with a value in whose name a letter follows a backslash. -/
def markedEnum : Enumeration := ⟨"Path", [⟨"a\\t", 0⟩, ⟨"a/t", 1⟩]⟩

def markedHost : ModuleTable := NameMap.ofList
  [("runtime", .manifest ⟨"runtime.toml"⟩
      { imports := []
        enums := [⟨"Path", [.bare "a\\t", .bare "a/t"]⟩]
        classes := [⟨"SimObject", none, true, none, none, none, []⟩] })]

/-- What discovery finds in the host. -/
def markedRegistry : Registry :=
  { classes := NameMap.ofList
      [("SimObject", ⟨"SimObject", none, [], none, "SimObject", none, true, "runtime"⟩)]
    allParams := NameMap.ofList [("SimObject", [])]
    enums := NameMap.ofList [("Path", markedEnum)]
    paramTypes := NameMap.ofList [] }

theorem discover_markedHost :
    (discover markedHost (Disk.blank []) [] [] Registry.sampleEnv).1 = .ok markedRegistry := by
  decide +kernel

/-- Not every table spells its names: the literal of the flag is none, and that of the value stands
for another text. -/
theorem marked_tables_misspell :
    (¬ ∀ (flags : List TraceFlag) (t : FlagTables), validate? flags = .ok () →
      ofFlags? flags = .ok t →
        List.Forall₂ (fun literal name => NativeLiteral.unquote? literal = some name)
          (FlagSource.ofTables t).flagStrings (namesInOrder flags))
    ∧ ¬ ∀ (host : ModuleTable) (d : Disk) (sources : List ScriptSource) (requested : List String)
        (env : BuildEnv) (r : Registry) (name : String) (e : Enumeration),
      (discover host d sources requested env).1 = .ok r → r.enums.get? name = some e →
        List.Forall₂ (fun literal name => NativeLiteral.unquote? literal = some name)
          (EnumSource.ofEnumeration e).literals (e.values.map EnumValue.name) := by
  constructor
  · intro h
    have hspelt := h markedFlags _ (by decide) rfl
    exact absurd (List.forall₂_cons.mp hspelt).1 (by decide)
  · intro h
    have hspelt := h _ _ _ _ _ _ "Path" markedEnum discover_markedHost (by decide)
    exact absurd (List.forall₂_cons.mp hspelt).1 (by decide)

end NameTable

end SimMetadata
