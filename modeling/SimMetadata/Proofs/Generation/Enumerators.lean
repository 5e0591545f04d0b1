import SimMetadata.Proofs.Artifact.EnumReading
import SimMetadata.Proofs.Artifact.FlagTables
import SimMetadata.Proofs.Enumeration
import SimMetadata.Proofs.Generation.Inclusions
import SimMetadata.Proofs.Registry.Assembly

/-!
# Enumerators that headers declare

Two kinds of headers declare an enumeration: that of an enumeration of the manifests and that of the
trace flags. Both take names from their input, and add names of constants that count them. The names
of the input are checked against each other, and those of flags against `All`, but not against the
names of the counts.

So the names of the input are declared once, and so are the counts, unless they meet: a flag with
the name of a count, or a value with the name of the count of its enumeration, is accepted, and the
header declares that name twice. Nothing else is declared twice.

## Main definitions

* `FlagHeader.names`, `EnumHeader.names`: the names that a header declares, in order.
* `EnumHeader.Matches`: a header and a source that list the same values.

## Main results

* `FlagTables.header_names`: how often the header of an accepted list of flags declares a name.
* `Registry.discover_enumNames`: the same for an enumeration that discovery publishes, and that its
  source lists the same values.
-/

namespace SimMetadata

/-! ### Names with counts added -/

section Added

variable {names own added : List String}

/-- In a scope that is made of two lists of different names, a name stands once for each list that
has it. -/
theorem count_of_perm_append (hperm : names.Perm (own ++ added)) (hown : own.Nodup)
    (hadded : added.Nodup) (n : String) :
    names.count n = (if n ∈ own then 1 else 0) + (if n ∈ added then 1 else 0) := by
  rw [hperm.count_eq, List.count_append, hown.count, hadded.count]

/-- Such a scope has no name twice exactly if the lists do not meet. -/
theorem nodup_iff_of_perm_append (hperm : names.Perm (own ++ added)) (hown : own.Nodup)
    (hadded : added.Nodup) : names.Nodup ↔ ∀ n ∈ added, n ∉ own := by
  rw [hperm.nodup_iff, List.nodup_append']
  constructor
  · rintro ⟨-, -, hdisjoint⟩ n hn hn'
    exact hdisjoint hn' hn
  · intro h
    exact ⟨hown, hadded, fun n hn hn' => h n hn' hn⟩

end Added

/-! ### The header of the trace flags -/

/-- The names that the header declares, in the order in which they are written. -/
def FlagHeader.names (h : FlagHeader) : List String := h.enumerators.map Enumerator.name

namespace FlagTables

open TraceFlag

variable {flags : List TraceFlag} {t : FlagTables}

theorem names_ofTables (hsimple : t.simple = simpleNames flags)
    (hcompounds : t.compounds = withMembers flags) :
    (FlagHeader.ofTables t).names =
      simpleNames flags ++ ["NumFlags"] ++ "All" :: (TraceFlag.compounds flags).map TraceFlag.name
        ++ ["NumCompoundFlags"] := by
  simp [FlagHeader.names, FlagHeader.enumerators, FlagHeader.ofTables_eq,
    FlagHeader.map_name_numbered, hsimple, hcompounds, map_name_withMembers]

/-- The header declares the flags, `All` and the two counts. -/
theorem names_ofTables_perm (hsimple : t.simple = simpleNames flags)
    (hcompounds : t.compounds = withMembers flags) :
    (FlagHeader.ofTables t).names.Perm
      (namesInOrder flags ++ ["NumFlags", "NumCompoundFlags"]) := by
  rw [names_ofTables hsimple hcompounds, namesInOrder, map_name_withMembers]
  simp only [List.append_assoc]
  refine List.Perm.append_left _ ?_
  -- The first count moves over the compounds, to stand with the second one.
  rw [List.singleton_append]
  exact List.perm_middle.symm

/-- **How often the header of the flags declares a name.** The header of an accepted list is read
back from its lines. It declares every flag and `All` once, and the two counts once more. So it
declares no name twice exactly if no flag has the name of a count, which the check does not ask
for. -/
theorem header_names (h : validate? flags = .ok ()) :
    ∃ t, ofFlags? flags = .ok t
      ∧ flagHeaderText flags = .ok (FlagHeader.ofTables t).text
      ∧ (∃ lines, (FlagHeader.ofTables t).text = Text.unlines lines
        ∧ FlagHeader.ofLines? lines = some (FlagHeader.ofTables t))
      ∧ (FlagHeader.ofTables t).names =
        simpleNames flags ++ ["NumFlags"] ++ "All" :: (TraceFlag.compounds flags).map TraceFlag.name
          ++ ["NumCompoundFlags"]
      ∧ (∀ n, (FlagHeader.ofTables t).names.count n =
        (if n = "All" ∨ ∃ f ∈ flags, f.name = n then 1 else 0)
          + (if n = "NumFlags" ∨ n = "NumCompoundFlags" then 1 else 0))
      ∧ ((FlagHeader.ofTables t).names.Nodup ↔
        ∀ f ∈ flags, f.name ≠ "NumFlags" ∧ f.name ≠ "NumCompoundFlags") := by
  obtain ⟨t, ht, hsimple, hcompounds⟩ := exists_ofFlags?_ok h
  have hperm := names_ofTables_perm hsimple hcompounds
  have hown : (namesInOrder flags).Nodup := (validate?_eq_ok_iff.mp h).nodup_namesInOrder
  have hadded : ["NumFlags", "NumCompoundFlags"].Nodup := by decide
  refine ⟨t, ht, ?_, ⟨_, rfl, FlagHeader.ofLines?_lines _⟩, names_ofTables hsimple hcompounds,
    fun n => ?_, ?_⟩
  · rw [flagHeaderText, ht]
    rfl
  · rw [count_of_perm_append hperm hown hadded]
    simp only [mem_namesInOrder, List.mem_cons, List.not_mem_nil, or_false]
  · rw [nodup_iff_of_perm_append hperm hown hadded]
    simp only [mem_namesInOrder, List.forall_mem_cons, List.not_mem_nil]
    grind

/-- A list whose flags have the names of the counts. -/
def countNames : List TraceFlag :=
  [⟨"NumFlags", false, [], ""⟩, ⟨"NumCompoundFlags", true, ["NumFlags"], ""⟩]

/-- The list is accepted, and its header declares both names twice. -/
theorem countNames_twice :
    validate? countNames = .ok () ∧ ∃ t, ofFlags? countNames = .ok t
      ∧ (FlagHeader.ofTables t).names.count "NumFlags" = 2
      ∧ (FlagHeader.ofTables t).names.count "NumCompoundFlags" = 2 := by
  have hvalid : validate? countNames = .ok () := by decide
  obtain ⟨t, ht, -, -, -, hcount, -⟩ := header_names hvalid
  exact ⟨hvalid, t, ht, (hcount _).trans (by decide), (hcount _).trans (by decide)⟩

/-- Not every accepted list has a header that declares each name once. -/
theorem header_repeats :
    ¬ ∀ (flags : List TraceFlag) (t : FlagTables), validate? flags = .ok () →
      ofFlags? flags = .ok t → (FlagHeader.ofTables t).names.Nodup := by
  intro h
  have hnodup := h [⟨"NumFlags", false, [], ""⟩] _ (by decide) rfl
  exact absurd hnodup (by decide)

end FlagTables

/-! ### The header of an enumeration -/

/-- The names that the header declares, in the order in which they are written. -/
def EnumHeader.names (h : EnumHeader) : List String :=
  h.enumerators.map Enumerator.name ++ [h.count.name]

/-- A header and a source that list the same values: the header counts them, and the source has one
text for each, in a table of this size. -/
structure EnumHeader.Matches (header : EnumHeader) (source : EnumSource) : Prop where
  count : header.count.value = header.enumerators.length
  literals : source.literals = header.enumerators.map fun v => "\"" ++ v.name ++ "\""
  size : source.size = header.count.name
  table : source.table = header.table
  header : source.header = enumHeaderPath header.name

namespace Enumeration

variable {e : Enumeration}

theorem names_ofEnumeration (e : Enumeration) :
    (EnumHeader.ofEnumeration e).names = e.values.map EnumValue.name ++ ["Num_" ++ e.name] := by
  simp [EnumHeader.names, EnumHeader.ofEnumeration, countSymbol]

theorem matches_ofEnumeration (e : Enumeration) :
    (EnumHeader.ofEnumeration e).Matches (EnumSource.ofEnumeration e) where
  count := by simp [EnumHeader.ofEnumeration]
  literals := by simp [EnumHeader.ofEnumeration, EnumSource.ofEnumeration]
  size := rfl
  table := rfl
  header := rfl

end Enumeration

namespace Registry

variable {host : ModuleTable} {d : Disk} {sources : List ScriptSource} {requested : List String}
  {env : BuildEnv} {r : Registry} {name : String} {e : Enumeration}

/-- An enumeration that discovery publishes is known under its own name, and its names are pairwise
different. -/
theorem discover_enum (h : (discover host d sources requested env).1 = .ok r)
    (he : r.enums.get? name = some e) :
    e.name = name ∧ (e.values.map EnumValue.name).Nodup := by
  obtain ⟨settings, modules, w, hw, hr⟩ := discover_ok h
  rw [hr.enums] at he
  obtain ⟨_, _, _, _, x, _, rfl, hx⟩ := hw.get?_enum_iff.mp he
  exact ⟨hw.enum_name_eq he, x.nodup_names hx⟩

/-- **How often the header of an enumeration declares a name.** The two files of an enumeration that
discovery publishes are written; they are read back from their lines, and list the same values. The
header declares every value once, and the count once more. So it declares no name twice exactly if
no value has the name of the count, which discovery does not ask for. -/
theorem discover_enumNames (h : (discover host d sources requested env).1 = .ok r)
    (he : r.enums.get? name = some e) :
    let header := EnumHeader.ofEnumeration e
    let source := EnumSource.ofEnumeration e
    let values := e.values.map EnumValue.name
    (∀ ctx : RenderContext, ctx.registry = r →
      (Artifact.enumHeader name).render? ctx = .ok header.text
        ∧ (Artifact.enumSource name).render? ctx = .ok source.text)
      ∧ (∃ lines, header.text = Text.unlines lines ∧ EnumHeader.ofLines? lines = some header)
      ∧ (∃ lines, source.text = Text.unlines lines
        ∧ EnumSource.literals? lines = some source.literals)
      ∧ header.Matches source
      ∧ header.names = values ++ ["Num_" ++ name]
      ∧ (∀ n, header.names.count n =
        (if n ∈ values then 1 else 0) + (if n = "Num_" ++ name then 1 else 0))
      ∧ (header.names.Nodup ↔ "Num_" ++ name ∉ values) := by
  obtain ⟨rfl, hown⟩ := discover_enum h he
  have hnames := Enumeration.names_ofEnumeration e
  have hperm := List.Perm.of_eq hnames
  have hadded : ["Num_" ++ e.name].Nodup := List.nodup_singleton _
  refine ⟨fun ctx hctx => ⟨?_, ?_⟩, ⟨_, rfl, EnumHeader.ofLines?_lines _⟩,
    ⟨_, rfl, EnumSource.literals?_lines _⟩, e.matches_ofEnumeration, hnames, fun n => ?_, ?_⟩
  · exact (Artifact.HasLines.enumHeader he).render? hctx
  · exact (Artifact.HasLines.enumSource he).render? hctx
  · rw [count_of_perm_append hperm hown hadded]
    simp only [List.mem_singleton]
  · rw [nodup_iff_of_perm_append hperm hown hadded]
    simp only [List.forall_mem_singleton]

/-! ### A value with the name of the count -/

def gearHost : ModuleTable := NameMap.ofList
  [("runtime", .manifest ⟨"runtime.toml"⟩
      { imports := []
        enums := [⟨"Gear", [.bare "low", .explicit "high" 4, .bare "Num_Gear"]⟩]
        classes := [⟨"SimObject", none, true, none, none, none, []⟩] })]

def gear : Enumeration := ⟨"Gear", [⟨"low", 0⟩, ⟨"high", 4⟩, ⟨"Num_Gear", 5⟩]⟩

/-- What discovery finds in the host. -/
def gears : Registry :=
  { classes := NameMap.ofList
      [("SimObject", ⟨"SimObject", none, [], none, "SimObject", none, true, "runtime"⟩)]
    allParams := NameMap.ofList [("SimObject", [])]
    enums := NameMap.ofList [("Gear", gear)]
    paramTypes := NameMap.ofList [] }

theorem discover_gearHost :
    (discover gearHost (Disk.blank []) [] [] sampleEnv).1 = .ok gears := by
  decide +kernel

/-- The value is published, and the header declares it and the count under one name. -/
theorem gear_twice :
    (discover gearHost (Disk.blank []) [] [] sampleEnv).1 = .ok gears
      ∧ gears.enums.get? "Gear" = some gear
      ∧ (EnumHeader.ofEnumeration gear).names.count "Num_Gear" = 2 := by
  have he : gears.enums.get? "Gear" = some gear := by decide
  obtain ⟨-, -, -, -, -, hcount, -⟩ := discover_enumNames discover_gearHost he
  exact ⟨discover_gearHost, he, (hcount _).trans (by decide)⟩

/-- Not every enumeration that is published has a header that declares each name once. -/
theorem gear_repeats :
    ¬ ∀ (host : ModuleTable) (d : Disk) (sources : List ScriptSource) (requested : List String)
        (env : BuildEnv) (r : Registry) (name : String) (e : Enumeration),
      (discover host d sources requested env).1 = .ok r → r.enums.get? name = some e →
        (EnumHeader.ofEnumeration e).names.Nodup := by
  intro h
  have hnodup := h _ _ _ _ _ _ "Gear" gear discover_gearHost (by decide)
  exact absurd hnodup (by decide)

end Registry

end SimMetadata
