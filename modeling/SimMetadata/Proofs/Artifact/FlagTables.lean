import Mathlib.Data.List.Nodup
import Mathlib.Data.List.Perm.Basic
import SimMetadata.Proofs.Artifact.FlagReading
import SimMetadata.Proofs.Except

/-!
# The three tables of trace flags agree

A list of flags is written as a header, a source and a scripting module. The header numbers the
flags; the source has tables that are looked up by these numbers, and tables of members that are
looked up by name; the scripting module has neither, but lists the flags in the same order. Simple
and compound flags may be declared in any order, and a compound may list flags that are declared
after it.

All of it follows from one list: the simple names, `All`, and the names of the compounds. It has no
name twice, the number of a flag is its place in it, and the simple flags are its first part.

## Main definitions

* `TraceFlag.Valid`: what is asked of a list of flags.
* `TraceFlag.withMembers`: the compounds with their members, `All` in front.
* `FlagHeader.Numbers`, `FlagSource.Lists`: what a header and a source say about a flag.
* `FlagTables.Agree`: one numbering in the three files.

## Main results

* `TraceFlag.validate?_eq_ok_iff`: which lists are accepted.
* `FlagTables.agree`: the files of an accepted list agree.
* `FlagTables.tables_agree`: both, and that each file fails as the check does.
-/

namespace SimMetadata

namespace TraceFlag

variable {flags : List TraceFlag} {simple seen : List String} {n : String}

/-! ### The check -/

/-- What is asked of a list of flags: names of their own, none of them that of the implicit
compound, and compounds of simple flags, wherever these are declared. -/
structure Valid (flags : List TraceFlag) : Prop where
  names_nodup : (flags.map TraceFlag.name).Nodup
  not_reserved : ∀ f ∈ flags, f.name ≠ "All"
  members_simple : ∀ f ∈ flags, f.isCompound = true → ∀ m ∈ f.members,
    ∃ g ∈ flags, g.isCompound = false ∧ g.name = m

theorem mem_simpleNames :
    n ∈ simpleNames flags ↔ ∃ g ∈ flags, g.isCompound = false ∧ g.name = n := by
  simp [simpleNames, and_assoc]

theorem checkNames?_eq_ok_iff :
    checkNames? seen flags = .ok () ↔ (flags.map TraceFlag.name).Nodup
      ∧ ∀ f ∈ flags, f.name ≠ allFlag ∧ f.name ∉ seen := by
  induction flags generalizing seen with
  | nil => simp [checkNames?]
  | cons f fs ih =>
    rw [checkNames?]
    by_cases hall : f.name = allFlag
    · simp [hall]
    · by_cases hseen : f.name ∈ seen
      · simp [hall, hseen]
      · rw [if_neg hall, if_neg hseen, ih, List.map_cons, List.nodup_cons]
        simp only [List.mem_cons, List.mem_map]
        grind

theorem checkCompounds?_eq_ok_iff :
    checkCompounds? simple flags = .ok () ↔ ∀ f ∈ flags, ∀ m ∈ f.members, m ∈ simple := by
  induction flags with
  | nil => simp [checkCompounds?]
  | cons f fs ih =>
    rw [checkCompounds?]
    cases hfind : f.members.find? (· ∉ simple) with
    | none =>
      have hmembers : ∀ m ∈ f.members, m ∈ simple := by simpa using hfind
      simp only [ih, List.forall_mem_cons]
      exact ⟨fun h => ⟨hmembers, h⟩, fun h => h.2⟩
    | some member =>
      have hmem : member ∈ f.members := List.mem_of_find?_eq_some hfind
      have hnot : member ∉ simple := by simpa using List.find?_some hfind
      simp only [List.forall_mem_cons, reduceCtorEq, false_iff]
      intro h
      exact hnot (h.1 member hmem)

/-- **Which lists are accepted.** -/
theorem validate?_eq_ok_iff : validate? flags = .ok () ↔ Valid flags := by
  have hcompounds : checkCompounds? (simpleNames flags) (compounds flags) = .ok () ↔
      ∀ f ∈ flags, f.isCompound = true → ∀ m ∈ f.members,
        ∃ g ∈ flags, g.isCompound = false ∧ g.name = m := by
    simp only [checkCompounds?_eq_ok_iff, compounds, List.mem_filter, mem_simpleNames, and_imp]
  rw [validate?, except_bind_eq_ok_iff]
  constructor
  · rintro ⟨⟨⟩, hnames, hmembers⟩
    obtain ⟨hnodup, hnames⟩ := checkNames?_eq_ok_iff.mp hnames
    exact ⟨hnodup, fun f hf => (hnames f hf).1, hcompounds.mp hmembers⟩
  · intro h
    refine ⟨(), checkNames?_eq_ok_iff.mpr ⟨h.names_nodup, fun f hf => ?_⟩,
      hcompounds.mpr h.members_simple⟩
    exact ⟨h.not_reserved f hf, List.not_mem_nil⟩

theorem checkNames?_error {f : Failure} (h : checkNames? seen flags = .error f) :
    ∃ fault, f = .invalidFlags fault := by
  induction flags generalizing seen with
  | nil => cases h
  | cons flag flags ih =>
    rw [checkNames?] at h
    split at h
    · cases h
      exact ⟨_, rfl⟩
    · split at h
      · cases h
        exact ⟨_, rfl⟩
      · exact ih h

theorem checkCompounds?_error {f : Failure} (h : checkCompounds? simple flags = .error f) :
    ∃ fault, f = .invalidFlags fault := by
  induction flags with
  | nil => cases h
  | cons flag flags ih =>
    rw [checkCompounds?] at h
    split at h
    · cases h
      exact ⟨_, rfl⟩
    · exact ih h

/-- What the check refuses it reports as an invalid list of flags. -/
theorem validate?_error {f : Failure} (h : validate? flags = .error f) :
    ∃ fault, f = .invalidFlags fault := by
  rcases except_bind_eq_error_iff.mp h with h | ⟨⟨⟩, -, h⟩
  · exact checkNames?_error h
  · exact checkCompounds?_error h

/-! ### The flags in the order of their numbers -/

/-- The compounds of a list of flags with their members: the implicit one, whose members are all
simple flags, and then the declared ones. -/
def withMembers (flags : List TraceFlag) : List CompoundFlag :=
  ⟨"All", simpleNames flags⟩ :: (compounds flags).map fun f => ⟨f.name, f.members⟩

/-- All names, in the order of their numbers. -/
def namesInOrder (flags : List TraceFlag) : List String :=
  simpleNames flags ++ (withMembers flags).map CompoundFlag.name

theorem map_name_withMembers (flags : List TraceFlag) :
    (withMembers flags).map CompoundFlag.name
      = "All" :: (compounds flags).map TraceFlag.name := by
  simp [withMembers, Function.comp_def]

/-- The declared names are the simple and the compound ones. -/
theorem names_perm (flags : List TraceFlag) :
    (simpleNames flags ++ (compounds flags).map TraceFlag.name).Perm
      (flags.map TraceFlag.name) := by
  rw [simpleNames, compounds, ← List.map_append]
  apply List.Perm.map
  exact List.perm_append_comm.trans (List.filter_append_perm _ flags)

theorem mem_namesInOrder :
    n ∈ namesInOrder flags ↔ n = "All" ∨ ∃ f ∈ flags, f.name = n := by
  have hperm := (names_perm flags).mem_iff (a := n)
  rw [List.mem_map] at hperm
  rw [← hperm, namesInOrder, map_name_withMembers, List.mem_append, List.mem_append, List.mem_cons]
  exact or_left_comm

theorem Valid.nodup_namesInOrder (h : Valid flags) : (namesInOrder flags).Nodup := by
  have hperm := names_perm flags
  have hall : "All" ∉ simpleNames flags ++ (compounds flags).map TraceFlag.name := by
    rw [hperm.mem_iff, List.mem_map]
    rintro ⟨f, hf, hname⟩
    exact h.not_reserved f hf hname
  rw [namesInOrder, map_name_withMembers, List.perm_middle.nodup_iff, List.nodup_cons,
    hperm.nodup_iff]
  exact ⟨hall, h.names_nodup⟩

/-- Members of a compound, the implicit one included, are simple flags. -/
theorem Valid.mem_simpleNames_of_mem_members (h : Valid flags) {c : CompoundFlag}
    (hc : c ∈ withMembers flags) {m : String} (hm : m ∈ c.members) : m ∈ simpleNames flags := by
  rcases List.mem_cons.mp hc with rfl | hc
  · exact hm
  · obtain ⟨f, hf, rfl⟩ := List.mem_map.mp hc
    obtain ⟨hf, hcompound⟩ := List.mem_filter.mp hf
    exact mem_simpleNames.mpr (h.members_simple f hf hcompound m hm)

end TraceFlag

/-! ### What the files say -/

/-- A header gives a flag a number. -/
def FlagHeader.Numbers (h : FlagHeader) (name : String) (v : Nat) : Prop :=
  ⟨name, v⟩ ∈ h.simple ++ h.compounds

instance (h : FlagHeader) (name : String) (v : Nat) : Decidable (h.Numbers name v) :=
  inferInstanceAs (Decidable (_ ∈ _))

/-- A source has one table of members of a name, and it has these entries. -/
def FlagSource.Lists (s : FlagSource) (symbol : String) (entries : List String) : Prop :=
  ∀ a : MemberArray, a ∈ s.memberArrays ∧ a.symbol = symbol ↔ a = ⟨symbol, entries⟩

/-- One numbering in the three files of a list of flags. -/
structure FlagTables.Agree (flags : List TraceFlag) (script : FlagScript) (source : FlagSource)
    (header : FlagHeader) : Prop where
  /-- The declared flags and `All` have numbers, and nothing else has. -/
  numbers_iff : ∀ name, (∃ v, header.Numbers name v) ↔ name = "All" ∨ ∃ f ∈ flags, f.name = name
  number_unique : ∀ name v w, header.Numbers name v → header.Numbers name w → v = w
  /-- The table of names is in the order of the numbers. -/
  flagStrings : ∀ name v, header.Numbers name v →
    source.flagStrings[v]? = some ("\"" ++ name ++ "\"")
  numFlags : header.numFlags = ⟨"NumFlags", (TraceFlag.simpleNames flags).length⟩
  numFlagStrings : source.numFlagStrings = header.numFlags.value + header.numCompoundFlags.value
  length_flagStrings : source.flagStrings.length = source.numFlagStrings
  /-- The table of tables is in the order of the numbers from `NumFlags` on. A table of members
  lists them in the order in which they are declared, and then ends. -/
  members : ∀ c ∈ TraceFlag.withMembers flags, ∀ v, header.Numbers c.name v →
    (TraceFlag.simpleNames flags).length ≤ v
      ∧ source.compoundFlags[v - (TraceFlag.simpleNames flags).length]? = some (c.name ++ "Map")
      ∧ source.Lists (c.name ++ "Map") (c.members ++ ["(Flags)-1"])
      ∧ ∀ m ∈ c.members, ∃ w, header.Numbers m w ∧ w < (TraceFlag.simpleNames flags).length
  /-- The scripting module lists the names in the order of the numbers. -/
  baseFlags : script.baseFlags = header.simple.map Enumerator.name
  baseFlags_eq : script.baseFlags = TraceFlag.simpleNames flags
  compoundFlags : script.compoundFlags = header.compounds.map Enumerator.name
  compoundFlagMap : script.compoundFlagMap = TraceFlag.withMembers flags
  map_compoundFlagMap : script.compoundFlagMap.map CompoundFlag.name = script.compoundFlags

/-! ### The counters -/

namespace FlagHeader

/-- Some names numbered upwards. -/
def numbered (start : Nat) (names : List String) : List Enumerator :=
  names.mapIdx fun i n => ⟨n, (start + i : Nat)⟩

/-- The counter of the loop is behind the names that it has numbered. -/
theorem number_eq (idx : Nat) (names : List String) :
    number idx names = (numbered idx names, idx + names.length) := by
  induction names generalizing idx with
  | nil => rfl
  | cons name names ih =>
    rw [number, ih]
    simp [numbered, List.mapIdx_cons, Nat.add_assoc, Nat.add_comm 1]

/-- What the counters come to: the first count is that of the simple flags, and the second one that
of the compounds. -/
theorem ofTables_eq (t : FlagTables) :
    ofTables t = {
      simple := numbered 0 t.simple
      numFlags := ⟨"NumFlags", t.simple.length⟩
      compounds := numbered t.simple.length (t.compounds.map CompoundFlag.name)
      numCompoundFlags := ⟨"NumCompoundFlags", t.compounds.length⟩ } := by
  simp [ofTables, number_eq]

theorem map_name_numbered (start : Nat) (names : List String) :
    (numbered start names).map Enumerator.name = names := by
  apply List.ext_getElem
  · simp [numbered]
  · simp [numbered]

/-- Numbering goes on where it stopped. -/
theorem numbered_append (names more : List String) :
    numbered 0 (names ++ more) = numbered 0 names ++ numbered names.length more := by
  simp [numbered, List.mapIdx_append, Nat.add_comm]

/-- The number of a name is its place. -/
theorem mem_numbered {names : List String} {name : String} {v : Nat} :
    ⟨name, v⟩ ∈ numbered 0 names ↔ names[v]? = some name := by
  rw [numbered, List.mem_mapIdx, List.getElem?_eq_some_iff]
  constructor
  · rintro ⟨i, hi, heq⟩
    obtain ⟨hname, hv⟩ := Enumerator.mk.inj heq
    obtain rfl : i = v := by omega
    exact ⟨hi, hname⟩
  · rintro ⟨hv, rfl⟩
    exact ⟨v, hv, by simp⟩

end FlagHeader

namespace FlagSource

/-- The count of the loop is that of the entries. -/
theorem enter_eq (count : Nat) (names : List String) :
    enter count names = (names.map fun n => "\"" ++ n ++ "\"", count + names.length) := by
  induction names generalizing count with
  | nil => rfl
  | cons name names ih =>
    rw [enter, ih]
    simp [Nat.add_assoc, Nat.add_comm 1]

/-- What the count comes to: the number of all names. -/
theorem ofTables_eq (t : FlagTables) :
    ofTables t = {
      flagStrings := (t.simple ++ t.compounds.map CompoundFlag.name).map fun n => "\"" ++ n ++ "\""
      numFlagStrings := t.simple.length + t.compounds.length
      memberArrays := t.compounds.map MemberArray.ofCompound
      compoundFlags := t.compounds.map fun c => memberSymbol c.name } := by
  simp [ofTables, enter_eq]

end FlagSource

namespace FlagTables

open TraceFlag

variable {flags : List TraceFlag} {t : FlagTables}

/-! ### The tables of an accepted list -/

theorem ofFlags?_of_error {f : Failure} (h : validate? flags = .error f) :
    ofFlags? flags = .error f := by
  rw [ofFlags?, h]
  rfl

theorem exists_ofFlags?_ok (h : validate? flags = .ok ()) :
    ∃ t, ofFlags? flags = .ok t ∧ t.simple = simpleNames flags
      ∧ t.compounds = withMembers flags := by
  rw [ofFlags?, h]
  exact ⟨_, rfl, rfl, rfl⟩

/-- The header numbers a flag by its place among all names. -/
theorem numbers_iff (hsimple : t.simple = simpleNames flags)
    (hcompounds : t.compounds = withMembers flags) {name : String} {v : Nat} :
    (FlagHeader.ofTables t).Numbers name v ↔ (namesInOrder flags)[v]? = some name := by
  rw [FlagHeader.Numbers, FlagHeader.ofTables_eq, ← FlagHeader.numbered_append, hsimple, hcompounds]
  exact FlagHeader.mem_numbered

/-- A compound that has a number comes after all simple flags, and at its place among the
compounds. -/
theorem compound_at (h : Valid flags) {c : CompoundFlag} (hc : c ∈ withMembers flags) {v : Nat}
    (hv : (namesInOrder flags)[v]? = some c.name) :
    (simpleNames flags).length ≤ v
      ∧ ((withMembers flags).map CompoundFlag.name)[v - (simpleNames flags).length]?
        = some c.name := by
  have hle : (simpleNames flags).length ≤ v := by
    by_contra hlt
    rw [namesInOrder, List.getElem?_append_left (Nat.lt_of_not_le hlt)] at hv
    have hdisjoint := List.disjoint_of_nodup_append h.nodup_namesInOrder
    exact hdisjoint (List.mem_of_getElem? hv) (List.mem_map_of_mem hc)
  rw [namesInOrder, List.getElem?_append_right hle] at hv
  exact ⟨hle, hv⟩

/-- The source has one table of members for each compound. -/
theorem lists_compound (h : Valid flags) (hcompounds : t.compounds = withMembers flags)
    {c : CompoundFlag} (hc : c ∈ withMembers flags) :
    (FlagSource.ofTables t).Lists (c.name ++ "Map") (c.members ++ ["(Flags)-1"]) := by
  have hnodup : ((withMembers flags).map CompoundFlag.name).Nodup :=
    (List.nodup_append.mp h.nodup_namesInOrder).2.1
  intro a
  constructor
  · rintro ⟨ha, hsymbol⟩
    rw [FlagSource.ofTables_eq, hcompounds] at ha
    obtain ⟨c', hc', rfl⟩ := List.mem_map.mp ha
    have hname : c'.name = c.name := (String.append_left_inj _).mp hsymbol
    rw [List.inj_on_of_nodup_map hnodup hc' hc hname]
    rfl
  · rintro rfl
    refine ⟨?_, rfl⟩
    rw [FlagSource.ofTables_eq, hcompounds]
    exact List.mem_map_of_mem (f := MemberArray.ofCompound) hc

/-- **One numbering.** -/
theorem agree (h : Valid flags) (hsimple : t.simple = simpleNames flags)
    (hcompounds : t.compounds = withMembers flags) :
    Agree flags (.ofTables t) (.ofTables t) (.ofTables t) where
  numbers_iff name := by
    simp only [numbers_iff hsimple hcompounds, ← List.mem_iff_getElem?]
    exact mem_namesInOrder
  number_unique name v w hv hw := by
    rw [numbers_iff hsimple hcompounds] at hv hw
    have hlt := (List.getElem?_eq_some_iff.mp hv).1
    exact (List.getElem?_inj hlt h.nodup_namesInOrder).mp (hv.trans hw.symm)
  flagStrings name v hv := by
    rw [numbers_iff hsimple hcompounds] at hv
    rw [FlagSource.ofTables_eq, hsimple, hcompounds]
    exact (List.getElem?_map ..).trans (congrArg _ hv)
  numFlags := by rw [FlagHeader.ofTables_eq, hsimple]
  numFlagStrings := by simp [FlagHeader.ofTables_eq, FlagSource.ofTables_eq]
  length_flagStrings := by simp [FlagSource.ofTables_eq]
  members c hc v hv := by
    rw [numbers_iff hsimple hcompounds] at hv
    obtain ⟨hle, hplace⟩ := compound_at h hc hv
    refine ⟨hle, ?_, lists_compound h hcompounds hc, fun m hm => ?_⟩
    · rw [List.getElem?_map, Option.map_eq_some_iff] at hplace
      obtain ⟨c', hc', hname⟩ := hplace
      rw [FlagSource.ofTables_eq, hcompounds, List.getElem?_map, hc', ← hname]
      rfl
    · obtain ⟨w, hw⟩ := List.mem_iff_getElem?.mp (h.mem_simpleNames_of_mem_members hc hm)
      have hlt : w < (simpleNames flags).length := (List.getElem?_eq_some_iff.mp hw).1
      refine ⟨w, ?_, hlt⟩
      rw [numbers_iff hsimple hcompounds, namesInOrder, List.getElem?_append_left hlt, hw]
  baseFlags := by
    rw [FlagHeader.ofTables_eq]
    exact (FlagHeader.map_name_numbered 0 t.simple).symm
  baseFlags_eq := hsimple
  compoundFlags := by
    rw [FlagHeader.ofTables_eq]
    exact (FlagHeader.map_name_numbered _ _).symm
  compoundFlagMap := hcompounds
  map_compoundFlagMap := rfl

/-! ### The three files -/

/-- The native files of an accepted list have no line feed in a line if no flag has one in its
name. -/
theorem feed_not_mem_lines (h : Valid flags) (hsimple : t.simple = simpleNames flags)
    (hcompounds : t.compounds = withMembers flags) (hnames : ∀ f ∈ flags, '\n' ∉ f.name.toList) :
    (∀ l ∈ (FlagSource.ofTables t).lines, '\n' ∉ l.toList)
      ∧ ∀ l ∈ (FlagHeader.ofTables t).lines, '\n' ∉ l.toList := by
  have hname : ∀ n ∈ namesInOrder flags, '\n' ∉ n.toList := by
    intro n hn
    rcases mem_namesInOrder.mp hn with rfl | ⟨f, hf, rfl⟩
    · decide
    · exact hnames f hf
  have hcompound : ∀ c ∈ withMembers flags, '\n' ∉ c.name.toList := fun c hc =>
    hname _ (List.mem_append_right _ (List.mem_map_of_mem hc))
  have hsymbol : ∀ c ∈ withMembers flags, '\n' ∉ (memberSymbol c.name).toList := by
    intro c hc
    simp [memberSymbol, hcompound c hc]
  constructor
  · apply FlagSource.feed_not_mem_lines <;> rw [FlagSource.ofTables_eq, hcompounds]
    · rw [hsimple, ← namesInOrder, List.forall_mem_map]
      intro n hn
      simp [hname n hn]
    · exact List.forall_mem_map.mpr hsymbol
    · rw [List.forall_mem_map]
      intro c hc
      rw [MemberArray.ofCompound, List.forall_mem_append]
      refine ⟨fun m hm => hname m ?_, by decide⟩
      exact List.mem_append_left _ (h.mem_simpleNames_of_mem_members hc hm)
    · exact List.forall_mem_map.mpr hsymbol
  · apply FlagHeader.feed_not_mem_lines
    rw [FlagHeader.ofTables_eq, hsimple, hcompounds]
    simp only [FlagHeader.enumerators, List.forall_mem_append, List.forall_mem_singleton]
    refine ⟨⟨⟨fun e he => ?_, by decide⟩, fun e he => ?_⟩, by decide⟩
    · have hmem := List.mem_map_of_mem (f := Enumerator.name) he
      rw [FlagHeader.map_name_numbered] at hmem
      exact hname _ (List.mem_append_left _ hmem)
    · have hmem := List.mem_map_of_mem (f := Enumerator.name) he
      rw [FlagHeader.map_name_numbered] at hmem
      exact hname _ (List.mem_append_right _ hmem)

/-- **The three tables of a list of flags agree.** A list is accepted exactly if its names differ
from each other and from `All` and its compounds list simple flags, wherever these are declared. If
it is refused, each file is refused for the same reason. If it is accepted, the three files are
written, and what is read from them has one numbering. The native files are read by the lines that
are written, which are the lines of the text unless a flag has a line feed in its name. -/
theorem tables_agree (flags : List TraceFlag) :
    (validate? flags = .ok () ↔ Valid flags) ∧
    (∀ f, validate? flags = .error f →
      flagScriptText flags = .error f ∧ flagSourceText flags = .error f
        ∧ flagHeaderText flags = .error f) ∧
    (validate? flags = .ok () → ∃ scriptText sourceLines headerLines script source header,
      flagScriptText flags = .ok scriptText
      ∧ FlagScript.ofText? scriptText = some script
      ∧ flagSourceText flags = .ok (Text.unlines sourceLines)
      ∧ FlagSource.ofLines? sourceLines = some source
      ∧ flagHeaderText flags = .ok (Text.unlines headerLines)
      ∧ FlagHeader.ofLines? headerLines = some header
      ∧ ((∀ f ∈ flags, '\n' ∉ f.name.toList) →
        Text.linesOf (Text.unlines sourceLines) = sourceLines
          ∧ Text.linesOf (Text.unlines headerLines) = headerLines)
      ∧ Agree flags script source header) := by
  refine ⟨validate?_eq_ok_iff, fun f hf => ?_, fun hok => ?_⟩
  · rw [flagScriptText, flagSourceText, flagHeaderText, ofFlags?_of_error hf]
    exact ⟨rfl, rfl, rfl⟩
  · obtain ⟨t, ht, hsimple, hcompounds⟩ := exists_ofFlags?_ok hok
    have hvalid := validate?_eq_ok_iff.mp hok
    refine ⟨(FlagScript.ofTables t).text, (FlagSource.ofTables t).lines,
      (FlagHeader.ofTables t).lines, .ofTables t, .ofTables t, .ofTables t, ?_,
      FlagScript.ofText?_text _, ?_, FlagSource.ofLines?_lines _, ?_, FlagHeader.ofLines?_lines _,
      fun hnames => ?_, agree hvalid hsimple hcompounds⟩
    · rw [flagScriptText, ht]
      rfl
    · rw [flagSourceText, ht]
      rfl
    · rw [flagHeaderText, ht]
      rfl
    · obtain ⟨hsource, hheader⟩ := feed_not_mem_lines hvalid hsimple hcompounds hnames
      exact ⟨Text.linesOf_unlines hsource, Text.linesOf_unlines hheader⟩

/-- A list in which a compound is declared before one of its members. -/
def interleaved : List TraceFlag :=
  [⟨"Exec", false, [], ""⟩, ⟨"ExecAll", true, ["Exec", "Fetch"], ""⟩, ⟨"Fetch", false, [], ""⟩,
    ⟨"MemAll", true, ["Bus"], ""⟩, ⟨"Bus", false, [], ""⟩]

/-- The number that the header gives to `ExecAll` finds its name, its table and its members in the
source. -/
theorem interleaved_agree :
    validate? interleaved = .ok () ∧ ∃ sourceText headerText source header v,
      flagSourceText interleaved = .ok sourceText
      ∧ FlagSource.ofLines? (Text.linesOf sourceText) = some source
      ∧ flagHeaderText interleaved = .ok headerText
      ∧ FlagHeader.ofLines? (Text.linesOf headerText) = some header
      ∧ header.numFlags = ⟨"NumFlags", 3⟩
      ∧ header.Numbers "ExecAll" v
      ∧ source.flagStrings[v]? = some "\"ExecAll\""
      ∧ source.compoundFlags[v - 3]? = some "ExecAllMap"
      ∧ source.Lists "ExecAllMap" ["Exec", "Fetch", "(Flags)-1"] := by
  have hvalid : validate? interleaved = .ok () := by decide
  obtain ⟨_, sourceLines, headerLines, _, source, header, -, -, hsource, hsourceLines, hheader,
    hheaderLines, hlines, hagree⟩ := (tables_agree interleaved).2.2 hvalid
  obtain ⟨hsourceLinesOf, hheaderLinesOf⟩ := hlines (by decide)
  obtain ⟨v, hv⟩ := (hagree.numbers_iff "ExecAll").mpr (.inr ⟨_, .tail _ (.head _), rfl⟩)
  have hmem : ⟨"ExecAll", ["Exec", "Fetch"]⟩ ∈ withMembers interleaved := by decide
  obtain ⟨-, htable, hlists, -⟩ := hagree.members _ hmem v hv
  refine ⟨hvalid, _, _, source, header, v, hsource, ?_, hheader, ?_, hagree.numFlags, hv,
    hagree.flagStrings _ _ hv, htable, hlists⟩
  · rw [hsourceLinesOf, hsourceLines]
  · rw [hheaderLinesOf, hheaderLines]

end FlagTables

end SimMetadata
