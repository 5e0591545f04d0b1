import SimMetadata.Proofs.Artifact.Inclusion

/-!
# Every file that is included is planned

A file that a native file includes is planned in the same run: the header of a parent, because
parents are registered, and the header of an enumeration, because parameters refer to registered
ones. The rest is not generated at all.

## Main definitions

* `Artifact.HasLines`: the lines of a native file.
* `Artifact.IsSupplied`: a line that names a planned file, or one that is not generated.

## Main results

* `Artifact.HasLines.isSupplied`: the inclusions of a planned file are supplied.
* `Registry.discover_inclusions`: the same for a registry that discovery publishes, whose binding
  module lists every class.
-/

namespace SimMetadata

variable {r : Registry} {name line : String} {lines : List String}

namespace Artifact

variable {a : Artifact} {sources : List ScriptSource} {bindingModules : List String}
  {withFlags : Bool} {info : List EmbeddedFile}

/-- The kinds of files that the native compiler or the binding generator reads for their classes and
enumerations. -/
def nativeKinds : List String := ["interface", "enum", "aggregate"]

/-- The lines of such a file, as they are printed. -/
inductive HasLines (r : Registry) : Artifact → List String → Prop where
  | interface {name : String} {i : Interface} (h : Interface.ofClass? r name = .ok i) :
    HasLines r (interface name) i.lines
  | enumSource {name : String} {e : Enumeration} (h : r.enums.get? name = some e) :
    HasLines r (enumSource name) (EnumSource.ofEnumeration e).lines
  | enumHeader {name : String} {e : Enumeration} (h : r.enums.get? name = some e) :
    HasLines r (enumHeader name) (EnumHeader.ofEnumeration e).lines
  | aggregate {names : List String} {m : Aggregate} (h : Aggregate.ofNames? r names = .ok m) :
    HasLines r (aggregate names) m.lines

/-- A file is its lines, each ended by a line feed. -/
theorem HasLines.render? (h : HasLines r a lines) {ctx : RenderContext} (hctx : ctx.registry = r) :
    a.render? ctx = .ok (Text.unlines lines) := by
  subst hctx
  cases h with
  | interface h =>
    rw [Artifact.render?, h]
    rfl
  | enumSource h =>
    rw [Artifact.render?, Registry.enum?, h]
    rfl
  | enumHeader h =>
    rw [Artifact.render?, Registry.enum?, h]
    rfl
  | aggregate h =>
    rw [Artifact.render?, h]
    rfl

/-! ### Planned files -/

theorem interface_mem_plan_iff :
    interface name ∈ plan r sources bindingModules withFlags info
      ↔ r.classes.contains name = true := by
  simp [mem_plan_iff, isFlagTable, NameMap.contains_iff_mem_keys]

theorem enumSource_mem_plan_iff :
    enumSource name ∈ plan r sources bindingModules withFlags info
      ↔ r.enums.contains name = true := by
  simp [mem_plan_iff, isFlagTable, NameMap.contains_iff_mem_keys]

theorem enumHeader_mem_plan_iff :
    enumHeader name ∈ plan r sources bindingModules withFlags info
      ↔ r.enums.contains name = true := by
  simp [mem_plan_iff, isFlagTable, NameMap.contains_iff_mem_keys]

theorem aggregate_mem_plan_iff {names : List String} :
    aggregate names ∈ plan r sources bindingModules withFlags info ↔ names = r.classes.keys := by
  simp [mem_plan_iff, isFlagTable]

/-- Every planned file of these kinds can be printed. -/
theorem exists_hasLines (hclosed : r.IsClosed)
    (ha : a ∈ plan r sources bindingModules withFlags info) (hkind : a.kind ∈ nativeKinds) :
    ∃ lines, HasLines r a lines := by
  cases a with
  | interface name =>
    obtain ⟨c, hc⟩ := NameMap.contains_iff_get?.mp (interface_mem_plan_iff.mp ha)
    obtain ⟨i, hi⟩ := Interface.exists_ofClass?_ok hclosed hc
    exact ⟨_, .interface hi⟩
  | enumSource name =>
    obtain ⟨e, he⟩ := NameMap.contains_iff_get?.mp (enumSource_mem_plan_iff.mp ha)
    exact ⟨_, .enumSource he⟩
  | enumHeader name =>
    obtain ⟨e, he⟩ := NameMap.contains_iff_get?.mp (enumHeader_mem_plan_iff.mp ha)
    exact ⟨_, .enumHeader he⟩
  | aggregate names =>
    cases aggregate_mem_plan_iff.mp ha
    obtain ⟨m, hm⟩ := Aggregate.exists_ofNames?_ok hclosed hclosed.order
    exact ⟨_, .aggregate hm⟩
  | _ => simp [kind, nativeKinds] at hkind

/-! ### Supply -/

/-- The line names a planned file, or one that is not generated. -/
def IsSupplied (planned : List Artifact) (line : String) : Prop :=
  line ∈ foreignInclusions ∨ ∃ word ∈ inclusionWords, ∃ a ∈ planned, line = directive word a.target

theorem isSupplied_interface (word : String) (hword : word ∈ inclusionWords)
    (h : r.classes.contains name = true) :
    IsSupplied (plan r sources bindingModules withFlags info)
      (directive word (interface name).target) :=
  .inr ⟨word, hword, _, interface_mem_plan_iff.mpr h, rfl⟩

theorem isSupplied_enumHeader (word : String) (hword : word ∈ inclusionWords)
    (h : r.enums.contains name = true) :
    IsSupplied (plan r sources bindingModules withFlags info)
      (directive word (enumHeader name).target) :=
  .inr ⟨word, hword, _, enumHeader_mem_plan_iff.mpr h, rfl⟩

/-- The header of a class includes that of its parent and those of enumerations. -/
theorem isSupplied_of_mem_includeLines (hclosed : r.IsClosed) {i : Interface}
    (hi : Interface.ofClass? r name = .ok i) (hline : line ∈ i.includeLines) :
    IsSupplied (plan r sources bindingModules withFlags info) line := by
  obtain ⟨c, hc, hdeclares⟩ := Interface.ofClass?_ok hi
  rw [Interface.includeLines, List.mem_append, List.mem_map, List.mem_map] at hline
  rcases hline with ⟨parent, hparent, rfl⟩ | ⟨inc, hinc, rfl⟩
  · rw [Option.mem_toList, hdeclares.parent] at hparent
    exact isSupplied_interface "#include" (by decide) (hclosed.parent hc hparent)
  · rcases (hdeclares.includes inc).mp hinc with ⟨q, hq, hinc⟩ | ⟨-, rfl⟩
    · rcases ParamType.includes_cases hinc with hforeign | ⟨e, he, rfl⟩
      · exact .inl hforeign
      · rw [include_local_eq_directive]
        exact isSupplied_enumHeader "#include" (by decide) ((hclosed.params hc q hq).enum e he)
    · exact .inl (by decide)

/-- The binding module over all classes includes their headers and those of enumerations. -/
theorem isSupplied_of_mem_aggregate (hclosed : r.IsClosed) {m : Aggregate} (hm : m.Covers r)
    (hline : line ∈ inclusions m.lines) :
    IsSupplied (plan r sources bindingModules withFlags info) line ∨ r.IsGiven line := by
  obtain ⟨foreign, given, hmiddle, hforeign, hgiven⟩ := hm.middle
  rw [Aggregate.inclusions_lines, hmiddle, Aggregate.classHeaders, Aggregate.enumHeaders,
    Aggregate.trailingHeaders] at hline
  simp only [List.mem_append, List.mem_map, List.mem_singleton] at hline
  rcases hline with (⟨n, hn, rfl⟩ | ((hline | ⟨e, he, rfl⟩) | hline) | rfl) | ⟨n, hn, rfl⟩
  · exact .inl (isSupplied_interface "#include" (by decide) ((hm.mem_classNames n).mp hn))
  · exact .inl (.inl (hforeign line hline))
  · obtain ⟨className, c, hc, q, hq, he⟩ := (hm.mem_enums e).mp he
    exact .inl (isSupplied_enumHeader "%include" (by decide) ((hclosed.params hc q hq).enum e he))
  · exact .inr (hgiven line hline)
  · exact .inl (.inl (by decide))
  · exact .inl (isSupplied_interface "%include" (by decide) ((hm.mem_classNames n).mp hn))

/-- **The inclusions of a planned file are supplied**, or a manifest gives them. -/
theorem HasLines.isSupplied (hclosed : r.IsClosed)
    (henums : ∀ {name e}, r.enums.get? name = some e → e.name = name)
    (ha : a ∈ plan r sources bindingModules withFlags info) (h : HasLines r a lines)
    (hline : line ∈ inclusions lines) :
    IsSupplied (plan r sources bindingModules withFlags info) line
      ∨ a.kind = "aggregate" ∧ r.IsGiven line := by
  cases h with
  | interface hi =>
    rw [Interface.inclusions_lines] at hline
    exact .inl (isSupplied_of_mem_includeLines hclosed hi hline)
  | enumSource he =>
    rw [EnumSource.inclusions_lines, List.mem_singleton] at hline
    rw [hline, EnumSource.ofEnumeration, henums he]
    exact .inl (isSupplied_enumHeader "#include" (by decide) (NameMap.contains_of_get? he))
  | enumHeader he =>
    rw [EnumHeader.inclusions_lines] at hline
    cases hline
  | aggregate hm =>
    cases aggregate_mem_plan_iff.mp ha
    have hcovers := Aggregate.covers hclosed.toIsTree hm
    exact (isSupplied_of_mem_aggregate hclosed hcovers hline).imp_right fun hgiven => ⟨rfl, hgiven⟩

end Artifact

namespace Registry

/-- **What native files include is planned.** Every planned header, table of an enumeration and
binding module over classes is printed from its lines, and a line that includes a file names a
planned one, or one that is not generated, or is a line that a manifest gives. The binding module
lists every class once in either list of headers, parents first, and the enumerations that the
parameters of the classes refer to. -/
theorem discover_inclusions {host : ModuleTable} {d : Disk} {sources : List ScriptSource}
    {requested : List String} {env : BuildEnv}
    (h : (discover host d sources requested env).1 = .ok r) (planned : List ScriptSource)
    (bindingModules : List String) (withFlags : Bool) (info : List EmbeddedFile) :
    let plan := Artifact.plan r planned bindingModules withFlags info
    (∀ a ∈ plan, a.kind ∈ Artifact.nativeKinds → ∃ lines, a.HasLines r lines
        ∧ (∀ ctx : RenderContext, ctx.registry = r → a.render? ctx = .ok (Text.unlines lines))
        ∧ ∀ line ∈ inclusions lines,
          Artifact.IsSupplied plan line ∨ a.kind = "aggregate" ∧ r.IsGiven line)
      ∧ ∃ m, Aggregate.ofNames? r r.classes.keys = .ok m ∧ m.Covers r
        ∧ .aggregate r.classes.keys ∈ plan := by
  obtain ⟨settings, modules, w, hw, hr⟩ := discover_ok h
  have hclosed := hr.isClosed hw.name_eq hw.root
  have henums : ∀ {name e}, r.enums.get? name = some e → e.name = name := by
    intro name e he
    rw [hr.enums] at he
    exact hw.enum_name_eq he
  intro plan
  constructor
  · intro a ha hkind
    obtain ⟨lines, hlines⟩ := Artifact.exists_hasLines hclosed ha hkind
    exact ⟨lines, hlines, fun ctx => hlines.render?,
      fun line hline => hlines.isSupplied hclosed henums ha hline⟩
  · obtain ⟨m, hm⟩ := Aggregate.exists_ofNames?_ok hclosed hclosed.order
    exact ⟨m, hm, Aggregate.covers hclosed.toIsTree hm, Artifact.aggregate_mem_plan_iff.mpr rfl⟩

theorem bridge_inclusions :
    (discover bridgeHost (Disk.blank []) [] ["Bus"] sampleEnv).1 = .ok bridge
      ∧ ∃ lines, (Artifact.interface "Bus").HasLines bridge lines ∧ ∀ line ∈ inclusions lines,
        Artifact.IsSupplied (Artifact.plan bridge [] [] false []) line
          ∨ (Artifact.interface "Bus").kind = "aggregate" ∧ bridge.IsGiven line := by
  obtain ⟨lines, hlines, -, hsupplied⟩ := (discover_inclusions discover_bridgeHost [] [] false []).1
    (.interface "Bus") (by decide) (by decide)
  exact ⟨discover_bridgeHost, lines, hlines, hsupplied⟩

end Registry

end SimMetadata
