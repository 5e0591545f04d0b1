import SimMetadata.Proofs.Generation.Inclusions

/-!
# A header has what its structure uses

The structure of a class is spelled with names that come from elsewhere: native classes that the
fields point to, enumerations, vectors, types of the simulator, the structure of the parent. Before
the structure the header includes what declares them, and the native classes, for which a name is
enough, it announces.

Every line for that stands there once, although parameters share what they need. A header includes
each file once because it keeps what it includes in order, without repeats. The line of the parent
is printed apart, but begins differently from the others. Announcements are told from the rest of
the header by their first letter.

An announcement is printed from the namespace and the native name, and a field from the qualified
name. Both are here brought down to the class: one relation says how a class is announced and
spelled.

## Main definitions

* `Interface.ListsOnce`: a line stands once before the structure.
* `ConfigClass.IsAnnouncedAs`: how a class is announced and spelled.
* `ParamType.holding`: the native type of a field for one value or for a vector of them.
* `Interface.IsSelfContained`: a header has what its structure uses.

## Main results

* `Interface.Declares.isSelfContained`: the header of a registered class has it.
* `Registry.discover_isSelfContained`: the same for a registry that discovery publishes.
-/

namespace SimMetadata

variable {r : Registry} {name line : String} {c : ConfigClass} {i : Interface}

/-! ### Native types and classes -/

/-- The headers that declare native types. Other types belong to the language. -/
def nativeHeaders : List (String × String) :=
  [("int64_t", "<stdint.h>"), ("uint64_t", "<stdint.h>"), ("std::string", "<string>"),
    ("Tick", "\"base/types.hh\""), ("Counter", "\"base/types.hh\""), ("Addr", "\"base/types.hh\""),
    ("Cycles", "\"base/types.hh\"")]

theorem Scalar.text_includes (s : Scalar) :
    s.includes.map Include.text = (nativeHeaders.lookup s.nativeType).toList := by
  cases s <;> rfl

namespace ParamType

variable {t : ParamType}

theorem element_includes_subset (t : ParamType) : t.element.includes ⊆ t.includes := by
  cases t with
  | plain e => exact List.Subset.refl _
  | vector e => exact List.subset_cons_self _ _

/-- The native type of a field that holds values of a native type: one of them, or a vector. -/
def holding (spelled : String) : ParamType → String
  | .plain _ => spelled
  | .vector _ => "std::vector< " ++ spelled ++ " >"

theorem nativeType_eq_holding (qualify : String → String) (t : ParamType) :
    t.nativeType qualify = t.holding (t.element.nativeType qualify) := by
  cases t <;> rfl

/-- A field holds objects by pointers to the class. -/
theorem nativeType_of_objectName? {qualify : String → String} (h : t.objectName? = some name) :
    t.nativeType qualify = t.holding (qualify name ++ " *") := by
  rcases objectName?_eq_some_iff.mp h with rfl | rfl <;> rfl

end ParamType

/-- A line announces the class under its native name, in its namespace if it has one. So announced,
the class is spelled with the namespace. -/
inductive ConfigClass.IsAnnouncedAs (c : ConfigClass) : String → String → Prop
  | bare (h : c.namespace = none) : c.IsAnnouncedAs ("class " ++ c.nativeName ++ ";") c.nativeName
  | inside {ns : String} (h : c.namespace = some ns) :
    c.IsAnnouncedAs ("namespace " ++ ns ++ " \x7b class " ++ c.nativeName ++ "; \x7d")
      (ns ++ "::" ++ c.nativeName)

theorem ConfigClass.isAnnouncedAs (c : ConfigClass) :
    c.IsAnnouncedAs (ForwardDecl.ofClass c).text c.qualifiedName := by
  rw [ForwardDecl.ofClass, ForwardDecl.text, qualifiedName]
  cases hns : c.namespace with
  | none => exact .bare hns
  | some ns => exact .inside hns

namespace Interface

/-! ### Lines that stand once -/

/-- The line stands before the structure, once, and not after it. -/
def ListsOnce (i : Interface) (line : String) : Prop :=
  i.preamble.count line = 1 ∧ line ∉ i.structLines

theorem listsOnce_of_mem_includeLines (hnodup : i.includeLines.Nodup)
    (hmem : line ∈ i.includeLines) : i.ListsOnce line := by
  have hline : isInclusion line = true := by
    rw [← inclusions_includeLines] at hmem
    exact (mem_inclusions.mp hmem).2
  constructor
  · rw [← List.count_filter hline]
    change (inclusions i.preamble).count line = 1
    rw [inclusions_preamble]
    exact List.count_eq_one_of_mem hnodup hmem
  · intro hstruct
    have hinclusion := mem_inclusions.mpr ⟨hstruct, hline⟩
    rw [inclusions_structLines] at hinclusion
    cases hinclusion

/-- Whether a line begins like an announcement. -/
def opensAnnouncement (line : String) : Bool :=
  line.toList.head? = some 'c' || line.toList.head? = some 'n'

theorem opensAnnouncement_text (f : ForwardDecl) : opensAnnouncement f.text = true := by
  rw [ForwardDecl.text]
  split <;> simp [opensAnnouncement]

theorem opensAnnouncement_of_mem_includeLines (h : line ∈ i.includeLines) :
    opensAnnouncement line = false := by
  rw [includeLines, List.mem_append, List.mem_map, List.mem_map] at h
  rcases h with ⟨parent, -, rfl⟩ | ⟨inc, -, rfl⟩ <;> simp [opensAnnouncement]

theorem opensAnnouncement_of_mem_structLines (h : line ∈ i.structLines) :
    opensAnnouncement line = false := by
  have hhead : ∀ line ∈ i.structHead, opensAnnouncement line = false := by
    rw [structHead]
    split <;> simp [opensAnnouncement]
  have hfields : ∀ field : Field, opensAnnouncement field.text = false := by
    simp [opensAnnouncement, Field.text]
  rw [structLines, factoryLines, List.mem_append, List.mem_append, List.mem_append, List.mem_map,
    List.mem_map] at h
  rcases h with ((h | ⟨made, -, rfl⟩) | ⟨field, -, rfl⟩) | h
  · exact hhead line h
  · simp [opensAnnouncement]
  · exact hfields field
  · simp only [List.mem_cons, List.not_mem_nil, or_false] at h
    rcases h with rfl | rfl | rfl <;> simp [opensAnnouncement]

theorem count_paragraph {lines : List String} (h : line ≠ "") :
    (paragraph lines).count line = lines.count line := by
  rw [paragraph]
  split
  · next hnil => rw [hnil]
  · rw [List.count_append, List.count_singleton, if_neg (by simpa using h.symm), Nat.add_zero]

theorem listsOnce_of_mem_forwards (hnodup : (i.forwards.map ForwardDecl.text).Nodup)
    (hmem : line ∈ i.forwards.map ForwardDecl.text) : i.ListsOnce line := by
  have hopens : opensAnnouncement line = true := by
    obtain ⟨f, -, rfl⟩ := List.mem_map.mp hmem
    exact opensAnnouncement_text f
  have hother : ∀ {lines : List String},
      (∀ other ∈ lines, opensAnnouncement other = false) → line ∉ lines := by
    intro lines hlines hline
    exact Bool.noConfusion (hopens.symm.trans (hlines line hline))
  have hguards : line ∉ ["#ifndef " ++ i.guardMacro, "#define " ++ i.guardMacro, ""] :=
    hother (by simp [opensAnnouncement])
  have hincludes : line ∉ i.includeLines :=
    hother fun _ => opensAnnouncement_of_mem_includeLines
  have hne : line ≠ "" := by
    rintro rfl
    exact hguards (by simp)
  refine ⟨?_, hother fun _ => opensAnnouncement_of_mem_structLines⟩
  rw [preamble, List.count_append, List.count_append, count_paragraph hne, count_paragraph hne,
    List.count_eq_zero_of_not_mem hguards, List.count_eq_zero_of_not_mem hincludes,
    List.count_eq_one_of_mem hnodup hmem]

/-! ### What the structure uses -/

namespace Declares

/-- Nothing that the types of parameters need is included like the header of a class. -/
theorem not_prefix_of_mem_includes (h : Declares r c i) {inc : Include} (hinc : inc ∈ i.includes) :
    ¬ "#include \"params/".toList <+: ("#include " ++ inc.text).toList := by
  have hforeign : ∀ other ∈ foreignInclusions,
      ¬ "#include \"params/".toList <+: other.toList := by decide
  rcases (h.includes inc).mp hinc with ⟨q, -, hq⟩ | ⟨-, rfl⟩
  · rcases ParamType.includes_cases hq with hmem | ⟨e, -, rfl⟩
    · exact hforeign _ hmem
    · have hopening : "#include \"enums/".toList
          <+: ("#include " ++ (Include.local (enumHeaderPath e)).text).toList := by
        simp [Include.text, enumHeaderPath]
      exact Text.not_prefix_of_clash (by decide) hopening
  · exact hforeign _ (by decide)

theorem nodup_includeLines (h : Declares r c i) : i.includeLines.Nodup := by
  have hdistinct : Function.Injective fun inc : Include => "#include " ++ inc.text :=
    fun _ _ heq => Include.text_injective ((String.append_right_inj _).mp heq)
  rw [includeLines, List.nodup_append]
  refine ⟨?_, h.includes_nodup.map hdistinct, ?_⟩
  · cases i.parent <;> simp
  · intro line hline other hother heq
    obtain ⟨p, -, rfl⟩ := List.mem_map.mp hline
    obtain ⟨inc, hinc, rfl⟩ := List.mem_map.mp hother
    refine h.not_prefix_of_mem_includes hinc ?_
    rw [← heq]
    simp [interfacePath]

theorem listsOnce_include (h : Declares r c i) {inc : Include} (hinc : inc ∈ i.includes) :
    i.ListsOnce ("#include " ++ inc.text) :=
  listsOnce_of_mem_includeLines h.nodup_includeLines
    (List.mem_append_right _ (List.mem_map_of_mem hinc))

theorem listsOnce_includeOf (h : Declares r c i) {q : Param} (hq : q ∈ c.params) {inc : Include}
    (hinc : inc ∈ q.type.includes) : i.ListsOnce ("#include " ++ inc.text) :=
  h.listsOnce_include ((h.includes inc).mpr (.inl ⟨q, hq, hinc⟩))

theorem listsOnce_parent (h : Declares r c i) {p : String} (hp : c.parent = some p) :
    i.ListsOnce (directive "#include" (Artifact.interface p).target) := by
  refine listsOnce_of_mem_includeLines h.nodup_includeLines (List.mem_append_left _ ?_)
  rw [h.parent, hp]
  exact List.mem_singleton_self _

theorem listsOnce_forward (h : Declares r c i) {target : ConfigClass}
    (htarget : Announces r c target) : i.ListsOnce (ForwardDecl.ofClass target).text :=
  listsOnce_of_mem_forwards h.forwards_nodup ((h.forwards _).mpr ⟨target, htarget, rfl⟩)

end Declares

/-- The header of a class has what the structure uses, each once and before the structure. -/
structure IsSelfContained (r : Registry) (c : ConfigClass) (i : Interface) : Prop where
  /-- The structure is printed with its factory, and with one field for each parameter that the
  class declares, in order. -/
  structLines : i.structLines = i.structHead
    ++ i.factory.toList.map (fun made => "    " ++ made ++ " *create();")
    ++ c.params.map (fun q => "    " ++ q.type.nativeType r.qualify ++ " " ++ q.name ++ ";")
    ++ ["\x7d;", "", "#endif // __PARAMS__" ++ c.name ++ "__"]
  /-- A class that a parameter refers to is announced, and the field spells it as announced. -/
  objects : ∀ q ∈ c.params, ∀ n, q.type.objectName? = some n →
    ∃ target line spelled, r.classes.get? n = some target ∧ target.IsAnnouncedAs line spelled
      ∧ i.ListsOnce line ∧ q.type.nativeType r.qualify = q.type.holding (spelled ++ " *")
  /-- So is the class itself if it has a factory. -/
  factory : c.isAbstract = false →
    ∃ line spelled, c.IsAnnouncedAs line spelled ∧ i.ListsOnce line ∧ i.factory = some spelled
  noFactory : c.isAbstract = true → i.factory = none
  enums : ∀ q ∈ c.params, ∀ e, q.type.enumName? = some e →
    i.ListsOnce (directive "#include" (Artifact.enumHeader e).target)
      ∧ q.type.nativeType r.qualify = q.type.holding ("Enums::" ++ e)
  vectors : ∀ q ∈ c.params, ∀ e, q.type = .vector e → i.ListsOnce "#include <vector>"
  scalars : ∀ q ∈ c.params, ∀ s, q.type.element = .scalar s →
    (∀ header, nativeHeaders.lookup s.nativeType = some header →
        i.ListsOnce ("#include " ++ header))
      ∧ q.type.nativeType r.qualify = q.type.holding s.nativeType
  /-- The root has a name, which is a text. -/
  root : c.parent = none → i.ListsOnce "#include <string>"
    ∧ i.structHead = ["struct " ++ c.name ++ "Params", "\x7b",
      "    virtual ~" ++ c.name ++ "Params() \x7b\x7d", "", "    std::string name;"]
  /-- The structure derives from the one that the header of the parent declares. -/
  parent : ∀ p, c.parent = some p → ∃ base, ofClass? r p = .ok base
    ∧ i.ListsOnce (directive "#include" (Artifact.interface p).target)
    ∧ base.structLines.head? = some ("struct " ++ p ++ "Params")
    ∧ i.structHead = ["struct " ++ c.name ++ "Params", "    : public " ++ p ++ "Params", "\x7b"]

namespace Declares

/-- The structure as it is printed. -/
theorem structLines_eq (h : Declares r c i) : i.structLines = i.structHead
    ++ i.factory.toList.map (fun made => "    " ++ made ++ " *create();")
    ++ c.params.map (fun q => "    " ++ q.type.nativeType r.qualify ++ " " ++ q.name ++ ";")
    ++ ["\x7d;", "", "#endif // __PARAMS__" ++ c.name ++ "__"] := by
  rw [structLines, List.append_assoc, h.fieldLines_eq, factoryLines, ← List.append_assoc]

/-- The structure begins with its name. -/
theorem head?_structLines (h : Declares r c i) :
    i.structLines.head? = some ("struct " ++ c.name ++ "Params") := by
  rw [structLines, structHead, h.structName, String.append_assoc]
  rfl

/-- **The header of a registered class has what its structure uses.** -/
theorem isSelfContained (h : Declares r c i) (hclosed : r.IsClosed)
    (hc : r.classes.get? name = some c) : i.IsSelfContained r c where
  structLines := h.structLines_eq
  objects := by
    intro q hq n hn
    obtain ⟨target, htarget⟩ :=
      NameMap.contains_iff_get?.mp ((hclosed.params hc q hq).object n hn)
    refine ⟨target, _, _, htarget, target.isAnnouncedAs,
      h.listsOnce_forward (.inl ⟨q, hq, n, hn, htarget⟩), ?_⟩
    rw [ParamType.nativeType_of_objectName? hn, Registry.qualify_of_get? htarget]
  factory := by
    intro habstract
    refine ⟨_, _, c.isAnnouncedAs, h.listsOnce_forward (.inr ⟨habstract, rfl⟩), ?_⟩
    rw [h.factory, habstract]
    rfl
  noFactory := by
    intro habstract
    rw [h.factory, if_pos habstract]
  enums := by
    intro q hq e he
    have helement : q.type.element = .enum e := ElementType.enumName?_eq_some_iff.mp he
    have hinc : .local (enumHeaderPath e) ∈ q.type.element.includes := by
      rw [helement]
      exact List.mem_singleton_self _
    rw [← include_local_eq_directive, ParamType.nativeType_eq_holding, helement]
    exact ⟨h.listsOnce_includeOf hq (q.type.element_includes_subset hinc), rfl⟩
  vectors := by
    intro q hq e he
    have hinc : .system "vector" ∈ q.type.includes := by
      rw [he]
      exact List.mem_cons_self
    exact h.listsOnce_includeOf hq hinc
  scalars := by
    intro q hq s hs
    rw [ParamType.nativeType_eq_holding, hs]
    refine ⟨fun header hheader => ?_, rfl⟩
    have hmem : header ∈ s.includes.map Include.text := by
      rw [s.text_includes, hheader]
      exact List.mem_singleton_self _
    obtain ⟨inc, hinc, rfl⟩ := List.mem_map.mp hmem
    exact h.listsOnce_includeOf hq (q.type.element_includes_subset (hs ▸ hinc))
  root := by
    intro hroot
    have hinc : .system "string" ∈ i.includes := (h.includes _).mpr (.inr ⟨hroot, rfl⟩)
    have hending : "Params() \x7b\x7d" = "Params" ++ "() \x7b\x7d" := rfl
    refine ⟨h.listsOnce_include hinc, ?_⟩
    rw [structHead, h.parent, hroot, h.structName, hending]
    simp only [String.append_assoc]
  parent := by
    intro p hp
    obtain ⟨parent, hparent⟩ := NameMap.contains_iff_get?.mp (hclosed.parent hc hp)
    obtain ⟨base, hbase⟩ := exists_ofClass?_ok hclosed hparent
    obtain ⟨declared, hdeclared, hdeclares⟩ := ofClass?_ok hbase
    refine ⟨base, hbase, h.listsOnce_parent hp, ?_, ?_⟩
    · rw [hdeclares.head?_structLines, hclosed.name_eq hdeclared]
    · rw [structHead, h.parent, hp, h.structName]
      simp only [String.append_assoc]

end Declares

end Interface

/-! ### Every registered class -/

namespace Registry

/-- **Headers have what their structures use.** The header of every registered class is printed. Its
structure has one field for each parameter of the class, and the lines before the structure announce
and include, each once, what the structure is spelled with. -/
theorem discover_isSelfContained {host : ModuleTable} {d : Disk} {sources : List ScriptSource}
    {requested : List String} {env : BuildEnv}
    (h : (discover host d sources requested env).1 = .ok r) (hc : r.classes.get? name = some c) :
    ∃ i, Interface.ofClass? r name = .ok i
      ∧ (∀ ctx : RenderContext, ctx.registry = r →
        (Artifact.interface name).render? ctx = .ok (Text.unlines (i.preamble ++ i.structLines)))
      ∧ i.IsSelfContained r c := by
  have hclosed := isClosed_of_discover h
  obtain ⟨i, hi⟩ := Interface.exists_ofClass?_ok hclosed hc
  obtain ⟨c', hc', hdeclares⟩ := Interface.ofClass?_ok hi
  cases hc.symm.trans hc'
  refine ⟨i, hi, fun ctx hctx => ?_, hdeclares.isSelfContained hclosed hc⟩
  rw [← Interface.lines_eq]
  exact (Artifact.HasLines.interface hi).render? hctx

/-- The native class of the ports is announced in its namespace, and the field points to it. -/
theorem bridge_isSelfContained :
    (discover bridgeHost (Disk.blank []) [] ["Bus"] sampleEnv).1 = .ok bridge
      ∧ ∃ c, bridge.classes.get? "Bus" = some c
        ∧ ∃ i, Interface.ofClass? bridge "Bus" = .ok i ∧ i.IsSelfContained bridge c := by
  obtain ⟨c, hc⟩ := NameMap.contains_iff_get?.mp
    (show bridge.classes.contains "Bus" = true by decide)
  obtain ⟨i, hi, -, hcontained⟩ := discover_isSelfContained discover_bridgeHost hc
  exact ⟨discover_bridgeHost, c, hc, i, hi, hcontained⟩

example : (Interface.ofClass? bridge "Bus").map Interface.lines = .ok
    ["#ifndef __PARAMS__Bus__", "#define __PARAMS__Bus__", "",
      "#include \"params/SimObject.hh\"", "#include \"enums/Speed.hh\"", "#include <vector>", "",
      "class Bus;", "namespace Net \x7b class NetPort; \x7d", "",
      "struct BusParams", "    : public SimObjectParams", "\x7b", "    Bus *create();",
      "    std::vector< Net::NetPort * > ports;", "    std::vector< Enums::Speed > speeds;",
      "\x7d;", "", "#endif // __PARAMS__Bus__"] := by
  decide +kernel

end Registry

end SimMetadata
