import SimMetadata.Proofs.Artifact.Interface
import SimMetadata.Proofs.Artifact.Target
import SimMetadata.Proofs.Registry.Requirements

/-!
# What native files include

Headers, tables of enumerations and binding modules include each other. Whether a line includes a
file is seen by how it begins, and the lines are taken as they are printed, one by one, whatever the
names in them are. What is printed around the names then says which lines these are: a header
includes what it lists at its beginning, and a binding module two lists of the same classes, with
the headers of enumerations in between.

## Main definitions

* `isInclusion`, `inclusions`: the lines that include a file.
* `foreignInclusions`: the lines that include a file which is not generated.
* `Interface.preamble`, `Interface.structLines`: the lines of a header before the structure, and the
  others.
* `Aggregate.Covers`: what the binding module over all classes lists.

## Main results

* `Interface.inclusions_lines`, `EnumSource.inclusions_lines`, `EnumHeader.inclusions_lines`: what
  headers and tables include.
* `Aggregate.covers`: the binding module over all classes lists each of them once, parents first.

## Implementation notes

A class that its manifest declares in lines of its own is declared by these lines. They are printed
as they are and may include anything.
-/

namespace SimMetadata

variable {r : Registry} {line : String} {lines : List String} {t : ParamType} {c : ConfigClass}

/-! ### Lines that include a file -/

/-- The words with which such a line begins. -/
def inclusionWords : List String := ["#include", "%include", "%import"]

/-- Whether a line includes a file. -/
def isInclusion (line : String) : Bool :=
  inclusionWords.any fun word => word.toList.isPrefixOf line.toList

/-- Those of some lines that include a file. -/
def inclusions (lines : List String) : List String := lines.filter isInclusion

/-- The line that includes a file of the build. -/
def directive (word : String) (p : Path) : String := word ++ " \"" ++ p.text ++ "\""

/-- The lines that include a file which is not generated. -/
def foreignInclusions : List String :=
  ["#include <stdint.h>", "#include <string>", "#include <vector>", "#include \"base/types.hh\"",
    "%import \"base/types.hh\"", "%import \"stdint.i\"", "%include \"std_string.i\"",
    "%include \"std_vector.i\"", "%include \"sim/sim_object_params.hh\""]

/-- The line that a header of the build gets in an interface. -/
theorem include_local_eq_directive (path : String) :
    "#include " ++ (Include.local path).text = directive "#include" ⟨path⟩ := by
  rw [Include.text, ← String.append_assoc, ← String.append_assoc]
  rfl

theorem mem_inclusions : line ∈ inclusions lines ↔ line ∈ lines ∧ isInclusion line = true :=
  List.mem_filter

/-- A line includes a file if what it begins with does. -/
theorem isInclusion_append {opening : String} (rest : String) (h : isInclusion opening = true) :
    isInclusion (opening ++ rest) = true := by
  rw [isInclusion, List.any_eq_true] at h ⊢
  obtain ⟨word, hword, hprefix⟩ := h
  rw [List.isPrefixOf_iff_prefix] at hprefix
  refine ⟨word, hword, ?_⟩
  rw [List.isPrefixOf_iff_prefix, String.toList_append]
  exact hprefix.trans (List.prefix_append _ _)

/-- What a line begins with may rule out that it includes a file, whatever name follows. -/
theorem isInclusion_append_eq_false {opening : String} (rest : String)
    (h : ∀ word ∈ inclusionWords, Text.clash opening.toList word.toList = true) :
    isInclusion (opening ++ rest) = false := by
  rw [isInclusion, List.any_eq_false]
  intro word hword hprefix
  rw [List.isPrefixOf_iff_prefix, String.toList_append] at hprefix
  exact Text.not_prefix_of_clash (h word hword) (List.prefix_append _ _) hprefix

theorem isInclusion_directive {word : String} (h : isInclusion word = true) (p : Path) :
    isInclusion (directive word p) = true := by
  rw [directive, String.append_assoc, String.append_assoc]
  exact isInclusion_append _ h

theorem inclusions_eq_self (h : ∀ line ∈ lines, isInclusion line = true) :
    inclusions lines = lines :=
  List.filter_eq_self.mpr h

theorem inclusions_eq_nil (h : ∀ line ∈ lines, isInclusion line = false) : inclusions lines = [] :=
  List.filter_eq_nil_iff.mpr fun line hline => by simp [h line hline]

@[simp] theorem inclusions_nil : inclusions [] = [] := rfl

@[simp] theorem inclusions_append (lines lines' : List String) :
    inclusions (lines ++ lines') = inclusions lines ++ inclusions lines' :=
  List.filter_append _ _

@[simp] theorem inclusions_cons (h : isInclusion line = false) (lines : List String) :
    inclusions (line :: lines) = inclusions lines :=
  List.filter_cons_of_neg (by simp [h])

@[simp] theorem inclusions_cons_append {opening : String}
    (h : ∀ word ∈ inclusionWords, Text.clash opening.toList word.toList = true) (rest : String)
    (lines : List String) : inclusions ((opening ++ rest) :: lines) = inclusions lines :=
  inclusions_cons (isInclusion_append_eq_false rest h) lines

@[simp] theorem inclusions_map_append {α : Type} {opening : String}
    (h : ∀ word ∈ inclusionWords, Text.clash opening.toList word.toList = true) (f : α → String)
    (as : List α) : inclusions (as.map fun a => opening ++ f a) = [] :=
  inclusions_eq_nil (List.forall_mem_map.mpr fun a _ => isInclusion_append_eq_false (f a) h)

@[simp] theorem inclusions_directive {word : String} (h : isInclusion word = true) (p : Path) :
    inclusions [directive word p] = [directive word p] :=
  inclusions_eq_self (by simp [isInclusion_directive h])

@[simp] theorem inclusions_map_directive {α : Type} {word : String} (h : isInclusion word = true)
    (p : α → Path) (as : List α) :
    inclusions (as.map fun a => directive word (p a)) = as.map fun a => directive word (p a) :=
  inclusions_eq_self (List.forall_mem_map.mpr fun a _ => isInclusion_directive h (p a))

/-! ### Parameter types -/

theorem Scalar.mem_foreignInclusions (s : Scalar) :
    (∀ inc ∈ s.includes, "#include " ++ inc.text ∈ foreignInclusions)
      ∧ ∀ line ∈ s.predecls, line ∈ foreignInclusions := by
  cases s <;> decide

namespace ParamType

/-- A type needs headers that are not generated, and the header of an enumeration in it. -/
theorem includes_cases {inc : Include} (h : inc ∈ t.includes) :
    "#include " ++ inc.text ∈ foreignInclusions
      ∨ ∃ e, t.enumName? = some e ∧ inc = .local (enumHeaderPath e) := by
  have helement : ∀ {e : ElementType}, inc ∈ e.includes →
      "#include " ++ inc.text ∈ foreignInclusions
        ∨ ∃ n, e.enumName? = some n ∧ inc = .local (enumHeaderPath n) := by
    intro e h
    cases e with
    | scalar s => exact .inl (s.mem_foreignInclusions.1 inc h)
    | enum n => exact .inr ⟨n, rfl, List.mem_singleton.mp h⟩
    | object n => cases h
  cases t with
  | plain e => exact helement h
  | vector e =>
    rcases List.mem_cons.mp h with rfl | h
    · exact .inl (by decide)
    · exact helement h

/-- What a type needs in a binding module is announced or not generated. -/
theorem predecls_inclusion (h : line ∈ t.predecls) (hline : isInclusion line = true) :
    line ∈ foreignInclusions := by
  have helement : ∀ {e : ElementType}, line ∈ e.predecls → line ∈ foreignInclusions := by
    intro e h
    cases e with
    | scalar s => exact s.mem_foreignInclusions.2 line h
    | enum n => cases h
    | object n =>
      rw [List.mem_singleton.mp h, String.append_assoc,
        isInclusion_append_eq_false _ (by decide)] at hline
      cases hline
  cases t with
  | plain e => exact helement h
  | vector e =>
    rcases List.mem_append.mp h with h | h
    · exact helement h
    · rw [List.mem_singleton.mp h]
      decide

end ParamType

namespace Requirements

variable {classes : List ConfigClass}

theorem predecls_inclusion (h : line ∈ (ofClasses classes).predecls)
    (hline : isInclusion line = true) : line ∈ foreignInclusions := by
  obtain ⟨-, -, q, -, h⟩ := mem_predecls.mp h
  exact q.type.predecls_inclusion h hline

end Requirements

/-! ### What native files include -/

theorem EnumHeader.inclusions_lines (h : EnumHeader) : inclusions h.lines = [] := by
  simp (disch := decide) [lines, String.append_assoc]

theorem EnumSource.inclusions_lines (s : EnumSource) :
    inclusions s.lines = [directive "#include" ⟨s.header⟩] := by
  -- Only the first line includes a file, and it does so whatever the header is called.
  have hlines : s.lines = [directive "#include" ⟨s.header⟩] ++ s.lines.tail := rfl
  have htail : inclusions s.lines.tail = [] := by
    simp (disch := decide) [lines, String.append_assoc]
  rw [hlines, inclusions_append, htail, inclusions_directive (by decide), List.append_nil]

namespace Interface

theorem inclusions_paragraph (lines : List String) :
    inclusions (paragraph lines) = inclusions lines := by
  rw [paragraph]
  split
  · next h => rw [h]
  · rw [inclusions_append, inclusions_cons (by decide), inclusions_nil, List.append_nil]

theorem inclusions_forwards (forwards : List ForwardDecl) :
    inclusions (forwards.map ForwardDecl.text) = [] := by
  refine inclusions_eq_nil (List.forall_mem_map.mpr fun f _ => ?_)
  rw [ForwardDecl.text]
  split
  · rw [String.append_assoc, String.append_assoc, String.append_assoc]
    exact isInclusion_append_eq_false _ (by decide)
  · rw [String.append_assoc]
    exact isInclusion_append_eq_false _ (by decide)

theorem inclusions_structHead (i : Interface) : inclusions i.structHead = [] := by
  rw [structHead]
  split <;> simp (disch := decide) [String.append_assoc]

theorem inclusions_includeLines (i : Interface) : inclusions i.includeLines = i.includeLines := by
  have hparent : i.parent.toList.map (fun p => "#include \"" ++ interfacePath p ++ "\"")
      = i.parent.toList.map fun p => directive "#include" (Artifact.interface p).target := rfl
  rw [includeLines, inclusions_append, hparent, inclusions_map_directive (by decide)]
  congr 1
  exact inclusions_eq_self (List.forall_mem_map.mpr fun inc _ => isInclusion_append _ (by decide))

/-- The lines before the structure. -/
def preamble (i : Interface) : List String :=
  ["#ifndef " ++ i.guardMacro, "#define " ++ i.guardMacro, ""] ++ paragraph i.includeLines
    ++ paragraph (i.forwards.map ForwardDecl.text)

/-- The line of the factory, which stands in the structure before the fields. -/
def factoryLines (i : Interface) : List String :=
  i.factory.toList.map fun made => "    " ++ made ++ " *create();"

/-- The lines of the structure, and what closes the header. -/
def structLines (i : Interface) : List String :=
  i.structHead ++ i.factoryLines ++ i.fields.map Field.text
    ++ ["\x7d;", "", "#endif // " ++ i.guardMacro]

theorem lines_eq (i : Interface) : i.lines = i.preamble ++ i.structLines := by
  simp only [lines, preamble, structLines, factoryLines, List.append_assoc]

theorem inclusions_preamble (i : Interface) : inclusions i.preamble = i.includeLines := by
  simp (disch := decide) [preamble, inclusions_paragraph, inclusions_forwards,
    inclusions_includeLines]

theorem inclusions_structLines (i : Interface) : inclusions i.structLines = [] := by
  have hfields : inclusions (i.fields.map Field.text) = [] := by
    refine inclusions_eq_nil (List.forall_mem_map.mpr fun field _ => ?_)
    rw [Field.text, String.append_assoc, String.append_assoc, String.append_assoc]
    exact isInclusion_append_eq_false _ (by decide)
  simp (disch := decide) [structLines, factoryLines, String.append_assoc, inclusions_structHead,
    hfields]

/-- A header includes what it lists at its beginning. -/
theorem inclusions_lines (i : Interface) : inclusions i.lines = i.includeLines := by
  rw [lines_eq, inclusions_append, inclusions_preamble, inclusions_structLines, List.append_nil]

end Interface

/-- A line that the manifest of a registered class gives. -/
def Registry.IsGiven (r : Registry) (line : String) : Prop :=
  ∃ name c lines, r.classes.get? name = some c ∧ c.customDecl = some lines ∧ line ∈ lines

/-- Where a class is declared, only lines that its manifest gives include files. -/
theorem ClassBlock.inclusions_lines {b : ClassBlock} (h : ofClass? r c = .ok b)
    (hline : line ∈ inclusions b.lines) : ∃ lines, c.customDecl = some lines ∧ line ∈ lines := by
  have hstub : ∀ ns nativeName base, inclusions (stub ns nativeName base).lines = [] := by
    intro ns nativeName base
    cases ns <;> simp (disch := decide) [ClassBlock.lines, String.append_assoc]
  rw [ofClass?] at h
  split at h
  · next lines hcustom =>
    cases h
    exact ⟨lines, hcustom, (mem_inclusions.mp hline).1⟩
  · split at h
    · cases h
      rw [hstub] at hline
      cases hline
    · obtain ⟨parent, -, h⟩ := except_bind_eq_ok_iff.mp h
      cases h
      rw [hstub] at hline
      cases hline

namespace Aggregate

variable {m : Aggregate} {names : List String}

/-- What the module over some classes is made from. -/
theorem ofNames?_ok (h : ofNames? r names = .ok m) :
    ∃ ordered, r.order names = .ok ordered ∧ m.classNames = ordered.map ConfigClass.name
      ∧ m.requirements = .ofClasses ordered
      ∧ List.Forall₂ (fun c b => ClassBlock.ofClass? r c = .ok b) ordered m.blocks := by
  rw [ofNames?] at h
  obtain ⟨ordered, hordered, h⟩ := except_bind_eq_ok_iff.mp h
  obtain ⟨blocks, hblocks, h⟩ := except_bind_eq_ok_iff.mp h
  cases h
  exact ⟨ordered, hordered, rfl, rfl, forall₂_of_mapM_ok hblocks⟩

/-- The headers of the classes, in the block that the native compiler reads. -/
def classHeaders (m : Aggregate) : List String :=
  m.classNames.map fun n => directive "#include" (Artifact.interface n).target

/-- The headers of the classes once more, for the binding generator. -/
def trailingHeaders (m : Aggregate) : List String :=
  m.classNames.map fun n => directive "%include" (Artifact.interface n).target

/-- The headers of the enumerations. -/
def enumHeaders (m : Aggregate) : List String :=
  m.requirements.enums.map fun e => directive "%include" (Artifact.enumHeader e).target

/-- The lines between the two lists of headers. -/
def middleLines (m : Aggregate) : List String :=
  "" :: m.requirements.predecls ++ m.enumHeaders ++ "" :: m.blockLines
    ++ [directive "%include" ⟨rootParamsHeader⟩]

theorem lines_eq (m : Aggregate) :
    m.lines = ["%module params", "", "%\x7b"] ++ m.classHeaders
      ++ "%\x7d" :: m.middleLines ++ m.trailingHeaders := by
  have hlines : m.lines = ["%module params", "", "%\x7b"] ++ m.classHeaders ++ ["%\x7d", ""]
      ++ m.requirements.predecls ++ m.enumHeaders ++ [""] ++ m.blockLines
      ++ [directive "%include" ⟨rootParamsHeader⟩] ++ m.trailingHeaders := rfl
  rw [hlines]
  simp only [middleLines, List.append_assoc, List.cons_append, List.nil_append]

/-- What the binding module over all classes lists. -/
structure Covers (r : Registry) (m : Aggregate) : Prop where
  /-- The headers of the classes stand at the beginning and at the end, in the same order. -/
  lines_eq : m.lines = ["%module params", "", "%\x7b"] ++ m.classHeaders
    ++ "%\x7d" :: m.middleLines ++ m.trailingHeaders
  /-- Every class is listed once. -/
  nodup : m.classNames.Nodup
  mem_classNames : ∀ name, name ∈ m.classNames ↔ r.classes.contains name = true
  /-- Its parent is listed before it. -/
  parent_mem : ∀ {before name after c p}, m.classNames = before ++ name :: after →
    r.classes.get? name = some c → c.parent = some p → p ∈ before
  /-- Included in between are the headers of the enumerations, the header that is written by hand,
  what is not generated, and what manifests give. -/
  middle : ∃ foreign given, inclusions m.middleLines
      = foreign ++ m.enumHeaders ++ given ++ [directive "%include" ⟨rootParamsHeader⟩]
    ∧ (∀ line ∈ foreign, line ∈ foreignInclusions) ∧ ∀ line ∈ given, r.IsGiven line
  enums_nodup : m.requirements.enums.Nodup
  /-- The enumerations are those that a parameter of some class refers to. -/
  mem_enums : ∀ e, e ∈ m.requirements.enums ↔
    ∃ name c, r.classes.get? name = some c ∧ ∃ q ∈ c.params, q.type.enumName? = some e

theorem inclusions_middleLines (m : Aggregate) :
    inclusions m.middleLines = inclusions m.requirements.predecls ++ m.enumHeaders
      ++ inclusions m.blockLines ++ [directive "%include" ⟨rootParamsHeader⟩] := by
  have henums : inclusions m.enumHeaders = m.enumHeaders := inclusions_map_directive (by decide) _ _
  simp (disch := decide) [middleLines, henums]

/-- The module includes the two lists of headers and what stands in between. -/
theorem inclusions_lines (m : Aggregate) : inclusions m.lines
    = m.classHeaders ++ inclusions m.middleLines ++ m.trailingHeaders := by
  have hclasses : inclusions m.classHeaders = m.classHeaders :=
    inclusions_map_directive (by decide) _ _
  have htrailing : inclusions m.trailingHeaders = m.trailingHeaders :=
    inclusions_map_directive (by decide) _ _
  rw [lines_eq]
  simp (disch := decide) [hclasses, htrailing]

/-- Where the classes are declared, only what manifests give includes files. -/
theorem isGiven_of_mem_blockLines {ordered : List ConfigClass}
    (hfirst : Linearization.ParentsFirst r.classes ordered)
    (hblocks : List.Forall₂ (fun c b => ClassBlock.ofClass? r c = .ok b) ordered m.blocks)
    (hline : line ∈ inclusions m.blockLines) : r.IsGiven line := by
  obtain ⟨hline, hinclusion⟩ := mem_inclusions.mp hline
  obtain ⟨b, hb, hline⟩ := List.mem_flatMap.mp hline
  obtain ⟨c, hc, hblock⟩ := exists_of_forall₂ hblocks.flip hb
  rcases List.mem_append.mp hline with hline | hline
  · obtain ⟨lines, hcustom, hline⟩ :=
      ClassBlock.inclusions_lines hblock (mem_inclusions.mpr ⟨hline, hinclusion⟩)
    exact ⟨c.name, c, lines, hfirst.registered hc, hcustom, hline⟩
  · rw [List.mem_singleton.mp hline] at hinclusion
    cases hinclusion

/-- **The binding module over all classes lists them**, and what they need. -/
theorem covers (htree : r.IsTree) (h : ofNames? r r.classes.keys = .ok m) : m.Covers r := by
  obtain ⟨ordered, hordered, hnames, hrequirements, hblocks⟩ := ofNames?_ok h
  obtain ⟨hfirst, -⟩ := Linearization.linearize_ok htree.name_eq hordered
  have hmem : ∀ {name c}, r.classes.get? name = some c → c ∈ ordered :=
    Linearization.mem_of_linearize_keys htree.name_eq hordered
  refine
    { lines_eq := m.lines_eq
      nodup := hnames ▸ hfirst.nodup
      mem_classNames := fun name => ⟨fun hname => ?_, fun hname => ?_⟩
      parent_mem := fun {before name after c p} hsplit hc hp => ?_
      middle := ⟨_, _, m.inclusions_middleLines, fun line hline => ?_,
        fun line hline => isGiven_of_mem_blockLines hfirst hblocks hline⟩
      enums_nodup := ?_
      mem_enums := fun e => ?_ }
  · rw [hnames] at hname
    obtain ⟨c, hc, rfl⟩ := List.mem_map.mp hname
    exact NameMap.contains_of_get? (hfirst.registered hc)
  · obtain ⟨c, hc⟩ := NameMap.contains_iff_get?.mp hname
    rw [hnames, ← htree.name_eq hc]
    exact List.mem_map_of_mem (hmem hc)
  · rw [hnames] at hsplit
    obtain ⟨front, back, rfl, rfl, hback⟩ := List.map_eq_append_iff.mp hsplit
    obtain ⟨c', back, rfl, rfl, -⟩ := List.map_eq_cons_iff.mp hback
    cases hc.symm.trans (hfirst.registered (by simp))
    exact hfirst.parent_mem_before rfl hp
  · obtain ⟨hline, hinclusion⟩ := mem_inclusions.mp hline
    rw [hrequirements] at hline
    exact Requirements.predecls_inclusion hline hinclusion
  · rw [hrequirements]
    exact NameMap.keys_nodup _
  · rw [hrequirements, Requirements.mem_enums]
    constructor
    · rintro ⟨c, hc, hq⟩
      exact ⟨c.name, c, hfirst.registered hc, hq⟩
    · rintro ⟨name, c, hc, hq⟩
      exact ⟨c, hmem hc, hq⟩

end Aggregate

end SimMetadata
