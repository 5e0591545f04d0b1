import SimMetadata.Proofs.Artifact.Target
import SimMetadata.Proofs.Registry.References

/-!
# One name, one type, one file

A type that needs a binding is registered under its normalised name, and the parameter that comes
first provides it. This loses nothing, because all types in a registry are read with the same
enumerations, and a type is then determined by its normalised name. The name also determines where
the declaration of the type goes: the tag keeps all of it but the brackets, and the element of a
vector is an identifier, which no path takes apart.

## Main definitions

* `Registry.HasParam`: the parameters of all classes, inherited ones included.
* `Registry.IsTypedByName`: what the names of types determine in a registry.

## Main results

* `Registry.bindingTypes_perm`: which parameter comes first does not matter.
* `Registry.discover_isTypedByName`: names determine types and files in a registry that discovery
  publishes.
-/

namespace SimMetadata

variable {isEnum : String → Bool} {text name : String} {t : ParamType} {e : ElementType}

/-! ### Elements are identifiers -/

theorem ParamType.isIdentifier_of_ofText? (h : ofText? isEnum text = some t) :
    Text.isIdentifier t.element.name.toList = true := by
  obtain ⟨cs, make, hmake⟩ := ofText?_eq text
  obtain ⟨hread, helement⟩ := hmake isEnum
  rw [hread] at h
  obtain ⟨e, he, rfl⟩ := Option.map_eq_some_iff.mp h
  obtain ⟨hid, -⟩ := ElementType.ofChars?_cases he
  rwa [helement, ElementType.name_of_ofChars? he, String.toList_ofList]

namespace Registry

variable {params params' : List Param} {declared : NameMap Declared} {enums : NameMap Enumeration}
  {env : BuildEnv} {r : Registry}

/-! ### Types by name -/

/-- Where a name stands for one type, that type is found by it. -/
theorem get?_bindingTypes_iff
    (h : ∀ q ∈ params, ∀ q' ∈ params, q.type.name = q'.type.name → q.type = q'.type) :
    (bindingTypes params).get? name = some t
      ↔ t.name = name ∧ t.needsBinding = true ∧ ∃ q ∈ params, q.type = t := by
  constructor
  · intro ht
    obtain ⟨hname, q, hq, htype, hneeds⟩ := of_get?_bindingTypes params ht
    exact ⟨hname, hneeds, q, hq, htype⟩
  · rintro ⟨rfl, hneeds, q, hq, rfl⟩
    obtain ⟨t, ht⟩ := NameMap.contains_iff_get?.mp (contains_bindingTypes hq hneeds)
    obtain ⟨hname, q', hq', rfl, -⟩ := of_get?_bindingTypes params ht
    rw [ht, h q' hq' q hq hname]

/-- **Which parameter comes first does not matter**, where a name stands for one type. -/
theorem bindingTypes_perm (hperm : params'.Perm params)
    (h : ∀ q ∈ params, ∀ q' ∈ params, q.type.name = q'.type.name → q.type = q'.type) :
    bindingTypes params' = bindingTypes params := by
  have h' : ∀ q ∈ params', ∀ q' ∈ params', q.type.name = q'.type.name → q.type = q'.type :=
    fun q hq q' hq' => h q (hperm.subset hq) q' (hperm.subset hq')
  refine NameMap.ext_get? fun name => Option.ext fun t => ?_
  rw [get?_bindingTypes_iff h, get?_bindingTypes_iff h']
  simp only [hperm.mem_iff]

/-- A parameter of some class, declared by the class itself or inherited. -/
def HasParam (r : Registry) (q : Param) : Prop :=
  ∃ name c, r.classes.get? name = some c ∧ (q ∈ c.params ∨ q ∈ r.paramsOf name)

/-- What the names of types determine. -/
structure IsTypedByName (r : Registry) : Prop where
  /-- One normalised name stands for one type. -/
  type_eq : ∀ {q q'}, r.HasParam q → r.HasParam q' → q.type.name = q'.type.name → q.type = q'.type
  /-- Registered are the names of the vectors that classes declare as types of parameters. -/
  contains_iff : ∀ name, r.paramTypes.contains name = true ↔
    ∃ className c, r.classes.get? className = some c
      ∧ ∃ q ∈ c.params, (∃ e, q.type = .vector e) ∧ q.type.name = name
  /-- A registered type is read from its name. -/
  read_name : ∀ {name t}, r.paramTypes.get? name = some t →
    ParamType.ofText? r.enums.contains name = some t
  /-- In whatever order the classes are visited, the same types are registered. -/
  perm : ∀ {classes : List ConfigClass}, classes.Perm r.classes.values →
    bindingTypes (classes.flatMap ConfigClass.params) = r.paramTypes
  tag_inj : ∀ {name t name' t'}, r.paramTypes.get? name = some t →
    r.paramTypes.get? name' = some t' → t.tag = t'.tag → t = t'
  /-- The declarations of different types go to different files. -/
  target_inj : ∀ {name t name' t'}, r.paramTypes.get? name = some t →
    r.paramTypes.get? name' = some t' →
      (Artifact.binding t).target.components = (Artifact.binding t').target.components → t = t'
  /-- None of them goes to the file of the binding module over the classes. -/
  target_ne : ∀ {name t}, r.paramTypes.get? name = some t → ∀ classNames,
    (Artifact.binding t).target.components ≠ (Artifact.aggregate classNames).target.components

namespace Assembled

variable (h : Assembled declared enums env r)
include h

/-- A registered type is a vector, and its element is an identifier. -/
theorem exists_vector (ht : r.paramTypes.get? name = some t) :
    ∃ e, t = .vector e ∧ Text.isIdentifier e.name.toList = true := by
  obtain ⟨-, hneeds, className, k, hk, q, hq, rfl⟩ := h.of_get?_paramTypes ht
  have hid := ParamType.isIdentifier_of_ofText? (h.ofText?_type_name hk hq)
  cases htype : q.type with
  | plain e =>
    rw [htype] at hneeds
    cases hneeds
  | vector e =>
    rw [htype] at hid
    exact ⟨e, rfl, hid⟩

/-- A type is registered under its name, so types with the same element are the same. -/
theorem eq_of_element_name_eq {name' : String} {e' : ElementType}
    (ht : r.paramTypes.get? name = some (.vector e))
    (ht' : r.paramTypes.get? name' = some (.vector e')) (hname : e.name = e'.name) :
    ParamType.vector e = .vector e' := by
  have hsame : name = name' := by
    rw [← (h.of_get?_paramTypes ht).1, ← (h.of_get?_paramTypes ht').1]
    change "Vector<" ++ e.name ++ ">" = "Vector<" ++ e'.name ++ ">"
    rw [hname]
  rw [hsame] at ht
  exact Option.some_inj.mp (ht.symm.trans ht')

theorem eq_of_tag_eq {name' : String} {t' : ParamType} (ht : r.paramTypes.get? name = some t)
    (ht' : r.paramTypes.get? name' = some t') (htag : t.tag = t'.tag) : t = t' := by
  obtain ⟨e, rfl, -⟩ := h.exists_vector ht
  obtain ⟨e', rfl, -⟩ := h.exists_vector ht'
  rw [ParamType.tag_vector, ParamType.tag_vector, String.append_right_inj] at htag
  exact h.eq_of_element_name_eq ht ht' htag

/-! ### Files of declarations -/

theorem isPlain_target (ht : r.paramTypes.get? name = some t) :
    (Artifact.binding t).target.IsPlain := by
  obtain ⟨e, rfl, hid⟩ := h.exists_vector ht
  exact Artifact.isPlain_target_binding (Text.not_mem_of_isIdentifier hid (by decide))

theorem framedBy_target (ht : r.paramTypes.get? name = some t) :
    (Artifact.binding t).target.FramedBy [("params/vector_", ".i")] := by
  obtain ⟨e, rfl, -⟩ := h.exists_vector ht
  exact Artifact.framedBy_target_binding e

theorem eq_of_target_eq {name' : String} {t' : ParamType} (ht : r.paramTypes.get? name = some t)
    (ht' : r.paramTypes.get? name' = some t')
    (htarget : (Artifact.binding t).target = (Artifact.binding t').target) : t = t' := by
  obtain ⟨e, rfl, -⟩ := h.exists_vector ht
  obtain ⟨e', rfl, -⟩ := h.exists_vector ht'
  exact h.eq_of_element_name_eq ht ht' (Artifact.target_binding_inj.mp htarget)

/-! ### Parameters of all classes -/

theorem exists_class_of_hasParam (htree : r.IsTree) {q : Param} (hq : r.HasParam q) :
    ∃ className c, r.classes.get? className = some c ∧ q ∈ c.params := by
  obtain ⟨className, c, hc, hq | hq⟩ := hq
  · exact ⟨className, c, hc, hq⟩
  · exact h.exists_declaring_class htree hq

theorem type_eq_of_hasParam (htree : r.IsTree) {q q' : Param} (hq : r.HasParam q)
    (hq' : r.HasParam q') (hname : q.type.name = q'.type.name) : q.type = q'.type := by
  obtain ⟨_, _, hc, hq⟩ := h.exists_class_of_hasParam htree hq
  obtain ⟨_, _, hc', hq'⟩ := h.exists_class_of_hasParam htree hq'
  exact h.type_eq_of_name_eq hc hq hc' hq' hname

theorem contains_paramTypes_iff : r.paramTypes.contains name = true ↔
    ∃ className c, r.classes.get? className = some c
      ∧ ∃ q ∈ c.params, (∃ e, q.type = .vector e) ∧ q.type.name = name := by
  constructor
  · intro hname
    obtain ⟨t, ht⟩ := NameMap.contains_iff_get?.mp hname
    obtain ⟨e, rfl, -⟩ := h.exists_vector ht
    obtain ⟨htname, -, className, c, hc, q, hq, hqt⟩ := h.of_get?_paramTypes ht
    exact ⟨className, c, hc, q, hq, ⟨e, hqt⟩, hqt ▸ htname⟩
  · rintro ⟨className, c, hc, q, hq, ⟨e, hqt⟩, rfl⟩
    exact h.contains_paramTypes hc hq (by rw [hqt]; rfl)

theorem bindingTypes_of_perm {classes : List ConfigClass} (hperm : classes.Perm r.classes.values) :
    bindingTypes (classes.flatMap ConfigClass.params) = r.paramTypes := by
  have hclass : ∀ {q}, q ∈ r.classes.values.flatMap ConfigClass.params →
      ∃ className c, r.classes.get? className = some c ∧ q ∈ c.params := by
    intro q hq
    obtain ⟨c, hc, hq⟩ := List.mem_flatMap.mp hq
    obtain ⟨className, hc⟩ := NameMap.mem_values.mp hc
    exact ⟨className, c, hc, hq⟩
  rw [h.paramTypes]
  refine bindingTypes_perm (hperm.flatMap_right _) fun q hq q' hq' hname => ?_
  obtain ⟨_, _, hc, hq⟩ := hclass hq
  obtain ⟨_, _, hc', hq'⟩ := hclass hq'
  exact h.type_eq_of_name_eq hc hq hc' hq' hname

theorem isTypedByName (htree : r.IsTree) : r.IsTypedByName where
  type_eq := h.type_eq_of_hasParam htree
  contains_iff _ := h.contains_paramTypes_iff
  read_name ht := by
    obtain ⟨rfl, -, _, _, hc, _, hq, rfl⟩ := h.of_get?_paramTypes ht
    exact h.ofText?_type_name hc hq
  perm := h.bindingTypes_of_perm
  tag_inj := h.eq_of_tag_eq
  target_inj ht ht' htarget :=
    h.eq_of_target_eq ht ht' ((h.isPlain_target ht).eq_of_components_eq (h.isPlain_target ht')
      htarget)
  target_ne ht classNames htarget := by
    have hpath := (h.isPlain_target ht).eq_of_components_eq
      (Artifact.isPlain_target_aggregate classNames) htarget
    have hframed := Artifact.framedBy_target_aggregate classNames
    exact (h.framedBy_target ht).ne hframed (by decide) hpath

end Assembled

/-- **Names determine types and files in a registry that discovery publishes.** A type that classes
share is the same for all of them, is registered once, and has a tag and a file that no other
registered type has. -/
theorem discover_isTypedByName {host : ModuleTable} {d : Disk} {sources : List ScriptSource}
    {requested : List String} (h : (discover host d sources requested env).1 = .ok r) :
    r.IsTypedByName := by
  obtain ⟨settings, modules, w, hw, hr⟩ := discover_ok h
  exact hr.isTypedByName (hr.isTree hw.name_eq hw.root)

/-! ### A host with vectors

Two classes share a vector type and write it differently. Its elements are of a class with a native
name and a namespace. -/

def bridgeHost : ModuleTable := NameMap.ofList
  [("runtime", .manifest ⟨"runtime.toml"⟩
      { imports := []
        enums := [⟨"Speed", [.bare "slow", .bare "fast"]⟩]
        classes := [⟨"SimObject", none, true, none, none, none, []⟩] }),
    ("objects.Bus", .manifest ⟨"bus.toml"⟩
      { imports := []
        enums := []
        classes := [⟨"Bus", none, false, none, none, none,
            [⟨"ports", "Vector<Port>", "", none, none⟩,
              ⟨"speeds", "Vector<Speed>", "", none, none⟩]⟩,
          ⟨"Bridge", some "Bus", false, none, none, none,
            [⟨"ends", "Vector< Port >", "", none, none⟩]⟩] }),
    ("objects.Port", .manifest ⟨"port.toml"⟩
      { imports := []
        enums := []
        classes := [⟨"Port", none, false, some "Net", some "NetPort", none, []⟩] })]

/-- What discovery finds in the host. -/
def bridge : Registry :=
  let ports : ParamType := .vector (.object "Port")
  let speeds : ParamType := .vector (.enum "Speed")
  let busParams : List Param := [⟨"ports", ports, "", none⟩, ⟨"speeds", speeds, "", none⟩]
  let bridgeParams : List Param := [⟨"ends", ports, "", none⟩]
  { classes := NameMap.ofList
      [("SimObject", ⟨"SimObject", none, [], none, "SimObject", none, true, "runtime"⟩),
        ("Bus", ⟨"Bus", some "SimObject", busParams, none, "Bus", none, false, "objects.Bus"⟩),
        ("Bridge", ⟨"Bridge", some "Bus", bridgeParams, none, "Bridge", none, false,
          "objects.Bus"⟩),
        ("Port", ⟨"Port", some "SimObject", [], some "Net", "NetPort", none, false,
          "objects.Port"⟩)]
    allParams := NameMap.ofList [("SimObject", []), ("Bus", busParams),
      ("Bridge", busParams ++ bridgeParams), ("Port", [])]
    enums := NameMap.ofList [("Speed", ⟨"Speed", [⟨"slow", 0⟩, ⟨"fast", 1⟩]⟩)]
    paramTypes := NameMap.ofList [("Vector<Port>", ports), ("Vector<Speed>", speeds)] }

theorem discover_bridgeHost :
    (discover bridgeHost (Disk.blank []) [] ["Bus"] sampleEnv).1 = .ok bridge := by
  decide +kernel

theorem bridge_isTypedByName :
    (discover bridgeHost (Disk.blank []) [] ["Bus"] sampleEnv).1 = .ok bridge
      ∧ bridge.IsTypedByName :=
  ⟨discover_bridgeHost, discover_isTypedByName discover_bridgeHost⟩

end Registry

end SimMetadata
