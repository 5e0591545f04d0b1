import SimMetadata.Proofs.Generation
import SimMetadata.Proofs.Registry.BindingTypes

/-!
# Native types of parameters

The structure of a class has a field for each parameter that the class declares, and a binding
module declares the type of the parameter if it is a vector. Both spell the native type. A class in
it is spelled in the structure by its native name, with the namespace, and in the binding module by
the name that it has in manifests. So the two texts are the same exactly if the class has no
namespace and its native name is its name. A vector of anything else is spelled alike in both.

## Main definitions

* `Registry.qualify`: how structures spell a class.
* `Interface.Announces`: which native classes the header of a class announces.
* `Interface.Declares`: what the header of a class has to do with the class.
* `ParamType.IsNativelyNamed`: the class in a type, if there is one, is native under its own name.

## Main results

* `Interface.ofClass?_ok`: what a header declares.
* `Registry.discover_nativeType`: when the field of a parameter has the type that is declared for it
  in the binding module.
-/

namespace SimMetadata

variable {r : Registry} {name : String} {t : ParamType} {c : ConfigClass}

/-! ### Two spellings -/

/-- How structures spell a class: by its native name, with the namespace. -/
def Registry.qualify (r : Registry) (className : String) : String :=
  match r.classes.get? className with
  | some c => c.qualifiedName
  | none => className

theorem Registry.qualify_of_get? (h : r.classes.get? name = some c) :
    r.qualify name = c.qualifiedName := by
  rw [qualify, h]

/-- No identifier has a colon, so a class with a namespace is not spelled like one. -/
theorem ConfigClass.qualifiedName_eq_iff (hname : ':' ∉ name.toList) :
    c.qualifiedName = name ↔ c.namespace = none ∧ c.nativeName = name := by
  rw [qualifiedName]
  cases c.namespace with
  | none => simp
  | some ns =>
    have hne : ns ++ "::" ++ c.nativeName ≠ name := by
      rintro rfl
      exact hname (by simp)
    simp [hne]

namespace ParamType

/-- The class that the type refers to, if it refers to one, has no namespace, and its native name is
the name that it has in manifests. -/
def IsNativelyNamed (r : Registry) (t : ParamType) : Prop :=
  ∀ name c, t.objectName? = some name → r.classes.get? name = some c →
    c.namespace = none ∧ c.nativeName = name

/-- What a type is called natively depends on the spelling of the class in it and on no other. -/
theorem nativeType_eq_iff {qualify qualify' : String → String} :
    t.nativeType qualify = t.nativeType qualify'
      ↔ ∀ n, t.objectName? = some n → qualify n = qualify' n := by
  have helement : ∀ e : ElementType, e.nativeType qualify = e.nativeType qualify'
      ↔ ∀ n, e.objectName? = some n → qualify n = qualify' n := by
    intro e
    cases e <;> simp [ElementType.nativeType, ElementType.objectName?]
  cases t with
  | plain e => exact helement e
  | vector e =>
    rw [nativeType, nativeType, String.append_left_inj, String.append_right_inj]
    exact helement e

theorem name_element_of_objectName? (h : t.objectName? = some name) : t.element.name = name := by
  rcases objectName?_eq_some_iff.mp h with rfl | rfl <;> rfl

/-- With the native names of classes, a type is spelled as with their names exactly if the class in
it is native under its own name. -/
theorem nativeType_qualify_eq_iff (hid : Text.isIdentifier t.element.name.toList = true)
    (hknown : ∀ n, t.objectName? = some n → r.classes.contains n = true) :
    t.nativeType r.qualify = t.simpleNativeType ↔ t.IsNativelyNamed r := by
  have hclass : ∀ {n c}, t.objectName? = some n → r.classes.get? n = some c →
      (r.qualify n = n ↔ c.namespace = none ∧ c.nativeName = n) := by
    intro n c hn hc
    -- Here it matters that the type was read from a text: other names could have colons.
    have hcolon : ':' ∉ n.toList := by
      rw [← name_element_of_objectName? hn]
      exact Text.not_mem_of_isIdentifier hid (by decide)
    rw [Registry.qualify_of_get? hc, ConfigClass.qualifiedName_eq_iff hcolon]
  rw [simpleNativeType, nativeType_eq_iff]
  constructor
  · intro h n c hn hc
    exact (hclass hn hc).mp (h n hn)
  · intro h n hn
    obtain ⟨c, hc⟩ := NameMap.contains_iff_get?.mp (hknown n hn)
    exact (hclass hn hc).mpr (h n c hn hc)

end ParamType

/-! ### What a header declares -/

/-- Angle brackets and quotes tell the two kinds of headers apart. -/
theorem Include.text_injective : Function.Injective Include.text := by
  intro i j h
  rw [← String.toList_inj] at h
  cases i <;> cases j <;> simp_all [Include.text, String.toList_inj]

/-- An announcement is told apart from others by its line and the end of the line, which all have in
common. -/
theorem ForwardDecl.map_text_values (fs : List ForwardDecl) :
    let listed := (NameMap.ofList (fs.map fun f => (f.text ++ "\n", f))).values
    (listed.map text).Nodup ∧ ∀ line, line ∈ listed.map text ↔ line ∈ fs.map text := by
  intro listed
  have hending : Function.Injective fun line : String => line ++ "\n" :=
    fun _ _ h => (String.append_left_inj _).mp h
  have hmap : ∀ l : List ForwardDecl,
      (l.map text).map (fun line => line ++ "\n") = l.map fun f => f.text ++ "\n" :=
    fun _ => List.map_map
  constructor
  · refine List.Nodup.of_map (fun line => line ++ "\n") ?_
    rw [hmap]
    exact NameMap.nodup_map_values_ofList _ fs
  · intro line
    rw [← List.mem_map_of_injective hending, hmap, NameMap.mem_map_values_ofList, ← hmap,
      List.mem_map_of_injective hending]

namespace Interface

/-- The field that a parameter has. -/
def field (r : Registry) (q : Param) : Field := ⟨q.type.nativeType r.qualify, q.name⟩

/-- The class whose objects a parameter refers to, if there is one, has the announcement that comes
with the field. -/
theorem fieldOf?_ok {q : Param} {member : Field × Option ForwardDecl}
    (h : fieldOf? r q = .ok member) : member.1 = field r q
      ∧ ∀ f, member.2 = some f ↔ ∃ n target, q.type.objectName? = some n
        ∧ r.classes.get? n = some target ∧ f = .ofClass target := by
  rw [fieldOf?] at h
  rw [field]
  split at h
  · next hnone =>
    cases h
    have hspelled : q.type.simpleNativeType = q.type.nativeType r.qualify :=
      ParamType.nativeType_eq_iff.mpr (by simp [hnone])
    rw [hspelled]
    simp [hnone]
  · next className hclass =>
    obtain ⟨target, htarget, h⟩ := except_bind_eq_ok_iff.mp h
    cases h
    have hget := Registry.class?_eq_ok_iff.mp htarget
    have hspelled : ∀ n, q.type.objectName? = some n → target.qualifiedName = r.qualify n := by
      intro n hn
      cases hclass.symm.trans hn
      rw [Registry.qualify_of_get? hget]
    rw [← ParamType.nativeType_eq_iff.mpr hspelled]
    refine ⟨rfl, fun f => ⟨fun hf => ?_, ?_⟩⟩
    · exact ⟨className, target, hclass, hget, (Option.some.inj hf).symm⟩
    · rintro ⟨n, target', hn, htarget', rfl⟩
      cases hclass.symm.trans hn
      cases hget.symm.trans htarget'
      rfl

theorem mem_forwards_iff {ps : List Param} {members : List (Field × Option ForwardDecl)}
    (h : List.Forall₂ (fun q member => fieldOf? r q = .ok member) ps members) {f : ForwardDecl} :
    f ∈ members.filterMap (·.2) ↔ ∃ q ∈ ps, ∃ n target, q.type.objectName? = some n
      ∧ r.classes.get? n = some target ∧ f = .ofClass target := by
  rw [List.mem_filterMap]
  constructor
  · rintro ⟨member, hmember, hf⟩
    obtain ⟨q, hq, hok⟩ := exists_of_forall₂ h.flip hmember
    exact ⟨q, hq, ((fieldOf?_ok hok).2 f).mp hf⟩
  · rintro ⟨q, hq, hf⟩
    obtain ⟨member, hmember, hok⟩ := exists_of_forall₂ h hq
    exact ⟨member, hmember, ((fieldOf?_ok hok).2 f).mpr hf⟩

/-- The header of `c` announces the target: a parameter refers to it, or it is `c` itself, which has
a factory unless it is abstract. -/
def Announces (r : Registry) (c target : ConfigClass) : Prop :=
  (∃ q ∈ c.params, ∃ n, q.type.objectName? = some n ∧ r.classes.get? n = some target)
    ∨ c.isAbstract = false ∧ target = c

/-- What the header of a class has to do with the class. -/
structure Declares (r : Registry) (c : ConfigClass) (i : Interface) : Prop where
  className : i.className = c.name
  structName : i.structName = c.name ++ "Params"
  parent : i.parent = c.parent
  /-- Included is what the types of the parameters need, and in the root what a name needs. -/
  includes : ∀ inc, inc ∈ i.includes
    ↔ (∃ q ∈ c.params, inc ∈ q.type.includes) ∨ c.parent = none ∧ inc = .system "string"
  includes_nodup : i.includes.Nodup
  /-- Native classes can have one name, and then one line announces them. -/
  forwards : ∀ line, line ∈ i.forwards.map ForwardDecl.text
    ↔ ∃ target, Announces r c target ∧ (ForwardDecl.ofClass target).text = line
  forwards_nodup : (i.forwards.map ForwardDecl.text).Nodup
  factory : i.factory = if c.isAbstract then none else some c.qualifiedName
  fields : i.fields = c.params.map (field r)

/-- **What a header declares.** -/
theorem ofClass?_ok {i : Interface} (h : ofClass? r name = .ok i) :
    ∃ c, r.classes.get? name = some c ∧ Declares r c i := by
  rw [ofClass?] at h
  obtain ⟨c, hc, h⟩ := except_bind_eq_ok_iff.mp h
  obtain ⟨members, hmembers, h⟩ := except_bind_eq_ok_iff.mp h
  have hmember := forall₂_of_mapM_ok hmembers
  cases h
  refine ⟨c, Registry.class?_eq_ok_iff.mp hc,
    { className := rfl
      structName := rfl
      parent := rfl
      includes := fun inc => ?_
      includes_nodup := (NameMap.nodup_map_values_ofList _ _).of_map
      forwards := fun line => ?_
      forwards_nodup := (ForwardDecl.map_text_values _).1
      factory := rfl
      fields := ?_ }⟩
  · rw [← List.mem_map_of_injective Include.text_injective, NameMap.mem_map_values_ofList,
      List.mem_map_of_injective Include.text_injective, List.mem_append, List.mem_flatMap]
    cases c.parent <;> simp
  · rw [(ForwardDecl.map_text_values _).2, List.mem_map]
    simp only [List.mem_append, mem_forwards_iff hmember, Announces]
    split <;> grind
  · have hfields := hmember.imp fun _ _ h => (fieldOf?_ok h).1
    rw [← List.forall₂_eq_eq_eq, List.forall₂_map_left_iff, List.forall₂_map_right_iff]
    exact hfields.flip

/-- The lines of the fields, and what closes the header. -/
theorem Declares.fieldLines_eq {i : Interface} (h : Declares r c i) :
    i.fields.map Field.text ++ ["\x7d;", "", "#endif // " ++ i.guardMacro]
      = c.params.map (fun q => "    " ++ q.type.nativeType r.qualify ++ " " ++ q.name ++ ";")
        ++ ["\x7d;", "", "#endif // __PARAMS__" ++ c.name ++ "__"] := by
  have hguard : "#endif // " ++ i.guardMacro = "#endif // __PARAMS__" ++ c.name ++ "__" := by
    rw [guardMacro, h.className, ← String.append_assoc, ← String.append_assoc]
    rfl
  rw [h.fields, List.map_map, hguard]
  rfl

/-- A header ends with one field for each parameter that the class declares, in order. -/
theorem Declares.exists_text_eq {i : Interface} (h : Declares r c i) : ∃ opening, i.text
    = Text.unlines (opening
      ++ c.params.map (fun q => "    " ++ q.type.nativeType r.qualify ++ " " ++ q.name ++ ";")
      ++ ["\x7d;", "", "#endif // __PARAMS__" ++ c.name ++ "__"]) := by
  rw [text, lines, List.append_assoc, h.fieldLines_eq, ← List.append_assoc]
  exact ⟨_, rfl⟩

end Interface

/-! ### The type that a binding module declares -/

namespace Registry

/-- **When the field of a parameter has the type that is declared for it.** The declaration of a
registered type and the header of any class can be printed, and the header ends with a field for
each parameter. For the parameters of that type, the class has a field of the same type exactly if a
class in the type is native under its own name. -/
theorem discover_nativeType {host : ModuleTable} {d : Disk} {sources : List ScriptSource}
    {requested : List String} {env : BuildEnv} {className : String}
    (h : (discover host d sources requested env).1 = .ok r)
    (ht : r.paramTypes.get? name = some t) (hc : r.classes.get? className = some c) :
    Artifact.bindingText r name = .ok (Text.unlines
        [ParamType.stdVector, "%template(" ++ t.tag ++ ") " ++ t.simpleNativeType ++ ";"])
      ∧ ∃ i, Interface.ofClass? r className = .ok i ∧ i.fields = c.params.map (Interface.field r)
        ∧ (∃ opening, i.text = Text.unlines (opening
          ++ c.params.map (fun q =>
            "    " ++ (Interface.field r q).nativeType ++ " " ++ q.name ++ ";")
          ++ ["\x7d;", "", "#endif // __PARAMS__" ++ c.name ++ "__"]))
        ∧ ∀ q ∈ c.params, q.type = t →
          ((Interface.field r q).nativeType = t.simpleNativeType ↔ t.IsNativelyNamed r) := by
  obtain ⟨settings, modules, w, hw, hr⟩ := discover_ok h
  have hclosed := hr.isClosed hw.name_eq hw.root
  constructor
  · obtain ⟨e, rfl, -⟩ := hr.exists_vector ht
    rw [Artifact.bindingText, paramType?, ht]
    rfl
  · obtain ⟨i, hi⟩ := Interface.exists_ofClass?_ok hclosed hc
    obtain ⟨c', hc', hdeclares⟩ := Interface.ofClass?_ok hi
    cases hc.symm.trans hc'
    refine ⟨i, hi, hdeclares.fields, hdeclares.exists_text_eq, ?_⟩
    rintro q hq rfl
    have hid := ParamType.isIdentifier_of_ofText? (hr.ofText?_type_name hc hq)
    exact ParamType.nativeType_qualify_eq_iff hid (hclosed.params hc q hq).object

/-- The field has pointers to what is called `Net::NetPort`, and the declaration has pointers to
what is called `Port`, which is no native class. -/
theorem bridge_ports_mismatch :
    (discover bridgeHost (Disk.blank []) [] ["Bus"] sampleEnv).1 = .ok bridge
      ∧ Artifact.bindingText bridge "Vector<Port>" = .ok
        "%include \"std_vector.i\"\n%template(vector_Port) std::vector< Port * >;\n"
      ∧ (Interface.ofClass? bridge "Bus").map Interface.fields = .ok
        [⟨"std::vector< Net::NetPort * >", "ports"⟩,
          ⟨"std::vector< Enums::Speed >", "speeds"⟩] := by
  refine ⟨discover_bridgeHost, ?_, ?_⟩ <;> decide +kernel

theorem bridge_nativeType :
    (discover bridgeHost (Disk.blank []) [] ["Bus"] sampleEnv).1 = .ok bridge
      ∧ bridge.paramTypes.get? "Vector<Port>" = some (.vector (.object "Port"))
      ∧ ∃ c, bridge.classes.get? "Bus" = some c ∧ ∃ i, Interface.ofClass? bridge "Bus" = .ok i
        ∧ i.fields = c.params.map (Interface.field bridge)
        ∧ ∀ q ∈ c.params, q.type = .vector (.object "Port") →
          ((Interface.field bridge q).nativeType = "std::vector< Port * >"
            ↔ ParamType.IsNativelyNamed bridge (.vector (.object "Port"))) := by
  obtain ⟨c, hc⟩ := NameMap.contains_iff_get?.mp
    (show bridge.classes.contains "Bus" = true by decide)
  have ht : bridge.paramTypes.get? "Vector<Port>" = some (.vector (.object "Port")) := by decide
  obtain ⟨i, hi, hfields, -, hnative⟩ := (discover_nativeType discover_bridgeHost ht hc).2
  exact ⟨discover_bridgeHost, ht, c, hc, i, hi, hfields, hnative⟩

end Registry

end SimMetadata
