import SimMetadata.Proofs.Registry.Assembly

/-!
# A registry holds what the imported modules declare

Discovery follows edges that depend on what is known already: the module of a parent or of a
parameter's class is imported only while no class of that name has been declared. All the same, the
result can be told without the order of the walk. There are modules, closed under imports and each
reached from where discovery starts, and the registry holds exactly the classes and enumerations
that their manifests declare.

## Main definitions

* `Registry.DeclaredBy`: the registry holds exactly what some modules declare.

## Main results

* `Registry.discover_declaredBy`: the registry that discovery publishes is accounted for by the
  modules that discovery imports.

## Implementation notes

Manifests are those that the names of modules stand for at the beginning; loading does not change
them. Guards are looked up in the environment that is exposed, which a host may provide itself.
-/

namespace SimMetadata

namespace Registry

/-- The registry holds exactly what the given modules declare, where `source` gives the manifests
of modules. -/
structure DeclaredBy (source : String → Option Manifest) (settings : BuildEnv)
    (modules : List String) (r : Registry) : Prop where
  /-- No two classes are declared under one name. -/
  classNames_nodup :
    (((modules.filterMap source).flatMap Manifest.classes).map ClassDecl.name).Nodup
  /-- No two enumerations are declared under one name. -/
  enumNames_nodup : (((modules.filterMap source).flatMap Manifest.enums).map EnumDecl.name).Nodup
  /-- A class that is registered has been declared. -/
  class_declared : ∀ {name k}, r.classes.get? name = some k →
    ∃ m ∈ modules, ∃ mf, source m = some mf ∧ ∃ c ∈ mf.classes,
      c.name = name ∧ Declared.Describes settings r.enums.contains ⟨c, m⟩ k
  /-- A class that has been declared is registered. -/
  class_registered : ∀ {m mf c}, m ∈ modules → source m = some mf → c ∈ mf.classes →
    ∃ k, r.classes.get? c.name = some k ∧ Declared.Describes settings r.enums.contains ⟨c, m⟩ k
  /-- An enumeration that is registered has been declared. -/
  enum_declared : ∀ {name e}, r.enums.get? name = some e →
    ∃ m ∈ modules, ∃ mf, source m = some mf ∧ ∃ x ∈ mf.enums,
      x.name = name ∧ x.toEnumeration? = .ok e
  /-- An enumeration that has been declared is registered. -/
  enum_registered : ∀ {m mf x}, m ∈ modules → source m = some mf → x ∈ mf.enums →
    ∃ e, r.enums.get? x.name = some e ∧ x.toEnumeration? = .ok e

variable {l : Loader} {d : Disk} {requested modules : List String} {settings env : BuildEnv}
  {w : Walk} {r : Registry}

/-- What a walk has found is what the registry holds. -/
theorem Assembled.declaredBy (hr : Assembled w.classes w.enums settings r)
    (hw : Discovery.Explored l d requested settings modules w) :
    r.DeclaredBy (l.manifest? d) settings modules where
  classNames_nodup := hw.classNames_nodup
  enumNames_nodup := hw.enumNames_nodup
  class_declared := by
    intro name k hk
    obtain ⟨c, hc, hdescribes, -⟩ := hr.exists_declared hk
    obtain ⟨mf, hmf, hm, hdecl, hname⟩ := hw.get?_class_iff.mp hc
    exact ⟨c.moduleName, hm, mf, hmf, c.decl, hdecl, hname, hdescribes⟩
  class_registered := by
    intro m mf c hm hmf hc
    exact hr.exists_class (hw.get?_class_iff.mpr ⟨mf, hmf, hm, hc, rfl⟩)
  enum_declared := by
    intro name e he
    rw [hr.enums] at he
    exact hw.get?_enum_iff.mp he
  enum_registered := by
    intro m mf x hm hmf hx
    obtain ⟨e, hx', he⟩ := hw.exists_enum hm hmf hx
    rw [hr.enums]
    exact ⟨e, he, hx'⟩

end Registry

end SimMetadata
