import SimMetadata.Proofs.Registry.Assembly

/-!
# The classes of a registry form a tree

Three phases of discovery contribute to this. A class is declared under its own name, and every
class but the root gets a parent when its declaration is resolved. The walk sees to it that the
root is declared. That every other class leads up to the root is known only at the end, because
all classes could be listed with parents first.

## Main definitions

* `Registry.IsTree`: the classes are a tree with the root class at its root.

## Main results

* `Registry.Assembled.isTree`: what assembly puts together is a tree.
* `Registry.discover_isTree`: the classes that discovery publishes are a tree, and the requested
  classes are among them.
-/

namespace SimMetadata

/-- The root derives from no class, and every other class from one. -/
theorem ClassDecl.effectiveParent?_eq_none_iff {c : ClassDecl} :
    c.effectiveParent? = none ↔ c.name = rootClass := by
  rw [effectiveParent?]
  split
  · next h => simp [h]
  · next h => simp [h]

namespace Registry

open Linearization (ancestor?)

/-- The classes are a tree with the root class at its root. -/
structure IsTree (r : Registry) : Prop where
  /-- Every class is registered under its own name. -/
  name_eq : ∀ {name c}, r.classes.get? name = some c → c.name = name
  /-- There is a root. -/
  root : r.classes.contains rootClass = true
  /-- The root and no other class is without a parent. -/
  parent_eq_none_iff : ∀ {name c}, r.classes.get? name = some c →
    (c.parent = none ↔ name = rootClass)
  /-- Parents are registered. -/
  parent : ∀ {name c p}, r.classes.get? name = some c → c.parent = some p →
    r.classes.contains p = true
  /-- Following parents from any class leads to the root. -/
  reaches_root : ∀ {name}, r.classes.contains name = true →
    ∃ steps, ancestor? r.classes steps name = some rootClass

variable {declared : NameMap Declared} {enums : NameMap Enumeration} {env : BuildEnv}
  {r : Registry}

/-- **What assembly puts together is a tree**, if every class was declared under its own name and
the root was declared. -/
theorem Assembled.isTree (h : Assembled declared enums env r)
    (hkeyed : ∀ {name c}, declared.get? name = some c → c.decl.name = name)
    (hroot : declared.contains rootClass = true) : r.IsTree := by
  have hname : ∀ {name k}, r.classes.get? name = some k → k.name = name := by
    intro name k hk
    obtain ⟨c, hc, hdescribes, -⟩ := h.exists_declared hk
    rw [hdescribes.name, hkeyed hc]
  have hparentless : ∀ {name k}, r.classes.get? name = some k →
      (k.parent = none ↔ name = rootClass) := by
    intro name k hk
    obtain ⟨c, hc, hdescribes, -⟩ := h.exists_declared hk
    rw [hdescribes.parent, ClassDecl.effectiveParent?_eq_none_iff, hkeyed hc]
  obtain ⟨ordered, hordered, -⟩ := h.allParams
  obtain ⟨hfirst, -⟩ := Linearization.linearize_ok hname hordered
  have hmem : ∀ {name k}, r.classes.get? name = some k → k ∈ ordered :=
    Linearization.mem_of_linearize_keys hname hordered
  refine ⟨hname, h.contains_class.trans hroot, hparentless, fun {name k p} hk hp => ?_,
    fun {name} hcontains => ?_⟩
  · obtain ⟨k', hk', rfl⟩ := List.mem_map.mp (hfirst.parent_mem (hmem hk) hp)
    exact NameMap.contains_of_get? (hfirst.registered hk')
  · obtain ⟨k, hk⟩ := NameMap.contains_iff_get?.mp hcontains
    obtain ⟨steps, top, hsteps, htop, hnone⟩ := hfirst.exists_ancestor (hmem hk)
    rw [hname hk, (hparentless htop).mp hnone] at hsteps
    exact ⟨steps, hsteps⟩

/-- **The classes that discovery publishes are a tree**, and every requested class is among them. -/
theorem discover_isTree {host : ModuleTable} {d : Disk} {sources : List ScriptSource}
    {requested : List String} (h : (discover host d sources requested env).1 = .ok r) :
    r.IsTree ∧ ∀ name ∈ requested, r.classes.contains name = true := by
  obtain ⟨settings, modules, w, hw, hr⟩ := discover_ok h
  refine ⟨hr.isTree hw.name_eq hw.root, fun name hname => ?_⟩
  rw [hr.contains_class]
  exact hw.requested name hname

theorem sample_isTree :
    (discover sampleHost (Disk.blank []) [] ["Core"] sampleEnv).1 = .ok sample
      ∧ sample.IsTree ∧ ∀ name ∈ ["Core"], sample.classes.contains name = true :=
  ⟨discover_sampleHost, discover_isTree discover_sampleHost⟩

end Registry

end SimMetadata
