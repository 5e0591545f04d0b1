import SimMetadata.Proofs.Registry.Hierarchy

/-!
# What a registry refers to is registered

While the walk goes on, the type of a parameter is read with the enumerations that are known so
far, and a name may be taken for a class that turns out to be an enumeration. Only the second
reading counts, with all enumerations known: it fails on a class that is not registered, so no
reference in a registry is left open.

## Main definitions

* `Registry.IsClosed`: every name that a registry refers to can be looked up in it.

## Main results

* `Registry.Assembled.isClosed`: what assembly puts together is closed.
-/

namespace SimMetadata

namespace Registry

/-- Every name that the registry refers to can be looked up in it. -/
structure IsClosed (r : Registry) : Prop extends r.IsTree where
  /-- What the parameters of a class refer to is registered. -/
  params : ∀ {name c}, r.classes.get? name = some c →
    ∀ q ∈ c.params, q.type.Known r.enums.contains r.classes.contains
  /-- So is what the inherited parameters refer to. -/
  allParams : ∀ name, ∀ q ∈ r.paramsOf name, q.type.Known r.enums.contains r.classes.contains
  /-- The classes can be listed with parents first. -/
  order : ∃ ordered, r.order r.classes.keys = .ok ordered
  /-- The types that need a binding are found by their names. -/
  paramTypes : ∀ {name t}, r.paramTypes.get? name = some t → t.name = name

variable {declared : NameMap Declared} {enums : NameMap Enumeration} {env : BuildEnv}
  {r : Registry} {name : String}

/-- An inherited parameter is declared by a class that is registered as well. -/
theorem Assembled.exists_declaring_class (h : Assembled declared enums env r) (htree : r.IsTree)
    {q : Param} (hq : q ∈ r.paramsOf name) :
    ∃ className c, r.classes.get? className = some c ∧ q ∈ c.params := by
  obtain ⟨ordered, hordered, hall⟩ := h.allParams
  obtain ⟨hfirst, -⟩ := Linearization.linearize_ok htree.name_eq hordered
  rw [paramsOf, hall] at hq
  cases hps : (flattenParams ordered).get? name with
  | none => rw [hps] at hq; cases hq
  | some ps =>
    rw [hps] at hq
    obtain ⟨c, hc, hqc⟩ := mem_params_of_mem_flattenParams ordered name ps hps q hq
    exact ⟨c.name, c, hfirst.registered hc, hqc⟩

/-- **What assembly puts together is closed.** Inherited parameters need no argument of their own,
because they are parameters of classes that are registered as well. -/
theorem Assembled.isClosed (h : Assembled declared enums env r)
    (hkeyed : ∀ {name c}, declared.get? name = some c → c.decl.name = name)
    (hroot : declared.contains rootClass = true) : r.IsClosed := by
  have htree := h.isTree hkeyed hroot
  have hparams : ∀ {name c}, r.classes.get? name = some c →
      ∀ q ∈ c.params, q.type.Known r.enums.contains r.classes.contains := by
    intro name c hc
    obtain ⟨_, _, _, hknown⟩ := h.exists_declared hc
    exact hknown
  obtain ⟨ordered, hordered, -⟩ := h.allParams
  refine ⟨htree, hparams, fun name q hq => ?_, ⟨ordered, hordered⟩, fun {name t} ht => ?_⟩
  · obtain ⟨className, c, hc, hqc⟩ := h.exists_declaring_class htree hq
    exact hparams hc q hqc
  · rw [h.paramTypes] at ht
    exact (of_get?_bindingTypes _ ht).1

/-- The registry that discovery publishes is closed. -/
theorem isClosed_of_discover {host : ModuleTable} {d : Disk} {sources : List ScriptSource}
    {requested : List String} (h : (discover host d sources requested env).1 = .ok r) :
    r.IsClosed := by
  obtain ⟨settings, modules, w, hw, hr⟩ := discover_ok h
  exact hr.isClosed hw.name_eq hw.root

end Registry

end SimMetadata
