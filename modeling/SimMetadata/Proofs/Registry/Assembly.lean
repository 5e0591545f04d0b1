import SimMetadata.Proofs.Discovery.Explore
import SimMetadata.Proofs.Registry.Linearization
import SimMetadata.Registry.Assembly

/-!
# What assembly puts together

Resolving a declaration either fails or changes nothing about it but its form. `Declared.Describes`
says what the class looks like that a declared class becomes. The parameters that a class has in
the end, inherited ones included, are taken from the classes, and the types that need a binding are
taken from the parameters; nothing is made up on the way.

## Main definitions

* `ParamDecl.isActive`, `ParamDecl.Describes`, `Declared.Describes`: what declarations become.
* `Registry.Assembled`: what a registry has to do with the declarations behind it.

## Main results

* `Declared.resolve?_ok`: what resolving a declared class gives.
* `mem_params_of_mem_flattenParams`: every parameter of a class is a parameter of a class itself.
* `Registry.of_get?_bindingTypes`, `Registry.contains_bindingTypes`: the types that need a binding
  are found by their names.
* `Registry.discover_ok_walk`, `Registry.discover_ok`: what a registry is made from.
-/

namespace SimMetadata

variable {env : BuildEnv} {isEnum isClass : String → Bool} {className name : String}

/-! ### Declarations -/

namespace ParamDecl

/-- The guard of a parameter, if it has one, is a setting that enables it. -/
def isActive (env : BuildEnv) (p : ParamDecl) : Bool :=
  match p.guardKey with
  | none => true
  | some key => (env.get? key).any EnvValue.isTruthy

theorem isActive_eq_true {p : ParamDecl}
    (hknown : ∀ key, p.guardKey = some key → ∃ value, env.get? key = some value)
    (htruthy : ∀ key value, p.guardKey = some key → env.get? key = some value →
      value.isTruthy = true) : p.isActive env = true := by
  rw [isActive]
  split
  · rfl
  · next key hkey =>
    obtain ⟨value, hvalue⟩ := hknown key hkey
    rw [hvalue]
    exact htruthy key value hkey hvalue

/-- The parameter that a declared one becomes: the same name, description and default, and the
type that its text describes. -/
structure Describes (isEnum : String → Bool) (p : ParamDecl) (q : Param) : Prop where
  name : q.name = p.name
  type : ParamType.ofText? isEnum p.type = some q.type
  desc : q.desc = p.desc
  default : q.default = p.default

variable {p : ParamDecl} {q q' : Param}

/-- A declared parameter becomes one parameter only. -/
theorem Describes.unique (h : p.Describes isEnum q) (h' : p.Describes isEnum q') : q = q' := by
  obtain ⟨name, type, desc, default⟩ := q
  obtain ⟨name', type', desc', default'⟩ := q'
  obtain rfl : name = name' := h.name.trans h'.name.symm
  obtain rfl : type = type' := Option.some_inj.mp (h.type.symm.trans h'.type)
  obtain rfl : desc = desc' := h.desc.trans h'.desc.symm
  obtain rfl : default = default' := h.default.trans h'.default.symm
  rfl

theorem enabled?_ok {b : Bool} (h : p.enabled? env className = .ok b) :
    b = p.isActive env ∧ ∀ key, p.guardKey = some key → ∃ value, env.get? key = some value := by
  rw [enabled?] at h
  rw [isActive]
  cases hguard : p.guardKey with
  | none =>
    rw [hguard] at h
    cases h
    exact ⟨rfl, by simp⟩
  | some key =>
    rw [hguard] at h
    cases hvalue : env.get? key with
    | none =>
      simp only [hvalue] at h
      cases h
    | some value =>
      simp only [hvalue] at h
      cases h
      refine ⟨by simp [hvalue], ?_⟩
      rintro _ ⟨⟩
      exact ⟨value, hvalue⟩

theorem resolve?_ok (h : p.resolve? isEnum isClass className = .ok q) :
    p.Describes isEnum q ∧ q.type.Known isEnum isClass := by
  rw [resolve?] at h
  split at h
  · cases h
  · next type htype =>
    split at h
    · next hclass =>
      cases h
      refine ⟨⟨rfl, htype, rfl, rfl⟩, fun n hn => ?_, fun n hn => ?_⟩
      · have hn : type.objectName? = some n := hn
        rwa [hn] at hclass
      · exact ParamType.isEnum_of_ofText? htype hn
    · cases h

theorem enabled?_error {f : Failure} (h : p.enabled? env className = .error f) :
    ∃ key, p.guardKey = some key ∧ env.get? key = none
      ∧ f = .unknownEnvKey className p.name key := by
  rw [enabled?] at h
  split at h
  · cases h
  · next key hkey =>
    split at h
    · cases h
    · next hnone =>
      cases h
      exact ⟨key, hkey, hnone, rfl⟩

theorem resolve?_error {f : Failure} (h : p.resolve? isEnum isClass className = .error f) :
    f = .invalidParamType className p.name p.type
      ∨ f = .unknownParamClass className p.name p.type := by
  rw [resolve?] at h
  split at h
  · cases h
    exact .inl rfl
  · split at h
    · cases h
    · cases h
      exact .inr rfl

end ParamDecl

theorem resolveParams?_ok {ps : List ParamDecl} {qs : List Param}
    (h : resolveParams? env isEnum isClass className ps = .ok qs) :
    List.Forall₂ (ParamDecl.Describes isEnum) (ps.filter (ParamDecl.isActive env)) qs
      ∧ (∀ p ∈ ps, ∀ key, p.guardKey = some key → ∃ value, env.get? key = some value)
      ∧ ∀ q ∈ qs, q.type.Known isEnum isClass := by
  induction ps generalizing qs with
  | nil =>
    cases h
    exact ⟨.nil, by simp, by simp⟩
  | cons p ps ih =>
    rw [resolveParams?] at h
    obtain ⟨b, henabled, h⟩ := except_bind_eq_ok_iff.mp h
    obtain ⟨hb, hguard⟩ := ParamDecl.enabled?_ok henabled
    cases b with
    | false =>
      obtain ⟨hparams, hguards, hknown⟩ := ih h
      refine ⟨?_, List.forall_mem_cons.mpr ⟨hguard, hguards⟩, hknown⟩
      rwa [List.filter_cons_of_neg (by simp [← hb])]
    | true =>
      obtain ⟨q, hq, h⟩ := except_bind_eq_ok_iff.mp h
      obtain ⟨qs', hqs, h⟩ := except_bind_eq_ok_iff.mp h
      cases h
      obtain ⟨hdescribes, hknown⟩ := ParamDecl.resolve?_ok hq
      obtain ⟨hparams, hguards, hothers⟩ := ih hqs
      refine ⟨?_, List.forall_mem_cons.mpr ⟨hguard, hguards⟩,
        List.forall_mem_cons.mpr ⟨hknown, hothers⟩⟩
      rw [List.filter_cons_of_pos hb.symm]
      exact .cons hdescribes hparams

/-- Resolving some parameters fails at one of them. -/
theorem resolveParams?_error {ps : List ParamDecl} {f : Failure}
    (h : resolveParams? env isEnum isClass className ps = .error f) :
    ∃ p ∈ ps, p.enabled? env className = .error f
      ∨ p.resolve? isEnum isClass className = .error f := by
  induction ps with
  | nil => cases h
  | cons p ps ih =>
    have hlater : resolveParams? env isEnum isClass className ps = .error f →
        ∃ q ∈ p :: ps, q.enabled? env className = .error f
          ∨ q.resolve? isEnum isClass className = .error f := fun h => by
      obtain ⟨q, hq, hfail⟩ := ih h
      exact ⟨q, List.mem_cons_of_mem _ hq, hfail⟩
    rw [resolveParams?] at h
    rcases except_bind_eq_error_iff.mp h with h | ⟨b, -, h⟩
    · exact ⟨p, List.mem_cons_self, .inl h⟩
    · cases b with
      | false => exact hlater h
      | true =>
        rcases except_bind_eq_error_iff.mp h with h | ⟨q, -, h⟩
        · exact ⟨p, List.mem_cons_self, .inr h⟩
        · rcases except_bind_eq_error_iff.mp h with h | ⟨qs, -, h⟩
          · exact hlater h
          · cases h

namespace Declared

/-- The class that a declared one becomes. Its parameters are those that are active, in the order
in which they are declared, and every guard is a setting. -/
structure Describes (env : BuildEnv) (isEnum : String → Bool) (c : Declared) (k : ConfigClass) :
    Prop where
  name : k.name = c.decl.name
  parent : k.parent = c.decl.effectiveParent?
  params : List.Forall₂ (ParamDecl.Describes isEnum)
    (c.decl.params.filter (ParamDecl.isActive env)) k.params
  guards : ∀ p ∈ c.decl.params, ∀ key, p.guardKey = some key → ∃ value, env.get? key = some value
  «namespace» : k.namespace = c.decl.namespace
  nativeName : k.nativeName = c.decl.nativeName.getD c.decl.name
  customDecl : k.customDecl = c.decl.customDecl
  isAbstract : k.isAbstract = c.decl.isAbstract
  moduleName : k.moduleName = c.moduleName

namespace Describes

variable {isEnum' : String → Bool} {c : Declared} {k k' : ConfigClass}

/-- A declared class becomes one class only. -/
theorem unique (h : c.Describes env isEnum k) (h' : c.Describes env isEnum k') : k = k' := by
  have hunique : Relator.RightUnique (ParamDecl.Describes isEnum) := fun _ _ _ h h' => h.unique h'
  have hparams : k.params = k'.params := hunique.forall₂ h.params h'.params
  obtain ⟨_, _, _, _, _, _, _, _⟩ := k
  obtain ⟨_, _, _, _, _, _, _, _⟩ := k'
  rw [ConfigClass.mk.injEq]
  exact ⟨h.name.trans h'.name.symm, h.parent.trans h'.parent.symm, hparams,
    h.namespace.trans h'.namespace.symm, h.nativeName.trans h'.nativeName.symm,
    h.customDecl.trans h'.customDecl.symm, h.isAbstract.trans h'.isAbstract.symm,
    h.moduleName.trans h'.moduleName.symm⟩

/-- Other enumerations make no difference if the types of the parameters are read alike. -/
theorem congr (h : c.Describes env isEnum k)
    (hread : ∀ q ∈ k.params, ∀ text, ParamType.ofText? isEnum text = some q.type →
      ParamType.ofText? isEnum' text = some q.type) : c.Describes env isEnum' k := by
  have hparams := ((List.forall₂_and_left k.params _).mpr ⟨hread, h.params.flip⟩).flip
  exact { h with
    params := hparams.imp fun p q hq => { hq.2 with type := hq.1 p.type hq.2.type } }

/-- Every active parameter becomes one of the class. -/
theorem exists_param (h : c.Describes env isEnum k) {p : ParamDecl} (hp : p ∈ c.decl.params)
    (hactive : p.isActive env = true) : ∃ q ∈ k.params, p.Describes isEnum q :=
  exists_of_forall₂ h.params (List.mem_filter.mpr ⟨hp, hactive⟩)

/-- Every parameter of the class comes from a declared one. -/
theorem exists_paramDecl (h : c.Describes env isEnum k) {q : Param} (hq : q ∈ k.params) :
    ∃ p ∈ c.decl.params, p.Describes isEnum q := by
  obtain ⟨p, hp, hdescribes⟩ := exists_of_forall₂ h.params.flip hq
  exact ⟨p, List.mem_of_mem_filter hp, hdescribes⟩

end Describes

/-- **What resolving a declared class gives.** -/
theorem resolve?_ok {c : Declared} {k : ConfigClass} (h : c.resolve? env isEnum isClass = .ok k) :
    c.Describes env isEnum k ∧ ∀ q ∈ k.params, q.type.Known isEnum isClass := by
  rw [resolve?] at h
  obtain ⟨params, hparams, h⟩ := except_bind_eq_ok_iff.mp h
  cases h
  obtain ⟨hparams, hguards, hknown⟩ := resolveParams?_ok hparams
  exact ⟨⟨rfl, rfl, hparams, hguards, rfl, rfl, rfl, rfl, rfl⟩, hknown⟩

/-- Resolving a declared class fails at one of its parameters, and the failure names both. -/
theorem resolve?_error {c : Declared} {f : Failure}
    (h : c.resolve? env isEnum isClass = .error f) :
    ∃ p ∈ c.decl.params, (∃ key, f = .unknownEnvKey c.decl.name p.name key)
      ∨ f = .invalidParamType c.decl.name p.name p.type
      ∨ f = .unknownParamClass c.decl.name p.name p.type := by
  rw [resolve?] at h
  rcases except_bind_eq_error_iff.mp h with h | ⟨params, -, h⟩
  · obtain ⟨p, hp, h | h⟩ := resolveParams?_error h
    · obtain ⟨key, -, -, rfl⟩ := ParamDecl.enabled?_error h
      exact ⟨p, hp, .inl ⟨key, rfl⟩⟩
    · exact ⟨p, hp, .inr (ParamDecl.resolve?_error h)⟩
  · cases h

end Declared

/-! ### Inherited parameters -/

theorem mem_overrideParam {p q : Param} {ps : List Param} (h : q ∈ overrideParam p ps) :
    q = p ∨ q ∈ ps := by
  induction ps with
  | nil => exact .inl (List.mem_singleton.mp h)
  | cons p' ps ih =>
    rw [overrideParam] at h
    split at h
    · exact (List.mem_cons.mp h).imp_right (List.mem_cons_of_mem _)
    · rcases List.mem_cons.mp h with rfl | h
      · exact .inr List.mem_cons_self
      · exact (ih h).imp_right (List.mem_cons_of_mem _)

theorem mem_overrideParams {q : Param} {inherited locals : List Param}
    (h : q ∈ overrideParams inherited locals) : q ∈ inherited ∨ q ∈ locals := by
  rw [overrideParams] at h
  induction locals generalizing inherited with
  | nil => exact .inl h
  | cons p locals ih =>
    rcases ih h with h | h
    · rcases mem_overrideParam h with rfl | h
      · exact .inr List.mem_cons_self
      · exact .inl h
    · exact .inr (List.mem_cons_of_mem _ h)

/-- Every parameter that a class ends up with is declared by a class that is listed. The fold keeps
this for the classes that are done. -/
theorem mem_params_of_mem_flattenParams (ordered : List ConfigClass) :
    ∀ name ps, (flattenParams ordered).get? name = some ps →
      ∀ q ∈ ps, ∃ c ∈ ordered, q ∈ c.params := by
  refine List.foldlRecOn (motive := fun done : NameMap (List Param) => ∀ name ps,
    done.get? name = some ps → ∀ q ∈ ps, ∃ c ∈ ordered, q ∈ c.params) ordered _ (by simp) ?_
  intro done hdone c hc name ps hps q hq
  rw [NameMap.get?_insert] at hps
  split at hps
  · cases hps
    rcases mem_overrideParams hq with hq | hq
    · cases hinherited : c.parent >>= done.get? with
      | none => rw [hinherited] at hq; cases hq
      | some inherited =>
        rw [hinherited] at hq
        obtain ⟨parent, -, hparent⟩ := Option.bind_eq_some_iff.mp hinherited
        exact hdone parent inherited hparent q hq
    · exact ⟨c, hc, hq⟩
  · exact hdone name ps hps q hq

namespace Registry

variable {declared : NameMap Declared} {enums : NameMap Enumeration} {r : Registry}

/-! ### The registry -/

/-- A type that needs a binding is found by its name, and it is the type of a parameter. -/
theorem of_get?_bindingTypes {t : ParamType} (params : List Param)
    (h : (bindingTypes params).get? name = some t) :
    t.name = name ∧ ∃ q ∈ params, q.type = t ∧ t.needsBinding = true := by
  have hfold : ∀ n t, (bindingTypes params).get? n = some t →
      t.name = n ∧ ∃ q ∈ params, q.type = t ∧ t.needsBinding = true := by
    refine List.foldlRecOn (motive := fun types : NameMap ParamType => ∀ n t,
      types.get? n = some t → t.name = n ∧ ∃ q ∈ params, q.type = t ∧ t.needsBinding = true)
      _ _ (by simp) ?_
    intro types htypes p hp n t ht
    rw [NameMap.get?_insertNew] at ht
    rcases Option.or_eq_some_iff.mp ht with ht | ⟨-, ht⟩
    · exact htypes n t ht
    · split at ht
      · next hn =>
        cases ht
        obtain ⟨hp, hneeds⟩ := List.mem_filter.mp hp
        exact ⟨hn.symm, p, hp, rfl, hneeds⟩
      · cases ht
  exact hfold name t h

/-- Every type that needs a binding is found. -/
theorem contains_bindingTypes {params : List Param} {q : Param} (hq : q ∈ params)
    (hneeds : q.type.needsBinding = true) :
    (bindingTypes params).contains q.type.name = true := by
  have hfold : ∀ (ps : List Param) (types : NameMap ParamType) (n : String),
      types.contains n = true ∨ (∃ p ∈ ps, p.type.name = n) →
        (ps.foldl (fun types p => types.insertNew p.type.name p.type) types).contains n = true := by
    intro ps
    induction ps with
    | nil => simp
    | cons p ps ih =>
      intro types n h
      refine ih _ n ?_
      rw [NameMap.contains_insertNew, Bool.or_eq_true, decide_eq_true_eq]
      rcases h with h | ⟨p', hp', hn⟩
      · exact .inl (.inl h)
      · rcases List.mem_cons.mp hp' with rfl | hp'
        · exact .inl (.inr hn.symm)
        · exact .inr ⟨p', hp', hn⟩
  exact hfold _ _ _ (.inr ⟨q, List.mem_filter.mpr ⟨hq, hneeds⟩, rfl⟩)

/-- What a registry has to do with the declarations that it is assembled from. -/
structure Assembled (declared : NameMap Declared) (enums : NameMap Enumeration) (env : BuildEnv)
    (r : Registry) : Prop where
  classes : declared.traverse (fun _ c => c.resolve? env enums.contains declared.contains)
    = .ok r.classes
  enums : r.enums = enums
  /-- The classes could be put in order, and the parameters are those that the order gives. -/
  allParams : ∃ ordered, linearize r.classes r.classes.keys = .ok ordered
    ∧ r.allParams = flattenParams ordered
  paramTypes : r.paramTypes = bindingTypes (r.classes.values.flatMap ConfigClass.params)

theorem assemble?_ok (h : assemble? declared enums env = .ok r) :
    Assembled declared enums env r := by
  rw [assemble?] at h
  obtain ⟨classes, hclasses, h⟩ := except_bind_eq_ok_iff.mp h
  obtain ⟨ordered, hordered, h⟩ := except_bind_eq_ok_iff.mp h
  cases h
  exact ⟨hclasses, rfl, ⟨ordered, hordered, rfl⟩, rfl⟩

/-- Assembly fails at a parameter of a class or when the classes are put in order. -/
theorem assemble?_error {f : Failure} (h : assemble? declared enums env = .error f) :
    (∃ name c, declared.get? name = some c
        ∧ c.resolve? env enums.contains declared.contains = .error f)
      ∨ ∃ n, f = .unknownClass n ∨ f = .inheritanceCycle n := by
  rw [assemble?] at h
  rcases except_bind_eq_error_iff.mp h with h | ⟨classes, -, h⟩
  · exact .inl (NameMap.traverse_error h)
  · rcases except_bind_eq_error_iff.mp h with h | ⟨ordered, -, h⟩
    · exact .inr (Linearization.linearize_error h)
    · cases h

namespace Assembled

variable (h : Assembled declared enums env r)
include h

theorem contains_class : r.classes.contains name = declared.contains name :=
  NameMap.contains_traverse h.classes

/-- A class of the registry is what a declared one becomes, and what its parameters refer to is
registered. -/
theorem exists_declared {k : ConfigClass} (hk : r.classes.get? name = some k) :
    ∃ c, declared.get? name = some c ∧ c.Describes env r.enums.contains k
      ∧ ∀ q ∈ k.params, q.type.Known r.enums.contains r.classes.contains := by
  obtain ⟨c, hc, hresolve⟩ := NameMap.get?_of_traverse h.classes hk
  have hcontains : r.classes.contains = declared.contains := funext fun _ => h.contains_class
  rw [hcontains, h.enums]
  exact ⟨c, hc, Declared.resolve?_ok hresolve⟩

/-- A declared class becomes a class of the registry. -/
theorem exists_class {c : Declared} (hc : declared.get? name = some c) :
    ∃ k, r.classes.get? name = some k ∧ c.Describes env r.enums.contains k := by
  obtain ⟨k, hresolve, hk⟩ := NameMap.get?_traverse h.classes hc
  rw [h.enums]
  exact ⟨k, hk, (Declared.resolve?_ok hresolve).1⟩

/-- A type that is found by a name has that name, and it is the type of a parameter. -/
theorem of_get?_paramTypes {t : ParamType} (ht : r.paramTypes.get? name = some t) :
    t.name = name ∧ t.needsBinding = true
      ∧ ∃ className k, r.classes.get? className = some k ∧ ∃ q ∈ k.params, q.type = t := by
  rw [h.paramTypes] at ht
  obtain ⟨hname, q, hq, htype, hneeds⟩ := of_get?_bindingTypes _ ht
  obtain ⟨k, hk, hq⟩ := List.mem_flatMap.mp hq
  obtain ⟨className, hk⟩ := NameMap.mem_values.mp hk
  exact ⟨hname, hneeds, className, k, hk, q, hq, htype⟩

/-- Every type of a parameter that needs a binding is found. -/
theorem contains_paramTypes {k : ConfigClass} (hk : r.classes.get? name = some k) {q : Param}
    (hq : q ∈ k.params) (hneeds : q.type.needsBinding = true) :
    r.paramTypes.contains q.type.name = true := by
  rw [h.paramTypes]
  exact contains_bindingTypes
    (List.mem_flatMap.mpr ⟨k, NameMap.mem_values.mpr ⟨name, hk⟩, hq⟩) hneeds

/-- The type of a parameter is read from its own name. -/
theorem ofText?_type_name {k : ConfigClass} (hk : r.classes.get? name = some k) {q : Param}
    (hq : q ∈ k.params) :
    ParamType.ofText? r.enums.contains q.type.name = some q.type := by
  obtain ⟨c, -, hdescribes, -⟩ := h.exists_declared hk
  obtain ⟨p, -, hp⟩ := hdescribes.exists_paramDecl hq
  exact ParamType.ofText?_name hp.type

/-- Among the types of parameters, one name stands for one type. -/
theorem type_eq_of_name_eq {name' : String} {k k' : ConfigClass} {q q' : Param}
    (hk : r.classes.get? name = some k) (hq : q ∈ k.params)
    (hk' : r.classes.get? name' = some k') (hq' : q' ∈ k'.params)
    (hname : q.type.name = q'.type.name) : q.type = q'.type := by
  have hread := h.ofText?_type_name hk hq
  rw [hname, h.ofText?_type_name hk' hq'] at hread
  exact (Option.some_inj.mp hread).symm

end Assembled

/-- The loader that discovery starts with. -/
def initialLoader (host : ModuleTable) (sources : List ScriptSource) (env : BuildEnv) : Loader :=
  Loader.install host (sources.map fun s => (s.modpath, s.srcpath)) env

variable {host : ModuleTable} {d : Disk} {sources : List ScriptSource} {requested : List String}

/-- Discovery assembles what the walk leaves behind, with the environment that the walk answers. -/
theorem discover_fst (host : ModuleTable) (d : Disk) (sources : List ScriptSource)
    (requested : List String) (env : BuildEnv) :
    (discover host d sources requested env).1 =
      let walk := Discovery.outcome (Discovery.explore d requested)
        (Walk.start (initialLoader host sources env))
      walk.1 >>= assemble? walk.2.classes walk.2.enums := rfl

/-- **What a registry is made from**: from what a successful walk has found. -/
theorem discover_ok_walk (h : (discover host d sources requested env).1 = .ok r) :
    let l := initialLoader host sources env
    let w := (Discovery.outcome (Discovery.explore d requested) (Walk.start l)).2
    ∃ settings modules, Discovery.Explored l d requested settings modules w
      ∧ Assembled w.classes w.enums settings r := by
  rw [discover_fst] at h
  obtain ⟨settings, hanswer, h⟩ := except_bind_eq_ok_iff.mp h
  obtain ⟨modules, hw⟩ := Discovery.explore_ok (Prod.ext hanswer rfl)
  exact ⟨settings, modules, hw, assemble?_ok h⟩

theorem discover_ok (h : (discover host d sources requested env).1 = .ok r) :
    ∃ settings modules w,
      Discovery.Explored (initialLoader host sources env) d requested settings modules w
        ∧ Assembled w.classes w.enums settings r := by
  obtain ⟨settings, modules, hw, hr⟩ := discover_ok_walk h
  exact ⟨settings, modules, _, hw, hr⟩

/-! ### A small host

A host in which most of this happens: two modules import each other, the manifest of the root names
a parent, and a guarded parameter leads to a class that nothing else mentions. -/

def sampleHost : ModuleTable := NameMap.ofList
  [("runtime", .manifest ⟨"runtime.toml"⟩
      { imports := ["modes"]
        enums := []
        classes := [⟨"SimObject", some "Core", true, none, none, none, []⟩] }),
    ("modes", .manifest ⟨"modes.toml"⟩
      { imports := ["runtime"]
        enums := [⟨"Mode", [.bare "atomic", .explicit "timing" 4]⟩]
        classes := [] }),
    ("objects.Core", .manifest ⟨"core.toml"⟩
      { imports := []
        enums := []
        classes := [⟨"Core", none, false, some "cpu", none, none,
          [⟨"mode", "Mode", "", some "timing", none⟩,
            ⟨"ports", "Vector<Port>", "", none, some "TIMING"⟩,
            ⟨"tracer", "Tracer", "", none, some "TRACING"⟩]⟩] }),
    ("objects.Port", .manifest ⟨"port.toml"⟩
      { imports := []
        enums := []
        classes := [⟨"Port", none, false, none, none, none, []⟩] })]

def sampleEnv : BuildEnv := ⟨NameMap.ofList [("TIMING", .int 1), ("TRACING", .bool false)]⟩

/-- What discovery finds in the host when it is asked for one class. -/
def sample : Registry :=
  let core : List Param :=
    [⟨"mode", .plain (.enum "Mode"), "", some "timing"⟩,
      ⟨"ports", .vector (.object "Port"), "", none⟩]
  { classes := NameMap.ofList
      [("SimObject", ⟨"SimObject", none, [], none, "SimObject", none, true, "runtime"⟩),
        ("Core", ⟨"Core", some "SimObject", core, some "cpu", "Core", none, false,
          "objects.Core"⟩),
        ("Port", ⟨"Port", some "SimObject", [], none, "Port", none, false, "objects.Port"⟩)]
    allParams := NameMap.ofList [("SimObject", []), ("Core", core), ("Port", [])]
    enums := NameMap.ofList [("Mode", ⟨"Mode", [⟨"atomic", 0⟩, ⟨"timing", 4⟩]⟩)]
    paramTypes := NameMap.ofList [("Vector<Port>", .vector (.object "Port"))] }

theorem discover_sampleHost :
    (discover sampleHost (Disk.blank []) [] ["Core"] sampleEnv).1 = .ok sample := by
  decide +kernel

end Registry

end SimMetadata
