import SimMetadata.Proofs.Discovery.Progress
import SimMetadata.Proofs.Enumeration

/-!
# What discovery has found

When discovery succeeds there are modules that account for everything: they are closed under
imports, each is reached from where discovery starts, and what is known is exactly what their
manifests declare, with no name declared twice.

## Main definitions

* `Discovery.Starts`: where discovery starts.
* `Discovery.ImportClosure`: the modules that discovery imports.
* `Discovery.Explored`: they account for all that has been found.

## Main results

* `Discovery.explore_ok`: discovery that succeeds gives such an account.
* `Discovery.Explored.get?_class_iff`, `Discovery.Explored.get?_enum_iff`: what is known under a
  name is what some module of the account declares.
-/

namespace SimMetadata

namespace Discovery

variable {l : Loader} {d : Disk} {settings : BuildEnv} {requested modules : List String}
  {source : String → Option Manifest} {w w' : Walk} {name : String}

/-! ### The walk -/

/-- The environment that is exposed is what the name of its module stands for. -/
theorem exposedEnv_ok (h : outcome (exposedEnv d) w = (.ok settings, w')) :
    w.loader.standsFor? d envModule = .ok (some (.env settings))
      ∧ w' = { w with loader := (w.loader.load d envModule).2 } := by
  obtain ⟨found, w₁, hload, h⟩ := bind_eq_ok_iff.mp h
  rw [outcome_load] at hload
  rcases hanswer : w.loader.load d envModule with ⟨f | found', l'⟩
  · rw [hanswer] at hload
    cases hload
  · rw [hanswer] at hload
    cases hload
    split at h
    · cases h
      exact ⟨(Loader.load_ok hanswer).1, rfl⟩
    · cases h

/-- Where discovery starts: at the base module and at the modules of the requested classes. -/
def Starts (requested : List String) (name : String) : Prop :=
  name = baseModule ∨ ∃ className ∈ requested, name = objectModule className

/-- More requests are more places to start at. -/
theorem Starts.mono {requested' : List String} (h : Starts requested name)
    (hsub : requested ⊆ requested') : Starts requested' name :=
  h.imp_right fun ⟨className, hclass, hname⟩ => ⟨className, hsub hclass, hname⟩

/-- A walk that succeeds has completed all that it began, the base module among it, and the root
and all requested classes are declared. -/
theorem explore_completes (h : outcome (explore d requested) (Walk.start l) = (.ok settings, w)) :
    l.standsFor? d envModule = .ok (some (.env settings))
      ∧ Completes l d settings (Starts requested) (Walk.start l) w
      ∧ Imported l d w baseModule
      ∧ w.classes.contains rootClass = true
      ∧ ∀ n ∈ requested, w.classes.contains n = true := by
  obtain ⟨env, w₁, henv, h⟩ := bind_eq_ok_iff.mp h
  obtain ⟨hexposed, rfl⟩ := exposedEnv_ok henv
  obtain ⟨w₁', w₁'', hget, h⟩ := bind_eq_ok_iff.mp h
  cases hget
  obtain ⟨resolved, w₂, hbase, h⟩ := bind_eq_ok_iff.mp h
  obtain ⟨known, w₂', hknows, h⟩ := bind_eq_ok_iff.mp h
  cases hknows
  have hload : Progress l d env (Starts requested) [] [] (Walk.start l) _ := .load _ envModule
  have hready : Ready l d (Walk.start l).unimported.length (Walk.start l) :=
    ⟨.refl, l.resolvable.keys_nodup, Nat.le_refl _⟩
  have hvisits := visits_importModule l d env (Walk.start l).unimported.length
  have hready₁ := hready.progress hload
  have hstarts : Starts requested baseModule := .inl rfl
  obtain ⟨hfirst, himported⟩ := hvisits hready₁ hstarts hbase
  by_cases hroot : (resolved && w₂.classes.contains rootClass) = true
  · rw [if_pos hroot] at h
    obtain ⟨hresolved, hknown⟩ := Bool.and_eq_true_iff.mp hroot
    obtain ⟨⟨⟩, w₃, hrequested, h⟩ := bind_eq_ok_iff.mp h
    cases h
    have horigin : ∀ n ∈ (NameSet.ofNames requested).keys, Starts requested (objectModule n) :=
      fun n hn => .inr ⟨n, NameMap.mem_keys_ofNames.mp hn, rfl⟩
    obtain ⟨hsecond, hrequested⟩ :=
      importRequested_ok hvisits (hready₁.completes hfirst) horigin hrequested
    have hall : Completes l d settings (Starts requested) (Walk.start l) w :=
      Completes.trans ⟨_, _, hload, .refl _⟩ (hfirst.trans hsecond)
    exact ⟨hexposed, hall, (himported hresolved).mono hsecond.unimported_subset,
      hsecond.contains_class hknown, fun n hn => hrequested n (NameMap.mem_keys_ofNames.mpr hn)⟩
  · rw [if_neg hroot] at h
    cases h

/-! ### The account -/

/-- The modules that discovery imports, given the environment that is exposed. -/
structure ImportClosure (l : Loader) (d : Disk) (requested : List String) (settings : BuildEnv)
    (modules : List String) : Prop where
  exposed : l.standsFor? d envModule = .ok (some (.env settings))
  nodup : modules.Nodup
  resolved : ∀ m ∈ modules, ∃ x, l.standsFor? d m = .ok (some x)
  base : baseModule ∈ modules
  imports : ∀ m ∈ modules, ∀ mf, l.manifest? d m = some mf → mf.imports ⊆ modules
  reached : ∀ m ∈ modules, ∃ s, Starts requested s
    ∧ Relation.ReflTransGen (LeadsTo (l.manifest? d) settings) s m

/-- Those modules account for all that a successful walk has found. -/
structure Explored (l : Loader) (d : Disk) (requested : List String) (settings : BuildEnv)
    (modules : List String) (w : Walk) : Prop
    extends ImportClosure l d requested settings modules where
  classes : w.classes.entries.Perm (modules.flatMap (declaredClasses (l.manifest? d)))
  enums : (knownEnums w).Perm (modules.flatMap (declaredEnums (l.manifest? d)))
  root : w.classes.contains rootClass = true
  requested : ∀ n ∈ requested, w.classes.contains n = true

/-- **Discovery that succeeds can account for what it has found.** Everything that was imported
stands for a module, so it was among the names that might be imported when the walk began. -/
theorem explore_ok (h : outcome (explore d requested) (Walk.start l) = (.ok settings, w)) :
    ∃ modules, Explored l d requested settings modules w := by
  obtain ⟨hexposed, ⟨begun, done, hprogress, hperm⟩, hbase, hroot, hrequested⟩ :=
    explore_completes h
  have hunimported : l.resolvable.keys.Perm (begun ++ w.unimported) := hprogress.unimported
  have hdone : ∀ {name}, Imported l d w name → name ∈ done := by
    rintro name ⟨⟨m, hm⟩, hnot⟩
    have hmem := hunimported.subset (Loader.mem_resolvable hm)
    exact hperm.subset ((List.mem_append.mp hmem).resolve_right hnot)
  refine ⟨done,
    { exposed := hexposed
      nodup := ?_
      resolved := fun m hm => hprogress.resolved m (hperm.symm.subset hm)
      base := hdone hbase
      imports := fun m hm mf hmf i hi => hdone (hprogress.imports m hm mf hmf i hi)
      reached := fun m hm => hprogress.reached m (hperm.symm.subset hm)
      classes := hprogress.classes
      enums := hprogress.enums
      root := hroot
      requested := hrequested }⟩
  have hnodup := hunimported.nodup_iff.mp l.resolvable.keys_nodup
  exact hperm.nodup_iff.mp hnodup.of_append_left

/-! ### Names and what they stand for -/

theorem mem_declaredClasses {m : String} {c : Declared} :
    (name, c) ∈ declaredClasses source m ↔
      ∃ mf, source m = some mf ∧ c.decl ∈ mf.classes ∧ c.decl.name = name ∧ c.moduleName = m := by
  rw [declaredClasses]
  cases source m with
  | none => simp
  | some mf =>
    obtain ⟨decl, moduleName⟩ := c
    simp only [List.mem_map, Prod.mk.injEq, Declared.mk.injEq, Option.some.injEq, exists_eq_left']
    constructor
    · rintro ⟨c, hc, rfl, rfl, rfl⟩
      exact ⟨hc, rfl, rfl⟩
    · rintro ⟨hc, rfl, rfl⟩
      exact ⟨decl, hc, rfl, rfl, rfl⟩

theorem mem_declaredEnums {m : String} {e : Except Failure Enumeration} :
    (name, e) ∈ declaredEnums source m ↔
      ∃ mf, source m = some mf ∧ ∃ x ∈ mf.enums, x.name = name ∧ x.toEnumeration? = e := by
  rw [declaredEnums]
  cases source m with
  | none => simp
  | some mf => simp

theorem map_fst_declaredClasses (source : String → Option Manifest) (modules : List String) :
    (modules.flatMap (declaredClasses source)).map Prod.fst
      = ((modules.filterMap source).flatMap Manifest.classes).map ClassDecl.name := by
  induction modules with
  | nil => rfl
  | cons m modules ih =>
    rw [List.flatMap_cons, List.map_append, ih, List.filterMap_cons, declaredClasses]
    cases source m with
    | none => rfl
    | some mf => simp [Function.comp_def]

theorem map_fst_declaredEnums (source : String → Option Manifest) (modules : List String) :
    (modules.flatMap (declaredEnums source)).map Prod.fst
      = ((modules.filterMap source).flatMap Manifest.enums).map EnumDecl.name := by
  induction modules with
  | nil => rfl
  | cons m modules ih =>
    rw [List.flatMap_cons, List.map_append, ih, List.filterMap_cons, declaredEnums]
    cases source m with
    | none => rfl
    | some mf => simp [Function.comp_def]

namespace Explored

variable (hw : Explored l d requested settings modules w)
include hw

/-- What is known of a class is what some module declares. -/
theorem get?_class_iff {c : Declared} :
    w.classes.get? name = some c ↔
      ∃ mf, l.manifest? d c.moduleName = some mf ∧ c.moduleName ∈ modules
        ∧ c.decl ∈ mf.classes ∧ c.decl.name = name := by
  rw [NameMap.get?_eq_some_iff, hw.classes.mem_iff, List.mem_flatMap]
  simp only [mem_declaredClasses]
  constructor
  · rintro ⟨m, hm, mf, hmf, hc, hname, rfl⟩
    exact ⟨mf, hmf, hm, hc, hname⟩
  · rintro ⟨mf, hmf, hm, hc, hname⟩
    exact ⟨_, hm, mf, hmf, hc, hname, rfl⟩

/-- What is known of an enumeration is what some module declares. -/
theorem get?_enum_iff {e : Enumeration} :
    w.enums.get? name = some e ↔
      ∃ m ∈ modules, ∃ mf, l.manifest? d m = some mf
        ∧ ∃ x ∈ mf.enums, x.name = name ∧ x.toEnumeration? = .ok e := by
  have hknown : w.enums.get? name = some e ↔ (name, .ok e) ∈ knownEnums w := by
    rw [NameMap.get?_eq_some_iff, knownEnums, List.mem_map]
    constructor
    · exact fun h => ⟨_, h, rfl⟩
    · rintro ⟨⟨n, e'⟩, h, ⟨⟩⟩
      exact h
  rw [hknown, hw.enums.mem_iff, List.mem_flatMap]
  simp only [mem_declaredEnums]

/-- Every enumeration is known under its own name. -/
theorem enum_name_eq {e : Enumeration} (h : w.enums.get? name = some e) : e.name = name := by
  obtain ⟨_, _, _, _, x, _, rfl, he⟩ := hw.get?_enum_iff.mp h
  obtain ⟨-, rfl⟩ := EnumDecl.toEnumeration?_eq_ok_iff.mp he
  rfl

/-- Every enumeration that is declared is well-formed. -/
theorem exists_enum {m : String} {mf : Manifest} {x : EnumDecl} (hm : m ∈ modules)
    (hmf : l.manifest? d m = some mf) (hx : x ∈ mf.enums) :
    ∃ e, x.toEnumeration? = .ok e ∧ w.enums.get? x.name = some e := by
  have hmem : (x.name, x.toEnumeration?) ∈ knownEnums w :=
    hw.enums.symm.subset
      (List.mem_flatMap.mpr ⟨m, hm, mem_declaredEnums.mpr ⟨mf, hmf, x, hx, rfl, rfl⟩⟩)
  obtain ⟨⟨n, e⟩, he, heq⟩ := List.mem_map.mp hmem
  obtain ⟨rfl, heq⟩ := Prod.mk.inj heq
  exact ⟨e, heq.symm, NameMap.get?_eq_some_iff.mpr he⟩

/-- Every class is declared under its own name. -/
theorem name_eq {c : Declared} (h : w.classes.get? name = some c) : c.decl.name = name := by
  obtain ⟨_, _, _, _, hname⟩ := hw.get?_class_iff.mp h
  exact hname

/-- No two classes are declared under one name. -/
theorem classNames_nodup :
    (((modules.filterMap (l.manifest? d)).flatMap Manifest.classes).map ClassDecl.name).Nodup := by
  rw [← map_fst_declaredClasses]
  exact (hw.classes.map Prod.fst).nodup_iff.mp w.classes.keys_nodup

/-- No two enumerations are declared under one name. -/
theorem enumNames_nodup :
    (((modules.filterMap (l.manifest? d)).flatMap Manifest.enums).map EnumDecl.name).Nodup := by
  have hkeys : (knownEnums w).map Prod.fst = w.enums.keys := by
    rw [knownEnums, List.map_map]
    rfl
  rw [← map_fst_declaredEnums]
  refine (hw.enums.map Prod.fst).nodup_iff.mp ?_
  rw [hkeys]
  exact w.enums.keys_nodup

end Explored

end Discovery

end SimMetadata
