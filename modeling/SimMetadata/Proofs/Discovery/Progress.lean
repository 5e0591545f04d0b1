import Mathlib.Logic.Relation
import SimMetadata.Proofs.Discovery.Outcome
import SimMetadata.Proofs.ParamType

/-!
# What a successful walk declares

A walk that succeeds is described by two lists of modules: those whose import it began and those
that it declared. `Progress` keeps the books over both. Everything that the walk knows afterwards
comes from before or from the manifests of the declared modules, each counted once, and every
module begun can be reached from where the walk started. While one module is being imported the
lists differ by that module, since modules may import each other in a circle; once the import is
over they agree up to order.

## Main definitions

* `Discovery.LeadsTo`: when the import of one module may begin the import of another.
* `Discovery.Progress`: the books; `Discovery.Completes` when every import begun is over.
* `Discovery.Visits`: what the functions over lists ask of the import of one module.

## Main results

* `Discovery.register_ok`: what registering a manifest does to the books.
* `Discovery.visits_importModule`: importing a module completes what it begins.

## Implementation notes

What a name stands for does not change during the walk (`Loader.Loads.standsFor?_eq`), so the
manifests are those that the first loader `l` finds. The bound of `importModule` counts the modules
that may still be begun. `Ready` says that it suffices, and with the bound used up every name that
stands for a module has been begun.
-/

namespace SimMetadata

/-! ### Which modules lead to which -/

namespace Discovery

/-- The import of one module may begin the import of another: because its manifest names it, or
declares a class whose parent is to be found there, or declares a parameter whose type refers to a
class that is to be found there and whose guard is no setting that disables it. -/
inductive LeadsTo (source : String → Option Manifest) (env : BuildEnv) (m : String) :
    String → Prop where
  | named {mf : Manifest} {name : String} (hm : source m = some mf) (h : name ∈ mf.imports) :
    LeadsTo source env m name
  | parent {mf : Manifest} {c : ClassDecl} {parent : String} (hm : source m = some mf)
    (hc : c ∈ mf.classes) (hp : c.effectiveParent? = some parent) :
    LeadsTo source env m (objectModule parent)
  | referred {mf : Manifest} {c : ClassDecl} {p : ParamDecl} {className : String}
    (hm : source m = some mf) (hc : c ∈ mf.classes) (hp : p ∈ c.params)
    (guard : ∀ key value, p.guardKey = some key → env.get? key = some value →
      value.isTruthy = true)
    (hn : ParamType.referredName? p.type = some className) :
    LeadsTo source env m (objectModule className)

/-- Only a module with a manifest leads on. -/
theorem LeadsTo.exists_manifest {source : String → Option Manifest} {env : BuildEnv}
    {m name : String} (h : LeadsTo source env m name) : ∃ mf, source m = some mf := by
  cases h with
  | named hm _ => exact ⟨_, hm⟩
  | parent hm _ _ => exact ⟨_, hm⟩
  | referred hm _ _ _ _ => exact ⟨_, hm⟩

theorem isEnabled_iff {env : BuildEnv} {p : ParamDecl} :
    isEnabled env p = true ↔
      ∀ key value, p.guardKey = some key → env.get? key = some value → value.isTruthy = true := by
  rw [isEnabled]
  constructor
  · intro h key value hkey hvalue
    rwa [hkey, Option.bind_eq_bind, Option.bind_some, hvalue] at h
  · intro h
    split
    · next value hvalue =>
      obtain ⟨key, hkey, hvalue⟩ := Option.bind_eq_some_iff.mp hvalue
      exact h key value hkey hvalue
    · rfl

/-- Every class that the walk goes after for the sake of a parameter is one that the manifest leads
to. -/
theorem leadsTo_of_mem_referredClasses {source : String → Option Manifest} {env : BuildEnv}
    {isEnum : String → Bool} {m className : String} {mf : Manifest} (hm : source m = some mf)
    (h : className ∈ referredClasses env isEnum mf.classes) :
    LeadsTo source env m (objectModule className) := by
  rw [referredClasses, List.mem_filterMap] at h
  obtain ⟨p, hp, hname⟩ := h
  obtain ⟨c, hc, hp⟩ := List.mem_flatMap.mp hp
  split at hname
  · next henabled =>
    obtain ⟨t, ht, hn⟩ := Option.bind_eq_some_iff.mp hname
    exact .referred hm hc hp (isEnabled_iff.mp henabled) (ParamType.referredName?_of_ofText? ht hn)
  · cases hname

/-! ### The books -/

/-- What a module declares: its classes, by name. -/
def declaredClasses (source : String → Option Manifest) (m : String) : List (String × Declared) :=
  match source m with
  | some mf => mf.classes.map fun c => (c.name, ⟨c, m⟩)
  | none => []

/-- What a module declares: its enumerations, by name. -/
def declaredEnums (source : String → Option Manifest) (m : String) :
    List (String × Except Failure Enumeration) :=
  match source m with
  | some mf => mf.enums.map fun e => (e.name, e.toEnumeration?)
  | none => []

/-- The enumerations that the walk knows, as they come out of their declarations. -/
def knownEnums (w : Walk) : List (String × Except Failure Enumeration) :=
  w.enums.entries.map fun e => (e.1, .ok e.2)

variable {l : Loader} {d : Disk} {env : BuildEnv} {origin origin' : String → Prop}
  {begun done begun' done' : List String} {bound : ℕ} {visit : String → Discovery Bool}
  {w w' w'' : Walk} {name : String}

/-- A name that is left to import is one of those, and the others are the rest. -/
theorem perm_cons_filter_ne {names : List String} (hnames : names.Nodup) (h : name ∈ names) :
    names.Perm (name :: names.filter (· ≠ name)) := by
  have herase : names.filter (· ≠ name) = names.erase name := by
    rw [hnames.erase_eq_filter]
    refine List.filter_congr fun n _ => ?_
    by_cases hn : n = name <;> simp [hn]
  rw [herase]
  exact List.perm_cons_erase h

/-- The import of a module has begun. -/
def Imported (l : Loader) (d : Disk) (w : Walk) (name : String) : Prop :=
  (∃ m, l.standsFor? d name = .ok (some m)) ∧ name ∉ w.unimported

/-- What happens between two walks when nothing fails: the import of the modules `begun` begins,
and what the modules `done` declare becomes known. -/
structure Progress (l : Loader) (d : Disk) (env : BuildEnv) (origin : String → Prop)
    (begun done : List String) (w w' : Walk) : Prop where
  /-- The loader only loads. -/
  loads : w.loader.Loads d w'.loader
  /-- What has begun is not to be imported any more. -/
  unimported : w.unimported.Perm (begun ++ w'.unimported)
  /-- Each class is declared once. -/
  classes : w'.classes.entries.Perm
    (w.classes.entries ++ done.flatMap (declaredClasses (l.manifest? d)))
  /-- Each enumeration is declared once. -/
  enums : (knownEnums w').Perm (knownEnums w ++ done.flatMap (declaredEnums (l.manifest? d)))
  /-- Only names that stand for a module begin. -/
  resolved : ∀ m ∈ begun, ∃ x, l.standsFor? d m = .ok (some x)
  /-- Every module begun is reached from an origin. -/
  reached : ∀ m ∈ begun,
    ∃ s, origin s ∧ Relation.ReflTransGen (LeadsTo (l.manifest? d) env) s m
  /-- A module is done after all that it imports has begun. -/
  imports : ∀ m ∈ done, ∀ mf, l.manifest? d m = some mf → ∀ i ∈ mf.imports, Imported l d w' i

theorem Imported.mono (h : Imported l d w name) (hsub : w'.unimported ⊆ w.unimported) :
    Imported l d w' name :=
  ⟨h.1, fun hmem => h.2 (hsub hmem)⟩

namespace Progress

theorem refl (w : Walk) : Progress l d env origin [] [] w w where
  loads := .refl
  unimported := List.Perm.refl _
  classes := by simp
  enums := by simp
  resolved := by simp
  reached := by simp
  imports := by simp

theorem unimported_subset (h : Progress l d env origin begun done w w') :
    w'.unimported ⊆ w.unimported :=
  fun _ hm => h.unimported.symm.subset (List.mem_append_right _ hm)

theorem trans (h₁ : Progress l d env origin begun done w w')
    (h₂ : Progress l d env origin begun' done' w' w'') :
    Progress l d env origin (begun ++ begun') (done ++ done') w w'' where
  loads := h₁.loads.trans h₂.loads
  unimported := by
    rw [List.append_assoc]
    exact h₁.unimported.trans (h₂.unimported.append_left _)
  classes := by
    rw [List.flatMap_append, ← List.append_assoc]
    exact h₂.classes.trans (h₁.classes.append_right _)
  enums := by
    rw [List.flatMap_append, ← List.append_assoc]
    exact h₂.enums.trans (h₁.enums.append_right _)
  resolved m hm := (List.mem_append.mp hm).elim (h₁.resolved m) (h₂.resolved m)
  reached m hm := (List.mem_append.mp hm).elim (h₁.reached m) (h₂.reached m)
  imports m hm mf hmf i hi := by
    rcases List.mem_append.mp hm with hm | hm
    · exact (h₁.imports m hm mf hmf i hi).mono h₂.unimported_subset
    · exact h₂.imports m hm mf hmf i hi

/-- An origin may be replaced by one that leads to it. -/
theorem mono (h : Progress l d env origin begun done w w')
    (horigin : ∀ s, origin s →
      ∃ s', origin' s' ∧ Relation.ReflTransGen (LeadsTo (l.manifest? d) env) s' s) :
    Progress l d env origin' begun done w w' :=
  { h with
    reached := fun m hm => by
      obtain ⟨s, hs, hsm⟩ := h.reached m hm
      obtain ⟨s', hs', hs's⟩ := horigin s hs
      exact ⟨s', hs', hs's.trans hsm⟩ }

/-- Loading a module is no progress yet. -/
theorem load (w : Walk) (name : String) :
    Progress l d env origin [] [] w { w with loader := (w.loader.load d name).2 } :=
  { refl w with loads := Loader.loads_load w.loader d name }

/-- The import of a module begins. -/
theorem mark {m : Module} (hw : w.unimported.Nodup) (hname : name ∈ w.unimported)
    (hm : l.standsFor? d name = .ok (some m)) (horigin : origin name) :
    Progress l d env origin [name] [] w
      { w with unimported := w.unimported.filter (· ≠ name) } where
  loads := .refl
  unimported := perm_cons_filter_ne hw hname
  classes := by simp
  enums := by simp [knownEnums]
  resolved := by simpa using ⟨m, hm⟩
  reached := by simpa using ⟨name, horigin, .refl⟩
  imports := by simp

/-- A module without a manifest declares nothing. -/
theorem nothing (hm : l.manifest? d name = none) : Progress l d env origin [] [name] w w :=
  { refl w with
    classes := by simp [declaredClasses, hm]
    enums := by simp [declaredEnums, hm]
    imports := by simp [hm] }

theorem contains_class (h : Progress l d env origin begun done w w')
    (hn : w.classes.contains name = true) : w'.classes.contains name = true := by
  obtain ⟨c, hc⟩ := NameMap.contains_iff_get?.mp hn
  refine NameMap.contains_of_get? (v := c) (NameMap.get?_eq_some_iff.mpr ?_)
  exact h.classes.symm.subset (List.mem_append_left _ (NameMap.get?_eq_some_iff.mp hc))

/-- What a module that is done declares is known. -/
theorem contains_declared {m : String} {mf : Manifest} {c : ClassDecl}
    (h : Progress l d env origin begun done w w') (hm : m ∈ done) (hmf : l.manifest? d m = some mf)
    (hc : c ∈ mf.classes) : w'.classes.contains c.name = true := by
  refine NameMap.contains_of_get? (v := ⟨c, m⟩) (NameMap.get?_eq_some_iff.mpr ?_)
  refine h.classes.symm.subset (List.mem_append_right _ (List.mem_flatMap.mpr ⟨m, hm, ?_⟩))
  rw [declaredClasses, hmf]
  exact List.mem_map.mpr ⟨c, hc, rfl⟩

end Progress

/-! ### Declarations -/

/-- Enumerations that are declared are new and well-formed. -/
theorem declareEnums_ok {es : List EnumDecl} (h : outcome (declareEnums es) w = (.ok (), w')) :
    ∃ enums, w' = { w with enums := enums }
      ∧ (knownEnums w').Perm (knownEnums w ++ es.map fun e => (e.name, e.toEnumeration?)) := by
  induction es generalizing w with
  | nil =>
    rw [outcome_declareEnums_nil] at h
    cases h
    exact ⟨_, rfl, by simp⟩
  | cons e es ih =>
    rw [outcome_declareEnums_cons] at h
    split at h
    · cases h
    · next hnew =>
      split at h
      · cases h
      · next enumeration he =>
        obtain ⟨enums, rfl, hperm⟩ := ih h
        refine ⟨enums, rfl, hperm.trans ?_⟩
        have hinsert := (NameMap.entries_insert_perm enumeration (Bool.eq_false_iff.mpr hnew)).map
          fun e => (e.1, (Except.ok e.2 : Except Failure Enumeration))
        refine (hinsert.append_right _).trans ?_
        rw [List.map_cons, List.map_cons, he, List.cons_append]
        exact List.perm_middle.symm

/-- Classes that are declared are new. -/
theorem declareClasses_ok {moduleName : String} {cs : List ClassDecl}
    (h : outcome (declareClasses moduleName cs) w = (.ok (), w')) :
    ∃ classes, w' = { w with classes := classes }
      ∧ classes.entries.Perm (w.classes.entries ++ cs.map fun c => (c.name, ⟨c, moduleName⟩)) := by
  induction cs generalizing w with
  | nil =>
    rw [outcome_declareClasses_nil] at h
    cases h
    exact ⟨_, rfl, by simp⟩
  | cons c cs ih =>
    rw [outcome_declareClasses_cons] at h
    split at h
    · cases h
    · next hnew =>
      obtain ⟨classes, rfl, hperm⟩ := ih h
      refine ⟨classes, rfl, hperm.trans ?_⟩
      have hinsert := NameMap.entries_insert_perm (⟨c, moduleName⟩ : Declared)
        (NameMap.contains_eq_false_iff.mpr hnew)
      refine (hinsert.append_right _).trans ?_
      rw [List.map_cons, List.cons_append]
      exact List.perm_middle.symm

/-- A manifest declares what it declares once all that it imports has begun. -/
theorem Progress.declare {mf : Manifest} (hm : l.manifest? d name = some mf)
    (himports : ∀ i ∈ mf.imports, Imported l d w i)
    (henums : outcome (declareEnums mf.enums) w = (.ok (), w'))
    (hclasses : outcome (declareClasses name mf.classes) w' = (.ok (), w'')) :
    Progress l d env origin [] [name] w w'' := by
  obtain ⟨enums, rfl, hpermEnums⟩ := declareEnums_ok henums
  obtain ⟨classes, rfl, hpermClasses⟩ := declareClasses_ok hclasses
  exact
    { refl w with
      classes := by
        rw [List.flatMap_singleton, declaredClasses, hm]
        exact hpermClasses
      enums := by
        rw [List.flatMap_singleton, declaredEnums, hm]
        exact hpermEnums
      imports := by
        intro m hm' mf' hmf'
        cases List.mem_singleton.mp hm'
        cases hm.symm.trans hmf'
        exact himports }

/-! ### Imports -/

/-- Progress at the end of which every import begun is over. -/
def Completes (l : Loader) (d : Disk) (env : BuildEnv) (origin : String → Prop) (w w' : Walk) :
    Prop :=
  ∃ begun done, Progress l d env origin begun done w w' ∧ begun.Perm done

namespace Completes

theorem refl (w : Walk) : Completes l d env origin w w := ⟨[], [], .refl w, .refl _⟩

theorem trans (h₁ : Completes l d env origin w w') (h₂ : Completes l d env origin w' w'') :
    Completes l d env origin w w'' := by
  obtain ⟨begun₁, done₁, hprogress₁, hperm₁⟩ := h₁
  obtain ⟨begun₂, done₂, hprogress₂, hperm₂⟩ := h₂
  exact ⟨_, _, hprogress₁.trans hprogress₂, hperm₁.append hperm₂⟩

theorem unimported_subset (h : Completes l d env origin w w') : w'.unimported ⊆ w.unimported := by
  obtain ⟨begun, done, hprogress, -⟩ := h
  exact hprogress.unimported_subset

theorem contains_class (h : Completes l d env origin w w')
    (hn : w.classes.contains name = true) : w'.classes.contains name = true := by
  obtain ⟨begun, done, hprogress, -⟩ := h
  exact hprogress.contains_class hn

end Completes

/-- The walk has come here from the loader, and the bound suffices for what is left. -/
structure Ready (l : Loader) (d : Disk) (bound : ℕ) (w : Walk) : Prop where
  loads : l.Loads d w.loader
  nodup : w.unimported.Nodup
  length_le : w.unimported.length ≤ bound

theorem Ready.progress (hw : Ready l d bound w) (h : Progress l d env origin begun done w w') :
    Ready l d bound w' where
  loads := hw.loads.trans h.loads
  nodup := (h.unimported.nodup_iff.mp hw.nodup).of_append_right
  length_le := by
    have hlength := h.unimported.length_eq
    have hbound := hw.length_le
    rw [List.length_append] at hlength
    omega

/-- An import that begins is one less that may begin. -/
theorem Ready.mark (hw : Ready l d (bound + 1) w)
    (h : Progress l d env origin [name] [] w w') : Ready l d bound w' :=
  { hw.progress h with
    length_le := by
      have hlength := h.unimported.length_eq
      have hbound := hw.length_le
      rw [List.singleton_append, List.length_cons] at hlength
      omega }

/-- What a load on the way answers, the name stood for all along. -/
theorem Ready.standsFor?_of_load (hw : Ready l d bound w) {found : Option Module} {l' : Loader}
    (h : w.loader.load d name = (.ok found, l')) : l.standsFor? d name = .ok found := by
  rw [← hw.loads.standsFor?_eq]
  exact (Loader.load_ok h).1

theorem Ready.completes (hw : Ready l d bound w) (h : Completes l d env origin w w') :
    Ready l d bound w' := by
  obtain ⟨begun, done, hprogress, -⟩ := h
  exact hw.progress hprogress

/-- What the functions over lists ask of the import of one module: it completes what it begins,
and when it answers that the name resolves, the module has been imported. -/
def Visits (l : Loader) (d : Disk) (env : BuildEnv) (bound : ℕ)
    (visit : String → Discovery Bool) : Prop :=
  ∀ ⦃origin : String → Prop⦄ ⦃name : String⦄ ⦃w w' : Walk⦄ ⦃resolved : Bool⦄,
    Ready l d bound w → origin name → outcome (visit name) w = (.ok resolved, w') →
      Completes l d env origin w w' ∧ (resolved = true → Imported l d w' name)

section Imports

variable (hv : Visits l d env bound visit) (hw : Ready l d bound w)
include hv hw

theorem importNamed_ok {importer : String} {names : List String}
    (horigin : ∀ n ∈ names, origin n)
    (h : outcome (importNamed visit importer names) w = (.ok (), w')) :
    Completes l d env origin w w' ∧ ∀ n ∈ names, Imported l d w' n := by
  induction names generalizing w with
  | nil =>
    rw [outcome_importNamed_nil] at h
    cases h
    exact ⟨.refl _, by simp⟩
  | cons n names ih =>
    rw [outcome_importNamed_cons] at h
    split at h
    · cases h
    · next w₁ hvisit =>
      obtain ⟨hfirst, himported⟩ := hv hw (horigin n (by simp)) hvisit
      obtain ⟨hrest, hothers⟩ :=
        ih (hw.completes hfirst) (fun n hn => horigin n (List.mem_cons_of_mem _ hn)) h
      refine ⟨hfirst.trans hrest, fun m hm => ?_⟩
      rcases List.mem_cons.mp hm with rfl | hm
      · exact (himported rfl).mono hrest.unimported_subset
      · exact hothers m hm
    · cases h

theorem importClass_ok {className : String} (horigin : origin (objectModule className))
    (h : outcome (importClass visit className) w = (.ok (), w')) :
    Completes l d env origin w w' := by
  rw [outcome_importClass] at h
  split at h
  · cases h
    exact .refl _
  · rcases hvisit : outcome (visit (objectModule className)) w with ⟨f | resolved, w₁⟩
    · rw [hvisit] at h
      cases h
    · rw [hvisit] at h
      cases h
      exact (hv hw horigin hvisit).1

theorem importParents_ok {cs : List ClassDecl}
    (horigin : ∀ c ∈ cs, ∀ parent, c.effectiveParent? = some parent → origin (objectModule parent))
    (h : outcome (importParents visit cs) w = (.ok (), w')) : Completes l d env origin w w' := by
  induction cs generalizing w with
  | nil =>
    rw [outcome_importParents_nil] at h
    cases h
    exact .refl _
  | cons c cs ih =>
    have hrest := fun c' hc' => horigin c' (List.mem_cons_of_mem c hc')
    rw [outcome_importParents_cons] at h
    split at h
    · exact ih hw hrest h
    · next parent hparent =>
      split at h
      · cases h
      · next w₁ hclass =>
        have hfirst := importClass_ok hv hw (horigin c (by simp) parent hparent) hclass
        split at h
        · exact hfirst.trans (ih (hw.completes hfirst) hrest h)
        · cases h

theorem importClasses_ok {names : List String} (horigin : ∀ n ∈ names, origin (objectModule n))
    (h : outcome (importClasses visit names) w = (.ok (), w')) :
    Completes l d env origin w w' := by
  induction names generalizing w with
  | nil =>
    rw [outcome_importClasses_nil] at h
    cases h
    exact .refl _
  | cons n names ih =>
    rw [outcome_importClasses_cons] at h
    split at h
    · cases h
    · next w₁ hclass =>
      have hfirst := importClass_ok hv hw (horigin n (by simp)) hclass
      exact hfirst.trans
        (ih (hw.completes hfirst) (fun n hn => horigin n (List.mem_cons_of_mem _ hn)) h)

theorem importRequested_ok {names : List String} (horigin : ∀ n ∈ names, origin (objectModule n))
    (h : outcome (importRequested visit names) w = (.ok (), w')) :
    Completes l d env origin w w' ∧ ∀ n ∈ names, w'.classes.contains n = true := by
  induction names generalizing w with
  | nil =>
    rw [outcome_importRequested_nil] at h
    cases h
    exact ⟨.refl _, by simp⟩
  | cons n names ih =>
    rw [outcome_importRequested_cons] at h
    split at h
    · cases h
    · next w₁ hclass =>
      have hfirst := importClass_ok hv hw (horigin n (by simp)) hclass
      split at h
      · next hknown =>
        obtain ⟨hrest, hothers⟩ :=
          ih (hw.completes hfirst) (fun n hn => horigin n (List.mem_cons_of_mem _ hn)) h
        refine ⟨hfirst.trans hrest, fun m hm => ?_⟩
        rcases List.mem_cons.mp hm with rfl | hm
        · exact hrest.contains_class hknown
        · exact hothers m hm
      · cases h

/-- Up to its declarations, registering a manifest completes the imports that it names. -/
theorem declarations_ok {mf : Manifest} {w₁ w₂ w₃ : Walk} (hm : l.manifest? d name = some mf)
    (hnamed : outcome (importNamed visit name mf.imports) w = (.ok (), w₁))
    (henums : outcome (declareEnums mf.enums) w₁ = (.ok (), w₂))
    (hclasses : outcome (declareClasses name mf.classes) w₂ = (.ok (), w₃)) :
    ∃ begun done, Progress l d env (LeadsTo (l.manifest? d) env name) begun (done ++ [name]) w w₃
      ∧ begun.Perm done := by
  obtain ⟨⟨begun, done, hprogress, hperm⟩, himported⟩ :=
    importNamed_ok hv hw (fun n hn => LeadsTo.named hm hn) hnamed
  refine ⟨_, _, hprogress.trans (Progress.declare hm himported henums hclasses), ?_⟩
  rwa [List.append_nil]

/-- Registering a manifest completes all imports but the one that it belongs to, which had begun
before. -/
theorem register_ok {mf : Manifest} (hm : l.manifest? d name = some mf)
    (h : outcome (register env visit name mf) w = (.ok (), w')) :
    ∃ begun done, Progress l d env (LeadsTo (l.manifest? d) env name) begun done w w'
      ∧ (name :: begun).Perm done := by
  obtain ⟨⟨⟩, w₁, hnamed, h⟩ := bind_eq_ok_iff.mp h
  obtain ⟨⟨⟩, w₂, henums, h⟩ := bind_eq_ok_iff.mp h
  obtain ⟨⟨⟩, w₃, hclasses, h⟩ := bind_eq_ok_iff.mp h
  obtain ⟨⟨⟩, w₄, hparents, h⟩ := bind_eq_ok_iff.mp h
  obtain ⟨w₄', w₄'', hget, hreferred⟩ := bind_eq_ok_iff.mp h
  cases hget
  obtain ⟨begun₁, done₁, hprogress₁, hperm₁⟩ := declarations_ok hv hw hm hnamed henums hclasses
  have hw₃ := hw.progress hprogress₁
  have hfourth : Completes l d env (LeadsTo (l.manifest? d) env name) w₃ w₄ :=
    importParents_ok hv hw₃ (fun c hc parent hp => LeadsTo.parent hm hc hp) hparents
  have hfifth : Completes l d env (LeadsTo (l.manifest? d) env name) w₄ w' :=
    importClasses_ok hv (hw₃.completes hfourth)
      (fun n hn => leadsTo_of_mem_referredClasses hm hn) hreferred
  obtain ⟨begun₂, done₂, hprogress₂, hperm₂⟩ := hfourth.trans hfifth
  refine ⟨_, _, hprogress₁.trans hprogress₂, ?_⟩
  rw [List.append_assoc, List.singleton_append]
  exact ((hperm₁.append hperm₂).cons name).trans List.perm_middle.symm

end Imports

/-! ### One module -/

/-- **Importing a module completes what it begins.** The induction is on the bound: a module that
begins is one less that may begin. -/
theorem visits_importModule (l : Loader) (d : Disk) (env : BuildEnv) (bound : ℕ) :
    Visits l d env bound (importModule d env bound) := by
  induction bound with
  | zero =>
    intro origin name w w' resolved hw horigin h
    have hnone : w.unimported = [] := List.length_eq_zero_iff.mp (Nat.le_zero.mp hw.length_le)
    have hload : Completes l d env origin w { w with loader := (w.loader.load d name).2 } :=
      ⟨[], [], .load w name, .refl _⟩
    rw [outcome_importModule_zero] at h
    rcases hanswer : w.loader.load d name with ⟨f | found, l'⟩
    · rw [hanswer] at h
      cases h
    · rw [hanswer] at h hload
      cases h
      refine ⟨hload, fun hresolved => ⟨?_, by simp [hnone]⟩⟩
      obtain ⟨m, rfl⟩ := Option.isSome_iff_exists.mp hresolved
      exact ⟨m, hw.standsFor?_of_load hanswer⟩
  | succ bound ih =>
    intro origin name w w' resolved hw horigin h
    have hload : Progress l d env origin [] [] w { w with loader := (w.loader.load d name).2 } :=
      .load w name
    rw [outcome_importModule_succ] at h
    rcases hanswer : w.loader.load d name with ⟨f | found, l'⟩
    · rw [hanswer] at h
      cases h
    rw [hanswer] at h hload
    cases found with
    | none =>
      cases h
      exact ⟨⟨_, _, hload, .refl _⟩, by simp⟩
    | some found =>
      have hfound : l.standsFor? d name = .ok (some found) := hw.standsFor?_of_load hanswer
      dsimp only at h hload
      split at h
      · next hnew =>
        -- The import of this module begins here.
        have hmark := hload.trans (Progress.mark hw.nodup hnew hfound horigin)
        have hready := hw.mark hmark
        have himported : Imported l d { w with
            loader := l', unimported := w.unimported.filter (· ≠ name) } name :=
          ⟨⟨found, hfound⟩, by simp⟩
        cases found with
        | manifest p mf =>
          have hm : l.manifest? d name = some mf := Loader.manifest?_eq_some_iff.mpr ⟨p, hfound⟩
          dsimp only at h
          split at h
          · cases h
          · next w₂ hregister =>
            cases h
            obtain ⟨begun, done, hprogress, hperm⟩ := register_ok ih hready hm hregister
            refine ⟨⟨_, _, hmark.trans (hprogress.mono fun s hs => ?_), hperm⟩,
              fun _ => himported.mono hprogress.unimported_subset⟩
            exact ⟨name, horigin, .single hs⟩
        | _ =>
          cases h
          refine ⟨⟨_, _, hmark.trans (Progress.nothing ?_), .refl _⟩, fun _ => himported⟩
          rw [Loader.manifest?, hfound]
      · next hold =>
        cases h
        exact ⟨⟨_, _, hload, .refl _⟩, fun _ => ⟨⟨found, hfound⟩, hold⟩⟩

end Discovery

end SimMetadata
