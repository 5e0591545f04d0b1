import SimMetadata.Proofs.Discovery.Explore
import SimMetadata.Proofs.Discovery.Simulation

/-!
# Discovery without guards

The settings of a build decide a guard once and for all: a parameter that is disabled might as well
not be there, and a parameter that is enabled might as well have no guard. The walk agrees. It finds
the same modules whether it reads the manifests as they are or with the guards erased that the
settings decide, and what it has declared then differs by these guards alone.

## Main definitions

* `ParamDecl.settleGuard?`: a parameter with its guard decided.
* `Manifest.eraseGuards`, `Module.eraseGuards`: a manifest with all such guards decided.
* `Loader.ErasesGuards`, `Discovery.ErasesGuards`: two loaders, and two walks, of which the second
  one works with the guards erased.

## Main results

* `Loader.ErasesGuards.loadChain`: loading answers alike.
* `Discovery.agree_importModule`: so does importing a module, with all that it leads to.
* `Discovery.explore_eraseGuards`: so does the whole walk.

## Implementation notes

A guard on a key that is not among the settings is kept. The walk counts it as enabled, and assembly
refuses it.
-/

namespace SimMetadata

/-! ### Declarations -/

/-- The parameter as the settings leave it: without the guard if they enable it, and not at all if
they disable it. -/
def ParamDecl.settleGuard? (settings : BuildEnv) (p : ParamDecl) : Option ParamDecl :=
  match p.guardKey >>= settings.get? with
  | some value => if value.isTruthy then some { p with guardKey := none } else none
  | none => some p

/-- The class with the guards of its parameters erased. -/
def ClassDecl.eraseGuards (settings : BuildEnv) (c : ClassDecl) : ClassDecl :=
  { c with params := c.params.filterMap (ParamDecl.settleGuard? settings) }

/-- The manifest with the guards of all parameters erased. -/
def Manifest.eraseGuards (settings : BuildEnv) (m : Manifest) : Manifest :=
  { m with classes := m.classes.map (ClassDecl.eraseGuards settings) }

/-- The module with the guards in its manifest erased, if it has one. -/
def Module.eraseGuards (settings : BuildEnv) : Module → Module
  | .manifest path m => .manifest path (m.eraseGuards settings)
  | other => other

/-- The declared class with the guards of its parameters erased. -/
def Declared.eraseGuards (settings : BuildEnv) (c : Declared) : Declared :=
  { c with decl := c.decl.eraseGuards settings }

variable {settings : BuildEnv} {d d' : Disk}

/-! ### Loading -/

namespace Loader

variable {l l' : Loader} {name : String}

/-- The second loader resolves the names that the first one does, and to the same modules but for
the guards that the settings decide. -/
structure ErasesGuards (settings : BuildEnv) (d d' : Disk) (l l' : Loader) : Prop where
  host : l'.host = l.host.map (Module.eraseGuards settings)
  sources : l'.sources = l.sources
  env : l'.env = l.env
  /-- The same files exist. -/
  present : ∀ name path, l.sources.get? name = some path → d'.present path = d.present path
  /-- They hold the manifests with the guards erased. -/
  manifest : ∀ name path, l.sources.get? name = some path →
    Manifest.load? d' path = (Manifest.load? d path).map (Manifest.eraseGuards settings)

namespace ErasesGuards

theorem resolvable_eq (h : ErasesGuards settings d d' l l') : l'.resolvable = l.resolvable := by
  rw [resolvable, resolvable, h.host, h.sources, NameMap.keys_map]

theorem resolve?_eq (h : ErasesGuards settings d d' l l') (name : String) :
    l'.resolve? d' name = l.resolve? d name := by
  rw [resolve?, resolve?, h.sources]
  cases hpath : l.sources.get? name with
  | none => rfl
  | some path =>
    dsimp only
    rw [h.present name path hpath]

theorem moduleOf_eq (h : ErasesGuards settings d d' l l') {r : Resolution}
    (hr : l.resolve? d name = some r) :
    l'.moduleOf d' r = (l.moduleOf d r).map (Module.eraseGuards settings) := by
  rcases resolve?_cases hr with ⟨-, rfl⟩ | ⟨-, rfl⟩ | ⟨path, hpath, rfl⟩
  · rw [moduleOf, moduleOf, h.env]
    rfl
  · rfl
  · rw [moduleOf, moduleOf, h.manifest name path hpath]
    cases Manifest.load? d path <;> rfl

theorem record (h : ErasesGuards settings d d' l l') (name : String) (m : Module) :
    ErasesGuards settings d d' (l.record name m)
      (l'.record name (m.eraseGuards settings)) where
  host := by rw [Loader.record, Loader.record, h.host, NameMap.map_insert]
  sources := h.sources
  env := h.env
  present := h.present
  manifest := h.manifest

/-- **Loading answers alike**, whether it succeeds or fails. -/
theorem loadChain (h : ErasesGuards settings d d' l l') (names : List String) :
    (loadChain d' names l').1
        = (loadChain d names l).1.map (Option.map (Module.eraseGuards settings))
      ∧ ErasesGuards settings d d' (loadChain d names l).2 (loadChain d' names l').2 := by
  induction names generalizing l l' with
  | nil => exact ⟨rfl, h⟩
  | cons name around ih =>
    rw [Loader.loadChain, Loader.loadChain, h.host, NameMap.get?_map, h.resolve?_eq]
    cases l.host.get? name with
    | some m => exact ⟨rfl, h⟩
    | none =>
      cases hr : l.resolve? d name with
      | none => exact ⟨rfl, h⟩
      | some r =>
        obtain ⟨hanswer, hrest⟩ := ih h
        have hmodule := h.moduleOf_eq hr
        have hfirst := (loads_loadChain d around l).moduleOf_eq r
        have hsecond := (loads_loadChain d' around l').moduleOf_eq r
        dsimp only [Option.map_none]
        generalize Loader.loadChain d around l = before at *
        generalize Loader.loadChain d' around l' = after at *
        obtain ⟨answer, l₁⟩ := before
        obtain ⟨_, l₁'⟩ := after
        cases hanswer
        cases answer with
        | error f => exact ⟨rfl, hrest⟩
        | ok a =>
          dsimp only [Except.map] at hfirst hsecond ⊢
          rw [hsecond, hmodule, hfirst]
          cases l.moduleOf d r with
          | error f => exact ⟨rfl, hrest⟩
          | ok m => exact ⟨rfl, hrest.record name m⟩

theorem load (h : ErasesGuards settings d d' l l') (name : String) :
    (l'.load d' name).1 = (l.load d name).1.map (Option.map (Module.eraseGuards settings))
      ∧ ErasesGuards settings d d' (l.load d name).2 (l'.load d' name).2 :=
  h.loadChain _

end ErasesGuards

end Loader

/-! ### The walk -/

namespace Discovery

variable {w w' : Walk}

/-- The second walk has come as far as the first one and works with the guards erased. -/
structure ErasesGuards (settings : BuildEnv) (d d' : Disk) (w w' : Walk) : Prop where
  loader : Loader.ErasesGuards settings d d' w.loader w'.loader
  unimported : w'.unimported = w.unimported
  classes : w'.classes = w.classes.map (Declared.eraseGuards settings)
  enums : w'.enums = w.enums

theorem congruence_erasesGuards : Congruence (Agree (ErasesGuards settings d d')) := by
  refine Agree.congruence fun w w' h className => ?_
  rw [h.classes, NameMap.contains_map]

theorem agree_declareEnums (es : List EnumDecl) :
    Agree (ErasesGuards settings d d') (declareEnums es) (declareEnums es) := by
  induction es with
  | nil => exact Agree.pure ()
  | cons e es ih =>
    intro w w' h
    rw [outcome_declareEnums_cons, outcome_declareEnums_cons, h.enums]
    split
    · exact ⟨rfl, h⟩
    · cases e.toEnumeration? with
      | error f => exact ⟨rfl, h⟩
      | ok enumeration => exact ih { h with enums := rfl }

theorem agree_declareClasses (moduleName : String) (cs : List ClassDecl) :
    Agree (ErasesGuards settings d d') (declareClasses moduleName cs)
      (declareClasses moduleName (cs.map (ClassDecl.eraseGuards settings))) := by
  induction cs with
  | nil => exact Agree.pure ()
  | cons c cs ih =>
    intro w w' h
    rw [List.map_cons, outcome_declareClasses_cons, outcome_declareClasses_cons, h.classes,
      NameMap.get?_map]
    cases hfirst : w.classes.get? c.name with
    | some first =>
      rw [show (c.eraseGuards settings).name = c.name from rfl, hfirst]
      exact ⟨rfl, h⟩
    | none =>
      rw [show (c.eraseGuards settings).name = c.name from rfl, hfirst]
      refine ih { h with classes := ?_ }
      exact (NameMap.map_insert (Declared.eraseGuards settings) w.classes c.name
        ⟨c, moduleName⟩).symm

/-- Looking for the parents of classes does not read their parameters. -/
theorem importParents_eraseGuards (visit : String → Discovery Bool) (cs : List ClassDecl) :
    importParents visit (cs.map (ClassDecl.eraseGuards settings)) = importParents visit cs := by
  induction cs with
  | nil => rfl
  | cons c cs ih =>
    rw [List.map_cons, importParents, importParents, ih]
    rfl

/-- The parameters that count lead to the same classes. -/
theorem referredClasses_eraseGuards (isEnum : String → Bool) (cs : List ClassDecl) :
    referredClasses settings isEnum (cs.map (ClassDecl.eraseGuards settings))
      = referredClasses settings isEnum cs := by
  have hparams : (cs.map (ClassDecl.eraseGuards settings)).flatMap ClassDecl.params
      = (cs.flatMap ClassDecl.params).filterMap (ParamDecl.settleGuard? settings) := by
    rw [List.flatMap_map, List.filterMap_flatMap]
    rfl
  rw [referredClasses, referredClasses, hparams, List.filterMap_filterMap]
  congr 1
  funext p
  rw [ParamDecl.settleGuard?, isEnabled]
  cases hvalue : p.guardKey >>= settings.get? with
  | none =>
    dsimp only [Option.bind_some]
    rw [isEnabled, hvalue]
  | some value =>
    dsimp only
    by_cases htruthy : value.isTruthy = true
    · rw [if_pos htruthy, if_pos htruthy]
      rfl
    · rw [if_neg htruthy, if_neg htruthy]
      rfl

theorem agree_register {visit visit' : String → Discovery Bool}
    (hv : ∀ name, Agree (ErasesGuards settings d d') (visit name) (visit' name))
    (moduleName : String) (m : Manifest) :
    Agree (ErasesGuards settings d d') (register settings visit moduleName m)
      (register settings visit' moduleName (m.eraseGuards settings)) := by
  refine (congruence_erasesGuards.importNamed visit visit' hv moduleName m.imports).bind fun _ =>
    (agree_declareEnums m.enums).bind fun _ =>
      (agree_declareClasses moduleName m.classes).bind fun _ => Agree.bind ?_ fun _ =>
        Agree.get_bind fun w w' h => ?_
  · rw [show (m.eraseGuards settings).classes = m.classes.map (ClassDecl.eraseGuards settings)
      from rfl, importParents_eraseGuards]
    exact congruence_erasesGuards.importParents visit visit' hv m.classes
  · dsimp only
    rw [show (m.eraseGuards settings).classes = m.classes.map (ClassDecl.eraseGuards settings)
      from rfl, h.enums, referredClasses_eraseGuards]
    exact congruence_erasesGuards.importClasses visit visit' hv _

/-- **Imports agree.** The induction is on the bound. -/
theorem agree_importModule (bound : ℕ) (name : String) :
    Agree (ErasesGuards settings d d') (importModule d settings bound name)
      (importModule d' settings bound name) := by
  induction bound generalizing name with
  | zero =>
    intro w w' h
    obtain ⟨hanswer, hloader⟩ := h.loader.load name
    rw [outcome_importModule_zero, outcome_importModule_zero, hanswer]
    refine ⟨?_, { h with loader := hloader }⟩
    rcases (w.loader.load d name).1 with f | found
    · rfl
    · cases found <;> rfl
  | succ bound ih =>
    intro w w' h
    obtain ⟨hanswer, hloader⟩ := h.loader.load name
    rw [outcome_importModule_succ, outcome_importModule_succ, h.unimported]
    generalize w.loader.load d name = before at *
    generalize w'.loader.load d' name = after at *
    obtain ⟨answer, l₁⟩ := before
    obtain ⟨_, l₁'⟩ := after
    cases hanswer
    cases answer with
    | error f => exact ⟨rfl, { h with loader := hloader, unimported := rfl }⟩
    | ok found =>
      cases found with
      | none => exact ⟨rfl, { h with loader := hloader, unimported := rfl }⟩
      | some found =>
        dsimp only [Except.map, Option.map_some] at hloader ⊢
        split
        · have hbegun : ErasesGuards settings d d'
              { w with loader := l₁, unimported := w.unimported.filter (· ≠ name) }
              { w' with loader := l₁', unimported := w.unimported.filter (· ≠ name) } :=
            { h with loader := hloader, unimported := rfl }
          cases found with
          | manifest path m =>
            obtain ⟨hregister, hwalk⟩ := agree_register ih name m hbegun
            dsimp only [Module.eraseGuards]
            generalize outcome (register settings (importModule d settings bound) name m) _
              = first at hregister hwalk ⊢
            generalize outcome (register settings (importModule d' settings bound) name _) _
              = second at hregister hwalk ⊢
            obtain ⟨answer, w₁⟩ := first
            obtain ⟨_, w₁'⟩ := second
            cases hregister
            cases answer <;> exact ⟨rfl, hwalk⟩
          | _ => exact ⟨rfl, hbegun⟩
        · exact ⟨rfl, { h with loader := hloader, unimported := rfl }⟩

theorem agree_exposedEnv :
    Agree (ErasesGuards settings d d') (exposedEnv d) (exposedEnv d') := by
  intro w w' h
  obtain ⟨hanswer, hloader⟩ := h.loader.load envModule
  rw [exposedEnv, exposedEnv, outcome_bind, outcome_bind, outcome_load, outcome_load, hanswer]
  have hloaded : ErasesGuards settings d d'
      { w with loader := (w.loader.load d envModule).2 }
      { w' with loader := (w'.loader.load d' envModule).2 } := { h with loader := hloader }
  rcases (w.loader.load d envModule).1 with f | found
  · exact ⟨rfl, hloaded⟩
  · cases found with
    | none => exact ⟨rfl, hloaded⟩
    | some found => cases found <;> exact ⟨rfl, hloaded⟩

/-- **The walk finds the same with the guards erased**, where they are erased as the settings decide
that the walk is given. -/
theorem explore_eraseGuards {l l' : Loader} (h : Loader.ErasesGuards settings d d' l l')
    (hexposed : ∀ env, l.standsFor? d envModule = .ok (some (.env env)) → env = settings)
    (requested : List String) :
    (outcome (explore d' requested) (Walk.start l')).1
        = (outcome (explore d requested) (Walk.start l)).1
      ∧ ErasesGuards settings d d' (outcome (explore d requested) (Walk.start l)).2
        (outcome (explore d' requested) (Walk.start l')).2 := by
  have hstart : ErasesGuards settings d d' (Walk.start l) (Walk.start l') :=
    ⟨h, by rw [Walk.start, Walk.start, h.resolvable_eq], rfl, rfl⟩
  obtain ⟨hanswer, hwalk⟩ := agree_exposedEnv hstart
  rw [explore, explore, outcome_bind, outcome_bind]
  rcases hfirst : outcome (exposedEnv d) (Walk.start l) with ⟨f | env, w₁⟩
  · rw [hfirst] at hanswer hwalk
    generalize outcome (exposedEnv d') (Walk.start l') = second at hanswer hwalk ⊢
    obtain ⟨_, w₁'⟩ := second
    cases hanswer
    exact ⟨rfl, hwalk⟩
  · cases hexposed env (exposedEnv_ok hfirst).1
    rw [hfirst] at hanswer hwalk
    generalize outcome (exposedEnv d') (Walk.start l') = second at hanswer hwalk ⊢
    obtain ⟨_, w₁'⟩ := second
    cases hanswer
    refine Agree.get_bind (fun w w' h => ?_) hwalk
    dsimp only
    rw [h.unimported]
    refine (agree_importModule _ _).bind fun _ =>
      (congruence_erasesGuards.knows _).bind fun _ => ?_
    split
    · exact (congruence_erasesGuards.importRequested _ _ (agree_importModule _) _).bind
        fun _ => Agree.pure _
    · exact Agree.throw _

end Discovery

end SimMetadata
