import SimMetadata.Proofs.Discovery.GuardErasure
import SimMetadata.Proofs.Registry.Assembly

/-!
# A registry does not remember guards

Assembly evaluates guards a second time, and by another rule than the walk: a key that is not among
the settings is refused here. What the settings decide they decide alike, so the registry is the
same with all decided guards erased from the manifests beforehand, and so is the failure if there
is one.

## Main results

* `Registry.assemble?_eraseGuards`: assembly of declarations with the guards erased.
* `Registry.discover_eraseGuards`: discovery gives the same answer with the guards erased, and none
  but a failure if a class that is declared has a guard on a key that is not among the settings.
-/

namespace SimMetadata

variable {settings : BuildEnv} {isEnum isClass : String → Bool} {className : String}

/-! ### Resolving -/

theorem resolveParams?_eraseGuards (ps : List ParamDecl) :
    resolveParams? settings isEnum isClass className
        (ps.filterMap (ParamDecl.settleGuard? settings))
      = resolveParams? settings isEnum isClass className ps := by
  induction ps with
  | nil => rfl
  | cons p ps ih =>
    cases hvalue : p.guardKey >>= settings.get? with
    | none =>
      have hsettle : p.settleGuard? settings = some p := by rw [ParamDecl.settleGuard?, hvalue]
      rw [List.filterMap_cons_some hsettle, resolveParams?, resolveParams?, ih]
    | some value =>
      obtain ⟨key, hkey, hget⟩ := Option.bind_eq_some_iff.mp hvalue
      have henabled : p.enabled? settings className = .ok value.isTruthy := by
        rw [ParamDecl.enabled?, hkey]
        dsimp only
        rw [hget]
      by_cases htruthy : value.isTruthy = true
      · have hsettle : p.settleGuard? settings = some { p with guardKey := none } := by
          rw [ParamDecl.settleGuard?, hvalue]
          exact if_pos htruthy
        rw [List.filterMap_cons_some hsettle, resolveParams?, resolveParams?, ih, henabled, htruthy]
        rfl
      · have hsettle : p.settleGuard? settings = none := by
          rw [ParamDecl.settleGuard?, hvalue]
          exact if_neg htruthy
        rw [List.filterMap_cons_none hsettle, ih, resolveParams?, henabled,
          Bool.eq_false_iff.mpr htruthy]
        rfl

theorem Declared.resolve?_eraseGuards (c : Declared) :
    (c.eraseGuards settings).resolve? settings isEnum isClass
      = c.resolve? settings isEnum isClass := by
  rw [Declared.resolve?, Declared.resolve?]
  change resolveParams? settings isEnum isClass c.decl.name
    (c.decl.params.filterMap (ParamDecl.settleGuard? settings)) >>= _ = _
  rw [resolveParams?_eraseGuards]
  rfl

namespace Registry

/-- Assembly does not need the guards that the settings decide. -/
theorem assemble?_eraseGuards (declared : NameMap Declared) (enums : NameMap Enumeration) :
    assemble? (declared.map (Declared.eraseGuards settings)) enums settings
      = assemble? declared enums settings := by
  have hcontains : (declared.map (Declared.eraseGuards settings)).contains = declared.contains :=
    funext fun name => NameMap.contains_map _ _ name
  rw [assemble?, assemble?, hcontains, NameMap.traverse_map]
  simp only [Declared.resolve?_eraseGuards]

variable {host host' : ModuleTable} {d d' : Disk} {sources sources' : List ScriptSource}
  {requested : List String} {env env' : BuildEnv} {r : Registry}

/-- **Discovery gives the same answer with the guards erased**, a registry or a failure, where they
are erased as the settings decide that are exposed. If a class has been declared in the end that has
a guard on a key which is not among the settings, there is no registry. -/
theorem discover_eraseGuards
    (h : Loader.ErasesGuards settings d d' (initialLoader host sources env)
      (initialLoader host' sources' env'))
    (hexposed : ∀ exposed, (initialLoader host sources env).standsFor? d envModule
      = .ok (some (.env exposed)) → exposed = settings) :
    (discover host' d' sources' requested env').1 = (discover host d sources requested env).1
      ∧ ∀ name c p key,
        (Discovery.outcome (Discovery.explore d requested)
          (Walk.start (initialLoader host sources env))).2.classes.get? name = some c →
        p ∈ c.decl.params → p.guardKey = some key → settings.get? key = none →
        ∀ r, (discover host d sources requested env).1 ≠ .ok r := by
  constructor
  · obtain ⟨hanswer, hwalk⟩ := Discovery.explore_eraseGuards h hexposed requested
    rw [discover_fst, discover_fst]
    dsimp only
    rw [hanswer, hwalk.classes, hwalk.enums]
    rcases hwalked : Discovery.outcome (Discovery.explore d requested)
      (Walk.start (initialLoader host sources env)) with ⟨f | exposed, w⟩
    · rfl
    · obtain ⟨modules, hw⟩ := Discovery.explore_ok hwalked
      cases hexposed exposed hw.exposed
      exact assemble?_eraseGuards w.classes w.enums
  · intro name c p key hc hp hkey hnone r hr
    obtain ⟨exposed, modules, hw, hr⟩ := discover_ok_walk hr
    cases hexposed exposed hw.exposed
    obtain ⟨k, -, hk⟩ := hr.exists_class hc
    obtain ⟨value, hvalue⟩ := hk.guards p hp key hkey
    cases hnone.symm.trans hvalue

/-! ### Two guarded parameters

One is declared in a file and enabled. The other one is declared in a module of the host and
disabled, and its type is not well-formed. With fewer settings nothing is said about the key of the
first one. -/

def guardedBus : String :=
  "[[class]]\nname=\"Bus\"\n[[class.param]]\nname=\"width\"\ntype=\"Int\"\nwhen=\"ON\""

def unguardedBus : String :=
  "[[class]]\nname=\"Bus\"\n[[class.param]]\nname=\"width\"\ntype=\"Int\""

/-- A disk with one manifest. -/
def busDisk (text : String) : Disk := ⟨[], [(["bus.toml"], .file (.plain (Text.utf8 text)))]⟩

def busSources : List ScriptSource := [.ofPaths "objects.Bus" ⟨"bus.toml"⟩]

def busHost : ModuleTable := NameMap.ofList
  [("runtime", .manifest ⟨"runtime.toml"⟩
      { imports := []
        enums := []
        classes := [⟨"SimObject", none, true, none, none, none,
          [⟨"tracer", "Vector<>", "", none, some "OFF"⟩]⟩] })]

def busEnv : BuildEnv := ⟨NameMap.ofList [("OFF", .int 0), ("ON", .bool true)]⟩

def fewerSettings : BuildEnv := ⟨NameMap.ofList [("OFF", .int 0)]⟩

theorem erasesGuards_busDisk (env : BuildEnv) (text text' : String)
    (h : Manifest.load? (busDisk text') ⟨"bus.toml"⟩
      = (Manifest.load? (busDisk text) ⟨"bus.toml"⟩).map (Manifest.eraseGuards env)) :
    Loader.ErasesGuards env (busDisk text) (busDisk text') (initialLoader busHost busSources env)
      (initialLoader (busHost.map (Module.eraseGuards env)) busSources env) := by
  have hpath : ∀ name path, (initialLoader busHost busSources env).sources.get? name = some path →
      path = ⟨"bus.toml"⟩ := by
    intro name path h
    have hmem : (name, path) ∈ [("objects.Bus", (⟨"bus.toml"⟩ : Path))] :=
      NameMap.get?_eq_some_iff.mp h
    simp_all
  refine ⟨rfl, rfl, rfl, fun name path hname => ?_, fun name path hname => ?_⟩
  · rw [hpath name path hname]
    rfl
  · rw [hpath name path hname, h]

/-- The settings are exposed as they are. -/
theorem exposed_busDisk {env exposed : BuildEnv} {text : String}
    (h : (initialLoader busHost busSources env).standsFor? (busDisk text) envModule
      = .ok (some (.env exposed))) : exposed = env := by
  cases h
  rfl

theorem bus_eraseGuards :
    let d := busDisk guardedBus
    let l := initialLoader busHost busSources busEnv
    let fewer := initialLoader busHost busSources fewerSettings
    (Loader.ErasesGuards busEnv d (busDisk unguardedBus) l
        (initialLoader (busHost.map (Module.eraseGuards busEnv)) busSources busEnv)
      ∧ (∀ exposed, l.standsFor? d envModule = .ok (some (.env exposed)) → exposed = busEnv)
      ∧ ∃ r, (discover busHost d busSources ["Bus"] busEnv).1 = .ok r
        ∧ (discover (busHost.map (Module.eraseGuards busEnv)) (busDisk unguardedBus) busSources
            ["Bus"] busEnv).1 = .ok r)
    ∧ (Loader.ErasesGuards fewerSettings d d fewer
        (initialLoader (busHost.map (Module.eraseGuards fewerSettings)) busSources fewerSettings)
      ∧ (∀ exposed, fewer.standsFor? d envModule = .ok (some (.env exposed)) →
        exposed = fewerSettings)
      ∧ (∃ c, (Discovery.outcome (Discovery.explore d ["Bus"]) (Walk.start fewer)).2.classes.get?
            "Bus" = some c
          ∧ ∃ p ∈ c.decl.params, p.guardKey = some "ON" ∧ fewerSettings.get? "ON" = none)
      ∧ ∀ r, (discover busHost d busSources ["Bus"] fewerSettings).1 ≠ .ok r) := by
  have herases := erasesGuards_busDisk busEnv guardedBus unguardedBus (by decide +kernel)
  have hfewer := erasesGuards_busDisk fewerSettings guardedBus guardedBus (by decide +kernel)
  have hanswer : (discover (busHost.map (Module.eraseGuards busEnv)) (busDisk unguardedBus)
      busSources ["Bus"] busEnv).1 = (discover busHost (busDisk guardedBus) busSources ["Bus"]
        busEnv).1 := (discover_eraseGuards herases fun _ => exposed_busDisk).1
  have hok : (discover busHost (busDisk guardedBus) busSources ["Bus"] busEnv).1.isOk = true := by
    decide +kernel
  obtain ⟨r, hr⟩ := exists_ok_of_isOk hok
  have hguarded : ((Discovery.outcome (Discovery.explore (busDisk guardedBus) ["Bus"])
      (Walk.start (initialLoader busHost busSources fewerSettings))).2.classes.get? "Bus").any
        (·.decl.params.any (·.guardKey = some "ON")) = true := by decide +kernel
  obtain ⟨c, hc, hparams⟩ := (Option.any_eq_true _ _).mp hguarded
  obtain ⟨p, hp, hkey⟩ := List.any_eq_true.mp hparams
  have hon : p.guardKey = some "ON" := of_decide_eq_true hkey
  have hnone : fewerSettings.get? "ON" = none := by decide
  exact ⟨⟨herases, fun _ => exposed_busDisk, r, hr, hanswer.trans hr⟩, hfewer,
    fun _ => exposed_busDisk, ⟨c, hc, p, hp, hon, hnone⟩,
    (discover_eraseGuards hfewer fun _ => exposed_busDisk).2 "Bus" c p "ON" hc hp hon hnone⟩

end Registry

end SimMetadata
