import SimMetadata.Proofs.Registry.Declarations
import SimMetadata.Proofs.Registry.Flattening
import SimMetadata.Proofs.Registry.References

/-!
# Requesting more classes

Which modules a run of discovery imports depends on what is known when a name comes up: the module
of a class is passed over once a class of that name has been declared. If names are unambiguous,
this makes no difference. Whatever declares the class then is the module that was passed over, so
the modules that a successful run imports are all those that can be reached, in whatever order it
went. With more requests there are more of them, and what was registered for fewer requests is
registered in the same form for more.

## Main definitions

* `Loader.Unambiguous`: names tell which module declares a class.
* `Registry.Within`: one registry holds all that another one holds.

## Main results

* `Registry.Assembled.mem_modules_iff`: the modules that are imported are those that are reached.
* `Registry.discover_within`: what is registered for fewer requests is registered for more.

## Implementation notes

That an enumeration is declared only once need not be asked for. A run that succeeds imports no two
declarations of it, and those that it imports for fewer requests it imports for more.
-/

namespace SimMetadata

open Discovery

variable {l : Loader} {d : Disk} {env settings : BuildEnv}
  {requested requested' modules modules' : List String} {w : Walk} {r r' : Registry}
  {name m m' : String}

/-- Among all modules that resolve, each class name belongs to one module, no class has the name of
an enumeration, and the module where a class is looked for declares it. -/
structure Loader.Unambiguous (l : Loader) (d : Disk) : Prop where
  /-- A class name is declared in one module at most. -/
  module_eq : ∀ {m m' mf mf'}, l.manifest? d m = some mf → l.manifest? d m' = some mf' →
    ∀ c ∈ mf.classes, ∀ c' ∈ mf'.classes, c.name = c'.name → m = m'
  /-- No name is both a class and an enumeration. -/
  name_ne : ∀ {m m' mf mf'}, l.manifest? d m = some mf → l.manifest? d m' = some mf' →
    ∀ c ∈ mf.classes, ∀ e ∈ mf'.enums, c.name ≠ e.name
  /-- The module of a class declares the class. -/
  declares : ∀ {name found}, l.standsFor? d (objectModule name) = .ok (some found) →
    ∃ mf, l.manifest? d (objectModule name) = some mf ∧ ∃ c ∈ mf.classes, c.name = name

theorem objectModule_injective : Function.Injective objectModule := fun _ _ h =>
  (String.append_right_inj _).mp h

/-- Only the names that can resolve need to be looked at. -/
theorem Loader.unambiguous_of_resolvable
    (hclasses : ∀ m ∈ l.resolvable.keys, ∀ m' ∈ l.resolvable.keys,
      ∀ c ∈ declaredClasses (l.manifest? d) m, ∀ c' ∈ declaredClasses (l.manifest? d) m',
        c.1 = c'.1 → m = m')
    (henums : ∀ m ∈ l.resolvable.keys, ∀ m' ∈ l.resolvable.keys,
      ∀ c ∈ declaredClasses (l.manifest? d) m, ∀ e ∈ declaredEnums (l.manifest? d) m',
        c.1 ≠ e.1)
    (hmodules : ∀ m ∈ l.resolvable.keys, (objectModule "").toList <+: m.toList →
      ∃ c ∈ declaredClasses (l.manifest? d) m, objectModule c.1 = m) : l.Unambiguous d := by
  have hmem : ∀ {m mf}, l.manifest? d m = some mf → m ∈ l.resolvable.keys := fun hmf =>
    have ⟨_, h⟩ := Loader.manifest?_eq_some_iff.mp hmf
    Loader.mem_resolvable h
  refine ⟨fun {m m' mf mf'} hmf hmf' c hc c' hc' hname => ?_,
    fun {m m' mf mf'} hmf hmf' c hc e he => ?_, fun {name found} hfound => ?_⟩
  · exact hclasses m (hmem hmf) m' (hmem hmf')
      (c.name, ⟨c, m⟩) (mem_declaredClasses.mpr ⟨mf, hmf, hc, rfl, rfl⟩)
      (c'.name, ⟨c', m'⟩) (mem_declaredClasses.mpr ⟨mf', hmf', hc', rfl, rfl⟩) hname
  · exact henums m (hmem hmf) m' (hmem hmf')
      (c.name, ⟨c, m⟩) (mem_declaredClasses.mpr ⟨mf, hmf, hc, rfl, rfl⟩)
      (e.name, e.toEnumeration?) (mem_declaredEnums.mpr ⟨mf', hmf', e, he, rfl, rfl⟩)
  · obtain ⟨⟨n, c⟩, hc, hn⟩ := hmodules _ (Loader.mem_resolvable hfound) (by simp [objectModule])
    cases objectModule_injective hn
    obtain ⟨mf, hmf, hc, hname, -⟩ := mem_declaredClasses.mp hc
    exact ⟨mf, hmf, c.decl, hc, hname⟩

namespace Registry

/-- Everything that is registered in `r` is registered in the same form in `r'`. -/
structure Within (r r' : Registry) : Prop where
  classes : ∀ {name c}, r.classes.get? name = some c → r'.classes.get? name = some c
  /-- The classes have the same parameters, inherited ones included. -/
  allParams : ∀ {name}, r.classes.contains name = true →
    r'.allParams.get? name = r.allParams.get? name
  enums : ∀ {name e}, r.enums.get? name = some e → r'.enums.get? name = some e
  paramTypes : ∀ {name t}, r.paramTypes.get? name = some t → r'.paramTypes.get? name = some t

/-! ### The modules that are imported -/

namespace Assembled

variable (hr : Assembled w.classes w.enums settings r)
  (hw : Explored l d requested settings modules w) (hl : l.Unambiguous d)
include hr hw hl

/-- The module of a class that is registered has been imported, if there is one: no other module
declares the class. -/
theorem objectModule_mem {found : Module} (hname : r.classes.contains name = true)
    (hfound : l.standsFor? d (objectModule name) = .ok (some found)) :
    objectModule name ∈ modules := by
  obtain ⟨k, hk⟩ := NameMap.contains_iff_get?.mp hname
  obtain ⟨m, hm, mf, hmf, c, hc, hcname, -⟩ := (hr.declaredBy hw).class_declared hk
  obtain ⟨mf', hmf', c', hc', hcname'⟩ := hl.declares hfound
  cases hl.module_eq hmf hmf' c hc c' hc' (hcname.trans hcname'.symm)
  exact hm

/-- A module that a run imports leads to modules that it imports. A class that a parameter refers
to is registered; were it an enumeration instead, the module of that name would declare a class. -/
theorem mem_of_leadsTo {found : Module} (hm : m ∈ modules)
    (hlead : LeadsTo (l.manifest? d) settings m m')
    (hfound : l.standsFor? d m' = .ok (some found)) : m' ∈ modules := by
  have hdeclared := hr.declaredBy hw
  have hclosed := hr.isClosed hw.name_eq hw.root
  cases hlead with
  | named hmf hi => exact hw.imports m hm _ hmf hi
  | parent hmf hc hp =>
    obtain ⟨k, hk, hdescribes⟩ := hdeclared.class_registered hm hmf hc
    exact hr.objectModule_mem hw hl (hclosed.parent hk (hdescribes.parent.trans hp)) hfound
  | @referred mf c p className hmf hc hp hguard hn =>
    obtain ⟨k, hk, hdescribes⟩ := hdeclared.class_registered hm hmf hc
    have hactive := ParamDecl.isActive_eq_true (hdescribes.guards p hp) hguard
    obtain ⟨q, hq, htype⟩ := hdescribes.exists_param hp hactive
    have hknown := hclosed.params hk q hq
    rcases ParamType.referred_of_ofText? htype.type hn with hobject | henum
    · exact hr.objectModule_mem hw hl (hknown.object _ hobject) hfound
    · obtain ⟨e, he⟩ := NameMap.contains_iff_get?.mp (hknown.enum _ henum)
      obtain ⟨_, -, _, hmf₁, x, hx, hxname, -⟩ := hdeclared.enum_declared he
      obtain ⟨_, hmf₂, c', hc', hcname⟩ := hl.declares hfound
      exact absurd (hcname.trans hxname.symm) (hl.name_ne hmf₂ hmf₁ c' hc' x hx)

/-- **The modules that are imported are those that are reached** from where discovery starts and
resolve, whatever the order of the walk. The induction is along the way to a module; every module
on the way has a manifest, so it resolves. -/
theorem mem_modules_iff :
    m ∈ modules ↔ (∃ found, l.standsFor? d m = .ok (some found))
      ∧ ∃ s, Starts requested s ∧ Relation.ReflTransGen (LeadsTo (l.manifest? d) settings) s m := by
  constructor
  · exact fun hm => ⟨hw.resolved m hm, hw.reached m hm⟩
  · rintro ⟨⟨found, hfound⟩, s, hs, hway⟩
    induction hway generalizing found with
    | refl =>
      rcases hs with rfl | ⟨className, hclass, rfl⟩
      · exact hw.base
      · have hregistered := hr.contains_class.trans (hw.requested className hclass)
        exact hr.objectModule_mem hw hl hregistered hfound
    | tail _ hlead ih =>
      obtain ⟨mf, hmf⟩ := hlead.exists_manifest
      obtain ⟨p, hp⟩ := Loader.manifest?_eq_some_iff.mp hmf
      exact hr.mem_of_leadsTo hw hl (ih _ hp) hlead hfound

end Assembled

/-! ### What is registered -/

namespace DeclaredBy

variable (h : r.DeclaredBy (l.manifest? d) settings modules)
  (h' : r'.DeclaredBy (l.manifest? d) settings modules') (hmodules : modules ⊆ modules')
  (hl : l.Unambiguous d)

include h h' hmodules in
theorem get?_enums_mono {e : Enumeration} (he : r.enums.get? name = some e) :
    r'.enums.get? name = some e := by
  obtain ⟨m, hm, mf, hmf, x, hx, rfl, hxe⟩ := h.enum_declared he
  obtain ⟨e', he', hxe'⟩ := h'.enum_registered (hmodules hm) hmf hx
  cases hxe.symm.trans hxe'
  exact he'

include h h' hl in
/-- A class of one registry is no enumeration of the other. -/
theorem contains_enums_eq_false (hname : r.classes.contains name = true) :
    r'.enums.contains name = false := by
  refine Bool.eq_false_iff.mpr fun henum => ?_
  obtain ⟨k, hk⟩ := NameMap.contains_iff_get?.mp hname
  obtain ⟨e, he⟩ := NameMap.contains_iff_get?.mp henum
  obtain ⟨m, -, mf, hmf, c, hc, rfl, -⟩ := h.class_declared hk
  obtain ⟨m', -, mf', hmf', x, hx, hname, -⟩ := h'.enum_declared he
  exact hl.name_ne hmf hmf' c hc x hx hname.symm

include h h' hmodules hl

/-- A type whose names are registered is read alike with the enumerations of either registry. -/
theorem ofText?_mono {text : String} {t : ParamType}
    (hknown : t.Known r.enums.contains r.classes.contains)
    (ht : ParamType.ofText? r.enums.contains text = some t) :
    ParamType.ofText? r'.enums.contains text = some t := by
  refine ParamType.ofText?_congr ht (fun n hn => ?_) (fun n hn => ?_)
  · obtain ⟨e, he⟩ := NameMap.contains_iff_get?.mp (hknown.enum n hn)
    exact NameMap.contains_of_get? (h.get?_enums_mono h' hmodules he)
  · exact h.contains_enums_eq_false h' hl (hknown.object n hn)

theorem get?_classes_mono (hclosed : r.IsClosed) {k : ConfigClass}
    (hk : r.classes.get? name = some k) : r'.classes.get? name = some k := by
  obtain ⟨m, hm, mf, hmf, c, hc, rfl, hdescribes⟩ := h.class_declared hk
  obtain ⟨k', hk', hdescribes'⟩ := h'.class_registered (hmodules hm) hmf hc
  have hsame := hdescribes.congr fun q hq text htext =>
    h.ofText?_mono h' hmodules hl (hclosed.params hk q hq) htext
  cases hsame.unique hdescribes'
  exact hk'

end DeclaredBy

namespace Assembled

variable {declared declared' : NameMap Declared} {enums enums' : NameMap Enumeration}
  (hr : Assembled declared enums settings r) (hr' : Assembled declared' enums' settings r')
  (hclasses : ∀ {name k}, r.classes.get? name = some k → r'.classes.get? name = some k)
include hr hr' hclasses

/-- A class that is registered in the same form for all its line has the same parameters. -/
theorem get?_allParams_eq (htree : r.IsTree) (htree' : r'.IsTree)
    (hname : r.classes.contains name = true) :
    r'.allParams.get? name = r.allParams.get? name := by
  obtain ⟨k, hk⟩ := NameMap.contains_iff_get?.mp hname
  obtain ⟨line, hline, hparams⟩ := hr.exists_lineage htree hk
  obtain ⟨line', hline', hparams'⟩ := hr'.exists_lineage htree' (hclasses hk)
  cases (hline.mono hclasses).unique hline'
  rw [hparams, hparams']

/-- What is found by the name of a type may come from another parameter, but not from one of
another type. -/
theorem get?_paramTypes_mono {t : ParamType} (ht : r.paramTypes.get? name = some t) :
    r'.paramTypes.get? name = some t := by
  obtain ⟨rfl, hneeds, className, k, hk, q, hq, rfl⟩ := hr.of_get?_paramTypes ht
  obtain ⟨t', ht'⟩ :=
    NameMap.contains_iff_get?.mp (hr'.contains_paramTypes (hclasses hk) hq hneeds)
  obtain ⟨hname, -, className', k', hk', q', hq', rfl⟩ := hr'.of_get?_paramTypes ht'
  rw [ht', hr'.type_eq_of_name_eq hk' hq' (hclasses hk) hq hname]

end Assembled

/-- **Requesting more classes changes nothing that was there.** -/
theorem discover_within {host : ModuleTable} {sources : List ScriptSource}
    (hl : (initialLoader host sources env).Unambiguous d) (hsub : requested ⊆ requested')
    (h : (discover host d sources requested env).1 = .ok r)
    (h' : (discover host d sources requested' env).1 = .ok r') : r.Within r' := by
  obtain ⟨settings, modules, w, hw, hr⟩ := discover_ok h
  obtain ⟨settings', modules', w', hw', hr'⟩ := discover_ok h'
  -- Both runs look guards up in the environment that one name stands for.
  cases hw.exposed.symm.trans hw'.exposed
  have hmodules : modules ⊆ modules' := by
    intro m hm
    obtain ⟨s, hs, hway⟩ := hw.reached m hm
    exact (hr'.mem_modules_iff hw' hl).mpr ⟨hw.resolved m hm, s, hs.mono hsub, hway⟩
  have hdeclared := hr.declaredBy hw
  have hdeclared' := hr'.declaredBy hw'
  have hclosed := hr.isClosed hw.name_eq hw.root
  have hclasses : ∀ {name k}, r.classes.get? name = some k → r'.classes.get? name = some k :=
    hdeclared.get?_classes_mono hdeclared' hmodules hl hclosed
  exact {
    classes := hclasses
    allParams := hr.get?_allParams_eq hr' hclasses hclosed.toIsTree
      (hr'.isTree hw'.name_eq hw'.root)
    enums := hdeclared.get?_enums_mono hdeclared' hmodules
    paramTypes := hr.get?_paramTypes_mono hr' hclasses }

/-! ### One class more

The class that is requested first is one that the other one refers to in a parameter. -/

/-- What discovery finds in the sample host when it is asked for the class that the parameter of
the other one refers to. -/
def samplePort : Registry where
  classes := NameMap.ofList
    [("SimObject", ⟨"SimObject", none, [], none, "SimObject", none, true, "runtime"⟩),
      ("Port", ⟨"Port", some "SimObject", [], none, "Port", none, false, "objects.Port"⟩)]
  allParams := NameMap.ofList [("SimObject", []), ("Port", [])]
  enums := NameMap.ofList [("Mode", ⟨"Mode", [⟨"atomic", 0⟩, ⟨"timing", 4⟩]⟩)]
  paramTypes := NameMap.empty

theorem discover_samplePort :
    (discover sampleHost (Disk.blank []) [] ["Port"] sampleEnv).1 = .ok samplePort := by
  decide +kernel

theorem discover_corePort :
    (discover sampleHost (Disk.blank []) [] ["Core", "Port"] sampleEnv).1 = .ok sample := by
  decide +kernel

theorem unambiguous_sampleHost :
    (initialLoader sampleHost [] sampleEnv).Unambiguous (Disk.blank []) :=
  Loader.unambiguous_of_resolvable (by decide +kernel) (by decide +kernel) (by decide +kernel)

theorem samplePort_within :
    (initialLoader sampleHost [] sampleEnv).Unambiguous (Disk.blank [])
      ∧ (discover sampleHost (Disk.blank []) [] ["Port"] sampleEnv).1 = .ok samplePort
      ∧ (discover sampleHost (Disk.blank []) [] ["Core", "Port"] sampleEnv).1 = .ok sample
      ∧ samplePort.Within sample :=
  ⟨unambiguous_sampleHost, discover_samplePort, discover_corePort,
    discover_within unambiguous_sampleHost (List.subset_cons_self _ _) discover_samplePort
      discover_corePort⟩

end Registry

end SimMetadata
