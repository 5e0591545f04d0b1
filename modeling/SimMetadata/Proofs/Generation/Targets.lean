import SimMetadata.Proofs.Generation
import SimMetadata.Proofs.Registry.BindingTypes

/-!
# No planned file overwrites another

The files of a plan come in four groups: one for each class, one for each registered type, two for
each enumeration, and some that are planned once. What is printed around the names keeps the groups
apart, and within a group the names do, which are the names of a registry. As texts the paths are
different whatever the names are. As lists of components they are different too, and relative, if no
class and no enumeration has a slash in its name.

## Main definitions

* `Artifact.IsGroup`: files with different paths between which nothing but names differs.
* `Artifact.once`: the files whose paths do not depend on names.

## Main results

* `Artifact.nodup_target_plan`: the paths of a plan are different.
* `Registry.discover_targets_nodup`: both statements, for a registry that discovery publishes.
-/

namespace SimMetadata

namespace Artifact

variable {r : Registry} {declared : NameMap Declared} {enums : NameMap Enumeration} {env : BuildEnv}
  {sources : List ScriptSource} {bindingModules : List String} {withFlags : Bool}
  {info : List EmbeddedFile} {a b : Artifact}

/-! ### Groups -/

/-- Files with different paths, which are all framed in certain ways. -/
structure IsGroup (frames : List (String × String)) (files : List Artifact) : Prop where
  framed : ∀ a ∈ files, a.target.FramedBy frames
  target_ne : files.Pairwise fun a b => a.target ≠ b.target

/-- Groups whose frames clash make up a group. -/
theorem IsGroup.append {frames frames' : List (String × String)} {files files' : List Artifact}
    (h : IsGroup frames files) (h' : IsGroup frames' files')
    (hclash : ∀ f ∈ frames, ∀ g ∈ frames', Path.framesClash f g = true) :
    IsGroup (frames ++ frames') (files ++ files') := by
  constructor
  · intro a ha
    rcases List.mem_append.mp ha with ha | ha
    · exact (h.framed a ha).mono (List.subset_append_left _ _)
    · exact (h'.framed a ha).mono (List.subset_append_right _ _)
  · exact List.pairwise_append.mpr ⟨h.target_ne, h'.target_ne,
      fun a ha b hb => (h.framed a ha).ne (h'.framed b hb) hclash⟩

theorem isGroup_interfaces : IsGroup [("params/", ".hh")] (r.classes.keys.map interface) := by
  constructor
  · intro a ha
    obtain ⟨name, -, rfl⟩ := List.mem_map.mp ha
    exact framedBy_target_interface name
  · rw [List.pairwise_map]
    exact r.classes.keys_nodup.imp fun hne htarget => hne (target_interface_inj.mp htarget)

/-- Registered types have different names, and so the paths of their declarations are different. -/
theorem isGroup_bindings (h : Registry.Assembled declared enums env r) :
    IsGroup [("params/vector_", ".i")] (r.paramTypes.values.map binding) := by
  constructor
  · intro a ha
    obtain ⟨t, ht, rfl⟩ := List.mem_map.mp ha
    obtain ⟨name, ht⟩ := NameMap.mem_values.mp ht
    exact h.framedBy_target ht
  · rw [List.pairwise_map, NameMap.values, List.pairwise_map]
    refine List.Pairwise.imp_of_mem ?_ (List.pairwise_map.mp r.paramTypes.keys_nodup)
    rintro ⟨name, t⟩ ⟨name', t'⟩ hp hp' hne htarget
    have ht := NameMap.get?_eq_some_iff.mpr hp
    have ht' := NameMap.get?_eq_some_iff.mpr hp'
    have htype : t = t' := h.eq_of_target_eq ht ht' htarget
    rw [← (h.of_get?_paramTypes ht).1, ← (h.of_get?_paramTypes ht').1, htype] at hne
    exact hne rfl

theorem isGroup_enumFiles : IsGroup [("enums/", ".cc"), ("/", ".cc"), ("enums/", ".hh")]
    (r.enums.keys.flatMap fun name => [enumSource name, enumHeader name]) := by
  have hkinds : ∀ name other, (enumSource name).target ≠ (enumHeader other).target :=
    fun name other =>
      (framedBy_target_enumSource name).ne (framedBy_target_enumHeader other) (by decide)
  constructor
  · intro a ha
    obtain ⟨name, -, ha⟩ := List.mem_flatMap.mp ha
    rcases List.mem_pair.mp ha with rfl | rfl
    · exact (framedBy_target_enumSource name).mono (by decide)
    · exact (framedBy_target_enumHeader name).mono (by decide)
  · rw [List.pairwise_flatMap]
    constructor
    · intro name _
      exact List.pairwise_pair.mpr (hkinds name name)
    · refine r.enums.keys_nodup.imp fun {name other} hne a ha b hb => ?_
      rcases List.mem_pair.mp ha with rfl | rfl <;> rcases List.mem_pair.mp hb with rfl | rfl
      · exact fun htarget => hne (target_enumSource_inj.mp htarget)
      · exact hkinds name other
      · exact (hkinds other name).symm
      · exact fun htarget => hne (target_enumHeader_inj.mp htarget)

/-! ### Files that are planned once -/

/-- The files whose paths do not depend on names, of which each is planned once at most. -/
def once (r : Registry) (sources : List ScriptSource) (bindingModules : List String)
    (withFlags : Bool) (info : List EmbeddedFile) : List Artifact :=
  [aggregate r.classes.keys, bindingInit bindingModules]
    ++ (if withFlags then [flagScript, flagSource, flagHeader] else [])
    ++ [provenance, buildEnv, .info info, objectsInit (objectModules sources)]

/-- Their paths. -/
def onceTargets (withFlags : Bool) : List Path :=
  [⟨"params/params.i"⟩, ⟨"swig/init.cc"⟩]
    ++ (if withFlags then
      [⟨"base/traceflags.py"⟩, ⟨"base/traceflags.cc"⟩, ⟨"base/traceflags.hh"⟩] else [])
    ++ [⟨"base/program_info.cc"⟩, ⟨"scripts/build_env.py"⟩, ⟨"scripts/info.py"⟩,
      ⟨"scripts/objects/__init__.py"⟩]

theorem map_target_once :
    (once r sources bindingModules withFlags info).map target = onceTargets withFlags := by
  cases withFlags <;> rfl

theorem target_mem_onceTargets (ha : a ∈ once r sources bindingModules withFlags info) :
    a.target ∈ onceTargets withFlags := by
  rw [← map_target_once]
  exact List.mem_map_of_mem ha

theorem isGroup_once :
    IsGroup ((onceTargets withFlags).map fun p => (p.text, p.text))
      (once r sources bindingModules withFlags info) := by
  have hnodup : ∀ withFlags, (onceTargets withFlags).Nodup := by decide
  constructor
  · exact fun a ha => Path.framedBy_of_mem (target_mem_onceTargets ha)
  · rw [← List.pairwise_map (f := target), map_target_once]
    exact hnodup withFlags

theorem isPlain_of_mem_onceTargets : ∀ withFlags, ∀ p ∈ onceTargets withFlags, p.IsPlain := by
  decide

/-! ### The plan -/

theorem plan_eq : plan r sources bindingModules withFlags info =
    r.classes.keys.map interface ++ (r.paramTypes.values.map binding
      ++ (r.enums.keys.flatMap (fun name => [enumSource name, enumHeader name])
        ++ once r sources bindingModules withFlags info)) := by
  simp only [plan, once, List.append_assoc]

/-- **The paths of a plan are different.** -/
theorem nodup_target_plan (h : Registry.Assembled declared enums env r) :
    ((plan r sources bindingModules withFlags info).map target).Nodup := by
  rw [plan_eq, List.Nodup, List.pairwise_map]
  -- `decide` compares the frames, so it has to be known which files are planned once.
  cases withFlags
  all_goals
    exact (isGroup_interfaces.append ((isGroup_bindings h).append
      (isGroup_enumFiles.append isGroup_once (by decide)) (by decide)) (by decide)).target_ne

/-- Names without a slash make plain paths. -/
theorem isPlain_target_of_mem_plan (h : Registry.Assembled declared enums env r)
    (hnames : ∀ name, r.classes.contains name = true ∨ r.enums.contains name = true →
      '/' ∉ name.toList)
    (ha : a ∈ plan r sources bindingModules withFlags info) : a.target.IsPlain := by
  simp only [plan_eq, List.mem_append, List.mem_map, List.mem_flatMap] at ha
  rcases ha with ⟨name, hname, rfl⟩ | ⟨t, ht, rfl⟩ | ⟨name, hname, ha⟩ | ha
  · exact isPlain_target_interface (hnames name (.inl (NameMap.contains_iff_mem_keys.mpr hname)))
  · obtain ⟨name, ht⟩ := NameMap.mem_values.mp ht
    exact h.isPlain_target ht
  · have hslash := hnames name (.inr (NameMap.contains_iff_mem_keys.mpr hname))
    rcases List.mem_pair.mp ha with rfl | rfl
    · exact isPlain_target_enumSource hslash
    · exact isPlain_target_enumHeader hslash
  · exact isPlain_of_mem_onceTargets withFlags _ (target_mem_onceTargets ha)

end Artifact

namespace Registry

/-- **No planned file overwrites another.** The paths of a plan are different as they are written.
If no class and no enumeration has a slash in its name, they are different by components as well, and
relative. -/
theorem discover_targets_nodup {r : Registry} {host : ModuleTable} {d : Disk}
    {sources : List ScriptSource} {requested : List String} {env : BuildEnv}
    (h : (discover host d sources requested env).1 = .ok r) (planned : List ScriptSource)
    (bindingModules : List String) (withFlags : Bool) (info : List EmbeddedFile) :
    let plan := Artifact.plan r planned bindingModules withFlags info
    (plan.map Artifact.target).Nodup ∧
      ((∀ name, r.classes.contains name = true ∨ r.enums.contains name = true →
          '/' ∉ name.toList) →
        (plan.map fun a => a.target.components).Nodup
          ∧ ∀ a ∈ plan, a.target.isAbsolute = false) := by
  obtain ⟨settings, modules, w, hw, hr⟩ := discover_ok h
  intro plan
  have hnodup : (plan.map Artifact.target).Nodup := Artifact.nodup_target_plan hr
  refine ⟨hnodup, fun hnames => ?_⟩
  have hplain : ∀ a ∈ plan, a.target.IsPlain := fun a ha =>
    Artifact.isPlain_target_of_mem_plan hr hnames ha
  have hcomponents : ((plan.map Artifact.target).map Path.components).Nodup := by
    refine hnodup.map_on ?_
    simp only [List.forall_mem_map]
    exact fun a ha b hb heq => (hplain a ha).eq_of_components_eq (hplain b hb) heq
  rw [List.map_map] at hcomponents
  exact ⟨hcomponents, fun a ha => (hplain a ha).isAbsolute_eq_false⟩

theorem bridge_targets_nodup :
    (discover bridgeHost (Disk.blank []) [] ["Bus"] sampleEnv).1 = .ok bridge
      ∧ (∀ name, bridge.classes.contains name = true ∨ bridge.enums.contains name = true →
        '/' ∉ name.toList)
      ∧ ((Artifact.plan bridge [] [] true []).map fun a => a.target.components).Nodup := by
  have hnames : ∀ name, bridge.classes.contains name = true ∨ bridge.enums.contains name = true →
      '/' ∉ name.toList := by
    have hkeys : ∀ name ∈ bridge.classes.keys ++ bridge.enums.keys, '/' ∉ name.toList := by decide
    intro name hname
    rw [NameMap.contains_iff_mem_keys, NameMap.contains_iff_mem_keys, ← List.mem_append] at hname
    exact hkeys name hname
  refine ⟨discover_bridgeHost, hnames, ?_⟩
  exact ((discover_targets_nodup discover_bridgeHost [] [] true []).2 hnames).1

end Registry

end SimMetadata
