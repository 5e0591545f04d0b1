import SimMetadata.BuildConfig
import SimMetadata.Proofs.Path.Join

/-!
# Default names in the bundle

The name that a source has in the bundle unless another is given is the module path with slashes for
dots, and behind it the extension of the file. So the first dot of the name, if there is one, begins
the extension, and the name can be taken apart again. All it does not tell is which slashes of the
module path were dots, and there is no doubt about these if the path is one of an importable module.

Compiled forms go to the output directory under the name and a letter. A directory in front keeps
these paths apart, however it is written, because the names have no segment that is left out or goes
up.

## Main definitions

* `ScriptSource.slashed`: the module path with slashes for dots.
* `ScriptSource.IsModulePath`: the dots of the text separate names.
* `SourceEntry.UsesDefaults`: the entry gives neither name nor path for its compiled form.

## Main results

* `ScriptSource.defaultArcname_eq_iff`: when two default names are the same.
* `ScriptSource.IsModulePath.isPlain`: the path in the output directory is plain.
* `BuildConfig.defaultNames_differ`: sources with different module paths are not confused.
-/

namespace SimMetadata

namespace ScriptSource

variable {m m' : String} {p p' : Path}

/-! ### Taking a name apart -/

/-- The module path with slashes for dots. -/
def slashed (modpath : String) : String :=
  String.ofList (modpath.toList.map fun c => if c = '.' then '/' else c)

/-- What a file of this extension has at its end. -/
def ending : Option String → String
  | none => ""
  | some extension => "." ++ extension

theorem defaultArcname_eq (m : String) (p : Path) :
    defaultArcname m p = slashed m ++ ending p.extension? := by
  rw [defaultArcname]
  cases p.extension? with
  | none => exact String.append_empty.symm
  | some extension => exact String.append_assoc

theorem dot_not_mem_slashed (m : String) : '.' ∉ (slashed m).toList := by
  rw [slashed, String.toList_ofList, List.mem_map]
  rintro ⟨c, -, hc⟩
  split at hc
  · cases hc
  · next hne => exact hne hc

/-- The module path stands in front of the first dot. -/
theorem takeWhile_defaultArcname (m : String) (p : Path) :
    (defaultArcname m p).toList.takeWhile (· ≠ '.') = (slashed m).toList := by
  have hstem : ∀ c ∈ (slashed m).toList, decide (c ≠ '.') = true :=
    fun c hc => decide_eq_true fun h => dot_not_mem_slashed m (h ▸ hc)
  rw [defaultArcname_eq, String.toList_append, List.takeWhile_append_of_pos hstem]
  cases p.extension? <;> simp [ending]

theorem ending_injective : Function.Injective ending := by
  intro e e' h
  cases e <;> cases e' <;> simp_all [ending]

/-- **Two default names are the same** exactly if the module paths differ in nothing but dots and
slashes, and the files have the same extension. No extension and the empty one are not the same. -/
theorem defaultArcname_eq_iff :
    defaultArcname m p = defaultArcname m' p'
      ↔ slashed m = slashed m' ∧ p.extension? = p'.extension? := by
  constructor
  · intro h
    have hstem : slashed m = slashed m' := by
      refine String.toList_injective ?_
      rw [← takeWhile_defaultArcname m p, h, takeWhile_defaultArcname]
    refine ⟨hstem, ending_injective ?_⟩
    rw [defaultArcname_eq, defaultArcname_eq, hstem] at h
    exact String.append_right_inj _ |>.mp h
  · rintro ⟨hstem, hextension⟩
    rw [defaultArcname_eq, defaultArcname_eq, hstem, hextension]

/-! ### Module paths -/

/-- What stands between the dots is names: texts that are not empty and have no slash. -/
def IsModulePath (modpath : String) : Prop :=
  ∀ label ∈ modpath.toList.splitOn '.', label ≠ [] ∧ '/' ∉ label

instance : Decidable (IsModulePath m) := inferInstanceAs (Decidable (∀ _ ∈ _, _))

/-- Slashes for dots: what stands between the dots, with slashes between. -/
theorem toList_slashed (m : String) :
    (slashed m).toList = ['/'].intercalate (m.toList.splitOn '.') := by
  rw [slashed, String.toList_ofList]
  induction m.toList with
  | nil => rfl
  | cons c cs ih =>
    rw [List.map_cons, ih, List.splitOn_cons_eq_if_modifyHead]
    by_cases hdot : c = '.'
    · rw [if_pos hdot, if_pos (beq_iff_eq.mpr hdot),
        List.intercalate_cons_of_ne_nil (List.splitOn_ne_nil '.' cs)]
      rfl
    · obtain ⟨first, others, hs⟩ := List.exists_cons_of_ne_nil (List.splitOn_ne_nil '.' cs)
      rw [if_neg hdot, if_neg (mt beq_iff_eq.mp hdot), hs, List.modifyHead_cons,
        List.intercalate_cons_cons_left]

/-- The segments of the name are what stands between the dots of the module path. -/
theorem IsModulePath.segments_slashed (h : IsModulePath m) :
    Path.segments (slashed m).toList = m.toList.splitOn '.' := by
  rw [Path.segments_eq_splitOn, toList_slashed]
  exact List.splitOn_intercalate '/' (fun label hlabel => (h label hlabel).2)
    (List.splitOn_ne_nil _ _)

theorem IsModulePath.eq_of_slashed_eq (hm : IsModulePath m) (hm' : IsModulePath m')
    (h : slashed m = slashed m') : m = m' := by
  have hlabels : m.toList.splitOn '.' = m'.toList.splitOn '.' := by
    rw [← hm.segments_slashed, h, hm'.segments_slashed]
  have hjoined := congrArg (List.intercalate ['.']) hlabels
  rw [List.intercalate_splitOn, List.intercalate_splitOn] at hjoined
  exact String.toList_injective hjoined

theorem IsModulePath.isLabel (h : IsModulePath m) {label : List Char}
    (hlabel : label ∈ m.toList.splitOn '.') : Path.IsLabel label := by
  obtain ⟨hne, hslash⟩ := h label hlabel
  refine ⟨hslash, mt List.getLast?_eq_none_iff.mp hne, fun hdot => ?_⟩
  exact Path.not_mem_of_mem_splitOn hlabel (List.mem_of_getLast? hdot)

theorem isLabel_ending (p : Path) : Path.IsLabel ((ending p.extension?).toList ++ ['c']) := by
  refine Path.IsLabel.append ?_ (by decide)
  cases h : p.extension? with
  | none => exact List.not_mem_nil
  | some extension => simpa [ending] using Path.not_mem_of_extension? h

/-- **The path of a compiled form**, seen from the output directory, is plain. -/
theorem IsModulePath.isPlain (h : IsModulePath m) (p : Path) :
    (⟨defaultArcname m p ++ "c"⟩ : Path).IsPlain := by
  -- The ending has no slash, so it goes to the last segment, and all others are as they were.
  have htext : (defaultArcname m p ++ "c").toList
      = (slashed m).toList ++ ((ending p.extension?).toList ++ ['c']) := by
    rw [defaultArcname_eq, String.toList_append, String.toList_append, List.append_assoc]
    rfl
  have htail := isLabel_ending p
  obtain ⟨front, last, hlabels, hsegments⟩ :=
    Path.segments_append_of_not_mem htail.1 (slashed m).toList
  rw [h.segments_slashed] at hlabels
  refine Path.isPlain_of_isLabel fun s hs => ?_
  rw [htext, hsegments, List.mem_append, List.mem_singleton] at hs
  rcases hs with hs | rfl
  · exact h.isLabel (hlabels ▸ List.mem_append_left _ hs)
  · have hlast : Path.IsLabel last :=
      h.isLabel (hlabels ▸ List.mem_append_right _ List.mem_cons_self)
    exact Path.IsLabel.append hlast.1 htail

end ScriptSource

/-- The entry gives neither a name in the bundle nor a path for its compiled form. -/
def SourceEntry.UsesDefaults (s : SourceEntry) : Prop := s.arcname = none ∧ s.compiled = none

namespace BuildConfig

open ScriptSource

variable {c : BuildConfig} {s t : SourceEntry}

/-! ### Sources of a configuration -/

theorem arcname_resolveSource (c : BuildConfig) (h : s.UsesDefaults) :
    (c.resolveSource s).arcname = defaultArcname s.modpath (c.resolve s.srcpath) := by
  rw [resolveSource, h.1]
  rfl

theorem components_compiled (h : s.UsesDefaults) (hm : IsModulePath s.modpath) :
    (c.resolveSource s).compiled.components = c.outDir.components
      ++ (⟨(c.resolveSource s).arcname ++ "c"⟩ : Path).components := by
  have hcompiled : (c.resolveSource s).compiled
      = c.outDir.join ⟨(c.resolveSource s).arcname ++ "c"⟩ := by
    rw [resolveSource, h.2]
  rw [hcompiled, arcname_resolveSource c h, Path.components_join _ (hm.isPlain _)]

/-- Compiled forms meet only under one name. -/
theorem arcname_eq_of_components_eq (hs : s.UsesDefaults) (ht : t.UsesDefaults)
    (hms : IsModulePath s.modpath) (hmt : IsModulePath t.modpath)
    (h : (c.resolveSource s).compiled.components = (c.resolveSource t).compiled.components) :
    (c.resolveSource s).arcname = (c.resolveSource t).arcname := by
  rw [components_compiled hs hms, components_compiled ht hmt, List.append_cancel_left_eq,
    arcname_resolveSource c hs, arcname_resolveSource c ht] at h
  have hpath := (hms.isPlain _).eq_of_components_eq (hmt.isPlain _) h
  rw [arcname_resolveSource c hs, arcname_resolveSource c ht]
  exact (String.append_left_inj _).mp (Path.mk.inj hpath)

/-- **Sources are not confused.** Default names are the same exactly if the module paths differ in
nothing but dots and slashes and the extensions are the same. If two sources of a configuration are
left to the defaults, and their module paths are different and have names between their dots, then
they have different names in the bundle and are compiled to different files, whatever the root, the
output directory and the extensions are. -/
theorem defaultNames_differ :
    (∀ m m' p p', defaultArcname m p = defaultArcname m' p'
      ↔ slashed m = slashed m' ∧ p.extension? = p'.extension?)
    ∧ ∀ (c : BuildConfig) (i j : Nat) (s t : SourceEntry),
      c.sources[i]? = some s → c.sources[j]? = some t →
      s.UsesDefaults → t.UsesDefaults →
      IsModulePath s.modpath → IsModulePath t.modpath → s.modpath ≠ t.modpath →
      ∃ a b, c.scriptSources[i]? = some a ∧ c.scriptSources[j]? = some b
        ∧ a.modpath = s.modpath ∧ b.modpath = t.modpath
        ∧ a.arcname ≠ b.arcname ∧ a.compiled.components ≠ b.compiled.components := by
  refine ⟨fun _ _ _ _ => defaultArcname_eq_iff, fun c i j s t hi hj hs ht hms hmt hne => ?_⟩
  have hnames : (c.resolveSource s).arcname ≠ (c.resolveSource t).arcname := by
    rw [arcname_resolveSource c hs, arcname_resolveSource c ht]
    exact fun h => hne (hms.eq_of_slashed_eq hmt (defaultArcname_eq_iff.mp h).1)
  refine ⟨c.resolveSource s, c.resolveSource t, ?_, ?_, rfl, rfl, hnames, ?_⟩
  · rw [scriptSources, List.getElem?_map, hi, Option.map_some]
  · rw [scriptSources, List.getElem?_map, hj, Option.map_some]
  · exact fun h => hnames (arcname_eq_of_components_eq hs ht hms hmt h)

/-- Three sources: one file has an extension, one an empty one, and one has none. -/
def fanConfig : BuildConfig where
  root := ⟨".//work/"⟩
  outDirField := ⟨"out/."⟩
  objects := []
  bindingModules := []
  flags := none
  infoFiles := []
  envTable := []
  sources := [
    ⟨"cooling.fan", ⟨"fan.py"⟩, none, none, true⟩,
    ⟨"cooling.fans", ⟨"fans."⟩, none, none, true⟩,
    ⟨"cooling", ⟨"cooling"⟩, none, none, true⟩]
  bundle := ⟨"objects.zip"⟩
  provenance := none

theorem fans_differ :
    (slashed "a.b" = slashed "a/b")
    ∧ (∃ a b, fanConfig.scriptSources[0]? = some a ∧ fanConfig.scriptSources[1]? = some b
      ∧ a.modpath = "cooling.fan" ∧ b.modpath = "cooling.fans"
      ∧ a.arcname ≠ b.arcname ∧ a.compiled.components ≠ b.compiled.components)
    ∧ ∃ a b, fanConfig.scriptSources[1]? = some a ∧ fanConfig.scriptSources[2]? = some b
      ∧ a.modpath = "cooling.fans" ∧ b.modpath = "cooling"
      ∧ a.arcname ≠ b.arcname ∧ a.compiled.components ≠ b.compiled.components :=
  ⟨((defaultNames_differ.1 "a.b" "a/b" ⟨"x.py"⟩ ⟨"y.py"⟩).mp (by decide +kernel)).1,
    defaultNames_differ.2 fanConfig 0 1 _ _ rfl rfl ⟨rfl, rfl⟩ ⟨rfl, rfl⟩ (by decide +kernel)
      (by decide +kernel) (by decide),
    defaultNames_differ.2 fanConfig 1 2 _ _ rfl rfl ⟨rfl, rfl⟩ ⟨rfl, rfl⟩ (by decide +kernel)
      (by decide +kernel) (by decide)⟩

end BuildConfig

end SimMetadata
