import SimMetadata.Generation
import SimMetadata.Proofs.Registry.References

/-!
# Everything that is planned can be written

Generated files look names up again: classes, parents, enumerations and types that need a binding.
In a closed registry none of these look-ups fails, so every planned file has a text, whatever the
run adds to the registry. Only the tables of trace flags depend on something else, the check of
the flags.

## Main definitions

* `Artifact.isFlagTable`: the files that are about trace flags.

## Main results

* `Artifact.exists_render?_ok`: a planned file that is not about flags has a text.
* `Artifact.render?_eq_error_iff`: a table of flags fails exactly as the check of the flags does.
* `Registry.discover_renders`: both, for a registry that discovery publishes.
-/

namespace SimMetadata

variable {r : Registry} {name : String}

/-! ### Look-ups -/

namespace Registry

theorem class?_eq_ok_iff {c : ConfigClass} :
    r.class? name = .ok c ↔ r.classes.get? name = some c := by
  rw [class?]
  cases r.classes.get? name <;> simp

theorem exists_class?_ok (h : r.classes.contains name = true) : ∃ c, r.class? name = .ok c := by
  obtain ⟨c, hc⟩ := NameMap.contains_iff_get?.mp h
  exact ⟨c, class?_eq_ok_iff.mpr hc⟩

end Registry

/-- A class that is registered has an interface. -/
theorem Interface.exists_ofClass?_ok (h : r.IsClosed) {c : ConfigClass}
    (hc : r.classes.get? name = some c) : ∃ i, Interface.ofClass? r name = .ok i := by
  have hfields : ∀ q ∈ c.params, ∃ member, Interface.fieldOf? r q = .ok member := by
    intro q hq
    rw [fieldOf?]
    split
    · exact ⟨_, rfl⟩
    · next className hclass =>
      obtain ⟨target, htarget⟩ :=
        Registry.exists_class?_ok ((h.params hc q hq).object className hclass)
      rw [htarget]
      exact ⟨_, rfl⟩
  obtain ⟨members, hmembers⟩ := exists_mapM_ok hfields
  exact ⟨_, except_bind_eq_ok_iff.mpr
    ⟨c, Registry.class?_eq_ok_iff.mpr hc, except_bind_eq_ok_iff.mpr ⟨members, hmembers, rfl⟩⟩⟩

/-- A registered class can be declared. -/
theorem ClassBlock.exists_ofClass?_ok (h : r.IsClosed) {c : ConfigClass}
    (hc : r.classes.get? name = some c) : ∃ b, ClassBlock.ofClass? r c = .ok b := by
  rw [ClassBlock.ofClass?]
  split
  · exact ⟨_, rfl⟩
  · split
    · exact ⟨_, rfl⟩
    · next parent hparent =>
      obtain ⟨p, hp⟩ := Registry.exists_class?_ok (h.parent hc hparent)
      rw [hp]
      exact ⟨_, rfl⟩

/-- Classes that can be put in order have a binding module. -/
theorem Aggregate.exists_ofNames?_ok (h : r.IsClosed) {names : List String}
    (horder : ∃ ordered, r.order names = .ok ordered) :
    ∃ m, Aggregate.ofNames? r names = .ok m := by
  obtain ⟨ordered, hordered⟩ := horder
  obtain ⟨hfirst, -⟩ := Linearization.linearize_ok h.name_eq hordered
  obtain ⟨blocks, hblocks⟩ := exists_mapM_ok (f := ClassBlock.ofClass? r) fun c hc =>
    ClassBlock.exists_ofClass?_ok h (hfirst.registered hc)
  exact ⟨_, except_bind_eq_ok_iff.mpr
    ⟨ordered, hordered, except_bind_eq_ok_iff.mpr ⟨blocks, hblocks, rfl⟩⟩⟩

namespace Artifact

/-- A type that needs a binding has one. -/
theorem exists_bindingText_ok (h : r.IsClosed) {t : ParamType} (ht : t ∈ r.paramTypes.values) :
    ∃ text, bindingText r t.name = .ok text := by
  obtain ⟨⟨name, t'⟩, hmem, rfl⟩ := List.mem_map.mp ht
  have hget := NameMap.get?_eq_some_iff.mpr hmem
  rw [bindingText, Registry.paramType?, h.paramTypes hget, hget]
  exact ⟨_, rfl⟩

/-! ### The plan -/

/-- Whether the file is a table of trace flags. -/
def isFlagTable : Artifact → Bool
  | flagScript | flagSource | flagHeader => true
  | _ => false

variable {sources : List ScriptSource} {bindingModules : List String} {withFlags : Bool}
  {info : List EmbeddedFile} {ctx : RenderContext} {a : Artifact}

theorem mem_plan_iff :
    a ∈ plan r sources bindingModules withFlags info ↔
      (∃ n ∈ r.classes.keys, a = interface n)
        ∨ (∃ t ∈ r.paramTypes.values, a = binding t)
        ∨ (∃ n ∈ r.enums.keys, a = enumSource n ∨ a = enumHeader n)
        ∨ a = aggregate r.classes.keys ∨ a = bindingInit bindingModules
        ∨ (withFlags = true ∧ a.isFlagTable = true)
        ∨ a = provenance ∨ a = buildEnv ∨ a = .info info
        ∨ a = objectsInit (objectModules sources) := by
  cases a <;> cases withFlags <;> simp [plan, isFlagTable]

/-- Tables of flags are planned exactly when they are asked for. -/
theorem mem_plan_iff_of_isFlagTable (ha : a.isFlagTable = true) :
    a ∈ plan r sources bindingModules withFlags info ↔ withFlags = true := by
  rw [mem_plan_iff]
  cases a with
  | flagScript | flagSource | flagHeader => simp [isFlagTable]
  | _ => cases ha

/-- **A planned file that is not about flags has a text.** -/
theorem exists_render?_ok (h : ctx.registry.IsClosed)
    (hplan : a ∈ plan ctx.registry sources bindingModules withFlags info)
    (ha : a.isFlagTable = false) : ∃ text, a.render? ctx = .ok text := by
  have henum : ∀ {n}, n ∈ ctx.registry.enums.keys → ∃ e, ctx.registry.enum? n = .ok e := by
    intro n hn
    obtain ⟨e, he⟩ := NameMap.contains_iff_get?.mp (NameMap.contains_iff_mem_keys.mpr hn)
    exact ⟨e, by rw [Registry.enum?, he]⟩
  rcases mem_plan_iff.mp hplan with ⟨n, hn, rfl⟩ | ⟨t, ht, rfl⟩ | ⟨n, hn, rfl | rfl⟩ | rfl | rfl
    | ⟨-, hflag⟩ | rfl | rfl | rfl | rfl
  · obtain ⟨c, hc⟩ := NameMap.contains_iff_get?.mp (NameMap.contains_iff_mem_keys.mpr hn)
    obtain ⟨i, hi⟩ := Interface.exists_ofClass?_ok h hc
    rw [render?, hi]
    exact ⟨_, rfl⟩
  · exact exists_bindingText_ok h ht
  · obtain ⟨e, he⟩ := henum hn
    rw [render?, he]
    exact ⟨_, rfl⟩
  · obtain ⟨e, he⟩ := henum hn
    rw [render?, he]
    exact ⟨_, rfl⟩
  · obtain ⟨aggregate, haggregate⟩ := Aggregate.exists_ofNames?_ok h h.order
    rw [render?, haggregate]
    exact ⟨_, rfl⟩
  · exact ⟨_, rfl⟩
  · rw [hflag] at ha
    cases ha
  all_goals exact ⟨_, rfl⟩

/-- **A table of flags fails exactly as the check of the flags does.** -/
theorem render?_eq_error_iff (ha : a.isFlagTable = true) (f : Failure) :
    a.render? ctx = .error f ↔ TraceFlag.validate? ctx.flags = .error f := by
  have htables : ∀ text : FlagTables → String,
      (FlagTables.ofFlags? ctx.flags).map text = .error f
        ↔ TraceFlag.validate? ctx.flags = .error f := by
    intro text
    rw [FlagTables.ofFlags?]
    cases TraceFlag.validate? ctx.flags with
    | error f' =>
      change (.error f' : Except Failure String) = .error f ↔ _
      rw [Except.error.injEq, Except.error.injEq]
    | ok _ =>
      constructor
      · intro h
        cases h
      · intro h
        cases h
  cases a with
  | flagScript | flagSource | flagHeader => exact htables _
  | _ => cases ha

end Artifact

namespace Registry

/-- **Whatever discovery publishes can be written.** What the parameters of a class refer to is
registered, for its own parameters and for the inherited ones. Hence every planned file has a text,
apart from the tables of flags, which are planned when they are asked for and fail exactly when the
check of the flags fails. -/
theorem discover_renders {host : ModuleTable} {d : Disk} {sources : List ScriptSource}
    {requested : List String} {env : BuildEnv}
    (h : (discover host d sources requested env).1 = .ok r) :
    (∀ name c, r.classes.get? name = some c → ∀ q, q ∈ c.params ∨ q ∈ r.paramsOf name →
      q.type.Known r.enums.contains r.classes.contains) ∧
    ∀ (settings : BuildEnv) (flags : List TraceFlag) (provenance : Provenance)
      (planned : List ScriptSource) (bindingModules : List String) (withFlags : Bool)
      (info : List EmbeddedFile) (a : Artifact),
      let ctx : RenderContext := ⟨r, settings, flags, provenance⟩
      let plan := Artifact.plan r planned bindingModules withFlags info
      (a.isFlagTable = false → a ∈ plan → ∃ text, a.render? ctx = .ok text)
        ∧ (a.isFlagTable = true → (a ∈ plan ↔ withFlags = true)
          ∧ ∀ f, a.render? ctx = .error f ↔ TraceFlag.validate? flags = .error f) := by
  obtain ⟨settings, modules, w, hw, hr⟩ := discover_ok h
  have hclosed := hr.isClosed hw.name_eq hw.root
  constructor
  · intro name c hc q hq
    rcases hq with hq | hq
    · exact hclosed.params hc q hq
    · exact hclosed.allParams name q hq
  · intro settings flags provenance planned bindingModules withFlags info a ctx plan
    constructor
    · intro ha hplan
      have hclosed : ctx.registry.IsClosed := hclosed
      exact Artifact.exists_render?_ok hclosed hplan ha
    · intro ha
      exact ⟨Artifact.mem_plan_iff_of_isFlagTable ha, Artifact.render?_eq_error_iff ha⟩

theorem sample_renders :
    (discover sampleHost (Disk.blank []) [] ["Core"] sampleEnv).1
        = .ok sample
      ∧ (∀ name c, sample.classes.get? name = some c →
        ∀ q, q ∈ c.params ∨ q ∈ sample.paramsOf name →
          q.type.Known sample.enums.contains sample.classes.contains)
      ∧ ∃ text, (Artifact.interface "Core").render? ⟨sample, sampleEnv, [],
        Provenance.unknown⟩ = .ok text := by
  have h := discover_renders discover_sampleHost
  refine ⟨discover_sampleHost, h.1, ?_⟩
  exact (h.2 _ _ _ [] [] false [] (.interface "Core")).1 rfl (by decide)

end Registry

end SimMetadata
