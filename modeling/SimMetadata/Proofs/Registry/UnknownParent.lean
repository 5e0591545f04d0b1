import SimMetadata.Proofs.Discovery.Breakdown
import SimMetadata.Proofs.Discovery.Explore
import SimMetadata.Proofs.Registry.Assembly

/-!
# Parents that are not found

Discovery looks for the parent of a class as soon as the class has been declared. A module that is
being imported declares its own classes only after the modules that it names, so while it waits for
one of those its classes are not known, although its import has begun. A class further down that
derives from one of them is refused as one with an unknown parent. The module then lies on the way:
it waits for an import that led to the class. This is the only way in which a parent that is
declared can be missed.

## Main definitions

* `Discovery.DeclaresUnder`, `Discovery.Awaits`: the class that is refused, and a module that waits
  for an import that leads to it.
* `Discovery.BreaksOff`: the books of a walk that stops at a class whose parent is unknown.

## Main results

* `Discovery.breaksOff_importModule`, `Discovery.explore_breaksOff`: such a walk keeps these books.
* `Registry.discover_unknownParent`: a parent that is reported as unknown is declared by no module
  whose import has begun, other than those that wait for an import that led to the class.
* `Registry.circle_unknownParent`: a parent that is reported as unknown although a module that is
  being imported declares it, where the same classes are found from the other end.

## Implementation notes

`Progress` counts the modules that have declared something. A module that waits has begun and is not
among them, so the books have a third list.
-/

namespace SimMetadata

namespace Discovery

variable {l : Loader} {d : Disk} {env settings : BuildEnv} {origin : String → Prop}
  {bound : ℕ} {visit : String → Discovery Bool} {w w' w'' : Walk}
  {className parent name : String} {done done' waiting requested : List String}

/-! ### Books with modules that wait -/

/-- The module declares a class of that name which derives from that parent. -/
def DeclaresUnder (source : String → Option Manifest) (className parent m : String) : Prop :=
  ∃ mf, source m = some mf ∧ ∃ c ∈ mf.classes, c.name = className
    ∧ c.effectiveParent? = some parent

/-- Some module that the manifest names leads to the other module. -/
def Awaits (source : String → Option Manifest) (env : BuildEnv) (m other : String) : Prop :=
  ∃ mf, source m = some mf ∧ ∃ i ∈ mf.imports, Relation.ReflTransGen (LeadsTo source env) i other

/-- The parent of a class is missing. A module that has declared its classes declares this one, and
all modules that wait do so for an import that leads there. -/
structure Blocked (l : Loader) (d : Disk) (env : BuildEnv) (className parent : String)
    (done waiting : List String) (w : Walk) : Prop where
  missing : w.classes.contains parent = false
  orphan : ∃ m ∈ done, DeclaresUnder (l.manifest? d) className parent m
    ∧ ∀ x ∈ waiting, Awaits (l.manifest? d) env x m

theorem Blocked.mono (h : Blocked l d env className parent done waiting w)
    (hsub : done ⊆ done') : Blocked l d env className parent done' waiting w := by
  obtain ⟨hmissing, m, hm, hrest⟩ := h
  exact ⟨hmissing, m, hsub hm, hrest⟩

/-- The walk stops at a class whose parent is unknown. Every module that has begun has declared its
classes or waits. -/
def BreaksOff (l : Loader) (d : Disk) (env : BuildEnv) (origin : String → Prop)
    (className parent : String) (w w' : Walk) : Prop :=
  ∃ begun done waiting, Progress l d env origin begun done w w' ∧ begun.Perm (done ++ waiting)
    ∧ Blocked l d env className parent done waiting w'

theorem Completes.breaksOff (h₁ : Completes l d env origin w w')
    (h₂ : BreaksOff l d env origin className parent w' w'') :
    BreaksOff l d env origin className parent w w'' := by
  obtain ⟨begun₁, done₁, hprogress₁, hperm₁⟩ := h₁
  obtain ⟨begun₂, done₂, waiting, hprogress₂, hperm₂, hblocked⟩ := h₂
  refine ⟨_, _, waiting, hprogress₁.trans hprogress₂, ?_,
    hblocked.mono (List.subset_append_right _ _)⟩
  rw [List.append_assoc]
  exact hperm₁.append hperm₂

/-! ### The walk -/

/-- What the functions over lists ask of the import of one module that breaks off. -/
def VisitsOrBreaksOff (l : Loader) (d : Disk) (env : BuildEnv) (className parent : String)
    (bound : ℕ) (visit : String → Discovery Bool) : Prop :=
  ∀ ⦃origin : String → Prop⦄ ⦃name : String⦄ ⦃w w' : Walk⦄, Ready l d bound w → origin name →
    outcome (visit name) w = (.error (.unknownParent className parent), w') →
      BreaksOff l d env origin className parent w w'

section Register

variable (hv : Visits l d env bound visit)
  (hb : VisitsOrBreaksOff l d env className parent bound visit) (hw : Ready l d bound w)
include hv hb hw

/-- A module whose own imports break off waits for the one that does. -/
theorem importNamed_breaksOff {mf : Manifest} (hm : l.manifest? d name = some mf)
    (h : outcome (importNamed visit name mf.imports) w
      = (.error (.unknownParent className parent), w')) :
    ∃ begun done waiting, Progress l d env (LeadsTo (l.manifest? d) env name) begun done w w'
      ∧ begun.Perm (done ++ waiting)
      ∧ Blocked l d env className parent done (name :: waiting) w' := by
  have horigin : ∀ i ∈ mf.imports, LeadsTo (l.manifest? d) env name i :=
    fun i hi => .named hm hi
  obtain ⟨i, hi, w₁, hfirst, hvisit | hown⟩ := importNamed_error hv hw horigin h
  · -- Everything that begins from here on is reached from the import `i`.
    have hbreaks : BreaksOff l d env (· = i) className parent w₁ w' :=
      hb (hw.completes hfirst) rfl hvisit
    obtain ⟨begun₂, done₂, waiting, hprogress₂, hperm₂, hblocked⟩ := hbreaks
    obtain ⟨hmissing, m, hmem, hdeclares, hawaits⟩ := hblocked
    obtain ⟨s, rfl, hpath⟩ :=
      hprogress₂.reached m (hperm₂.symm.subset (List.mem_append_left _ hmem))
    obtain ⟨begun₁, done₁, hprogress₁, hperm₁⟩ := hfirst
    have hprogress₂' : Progress l d env (LeadsTo (l.manifest? d) env name) begun₂ done₂ w₁ w' :=
      hprogress₂.mono fun s' hs' => ⟨s', hs' ▸ horigin s hi, .refl⟩
    refine ⟨_, _, waiting, hprogress₁.trans hprogress₂', ?_, hmissing, m,
      List.mem_append_right _ hmem, hdeclares, List.forall_mem_cons.mpr ⟨?_, hawaits⟩⟩
    · rw [List.append_assoc]
      exact hperm₁.append hperm₂
    · exact ⟨mf, hm, s, hi, hpath⟩
  · cases hown

/-- After a manifest has been declared, the walk breaks off at a class of its own or further on. -/
theorem importParents_breaksOff {mf : Manifest} (hm : l.manifest? d name = some mf)
    (h : outcome (importParents visit mf.classes) w
      = (.error (.unknownParent className parent), w')) :
    ∃ begun done waiting, Progress l d env (LeadsTo (l.manifest? d) env name) begun done w w'
      ∧ begun.Perm (done ++ waiting)
      ∧ Blocked l d env className parent (name :: done) waiting w' := by
  have horigin : ∀ c ∈ mf.classes, ∀ p, c.effectiveParent? = some p →
      LeadsTo (l.manifest? d) env name (objectModule p) := fun c hc p hp => .parent hm hc hp
  obtain ⟨c, hc, p, hp, w₁, hfirst, hvisit | ⟨rfl, hmissing, hown⟩⟩ :=
    importParents_error hv hw horigin h
  · obtain ⟨begun, done, waiting, hprogress, hperm, hblocked⟩ :=
      hfirst.breaksOff (hb (hw.completes hfirst) (horigin c hc p hp) hvisit)
    exact ⟨begun, done, waiting, hprogress, hperm, hblocked.mono (List.subset_cons_self _ _)⟩
  · cases hown
    obtain ⟨begun, done, hprogress, hperm⟩ := hfirst
    refine ⟨begun, done, [], hprogress, by rwa [List.append_nil], hmissing, name,
      List.mem_cons_self, ⟨mf, hm, c, hc, rfl, hp⟩, by simp⟩

theorem register_breaksOff {mf : Manifest} (hm : l.manifest? d name = some mf)
    (h : outcome (register env visit name mf) w
      = (.error (.unknownParent className parent), w')) :
    ∃ begun done waiting, Progress l d env (LeadsTo (l.manifest? d) env name) begun done w w'
      ∧ (name :: begun).Perm (done ++ waiting)
      ∧ Blocked l d env className parent done waiting w' := by
  rcases bind_eq_error_iff.mp h with hnamed | ⟨⟨⟩, w₁, hnamed, h⟩
  · obtain ⟨begun, done, waiting, hprogress, hperm, hblocked⟩ :=
      importNamed_breaksOff hv hb hw hm hnamed
    exact ⟨begun, done, name :: waiting, hprogress,
      (hperm.cons name).trans List.perm_middle.symm, hblocked⟩
  rcases bind_eq_error_iff.mp h with henums | ⟨⟨⟩, w₂, henums, h⟩
  · obtain ⟨_, ⟨⟩⟩ | ⟨_, _, ⟨⟩⟩ := declareEnums_error henums
  rcases bind_eq_error_iff.mp h with hclasses | ⟨⟨⟩, w₃, hclasses, h⟩
  · obtain ⟨_, _, ⟨⟩⟩ := declareClasses_error hclasses
  obtain ⟨begun₁, done₁, hprogress₁, hperm₁⟩ := declarations_ok hv hw hm hnamed henums hclasses
  have hw₃ := hw.progress hprogress₁
  obtain ⟨begun₂, done₂, waiting, hprogress₂, hperm₂, hblocked⟩ :
      ∃ begun done waiting, Progress l d env (LeadsTo (l.manifest? d) env name) begun done w₃ w'
        ∧ begun.Perm (done ++ waiting)
        ∧ Blocked l d env className parent (name :: done) waiting w' := by
    rcases bind_eq_error_iff.mp h with hparents | ⟨⟨⟩, w₄, hparents, h⟩
    · exact importParents_breaksOff hv hb hw₃ hm hparents
    rcases bind_eq_error_iff.mp h with hget | ⟨w₄', w₄'', hget, hreferred⟩
    · cases hget
    cases hget
    have hfourth : Completes l d env (LeadsTo (l.manifest? d) env name) w₃ w₄ :=
      importParents_ok hv hw₃ (fun c hc p hp => LeadsTo.parent hm hc hp) hparents
    have hw₄ := hw₃.completes hfourth
    have horigin : ∀ n ∈ referredClasses env w₄.enums.contains mf.classes,
        LeadsTo (l.manifest? d) env name (objectModule n) :=
      fun n hn => leadsTo_of_mem_referredClasses hm hn
    obtain ⟨n, hn, w₅, hfifth, hvisit⟩ := importClasses_error hv hw₄ horigin hreferred
    have hw₅ := hw₄.completes hfifth
    obtain ⟨begun, done, waiting, hprogress, hperm, hblocked⟩ :=
      (hfourth.trans hfifth).breaksOff (hb hw₅ (horigin n hn) hvisit)
    exact ⟨begun, done, waiting, hprogress, hperm, hblocked.mono (List.subset_cons_self _ _)⟩
  refine ⟨_, _, waiting, hprogress₁.trans hprogress₂, ?_, hblocked.mono ?_⟩
  · rw [List.append_assoc, List.append_assoc, List.singleton_append]
    exact ((hperm₁.append hperm₂).cons name).trans List.perm_middle.symm
  · rw [List.append_assoc, List.singleton_append]
    exact List.subset_append_right _ _

end Register

/-- **Importing a module keeps the books when it breaks off.** The induction is on the bound, as for
imports that succeed. -/
theorem breaksOff_importModule (l : Loader) (d : Disk) (env : BuildEnv)
    (className parent : String) (bound : ℕ) :
    VisitsOrBreaksOff l d env className parent bound (importModule d env bound) := by
  induction bound with
  | zero =>
    intro origin name w w' _ _ h
    rw [outcome_importModule_zero] at h
    rcases hanswer : w.loader.load d name with ⟨f | found, l'⟩
    · rw [hanswer] at h
      cases h
      obtain ⟨_, ⟨⟩⟩ | ⟨_, _, ⟨⟩⟩ := Loader.loadChain_error hanswer
    · rw [hanswer] at h
      cases h
  | succ bound ih =>
    intro origin name w w' hw horigin h
    have hload : Progress l d env origin [] [] w { w with loader := (w.loader.load d name).2 } :=
      .load w name
    rw [outcome_importModule_succ] at h
    rcases hanswer : w.loader.load d name with ⟨f | found, l'⟩
    · rw [hanswer] at h
      cases h
      obtain ⟨_, ⟨⟩⟩ | ⟨_, _, ⟨⟩⟩ := Loader.loadChain_error hanswer
    rw [hanswer] at h hload
    cases found with
    | none => cases h
    | some found =>
      have hfound : l.standsFor? d name = .ok (some found) := hw.standsFor?_of_load hanswer
      dsimp only at h hload
      split at h
      · next hnew =>
        have hmark := hload.trans (Progress.mark hw.nodup hnew hfound horigin)
        cases found with
        | manifest p mf =>
          have hm : l.manifest? d name = some mf := Loader.manifest?_eq_some_iff.mpr ⟨p, hfound⟩
          dsimp only at h
          split at h
          · next hregister =>
            cases h
            obtain ⟨begun, done, waiting, hprogress, hperm, hblocked⟩ :=
              register_breaksOff (visits_importModule l d env bound) ih (hw.mark hmark) hm hregister
            exact ⟨_, _, waiting,
              hmark.trans (hprogress.mono fun s hs => ⟨name, horigin, .single hs⟩), hperm, hblocked⟩
          · cases h
        | _ => cases h
      · cases h

theorem exposedEnv_error {f : Failure} (h : outcome (exposedEnv d) w = (.error f, w')) :
    (∃ path, f = .manifest path) ∨ (∃ path fault, f = .io path fault)
      ∨ ∃ fault, f = .malformedEnv fault := by
  rcases bind_eq_error_iff.mp h with h | ⟨found, w₁, -, h⟩
  · exact (load_error h).imp_right .inl
  · split at h
    · cases h
    · cases h
      exact .inr (.inr ⟨_, rfl⟩)

/-- **Discovery keeps the books when it breaks off.** -/
theorem explore_breaksOff
    (h : outcome (explore d requested) (Walk.start l)
      = (.error (.unknownParent className parent), w)) :
    ∃ settings, l.standsFor? d envModule = .ok (some (.env settings))
      ∧ BreaksOff l d settings (Starts requested) className parent (Walk.start l) w := by
  rcases bind_eq_error_iff.mp h with henv | ⟨env, w₁, henv, h⟩
  · obtain ⟨_, ⟨⟩⟩ | ⟨_, _, ⟨⟩⟩ | ⟨_, ⟨⟩⟩ := exposedEnv_error henv
  obtain ⟨hexposed, rfl⟩ := exposedEnv_ok henv
  refine ⟨env, hexposed, ?_⟩
  have hready : Ready l d (Walk.start l).unimported.length (Walk.start l) :=
    ⟨.refl, l.resolvable.keys_nodup, Nat.le_refl _⟩
  have hvisits := visits_importModule l d env (Walk.start l).unimported.length
  have hbreaks :=
    breaksOff_importModule l d env className parent (Walk.start l).unimported.length
  have hload : Completes l d env (Starts requested) (Walk.start l) _ :=
    ⟨_, _, .load _ envModule, .refl _⟩
  have hready₁ := hready.completes hload
  refine hload.breaksOff ?_
  rcases bind_eq_error_iff.mp h with hget | ⟨w₁', w₁'', hget, h⟩
  · cases hget
  cases hget
  have hstarts : Starts requested baseModule := .inl rfl
  rcases bind_eq_error_iff.mp h with hbase | ⟨resolved, w₂, hbase, h⟩
  · exact hbreaks hready₁ hstarts hbase
  obtain ⟨hfirst, -⟩ := hvisits hready₁ hstarts hbase
  rcases bind_eq_error_iff.mp h with hknows | ⟨known, w₂', hknows, h⟩
  · cases hknows
  cases hknows
  split at h
  · rcases bind_eq_error_iff.mp h with hrequested | ⟨⟨⟩, w₃, -, h⟩
    · have horigin : ∀ n ∈ (NameSet.ofNames requested).keys, Starts requested (objectModule n) :=
        fun n hn => .inr ⟨n, NameMap.mem_keys_ofNames.mp hn, rfl⟩
      have hready₂ := hready₁.completes hfirst
      obtain ⟨n, hn, w₃, hsecond, hvisit | ⟨-, -, hown⟩⟩ :=
        importRequested_error hvisits hready₂ horigin hrequested
      · have hready₃ := hready₂.completes hsecond
        exact (hfirst.trans hsecond).breaksOff (hbreaks hready₃ (horigin n hn) hvisit)
      · cases hown
    · cases h
  · cases h

/-- Of the modules that have begun, only those that wait can declare the parent. -/
theorem BreaksOff.exists_orphan
    (h : BreaksOff l d settings origin className parent (Walk.start l) w) :
    ∃ orphan, Imported l d w orphan ∧ DeclaresUnder (l.manifest? d) className parent orphan
      ∧ ∀ m mf, Imported l d w m → l.manifest? d m = some mf →
        parent ∈ mf.classes.map ClassDecl.name → Awaits (l.manifest? d) settings m orphan := by
  obtain ⟨begun, done, waiting, hprogress, hperm, hmissing, orphan, hmem, hdeclares, hawaits⟩ := h
  have hunimported : l.resolvable.keys.Perm (begun ++ w.unimported) := hprogress.unimported
  have hdisjoint : begun.Disjoint w.unimported :=
    List.disjoint_of_nodup_append (hunimported.nodup_iff.mp l.resolvable.keys_nodup)
  have horphan : orphan ∈ begun := hperm.symm.subset (List.mem_append_left _ hmem)
  refine ⟨orphan, ⟨hprogress.resolved orphan horphan, hdisjoint horphan⟩, hdeclares, ?_⟩
  rintro m mf ⟨⟨x, hx⟩, hnot⟩ hmf hparent
  have hbegun : m ∈ begun :=
    (List.mem_append.mp (hunimported.subset (Loader.mem_resolvable hx))).resolve_right hnot
  rcases List.mem_append.mp (hperm.subset hbegun) with hdone | hwaiting
  · -- The classes of such a module are known, and the parent is not.
    obtain ⟨c, hc, rfl⟩ := List.mem_map.mp hparent
    rw [hprogress.contains_declared hdone hmf hc] at hmissing
    cases hmissing
  · exact hawaits m hwaiting

end Discovery

namespace Registry

open Discovery (outcome explore Imported DeclaresUnder Awaits)

variable {host : ModuleTable} {d : Disk} {sources : List ScriptSource} {requested : List String}
  {env : BuildEnv} {className parent : String}

/-- **A parent that is reported as unknown is declared by no module that has been imported.** A
module whose import has begun can declare it only if it still waits for a module that its manifest
names, from which the walk came to the class in question. -/
theorem discover_unknownParent
    (h : (discover host d sources requested env).1 = .error (.unknownParent className parent)) :
    let l := initialLoader host sources env
    let w := (outcome (explore d requested) (Walk.start l)).2
    ∃ settings, l.standsFor? d envModule = .ok (some (.env settings))
      ∧ ∃ orphan, Imported l d w orphan ∧ DeclaresUnder (l.manifest? d) className parent orphan
        ∧ ∀ m mf, Imported l d w m → l.manifest? d m = some mf →
          parent ∈ mf.classes.map ClassDecl.name → Awaits (l.manifest? d) settings m orphan := by
  rw [discover_fst] at h
  rcases except_bind_eq_error_iff.mp h with hwalk | ⟨settings, -, hassemble⟩
  · obtain ⟨settings, hexposed, hbreaks⟩ := Discovery.explore_breaksOff (Prod.ext hwalk rfl)
    exact ⟨settings, hexposed, hbreaks.exists_orphan⟩
  · rcases assemble?_error hassemble with ⟨name, c, -, hc⟩ | ⟨n, hf | hf⟩
    · obtain ⟨p, -, ⟨key, hf⟩ | hf | hf⟩ := Declared.resolve?_error hc <;> cases hf
    · cases hf
    · cases hf

/-! ### Two modules that need each other

One module imports the other, which derives a class from one of the first. Asked for the second,
discovery finds both. Asked for the first, it enters the first and is sent to the second before it
has declared anything. -/

def circleHost : ModuleTable := NameMap.ofList
  [("runtime", .manifest ⟨"runtime.toml"⟩
      { imports := []
        enums := []
        classes := [⟨"SimObject", none, true, none, none, none, []⟩] }),
    ("objects.A", .manifest ⟨"a.toml"⟩
      { imports := ["objects.B"]
        enums := []
        classes := [⟨"A", none, false, none, none, none, []⟩] }),
    ("objects.B", .manifest ⟨"b.toml"⟩
      { imports := []
        enums := []
        classes := [⟨"B", some "A", false, none, none, none, []⟩] })]

theorem discover_circleHost :
    (discover circleHost (Disk.blank []) [] ["A"] BuildEnv.empty).1
      = .error (.unknownParent "B" "A") := by
  decide +kernel

/-- The parent is reported as unknown although its module is being imported and declares it. -/
theorem circle_unknownParent :
    let l := initialLoader circleHost [] BuildEnv.empty
    let w := (outcome (explore (Disk.blank []) ["A"]) (Walk.start l)).2
    (discover circleHost (Disk.blank []) [] ["A"] BuildEnv.empty).1
        = .error (.unknownParent "B" "A")
      ∧ Imported l (Disk.blank []) w "objects.A"
      ∧ (∃ mf, l.manifest? (Disk.blank []) "objects.A" = some mf
        ∧ "A" ∈ mf.classes.map ClassDecl.name)
      ∧ ∃ r, (discover circleHost (Disk.blank []) [] ["B"] BuildEnv.empty).1 = .ok r
        ∧ r.classes.keys = ["A", "B", "SimObject"] := by
  refine ⟨discover_circleHost, ⟨⟨_, rfl⟩, by decide +kernel⟩, ⟨_, rfl, by decide⟩, _, rfl, ?_⟩
  decide +kernel

theorem circle_exists_orphan :
    let l := initialLoader circleHost [] BuildEnv.empty
    let w := (outcome (explore (Disk.blank []) ["A"]) (Walk.start l)).2
    (discover circleHost (Disk.blank []) [] ["A"] BuildEnv.empty).1
        = .error (.unknownParent "B" "A")
      ∧ ∃ settings, l.standsFor? (Disk.blank []) envModule = .ok (some (.env settings))
        ∧ ∃ orphan, Imported l (Disk.blank []) w orphan
          ∧ DeclaresUnder (l.manifest? (Disk.blank [])) "B" "A" orphan
          ∧ ∀ m mf, Imported l (Disk.blank []) w m → l.manifest? (Disk.blank []) m = some mf →
            "A" ∈ mf.classes.map ClassDecl.name →
              Awaits (l.manifest? (Disk.blank [])) settings m orphan :=
  ⟨discover_circleHost, discover_unknownParent discover_circleHost⟩

end Registry

end SimMetadata
