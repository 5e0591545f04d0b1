import Mathlib.Data.Prod.Lex
import Mathlib.Order.WellFounded
import SimMetadata.Proofs.Discovery.Agenda
import SimMetadata.Proofs.Discovery.Explore

/-!
# The walk comes to an end

Modules may import each other in circles, themselves among them, and classes may refer back to a
module that is being imported. The walk ends nevertheless, because a module is entered only while it
is among those left to import, and leaves them before anything else is done. `Step` has no bound: it
takes one task off the agenda. Every such step either enters a module or leaves less to do, so there
is no endless sequence of steps, from whatever agenda and walk.

The same books tell how much is registered. No module is registered twice, and the modules under
registration at one time are different modules that resolve.

## Main definitions

* `Discovery.Stage`: a walk and what is left to do.
* `Discovery.Step`, `Discovery.Steps`: one task, and some tasks in turn, with the modules whose
  registration they begin.
* `Discovery.Halts`: nothing is left to do, or the next task fails.
* `Loader.resolving`: the names that resolve.

## Main results

* `Discovery.wellFounded_step`: there is no endless sequence of steps.
* `Discovery.exists_halts`: the steps lead to the answer of the recursive walk.
* `Discovery.Books.steps`: what has been registered, and what is being registered, after some steps.
* `Discovery.explore_terminates`: all of this for a walk from its start.
-/

namespace SimMetadata

/-! ### Names that resolve -/

namespace Loader

variable {l : Loader} {d : Disk} {name : String}

/-- The names that resolve: those of the host, the two that are built in, and those that are mapped
to a file that exists, unless they are reserved. -/
def resolving (l : Loader) (d : Disk) : NameSet :=
  NameSet.ofNames (envModule :: objectsModule :: l.host.keys
    ++ (l.sources.entries.filter fun e => !isReserved e.1 && d.present e.2).map Prod.fst)

/-- A name that stands for a module is one that resolves. -/
theorem mem_resolving {m : Module} (h : l.standsFor? d name = .ok (some m)) :
    name ∈ (l.resolving d).keys := by
  rw [resolving, NameMap.mem_keys_ofNames]
  rw [standsFor?] at h
  cases hh : l.host.get? name with
  | some m' =>
    have hk : name ∈ l.host.keys := NameMap.mem_keys_of_mem_entries (NameMap.get?_eq_some_iff.mp hh)
    simp [hk]
  | none =>
    rw [hh] at h
    cases hr : l.resolve? d name with
    | none =>
      rw [hr] at h
      cases h
    | some r =>
      have hresolves : ¬ l.resolve? d name = none := by simp [hr]
      rw [resolve?_eq_none_iff, not_or, not_and_or, not_and_or] at hresolves
      obtain ⟨hreserved, henv | hobjects | hmapped⟩ := hresolves
      · simp [not_not.mp henv]
      · simp [not_not.mp hobjects]
      · simp only [not_forall, Bool.not_eq_false] at hmapped
        obtain ⟨path, hpath, hpresent⟩ := hmapped
        refine List.mem_append_right _ (List.mem_map.mpr ⟨(name, path), ?_, rfl⟩)
        simp [NameMap.get?_eq_some_iff.mp hpath, hreserved, hpresent]

end Loader

namespace Discovery

variable {d : Disk} {env : BuildEnv} {l : Loader} {w w' : Walk} {t : Task}
  {tasks todo : List Task} {log log' : List String}

/-! ### What a task brings -/

/-- How much there is to do for a task, apart from the modules that it enters. -/
def Task.weight : Task → ℕ
  | .refer classes => (classes.flatMap ClassDecl.params).length + 1
  | _ => 1

/-- How much there is to do for some tasks, apart from the modules that they enter. -/
def weight : List Task → ℕ
  | [] => 0
  | t :: ts => t.weight + weight ts

theorem weight_append (ts us : List Task) : weight (ts ++ us) = weight ts + weight us := by
  induction ts with
  | nil => simp [weight]
  | cons t ts ih =>
    rw [List.cons_append, weight, weight, ih]
    omega

theorem Task.weight_pos (t : Task) : 0 < t.weight := by
  cases t <;> simp [Task.weight]

theorem registering_append (ts us : List Task) :
    registering (ts ++ us) = registering ts ++ registering us :=
  List.filterMap_append

/-- To register a manifest is to begin and end one registration. -/
theorem registering_registration (moduleName : String) (m : Manifest) :
    registering (registration moduleName m) = [moduleName] := by
  have himports : ∀ imports : List String,
      registering (imports.map fun i => .importModule i (.unresolvedImport i moduleName)) = [] := by
    intro imports
    simp [registering]
  have hparents : registering (m.classes.flatMap parentTasks) = [] := by
    simp only [registering, List.filterMap_eq_nil_iff, List.mem_flatMap, parentTasks]
    rintro t ⟨c, -, ht⟩
    split at ht
    · cases ht
    · rcases List.mem_pair.mp ht with rfl | rfl <;> rfl
  rw [registration, registering_append, registering_append, himports, List.nil_append,
    ← List.singleton_append, registering_append, hparents]
  rfl

/-- The ways in which a module is entered, as far as what is left to do goes: it brings nothing, or
its registration. -/
theorem enter_brings {found : Option (List Task)} {name : String}
    (h : outcome (enter d name) w = (.ok found, w')) :
    (found.getD [] = [] ∧ w'.unimported.Sublist w.unimported)
      ∨ ∃ p m, w.loader.standsFor? d name = .ok (some (.manifest p m))
        ∧ name ∈ w.unimported ∧ w'.unimported = w.unimported.filter (· ≠ name)
        ∧ found.getD [] = registration name m := by
  cases found with
  | none =>
    rw [outcome_enter] at h
    rcases hload : w.loader.load d name with ⟨f | _ | found, l⟩
    · rw [hload] at h
      cases h
    · rw [hload] at h
      cases h
      exact .inl ⟨rfl, .refl _⟩
    · rw [hload] at h
      dsimp only at h
      split at h
      · cases found <;> cases h
      · cases h
  | some tasks =>
    obtain ⟨found, l, hload, ⟨rfl, rfl⟩ | ⟨hmem, rfl, rfl | ⟨p, m, rfl, rfl⟩⟩⟩ := enter_ok h
    · exact .inl ⟨rfl, .refl _⟩
    · exact .inl ⟨rfl, List.filter_sublist⟩
    · exact .inr ⟨p, m, (Loader.load_ok hload).1, hmem, rfl, rfl⟩

/-- A class that is referred to is one of a parameter. -/
theorem weight_refer_lt (isEnum : String → Bool) (classes : List ClassDecl) :
    weight ((referredClasses env isEnum classes).map .importClass)
      < (Task.refer classes).weight := by
  have hlength : (referredClasses env isEnum classes).length
      ≤ (classes.flatMap ClassDecl.params).length := List.length_filterMap_le _ _
  have hweight : ∀ names : List String, weight (names.map .importClass) = names.length := by
    intro names
    induction names with
    | nil => rfl
    | cons n names ih =>
      rw [List.map_cons, weight, ih, List.length_cons]
      exact Nat.add_comm 1 names.length
  rw [hweight, Task.weight]
  exact Nat.lt_succ_of_le hlength

/-- The ways in which a task succeeds: it leaves less to do, or a manifest is to be registered
whose module was left to import. -/
theorem perform_ok (h : outcome (perform d env t) w = (.ok tasks, w')) :
    (registering tasks = [] ∧ weight tasks < t.weight ∧ w'.unimported.Sublist w.unimported)
      ∨ ∃ name p m, w.loader.standsFor? d name = .ok (some (.manifest p m))
        ∧ name ∈ w.unimported ∧ w'.unimported = w.unimported.filter (· ≠ name)
        ∧ tasks = registration name m := by
  -- A task that brings nothing leaves less to do.
  have hnothing : registering [] = [] ∧ weight [] < t.weight := ⟨rfl, t.weight_pos⟩
  cases t with
  | importModule name fault =>
    obtain ⟨found, w₁, henter, h⟩ := bind_eq_ok_iff.mp h
    cases found with
    | none => cases h
    | some found =>
      cases h
      rcases enter_brings henter with ⟨hnil, hsub⟩ | ⟨p, m, hstands, hmem, hleft, hfound⟩
      · cases hnil
        exact .inl ⟨hnothing.1, hnothing.2, hsub⟩
      · exact .inr ⟨name, p, m, hstands, hmem, hleft, hfound⟩
  | importClass className =>
    obtain ⟨known, w₁, hknows, h⟩ := bind_eq_ok_iff.mp h
    cases hknows
    split at h
    · cases h
      exact .inl ⟨hnothing.1, hnothing.2, .refl _⟩
    · obtain ⟨found, w₁, henter, h⟩ := bind_eq_ok_iff.mp h
      cases h
      rcases enter_brings henter with ⟨hnil, hsub⟩ | ⟨p, m, hstands, hmem, hleft, hfound⟩
      · rw [hnil]
        exact .inl ⟨hnothing.1, hnothing.2, hsub⟩
      · exact .inr ⟨objectModule className, p, m, hstands, hmem, hleft, hfound⟩
  | requireClass className fault =>
    obtain ⟨known, w₁, hknows, h⟩ := bind_eq_ok_iff.mp h
    cases hknows
    split at h
    · cases h
      exact .inl ⟨hnothing.1, hnothing.2, .refl _⟩
    · cases h
  | declare moduleName m =>
    obtain ⟨⟨⟩, w₁, henums, h⟩ := bind_eq_ok_iff.mp h
    obtain ⟨⟨⟩, w₂, hclasses, h⟩ := bind_eq_ok_iff.mp h
    cases h
    obtain ⟨enums, rfl, -⟩ := declareEnums_ok henums
    obtain ⟨classes, rfl, -⟩ := declareClasses_ok hclasses
    exact .inl ⟨hnothing.1, hnothing.2, .refl _⟩
  | refer classes =>
    cases h
    refine .inl ⟨?_, weight_refer_lt _ classes, .refl _⟩
    simp [registering]
  | leave moduleName =>
    cases h
    exact .inl ⟨hnothing.1, hnothing.2, .refl _⟩

/-! ### Steps -/

/-- A walk and what is left to do. -/
structure Stage where
  walk : Walk
  todo : List Task

/-- One task is performed. The names are the modules whose registration begins. -/
inductive Step (d : Disk) (env : BuildEnv) : Stage → List String → Stage → Prop where
  | perform {w w' : Walk} {t : Task} {tasks todo : List Task}
      (h : outcome (Discovery.perform d env t) w = (.ok tasks, w')) :
      Step d env ⟨w, t :: todo⟩ (registering tasks) ⟨w', tasks ++ todo⟩

/-- Some tasks are performed in turn. The names are the modules whose registration begins, in that
order. -/
inductive Steps (d : Disk) (env : BuildEnv) (s : Stage) : List String → Stage → Prop where
  | refl : Steps d env s [] s
  | step {log new : List String} {s' s'' : Stage} (before : Steps d env s log s')
      (last : Step d env s' new s'') : Steps d env s (log ++ new) s''

/-- There is no next step: nothing is left to do, or the next task fails. -/
inductive Halts (d : Disk) (env : BuildEnv) : Stage → Except Failure Unit × Walk → Prop where
  | done {w : Walk} : Halts d env ⟨w, []⟩ (.ok (), w)
  | failed {w w' : Walk} {t : Task} {todo : List Task} {f : Failure}
      (h : outcome (Discovery.perform d env t) w = (.error f, w')) :
      Halts d env ⟨w, t :: todo⟩ (.error f, w')

variable {s s' s'' : Stage}

theorem Steps.trans (h : Steps d env s log s') (h' : Steps d env s' log' s'') :
    Steps d env s (log ++ log') s'' := by
  induction h' with
  | refl => rwa [List.append_nil]
  | step _ last ih =>
    rw [← List.append_assoc]
    exact ih.step last

/-- **Every step enters a module or leaves less to do.** -/
theorem Step.decreases {new : List String} (h : Step d env s new s') :
    toLex (s'.walk.unimported.length, weight s'.todo)
      < toLex (s.walk.unimported.length, weight s.todo) := by
  obtain @⟨w, w', t, tasks, todo, h⟩ := h
  rw [Prod.Lex.toLex_lt_toLex]
  rcases perform_ok h with ⟨-, hweight, hsub⟩ | ⟨name, p, m, -, hmem, hleft, -⟩
  · have hless : weight (tasks ++ todo) < weight (t :: todo) := by
      rw [weight_append, weight]
      omega
    rcases hsub.length_le.lt_or_eq with hlength | hlength
    · exact .inl hlength
    · exact .inr ⟨hlength, hless⟩
  · rw [hleft]
    exact .inl (List.length_filter_lt_length_iff_exists.mpr ⟨name, hmem, by simp⟩)

/-- **There is no endless sequence of steps.** -/
theorem wellFounded_step (d : Disk) (env : BuildEnv) :
    WellFounded fun s' s : Stage => ∃ new, Step d env s new s' := by
  refine Subrelation.wf ?_ (InvImage.wf
    (fun s : Stage => toLex (s.walk.unimported.length, weight s.todo)) wellFounded_lt)
  rintro s' s ⟨new, h⟩
  exact h.decreases

/-- **The steps lead to the answer of the recursive walk.** -/
theorem exists_halts (d : Disk) (env : BuildEnv) (s : Stage) :
    ∃ log s', Steps d env s log s' ∧ Halts d env s' (carryOut d env s.todo s.walk) := by
  induction s using (wellFounded_step d env).induction with
  | _ s ih =>
  obtain ⟨w, _ | ⟨t, todo⟩⟩ := s
  · exact ⟨[], _, .refl, .done⟩
  · dsimp only
    rw [carryOut_cons]
    rcases h : outcome (perform d env t) w with ⟨f | tasks, w'⟩
    · exact ⟨[], _, .refl, .failed h⟩
    · have hstep : Step d env ⟨w, t :: todo⟩ (registering tasks) ⟨w', tasks ++ todo⟩ := .perform h
      obtain ⟨log, s', hsteps, hhalts⟩ := ih _ ⟨_, hstep⟩
      exact ⟨_, s', (Steps.refl.step hstep).trans hsteps, hhalts⟩

/-! ### What is registered -/

/-- The books of a walk that has begun with the loader: what has been registered resolves and is no
longer left to import, and what is being registered is some of that. -/
structure Books (l : Loader) (d : Disk) (log : List String) (s : Stage) : Prop where
  loads : l.Loads d s.walk.loader
  nodup : (log ++ s.walk.unimported).Nodup
  resolving : log ⊆ (l.resolving d).keys
  registering_nodup : (registering s.todo).Nodup
  registering_subset : registering s.todo ⊆ log

/-- Once the environment is known, nothing has been registered. -/
theorem Books.start {settings : BuildEnv} (requested : List String)
    (h : outcome (exposedEnv d) (Walk.start l) = (.ok settings, w)) :
    Books l d [] ⟨w, agenda requested⟩ := by
  obtain ⟨-, rfl⟩ := exposedEnv_ok h
  have hnone : registering (agenda requested) = [] := by
    simp [registering, agenda, List.filterMap_flatMap]
  refine ⟨Loader.loads_load l d envModule, l.resolvable.keys_nodup, List.nil_subset _, ?_, ?_⟩
  · rw [hnone]
    exact List.nodup_nil
  · rw [hnone]
    exact List.nil_subset _

/-- A task that is taken off can only be the end of a registration. -/
theorem Books.tail (h : Books l d log ⟨w, t :: todo⟩) : Books l d log ⟨w, todo⟩ := by
  have hrest : (registering todo).Sublist (registering (t :: todo)) :=
    (List.sublist_cons_self t todo).filterMap _
  exact ⟨h.loads, h.nodup, h.resolving, hrest.nodup h.registering_nodup,
    List.Subset.trans hrest.subset h.registering_subset⟩

/-- Nothing is registered. -/
theorem Books.pass (h : Books l d log ⟨w, todo⟩) (hloads : l.Loads d w'.loader)
    (hnone : registering tasks = []) (hsub : w'.unimported.Sublist w.unimported) :
    Books l d log ⟨w', tasks ++ todo⟩ := by
  have hsame : registering (tasks ++ todo) = registering todo := by
    rw [registering_append, hnone, List.nil_append]
  refine ⟨hloads, (hsub.append_left log).nodup h.nodup, h.resolving, ?_, ?_⟩
  · rw [hsame]
    exact h.registering_nodup
  · rw [hsame]
    exact h.registering_subset

/-- A module is registered that was left to import, so it has not been registered before. -/
theorem Books.register {name : String} {p : Path} {m : Manifest}
    (h : Books l d log ⟨w, todo⟩) (hloads : l.Loads d w'.loader)
    (hstands : w.loader.standsFor? d name = .ok (some (.manifest p m)))
    (hmem : name ∈ w.unimported) (hleft : w'.unimported = w.unimported.filter (· ≠ name)) :
    Books l d (log ++ [name]) ⟨w', registration name m ++ todo⟩ := by
  obtain ⟨-, hunimported, hdisjoint⟩ := List.nodup_append'.mp h.nodup
  have hnew : name ∉ log := fun hold => hdisjoint hold hmem
  have hresolves : name ∈ (l.resolving d).keys := by
    rw [h.loads.standsFor?_eq] at hstands
    exact Loader.mem_resolving hstands
  have hone : registering (registration name m ++ todo) = name :: registering todo := by
    rw [registering_append, registering_registration, List.singleton_append]
  refine ⟨hloads, ?_, ?_, ?_, ?_⟩
  · rw [hleft, List.append_assoc]
    exact ((perm_cons_filter_ne hunimported hmem).append_left log).nodup_iff.mp h.nodup
  · exact List.append_subset.mpr ⟨h.resolving, List.cons_subset.mpr ⟨hresolves, List.nil_subset _⟩⟩
  · rw [hone]
    exact List.nodup_cons.mpr ⟨fun hold => hnew (h.registering_subset hold), h.registering_nodup⟩
  · rw [hone]
    refine List.cons_subset.mpr ⟨by simp, fun n hn => ?_⟩
    exact List.mem_append_left _ (h.registering_subset hn)

/-- **The books are kept by every step.** -/
theorem Books.step {new : List String} (h : Books l d log s) (hstep : Step d env s new s') :
    Books l d (log ++ new) s' := by
  obtain @⟨w, w', t, tasks, todo, hperform⟩ := hstep
  have hkeeps : Keeps (fun w => l.Loads d w.loader) (perform d env t) :=
    (stable_loads l d).perform t
  have hloads := hkeeps w h.loads
  rw [hperform] at hloads
  rcases perform_ok hperform with ⟨hnone, -, hsub⟩ | ⟨name, p, m, hstands, hmem, hleft, rfl⟩
  · rw [hnone, List.append_nil]
    exact h.tail.pass hloads hnone hsub
  · rw [registering_registration]
    exact h.tail.register hloads hstands hmem hleft

/-- **The books are kept along a walk.** -/
theorem Books.steps (h : Books l d log s) (hsteps : Steps d env s log' s') :
    Books l d (log ++ log') s' := by
  induction hsteps with
  | refl => rwa [List.append_nil]
  | step _ last ih =>
    rw [← List.append_assoc]
    exact ih.step last

/-- No more modules are under registration than resolve. -/
theorem Books.length_registering_le (h : Books l d log s) :
    (registering s.todo).length ≤ (l.resolving d).size := by
  have hsub : registering s.todo ⊆ (l.resolving d).keys :=
    List.Subset.trans h.registering_subset h.resolving
  have hlength := (List.subperm_of_subset h.registering_nodup hsub).length_le
  rwa [NameMap.keys, List.length_map] at hlength

/-- **The walk comes to an end**, over any host, mapping and manifests: there is no endless sequence
of steps, and the steps from the start of the walk lead to the answer of the recursive walk. At
every stage no module has been registered twice, and the modules under registration are different
ones, no more than there are names that resolve. -/
theorem explore_terminates (host : ModuleTable) (mapping : List (String × Path)) (env : BuildEnv)
    (d : Disk) (requested : List String) :
    let l := Loader.install host mapping env
    match outcome (exposedEnv d) (Walk.start l) with
    | (.error f, w) => outcome (explore d requested) (Walk.start l) = (.error f, w)
    | (.ok settings, w) =>
      (WellFounded fun s' s : Stage => ∃ new, Step d settings s new s')
        ∧ (∃ log s answer w', Steps d settings ⟨w, agenda requested⟩ log s
          ∧ Halts d settings s (answer, w')
          ∧ outcome (explore d requested) (Walk.start l) = (answer.map fun _ => settings, w'))
        ∧ ∀ log s, Steps d settings ⟨w, agenda requested⟩ log s →
          log.Nodup ∧ (registering s.todo).Nodup ∧ registering s.todo ⊆ log
            ∧ (registering s.todo).length ≤ (l.resolving d).size := by
  intro l
  rw [outcome_explore]
  rcases henv : outcome (exposedEnv d) (Walk.start l) with ⟨f | settings, w⟩
  · rfl
  · dsimp only
    refine ⟨wellFounded_step d settings, ?_, fun log s hsteps => ?_⟩
    · obtain ⟨log, s, hsteps, hhalts⟩ := exists_halts d settings ⟨w, agenda requested⟩
      exact ⟨log, s, _, _, hsteps, hhalts, rfl⟩
    · have hbooks : Books l d ([] ++ log) s := (Books.start requested henv).steps hsteps
      rw [List.nil_append] at hbooks
      exact ⟨hbooks.nodup.of_append_left, hbooks.registering_nodup, hbooks.registering_subset,
        hbooks.length_registering_le⟩

end Discovery

end SimMetadata
