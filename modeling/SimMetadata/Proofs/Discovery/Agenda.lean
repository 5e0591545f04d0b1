import SimMetadata.Proofs.Discovery.Simulation

/-!
# The walk as an agenda

Importing a module registers its manifest, and registering a manifest imports modules. Instead of
calling itself, the walk can keep an agenda of what is left to do: whoever enters a module puts its
registration in front of everything else. The modules under registration at some time are then those
whose end is on the agenda.

What is left to do has a meaning in terms of the recursive walk. Taking the first task off the
agenda, and putting in front what it brings, does not change that meaning. So the agenda comes to
the answer of the recursive walk, if it comes to an end.

## Main definitions

* `Discovery.Task`: one thing that is left to do; `Discovery.registration` are those that
  registering a manifest consists of.
* `Discovery.perform`: what a task does to the walk, and the tasks that it brings.
* `Discovery.Task.run`, `Discovery.runAll`: what a task and an agenda mean.
* `Discovery.carryOut`: the meaning of an agenda, with as large a bound as is needed.

## Main results

* `Discovery.register_eq_runAll`, `Discovery.outcome_explore`: registering a manifest and the whole
  walk are agendas.
* `Discovery.outcome_importModule_of_le`: no bound makes a difference that admits all modules that
  have not been imported.
* `Discovery.carryOut_cons`: the meaning is kept from one task to the next.
-/

namespace SimMetadata

namespace Discovery

variable {d : Disk} {env : BuildEnv} {visit visit' : String → Discovery Bool} {w w' : Walk}
  {name : String} {bound bound' : ℕ}

/-! ### Tasks -/

/-- One thing that is left to do. -/
inductive Task where
  /-- Import a module. If it does not resolve, that is the fault. -/
  | importModule (name : String) (fault : Failure)
  /-- Import the module of a class, unless the class has been declared. -/
  | importClass (className : String)
  /-- The class has to have been declared. -/
  | requireClass (className : String) (fault : Failure)
  /-- Declare what a manifest declares. -/
  | declare (moduleName : String) (m : Manifest)
  /-- Go after the classes that the parameters of some classes refer to. -/
  | refer (classes : List ClassDecl)
  /-- The registration of a module is over. -/
  | leave (moduleName : String)

/-- See to it that the parent of a class is declared. -/
def parentTasks (c : ClassDecl) : List Task :=
  match c.effectiveParent? with
  | none => []
  | some parent => [.importClass parent, .requireClass parent (.unknownParent c.name parent)]

/-- Register a manifest. -/
def registration (moduleName : String) (m : Manifest) : List Task :=
  m.imports.map (fun i => .importModule i (.unresolvedImport i moduleName))
    ++ .declare moduleName m :: m.classes.flatMap parentTasks
    ++ [.refer m.classes, .leave moduleName]

/-- The whole walk, once the environment is known. -/
def agenda (requested : List String) : List Task :=
  .importModule baseModule (.missingRoot baseModule rootClass)
    :: .requireClass rootClass (.missingRoot baseModule rootClass)
    :: (NameSet.ofNames requested).keys.flatMap
      fun n => [.importClass n, .requireClass n (.unresolvedClass n)]

/-- The modules whose registration ends with one of the tasks. -/
def registering (tasks : List Task) : List String :=
  tasks.filterMap fun
    | .leave moduleName => some moduleName
    | _ => none

/-! ### One task at a time -/

/-- Loads a module. The answer is what entering it brings, which is its registration when it has a
manifest and is entered for the first time. -/
def enter (d : Disk) (name : String) : Discovery (Option (List Task)) := do
  match ← load d name with
  | none => return none
  | some found =>
    if name ∈ (← get).unimported then
      modify fun w => { w with unimported := w.unimported.filter (· ≠ name) }
      match found with
      | .manifest _ m => return some (registration name m)
      | _ => return some []
    else return some []

/-- Performs a task. The answer is what has to be done next. -/
def perform (d : Disk) (env : BuildEnv) : Task → Discovery (List Task)
  | .importModule name fault => do
    match ← enter d name with
    | some tasks => return tasks
    | none => throw fault
  | .importClass className => do
    if ← knows className then return []
    else return (← enter d (objectModule className)).getD []
  | .requireClass className fault => do
    if ← knows className then return [] else throw fault
  | .declare moduleName m => do
    declareEnums m.enums
    declareClasses moduleName m.classes
    return []
  | .refer classes => do
    return (referredClasses env (← get).enums.contains classes).map .importClass
  | .leave _ => return []

theorem outcome_enter (d : Disk) (name : String) (w : Walk) :
    outcome (enter d name) w =
      match w.loader.load d name with
      | (.error f, l) => (.error f, { w with loader := l })
      | (.ok none, l) => (.ok none, { w with loader := l })
      | (.ok (some found), l) =>
        if name ∈ w.unimported then
          let begun : Walk :=
            { w with loader := l, unimported := w.unimported.filter (· ≠ name) }
          match found with
          | .manifest _ m => (.ok (some (registration name m)), begun)
          | _ => (.ok (some []), begun)
        else (.ok (some []), { w with loader := l }) := by
  rw [enter, outcome_bind, outcome_load]
  rcases w.loader.load d name with ⟨f | found, l⟩
  · rfl
  · cases found with
    | none => rfl
    | some found =>
      refine (apply_ite (outcome · _) _ _ _).trans (if_congr Iff.rfl ?_ rfl)
      cases found <;> rfl

/-! ### What an agenda means -/

/-- What a task means, given how modules are imported. -/
def Task.run (env : BuildEnv) (visit : String → Discovery Bool) : Task → Discovery Unit
  | .importModule name fault => do
    if ← visit name then pure () else throw fault
  | .importClass className => Discovery.importClass visit className
  | .requireClass className fault => do
    if ← knows className then pure () else throw fault
  | .declare moduleName m => do
    declareEnums m.enums
    declareClasses moduleName m.classes
  | .refer classes => do
    importClasses visit (referredClasses env (← get).enums.contains classes)
  | .leave _ => pure ()

/-- What an agenda means: its tasks in turn. -/
def runAll (env : BuildEnv) (visit : String → Discovery Bool) : List Task → Discovery Unit
  | [] => pure ()
  | t :: ts => do
    t.run env visit
    runAll env visit ts

theorem runAll_append (ts us : List Task) :
    runAll env visit (ts ++ us) = runAll env visit ts >>= fun _ => runAll env visit us := by
  induction ts with
  | nil => rw [List.nil_append, runAll, pure_bind]
  | cons t ts ih => rw [List.cons_append, runAll, runAll, ih, bind_assoc]

theorem runAll_singleton (t : Task) : runAll env visit [t] = t.run env visit :=
  bind_pure _

/-- To fail is to fail before anything else. -/
theorem ite_throw_bind {β : Type} {c : Prop} [Decidable c] (f : Failure) (s : Discovery β) :
    ((if c then pure () else throw f) >>= fun _ => s) = if c then s else throw f := by
  split
  · exact pure_bind _ _
  · rfl

theorem importNamed_eq_runAll (importer : String) (names : List String) :
    importNamed visit importer names
      = runAll env visit (names.map fun i => .importModule i (.unresolvedImport i importer)) := by
  induction names with
  | nil => rfl
  | cons n names ih =>
    rw [importNamed, List.map_cons, runAll, Task.run, bind_assoc, ih]
    exact congrArg _ (funext fun b => (ite_throw_bind _ _).symm)

theorem importParents_eq_runAll (cs : List ClassDecl) :
    importParents visit cs = runAll env visit (cs.flatMap parentTasks) := by
  induction cs with
  | nil => rfl
  | cons c cs ih =>
    rw [importParents, List.flatMap_cons, runAll_append, parentTasks]
    cases c.effectiveParent? with
    | none => exact ih.trans (pure_bind _ _).symm
    | some parent =>
      dsimp only
      rw [runAll, runAll_singleton, Task.run, Task.run, bind_assoc, bind_assoc, ih]
      exact congrArg _ (funext fun _ => congrArg _ (funext fun b => (ite_throw_bind _ _).symm))

theorem importClasses_eq_runAll (names : List String) :
    importClasses visit names = runAll env visit (names.map .importClass) := by
  induction names with
  | nil => rfl
  | cons n names ih => rw [importClasses, List.map_cons, runAll, Task.run, ih]

theorem importRequested_eq_runAll (names : List String) :
    importRequested visit names = runAll env visit
      (names.flatMap fun n => [.importClass n, .requireClass n (.unresolvedClass n)]) := by
  induction names with
  | nil => rfl
  | cons n names ih =>
    rw [importRequested, List.flatMap_cons, runAll_append, runAll, runAll_singleton, Task.run,
      Task.run, bind_assoc, bind_assoc, ih]
    exact congrArg _ (funext fun _ => congrArg _ (funext fun b => (ite_throw_bind _ _).symm))

/-- **Registering a manifest is an agenda.** -/
theorem register_eq_runAll (moduleName : String) (m : Manifest) :
    register env visit moduleName m = runAll env visit (registration moduleName m) := by
  rw [register, importNamed_eq_runAll, registration, List.append_assoc, List.cons_append,
    runAll_append, runAll, runAll_append, importParents_eq_runAll, Task.run, bind_assoc]
  refine congrArg _ (funext fun _ => congrArg _ (funext fun _ => congrArg _ (funext fun _ =>
    congrArg _ (funext fun _ => ?_))))
  rw [runAll, runAll_singleton, Task.run, Task.run]
  exact (bind_pure_unit).symm

/-- **Importing a module is entering it**, and then doing what that brings. -/
theorem outcome_importModule_enter (bound : ℕ) (name : String) (w : Walk) :
    outcome (importModule d env (bound + 1) name) w =
      match outcome (enter d name) w with
      | (.error f, w') => (.error f, w')
      | (.ok none, w') => (.ok false, w')
      | (.ok (some tasks), w') =>
        outcome (runAll env (importModule d env bound) tasks >>= fun _ => pure true) w' := by
  rw [outcome_importModule_succ, outcome_enter]
  rcases w.loader.load d name with ⟨f | _ | found, l⟩
  · rfl
  · rfl
  · dsimp only
    split
    · cases found with
      | manifest p m =>
        dsimp only
        rw [← register_eq_runAll, outcome_bind]
        rcases outcome (register env (importModule d env bound) name m) _ with ⟨f | ⟨⟩, w'⟩ <;> rfl
      | _ => rfl
    · rfl

/-- The ways in which a module is entered: it has been before, or its import begins, and then it is
registered if it has a manifest. -/
theorem enter_ok {tasks : List Task} (h : outcome (enter d name) w = (.ok (some tasks), w')) :
    ∃ found l, w.loader.load d name = (.ok (some found), l)
      ∧ (tasks = [] ∧ w' = { w with loader := l }
        ∨ name ∈ w.unimported
          ∧ w' = { w with loader := l, unimported := w.unimported.filter (· ≠ name) }
          ∧ (tasks = [] ∨ ∃ p m, found = .manifest p m ∧ tasks = registration name m)) := by
  rw [outcome_enter] at h
  rcases hload : w.loader.load d name with ⟨f | _ | found, l⟩
  · rw [hload] at h
    cases h
  · rw [hload] at h
    cases h
  · rw [hload] at h
    refine ⟨found, l, rfl, ?_⟩
    dsimp only at h
    split at h
    · next hmem =>
      refine .inr ⟨hmem, ?_⟩
      cases found with
      | manifest p m =>
        cases h
        exact ⟨rfl, .inr ⟨p, m, rfl, rfl⟩⟩
      | _ =>
        cases h
        exact ⟨rfl, .inl rfl⟩
    · cases h
      exact .inl ⟨rfl, rfl⟩

theorem Stable.enter {P : Walk → Prop} (hP : Stable d P) (name : String) :
    Keeps P (enter d name) := by
  intro w hw
  have hload := hP.load w name hw
  rw [outcome_enter]
  generalize w.loader.load d name = answer at hload ⊢
  obtain ⟨f | _ | found, l⟩ := answer
  · exact hload
  · exact hload
  · dsimp only
    split
    · have hmark := hP.mark _ name hload
      cases found <;> exact hmark
    · exact hload

theorem Stable.perform {P : Walk → Prop} (hP : Stable d P) (t : Task) :
    Keeps P (perform d env t) := by
  cases t with
  | importModule name fault =>
    refine (hP.enter name).bind fun found => ?_
    cases found with
    | none => exact Keeps.throw fault
    | some tasks => exact Keeps.pure tasks
  | importClass className =>
    exact (Keeps.knows className).bind fun _ =>
      Keeps.ite (Keeps.pure []) ((hP.enter _).bind fun _ => Keeps.pure _)
  | requireClass className fault =>
    exact (Keeps.knows className).bind fun _ => Keeps.ite (Keeps.pure []) (Keeps.throw fault)
  | declare moduleName m =>
    exact (hP.declareEnums _).bind fun _ => (hP.declareClasses _ _).bind fun _ => Keeps.pure []
  | refer classes => exact Keeps.get.bind fun _ => Keeps.pure _
  | leave _ => exact Keeps.pure []

/-! ### The bound makes no difference -/

/-- At most so many modules are left to import. -/
def FewLeft (bound : ℕ) (w : Walk) : Prop := w.unimported.length ≤ bound

theorem stable_fewLeft (d : Disk) (bound : ℕ) : Stable d (FewLeft bound) where
  load _ _ h := h
  mark _ _ h := Nat.le_trans (List.length_filter_le _ _) h
  enum _ _ _ h := h
  «class» _ _ _ h := h

/-- A module that is entered for the first time is one less that is left. -/
theorem fewLeft_of_enter {tasks : List Task} (hw : FewLeft (bound + 1) w)
    (h : outcome (enter d name) w = (.ok (some tasks), w')) (htasks : tasks ≠ []) :
    FewLeft bound w' := by
  obtain ⟨found, l, -, ⟨hnil, -⟩ | ⟨hmem, rfl, -⟩⟩ := enter_ok h
  · exact absurd hnil htasks
  · have hlt : (w.unimported.filter (· ≠ name)).length < w.unimported.length :=
      List.length_filter_lt_length_iff_exists.mpr ⟨name, hmem, by simp⟩
    exact Nat.le_of_lt_succ (Nat.lt_of_lt_of_le hlt hw)

/-- One walk, twice, with few modules left. -/
def Same (bound : ℕ) (w w' : Walk) : Prop := w' = w ∧ FewLeft bound w

theorem knowsAlike_same (bound : ℕ) : KnowsAlike (Same bound) := by
  rintro w w' ⟨rfl, -⟩ className
  rfl

theorem agree_self {α : Type} {s : Discovery α} (h : Keeps (FewLeft bound) s) :
    Agree (Same bound) s s := by
  rintro w w' ⟨rfl, hw⟩
  exact ⟨rfl, rfl, h _ hw⟩

/-- To require something is to go on or to fail. -/
theorem agree_require (b : Bool) (f : Failure) :
    Agree (Same bound) (if b then pure () else throw f) (if b then pure () else throw f) := by
  cases b
  · exact Agree.throw f
  · exact Agree.pure ()

section Agree

variable (hv : ∀ name, Agree (Same bound) (visit name) (visit' name))
include hv

theorem Task.agree_run (t : Task) :
    Agree (Same bound) (t.run env visit) (t.run env visit') := by
  have hsame : Congruence (Agree (Same bound)) := Agree.congruence (knowsAlike_same bound)
  have hstable := stable_fewLeft default bound
  cases t with
  | importModule name fault => exact Agree.bind (hv name) fun b => agree_require b fault
  | importClass className => exact hsame.importClass visit visit' hv className
  | requireClass className fault =>
    exact Agree.bind (hsame.knows className) fun b => agree_require b fault
  | declare moduleName m =>
    exact Agree.bind (agree_self (hstable.declareEnums _)) fun _ =>
      agree_self (hstable.declareClasses _ _)
  | refer classes =>
    refine Agree.get_bind ?_
    rintro w w' ⟨rfl, -⟩
    exact hsame.importClasses visit visit' hv _
  | leave _ => exact Agree.pure ()

theorem agree_runAll (ts : List Task) :
    Agree (Same bound) (runAll env visit ts) (runAll env visit' ts) := by
  induction ts with
  | nil => exact Agree.pure ()
  | cons t ts ih => exact Agree.bind (t.agree_run hv) fun _ => ih

end Agree

/-- The import of one module with two bounds, side by side. The induction is on the smaller one. -/
theorem agree_importModule_of_le (h : bound ≤ bound') (name : String) :
    Agree (Same bound) (importModule d env bound name) (importModule d env bound' name) := by
  induction bound generalizing bound' name with
  | zero =>
    rintro w w' ⟨rfl, hw⟩
    have hnone : w'.unimported = [] := List.length_eq_zero_iff.mp (Nat.le_zero.mp hw)
    have houtcome : outcome (importModule d env bound' name) w'
        = outcome (importModule d env 0 name) w' := by
      rw [outcome_importModule_zero]
      cases bound' with
      | zero => rw [outcome_importModule_zero]
      | succ left =>
        rw [outcome_importModule_succ]
        rcases w'.loader.load d name with ⟨f | _ | found, l⟩ <;> simp [hnone, Except.map]
    rw [houtcome, outcome_importModule_zero]
    exact ⟨rfl, rfl, hw⟩
  | succ bound ih =>
    obtain ⟨left, rfl⟩ : ∃ left, bound' = left + 1 := ⟨bound' - 1, by omega⟩
    rintro w w' ⟨rfl, hw⟩
    have hkeeps := (stable_fewLeft d (bound + 1)).enter name w' hw
    rw [outcome_importModule_enter, outcome_importModule_enter]
    rcases henter : outcome (enter d name) w' with ⟨f | _ | tasks, w₁⟩
    · rw [henter] at hkeeps
      exact ⟨rfl, rfl, hkeeps⟩
    · rw [henter] at hkeeps
      exact ⟨rfl, rfl, hkeeps⟩
    · rw [henter] at hkeeps
      rcases eq_or_ne tasks [] with rfl | htasks
      · exact ⟨rfl, rfl, hkeeps⟩
      · -- The bounds that are left admit what is left after the module has been entered.
        have hfew : FewLeft bound w₁ := fewLeft_of_enter hw henter htasks
        have hrest : ∀ n, Agree (Same bound) (importModule d env bound n)
            (importModule d env left n) := fun n => ih (Nat.le_of_succ_le_succ h) n
        have hagree : Agree (Same bound)
            (runAll env (importModule d env bound) tasks >>= fun _ => pure true)
            (runAll env (importModule d env left) tasks >>= fun _ => pure true) :=
          Agree.bind (agree_runAll hrest tasks) fun _ => Agree.pure true
        obtain ⟨hanswer, hwalk, hfew'⟩ := hagree (⟨rfl, hfew⟩ : Same bound w₁ w₁)
        exact ⟨hanswer, hwalk, Nat.le_succ_of_le hfew'⟩

/-- What one walk gives twice, it gives. -/
theorem Agree.outcome_eq {α : Type} {s s' : Discovery α} (h : Agree (Same bound) s s')
    (hw : FewLeft bound w) : outcome s' w = outcome s w :=
  have hboth := h (⟨rfl, hw⟩ : Same bound w w)
  Prod.ext hboth.1 hboth.2.1

/-- **The bound makes no difference**, if it admits all modules that are left. -/
theorem outcome_importModule_of_le (hw : FewLeft bound w) (h : bound ≤ bound') (name : String) :
    outcome (importModule d env bound' name) w = outcome (importModule d env bound name) w :=
  (agree_importModule_of_le h name).outcome_eq hw

/-! ### Carrying out an agenda -/

/-- What an agenda comes to, with as many imports as may be needed. -/
def carryOut (d : Disk) (env : BuildEnv) (tasks : List Task) (w : Walk) :
    Except Failure Unit × Walk :=
  outcome (runAll env (importModule d env w.unimported.length) tasks) w

theorem outcome_runAll (hw : FewLeft bound w) (tasks : List Task) :
    outcome (runAll env (importModule d env bound) tasks) w = carryOut d env tasks w :=
  (agree_runAll (agree_importModule_of_le hw) tasks).outcome_eq (Nat.le_refl _)

/-- The import of a module is to enter it and to carry out what that brings. -/
theorem outcome_importModule_carryOut (hw : FewLeft bound w) (name : String) :
    outcome (importModule d env bound name) w =
      match outcome (enter d name) w with
      | (.error f, w') => (.error f, w')
      | (.ok none, w') => (.ok false, w')
      | (.ok (some tasks), w') =>
        ((carryOut d env tasks w').1.map fun _ => true, (carryOut d env tasks w').2) := by
  have hkeeps := (stable_fewLeft d bound).enter name w hw
  rw [← outcome_importModule_of_le hw (Nat.le_succ bound), outcome_importModule_enter]
  rcases henter : outcome (enter d name) w with ⟨f | _ | tasks, w'⟩
  · rfl
  · rfl
  · rw [henter] at hkeeps
    dsimp only
    rw [outcome_bind, outcome_runAll hkeeps]
    rcases carryOut d env tasks w' with ⟨f | ⟨⟩, w''⟩ <;> rfl

/-- A task means what performing it brings. -/
theorem outcome_run (hw : FewLeft bound w) (t : Task) :
    outcome (t.run env (importModule d env bound)) w =
      match outcome (perform d env t) w with
      | (.error f, w') => (.error f, w')
      | (.ok tasks, w') => carryOut d env tasks w' := by
  cases t with
  | importModule name fault =>
    rw [Task.run, perform, outcome_bind, outcome_bind, outcome_importModule_carryOut hw]
    rcases outcome (enter d name) w with ⟨f | _ | tasks, w'⟩
    · rfl
    · rfl
    · dsimp only
      change _ = carryOut d env tasks w'
      rcases carryOut d env tasks w' with ⟨f | ⟨⟩, w''⟩ <;> rfl
  | importClass className =>
    rw [Task.run, perform, outcome_importClass, outcome_bind, outcome_knows]
    dsimp only
    split
    · rfl
    · rw [outcome_importModule_carryOut hw, outcome_bind]
      rcases outcome (enter d (objectModule className)) w with ⟨f | _ | tasks, w'⟩
      · rfl
      · rfl
      · dsimp only
        change _ = carryOut d env tasks w'
        rcases carryOut d env tasks w' with ⟨f | ⟨⟩, w''⟩ <;> rfl
  | requireClass className fault =>
    rw [Task.run, perform, outcome_bind, outcome_bind, outcome_knows]
    dsimp only
    split <;> rfl
  | declare moduleName m =>
    rw [Task.run, perform, outcome_bind, outcome_bind]
    rcases outcome (declareEnums m.enums) w with ⟨f | ⟨⟩, w'⟩
    · rfl
    · dsimp only
      rw [outcome_bind]
      rcases outcome (declareClasses moduleName m.classes) w' with ⟨f | ⟨⟩, w''⟩ <;> rfl
  | refer classes =>
    change outcome (importClasses _ (referredClasses env w.enums.contains classes)) w
      = carryOut d env ((referredClasses env w.enums.contains classes).map .importClass) w
    rw [importClasses_eq_runAll, outcome_runAll hw]
  | leave _ => rfl

/-- **The meaning of an agenda is kept** when its first task is performed and what that brings is
put in front of the others. -/
theorem carryOut_cons (t : Task) (todo : List Task) (w : Walk) :
    carryOut d env (t :: todo) w =
      match outcome (perform d env t) w with
      | (.error f, w') => (.error f, w')
      | (.ok tasks, w') => carryOut d env (tasks ++ todo) w' := by
  have hkeeps : FewLeft w.unimported.length (outcome (perform d env t) w).2 :=
    (stable_fewLeft d _).perform t w (Nat.le_refl _)
  rw [carryOut, runAll, outcome_bind, outcome_run (Nat.le_refl _)]
  rcases hperform : outcome (perform d env t) w with ⟨f | tasks, w'⟩
  · rfl
  · rw [hperform] at hkeeps
    dsimp only
    rw [← outcome_runAll hkeeps, ← outcome_runAll hkeeps, runAll_append, outcome_bind]

/-- The agenda of the walk, with the modules that it imports in turn. -/
theorem carryOut_agenda (requested : List String) (w : Walk) :
    carryOut d env (agenda requested) w =
      outcome (importModule d env w.unimported.length baseModule >>= fun resolved =>
        knows rootClass >>= fun known =>
          if resolved && known then
            importRequested (importModule d env w.unimported.length)
              (NameSet.ofNames requested).keys
          else throw (.missingRoot baseModule rootClass)) w := by
  rw [carryOut, agenda, runAll, runAll, ← importRequested_eq_runAll, Task.run, Task.run, bind_assoc]
  refine congrArg (outcome · w) (congrArg _ (funext fun resolved => ?_))
  cases resolved
  · rfl
  · rw [if_pos rfl, pure_bind, bind_assoc]
    exact congrArg _ (funext fun known => ite_throw_bind _ _)

/-- **The whole walk is an agenda**, carried out in the environment that is exposed. -/
theorem outcome_explore (d : Disk) (requested : List String) (w : Walk) :
    outcome (explore d requested) w =
      match outcome (exposedEnv d) w with
      | (.error f, w') => (.error f, w')
      | (.ok settings, w') =>
        ((carryOut d settings (agenda requested) w').1.map fun _ => settings,
          (carryOut d settings (agenda requested) w').2) := by
  rw [explore, outcome_bind]
  rcases outcome (exposedEnv d) w with ⟨f | settings, w'⟩
  · rfl
  · let visit := importModule d settings w'.unimported.length
    let rest := importRequested visit (NameSet.ofNames requested).keys
    change outcome (visit baseModule >>= fun resolved => knows rootClass >>= fun known =>
      if resolved && known then rest >>= fun _ => pure settings
      else throw (.missingRoot baseModule rootClass)) w' = _
    dsimp only
    rw [carryOut_agenda, outcome_bind, outcome_bind]
    rcases outcome (visit baseModule) w' with ⟨f | resolved, w₁⟩
    · rfl
    · dsimp only
      rw [outcome_bind, outcome_bind, outcome_knows]
      dsimp only
      split
      · rw [outcome_bind]
        rcases outcome rest w₁ with ⟨f | ⟨⟩, w₂⟩ <;> rfl
      · rfl

end Discovery

end SimMetadata
