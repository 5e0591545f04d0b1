import SimMetadata.Proofs.Discovery.Congruence
import SimMetadata.Proofs.Loader

/-!
# The walk, step by step

A step of discovery is a function of the walk so far. `outcome` gives its answer and the walk that
it leaves behind, and each step of discovery has one equation for it here, in which no trace of
the monad is left. Later modules reason from these equations.

## Main results

* `Discovery.bind_eq_ok_iff`, `Discovery.bind_eq_error_iff`: a sequence of two steps succeeds
  exactly when both do, and fails as one of them does.
* `Discovery.outcome_importModule_succ`: what importing a module does.
* `Discovery.Stable.explore`: what loading, marking and declaring keep, the whole walk keeps,
  whether it succeeds or not.
* `Discovery.loads_explore`: all that discovery does to the loader is loading.

## Implementation notes

The functions that go over a list take the import of one module as an argument. Their lemmas are
stated for any such step that has the property in question, so that the recursion on the bound is
met once only, in the lemma about `importModule`.
-/

namespace SimMetadata

namespace Discovery

variable {α β : Type} {d : Disk} {env : BuildEnv} {visit : String → Discovery Bool}
  {w w' w'' : Walk}

/-- What a step answers, and the walk that it leaves behind. -/
def outcome (s : Discovery α) (w : Walk) : Except Failure α × Walk := s.run.run w

/-! ### Single steps -/

theorem outcome_load (d : Disk) (name : String) (w : Walk) :
    outcome (load d name) w
      = ((w.loader.load d name).1, { w with loader := (w.loader.load d name).2 }) := rfl

@[simp] theorem outcome_knows (className : String) (w : Walk) :
    outcome (knows className) w = (.ok (w.classes.contains className), w) := rfl

theorem outcome_bind (s : Discovery α) (f : α → Discovery β) (w : Walk) :
    outcome (s >>= f) w =
      match outcome s w with
      | (.ok a, w') => outcome (f a) w'
      | (.error e, w') => (.error e, w') := by
  change StateT.run (ExceptT.bindCont f (outcome s w).1) (outcome s w).2 = _
  rcases outcome s w with ⟨e | a, w'⟩ <;> rfl

/-- **Two steps succeed in sequence exactly when both do.** -/
theorem bind_eq_ok_iff {s : Discovery α} {f : α → Discovery β} {b : β} :
    outcome (s >>= f) w = (.ok b, w'') ↔
      ∃ a w', outcome s w = (.ok a, w') ∧ outcome (f a) w' = (.ok b, w'') := by
  rw [outcome_bind]
  rcases outcome s w with ⟨e | a, w'⟩ <;> simp

/-- **Two steps fail in sequence** exactly when the first one does or the second one after it. -/
theorem bind_eq_error_iff {s : Discovery α} {f : α → Discovery β} {e : Failure} :
    outcome (s >>= f) w = (.error e, w'') ↔ outcome s w = (.error e, w'')
      ∨ ∃ a w', outcome s w = (.ok a, w') ∧ outcome (f a) w' = (.error e, w'') := by
  rw [outcome_bind]
  rcases outcome s w with ⟨e' | a, w'⟩ <;> simp

theorem outcome_discard (s : Discovery α) (w : Walk) :
    outcome (discard s) w = ((outcome s w).1.map fun _ => (), (outcome s w).2) := by
  change outcome (s >>= fun _ => pure ()) w = _
  rw [outcome_bind]
  rcases outcome s w with ⟨e | a, w'⟩ <;> rfl

/-! ### Declarations -/

theorem outcome_declareEnums_nil (w : Walk) : outcome (declareEnums []) w = (.ok (), w) :=
  rfl

theorem outcome_declareEnums_cons (e : EnumDecl) (es : List EnumDecl) (w : Walk) :
    outcome (declareEnums (e :: es)) w =
      if w.enums.contains e.name then (.error (.duplicateEnum e.name), w)
      else match e.toEnumeration? with
        | .error f => (.error f, w)
        | .ok enumeration =>
          outcome (declareEnums es) { w with enums := w.enums.insert e.name enumeration } := by
  rw [declareEnums, outcome_bind]
  change outcome (if w.enums.contains e.name = true then _ else _) w = _
  split
  · rfl
  · cases e.toEnumeration? <;> rfl

theorem outcome_declareClasses_nil (moduleName : String) (w : Walk) :
    outcome (declareClasses moduleName []) w = (.ok (), w) := rfl

theorem outcome_declareClasses_cons (moduleName : String) (c : ClassDecl) (cs : List ClassDecl)
    (w : Walk) :
    outcome (declareClasses moduleName (c :: cs)) w =
      match w.classes.get? c.name with
      | some first => (.error (.duplicateClass c.name first.moduleName moduleName), w)
      | none =>
        outcome (declareClasses moduleName cs)
          { w with classes := w.classes.insert c.name ⟨c, moduleName⟩ } := by
  rw [declareClasses, outcome_bind]
  change outcome (match w.classes.get? c.name with | some _ => _ | none => _) w = _
  cases w.classes.get? c.name <;> rfl

/-! ### Imports -/

theorem outcome_importNamed_nil (importer : String) (w : Walk) :
    outcome (importNamed visit importer []) w = (.ok (), w) := rfl

theorem outcome_importNamed_cons (importer name : String) (names : List String) (w : Walk) :
    outcome (importNamed visit importer (name :: names)) w =
      match outcome (visit name) w with
      | (.error f, w') => (.error f, w')
      | (.ok true, w') => outcome (importNamed visit importer names) w'
      | (.ok false, w') => (.error (.unresolvedImport name importer), w') := by
  rw [importNamed, outcome_bind]
  rcases outcome (visit name) w with ⟨f | b, w'⟩
  · rfl
  · cases b <;> rfl

theorem outcome_importClass (className : String) (w : Walk) :
    outcome (importClass visit className) w =
      if w.classes.contains className then (.ok (), w)
      else ((outcome (visit (objectModule className)) w).1.map fun _ => (),
        (outcome (visit (objectModule className)) w).2) := by
  rw [importClass, outcome_bind, outcome_knows, ← outcome_discard]
  exact apply_ite (outcome · w) _ _ _

theorem outcome_importParents_nil (w : Walk) :
    outcome (importParents visit []) w = (.ok (), w) := rfl

theorem outcome_importParents_cons (c : ClassDecl) (cs : List ClassDecl) (w : Walk) :
    outcome (importParents visit (c :: cs)) w =
      match c.effectiveParent? with
      | none => outcome (importParents visit cs) w
      | some parent =>
        match outcome (importClass visit parent) w with
        | (.error f, w') => (.error f, w')
        | (.ok (), w') =>
          if w'.classes.contains parent then outcome (importParents visit cs) w'
          else (.error (.unknownParent c.name parent), w') := by
  rw [importParents]
  cases c.effectiveParent? with
  | none => rfl
  | some parent =>
    dsimp only
    rw [outcome_bind]
    rcases outcome (importClass visit parent) w with ⟨f | ⟨⟩, w'⟩
    · rfl
    · exact apply_ite (outcome · w') _ _ _

theorem outcome_importClasses_nil (w : Walk) :
    outcome (importClasses visit []) w = (.ok (), w) := rfl

theorem outcome_importClasses_cons (name : String) (names : List String) (w : Walk) :
    outcome (importClasses visit (name :: names)) w =
      match outcome (importClass visit name) w with
      | (.error f, w') => (.error f, w')
      | (.ok (), w') => outcome (importClasses visit names) w' := by
  rw [importClasses, outcome_bind]
  rcases outcome (importClass visit name) w with ⟨f | ⟨⟩, w'⟩ <;> rfl

theorem outcome_importRequested_nil (w : Walk) :
    outcome (importRequested visit []) w = (.ok (), w) := rfl

theorem outcome_importRequested_cons (name : String) (names : List String) (w : Walk) :
    outcome (importRequested visit (name :: names)) w =
      match outcome (importClass visit name) w with
      | (.error f, w') => (.error f, w')
      | (.ok (), w') =>
        if w'.classes.contains name then outcome (importRequested visit names) w'
        else (.error (.unresolvedClass name), w') := by
  rw [importRequested, outcome_bind]
  rcases outcome (importClass visit name) w with ⟨f | ⟨⟩, w'⟩
  · rfl
  · exact apply_ite (outcome · w') _ _ _

/-- What importing a module does while there may be modules to import. -/
theorem outcome_importModule_succ (bound : Nat) (name : String) (w : Walk) :
    outcome (importModule d env (bound + 1) name) w =
      match w.loader.load d name with
      | (.error f, l) => (.error f, { w with loader := l })
      | (.ok none, l) => (.ok false, { w with loader := l })
      | (.ok (some found), l) =>
        if name ∈ w.unimported then
          let begun : Walk :=
            { w with loader := l, unimported := w.unimported.filter (· ≠ name) }
          match found with
          | .manifest _ m =>
            match outcome (register env (importModule d env bound) name m) begun with
            | (.error f, w') => (.error f, w')
            | (.ok (), w') => (.ok true, w')
          | _ => (.ok true, begun)
        else (.ok true, { w with loader := l }) := by
  rw [importModule, outcome_bind, outcome_load]
  rcases w.loader.load d name with ⟨f | found, l⟩
  · rfl
  · cases found with
    | none => rfl
    | some found =>
      refine (apply_ite (outcome · _) _ _ _).trans (if_congr Iff.rfl ?_ rfl)
      cases found with
      | manifest p m =>
        change outcome (register env (importModule d env bound) name m >>= fun _ => pure true) _ = _
        dsimp only
        rw [outcome_bind]
        rcases outcome (register env (importModule d env bound) name m) _ with ⟨f | ⟨⟩, w'⟩ <;> rfl
      | _ => rfl

/-- With the bound used up nothing is left to import. -/
theorem outcome_importModule_zero (name : String) (w : Walk) :
    outcome (importModule d env 0 name) w =
      ((w.loader.load d name).1.map Option.isSome,
        { w with loader := (w.loader.load d name).2 }) := by
  rw [importModule, outcome_bind, outcome_load]
  rcases w.loader.load d name with ⟨f | found, l⟩ <;> rfl

/-! ### What the walk keeps

A property of walks that loading, marking a module as imported and declaring keep is kept by the
whole of discovery. Nothing is asked about answers, so this holds for a walk that fails as well. -/

/-- The property holds after the step, whatever the step answers, if it held before. -/
def Keeps (P : Walk → Prop) (s : Discovery α) : Prop := ∀ w, P w → P (outcome s w).2

/-- What the single changes that discovery makes to a walk have to keep. -/
structure Stable (d : Disk) (P : Walk → Prop) : Prop where
  /-- Loading a module. -/
  load : ∀ w name, P w → P { w with loader := (w.loader.load d name).2 }
  /-- Marking a module as imported. -/
  mark : ∀ w name, P w → P { w with unimported := w.unimported.filter (· ≠ name) }
  /-- Declaring an enumeration. -/
  enum : ∀ w name e, P w → P { w with enums := w.enums.insert name e }
  /-- Declaring a class. -/
  «class» : ∀ w name c, P w → P { w with classes := w.classes.insert name c }

section Keeps

variable {P : Walk → Prop}

theorem Keeps.pure (a : α) : Keeps P (Pure.pure a : Discovery α) := fun _ h => h

theorem Keeps.throw (f : Failure) : Keeps P (MonadExcept.throw f : Discovery α) := fun _ h => h

theorem Keeps.get : Keeps P (MonadState.get : Discovery Walk) := fun _ h => h

theorem Keeps.knows (className : String) : Keeps P (Discovery.knows className) := fun _ h => h

theorem Keeps.bind {s : Discovery α} {f : α → Discovery β} (hs : Keeps P s)
    (hf : ∀ a, Keeps P (f a)) : Keeps P (s >>= f) := by
  intro w hw
  have hmid := hs w hw
  rw [outcome_bind]
  rcases h : outcome s w with ⟨e | a, w'⟩
  · rwa [h] at hmid
  · rw [h] at hmid
    exact hf a w' hmid

theorem Keeps.ite {c : Prop} [Decidable c] {s t : Discovery α} (hs : Keeps P s) (ht : Keeps P t) :
    Keeps P (if c then s else t) := by
  split
  · exact hs
  · exact ht

theorem Keeps.congruence (P : Walk → Prop) : Congruence fun s _ => Keeps P s where
  pure := Keeps.pure
  throw := Keeps.throw
  knows := Keeps.knows
  bind := Keeps.bind

theorem Stable.declareEnums (hP : Stable d P) (es : List EnumDecl) :
    Keeps P (declareEnums es) := by
  induction es with
  | nil => exact Keeps.pure ()
  | cons e es ih =>
    intro w hw
    rw [outcome_declareEnums_cons]
    split
    · exact hw
    · split
      · exact hw
      · exact ih _ (hP.enum w _ _ hw)

theorem Stable.declareClasses (hP : Stable d P) (moduleName : String) (cs : List ClassDecl) :
    Keeps P (declareClasses moduleName cs) := by
  induction cs with
  | nil => exact Keeps.pure ()
  | cons c cs ih =>
    intro w hw
    rw [outcome_declareClasses_cons]
    split
    · exact hw
    · exact ih _ (hP.class w _ _ hw)

theorem Stable.register (hP : Stable d P) (hv : ∀ name, Keeps P (visit name)) (moduleName : String)
    (m : Manifest) : Keeps P (register env visit moduleName m) :=
  ((Keeps.congruence P).importNamed visit visit hv _ _).bind fun _ =>
    (hP.declareEnums _).bind fun _ =>
      (hP.declareClasses _ _).bind fun _ =>
        ((Keeps.congruence P).importParents visit visit hv _).bind fun _ =>
          Keeps.get.bind fun _ => (Keeps.congruence P).importClasses visit visit hv _

theorem Stable.importModule (hP : Stable d P) (bound : Nat) (name : String) :
    Keeps P (importModule d env bound name) := by
  induction bound generalizing name with
  | zero =>
    intro w hw
    rw [outcome_importModule_zero]
    exact hP.load w name hw
  | succ bound ih =>
    intro w hw
    have hload := hP.load w name hw
    rw [outcome_importModule_succ]
    generalize w.loader.load d name = answer at hload ⊢
    obtain ⟨f | found, l⟩ := answer
    · exact hload
    · cases found with
      | none => exact hload
      | some found =>
        have hmark := hP.mark _ name hload
        dsimp only at hload hmark ⊢
        split
        · cases found with
          | manifest p m =>
            have hkeeps : Keeps P (Discovery.register env (Discovery.importModule d env bound)
                name m) := hP.register ih name m
            have hreg := hkeeps _ hmark
            dsimp only
            split
            · next heq => rwa [heq] at hreg
            · next heq => rwa [heq] at hreg
          | _ => exact hmark
        · exact hload

theorem Stable.exposedEnv (hP : Stable d P) : Keeps P (exposedEnv d) :=
  Keeps.bind (fun w hw => hP.load w _ hw) fun found => by
    split
    · exact Keeps.pure _
    · exact Keeps.throw _

/-- **What loading, marking and declaring keep, the whole walk keeps.** -/
theorem Stable.explore (hP : Stable d P) (requested : List String) :
    Keeps P (explore d requested) := by
  refine hP.exposedEnv.bind fun env => Keeps.get.bind fun w => ?_
  let visit := Discovery.importModule d env w.unimported.length
  have hv : ∀ name, Keeps P (visit name) := hP.importModule _
  exact (hv baseModule).bind fun _ => (Keeps.knows _).bind fun _ => Keeps.ite
    (((Keeps.congruence P).importRequested visit visit hv _).bind fun _ => Keeps.pure _)
    (Keeps.throw _)

end Keeps

theorem stable_loads (l : Loader) (d : Disk) : Stable d fun w => l.Loads d w.loader where
  load w name h := h.trans (Loader.loads_load w.loader d name)
  mark _ _ h := h
  enum _ _ _ h := h
  «class» _ _ _ h := h

/-- **All that discovery does to the loader is loading.** -/
theorem loads_explore (d : Disk) (requested : List String) (w : Walk) :
    w.loader.Loads d (outcome (explore d requested) w).2.loader :=
  (stable_loads w.loader d).explore requested w .refl

end Discovery

end SimMetadata
