import SimMetadata.Proofs.Discovery.Progress
import SimMetadata.Proofs.Enumeration

/-!
# Where a walk breaks off

A function that goes over a list fails at one element of it. Up to there everything was completed;
then either the import of a module failed, and the failure is passed on, or the function found a
fault of its own. The lemmas here name the element and the two cases, so what a failure says about
the walk can be carried from one import up to the next.

## Main results

* `Discovery.importNamed_error`, `Discovery.importParents_error`, `Discovery.importClasses_error`,
  `Discovery.importRequested_error`: where going over a list breaks off.
* `Discovery.declareEnums_error`, `Discovery.declareClasses_error`: declaring fails on names that
  repeat.
-/

namespace SimMetadata

namespace Discovery

variable {l : Loader} {d : Disk} {env : BuildEnv} {origin : String → Prop} {bound : ℕ}
  {visit : String → Discovery Bool} {w w' : Walk} {f : Failure}

/-! ### Loading and declaring -/

theorem load_error {name : String} (h : outcome (load d name) w = (.error f, w')) :
    (∃ path, f = .manifest path) ∨ ∃ path fault, f = .io path fault := by
  rw [outcome_load] at h
  rcases hanswer : w.loader.load d name with ⟨f' | found, l'⟩
  · rw [hanswer] at h
    cases h
    exact Loader.loadChain_error hanswer
  · rw [hanswer] at h
    cases h

theorem declareEnums_error {es : List EnumDecl}
    (h : outcome (declareEnums es) w = (.error f, w')) :
    (∃ name, f = .duplicateEnum name) ∨ ∃ name value, f = .duplicateEnumValue name value := by
  induction es generalizing w with
  | nil => cases h
  | cons e es ih =>
    rw [outcome_declareEnums_cons] at h
    split at h
    · cases h
      exact .inl ⟨e.name, rfl⟩
    · split at h
      · next f' hf =>
        cases h
        exact .inr ⟨e.name, EnumDecl.toEnumeration?_error hf⟩
      · exact ih h

theorem declareClasses_error {moduleName : String} {cs : List ClassDecl}
    (h : outcome (declareClasses moduleName cs) w = (.error f, w')) :
    ∃ name first, f = .duplicateClass name first moduleName := by
  induction cs generalizing w with
  | nil => cases h
  | cons c cs ih =>
    rw [outcome_declareClasses_cons] at h
    split at h
    · next first _ =>
      cases h
      exact ⟨c.name, first.moduleName, rfl⟩
    · exact ih h

/-! ### Imports -/

theorem importClass_error {className : String}
    (h : outcome (importClass visit className) w = (.error f, w')) :
    outcome (visit (objectModule className)) w = (.error f, w') := by
  rw [outcome_importClass] at h
  split at h
  · cases h
  · rcases hvisit : outcome (visit (objectModule className)) w with ⟨f' | resolved, w₁⟩
    · rw [hvisit] at h
      cases h
      rfl
    · rw [hvisit] at h
      cases h

section Imports

variable (hv : Visits l d env bound visit) (hw : Ready l d bound w)
include hv hw

theorem importNamed_error {importer : String} {names : List String}
    (horigin : ∀ n ∈ names, origin n)
    (h : outcome (importNamed visit importer names) w = (.error f, w')) :
    ∃ n ∈ names, ∃ w₁, Completes l d env origin w w₁
      ∧ (outcome (visit n) w₁ = (.error f, w') ∨ f = .unresolvedImport n importer) := by
  induction names generalizing w with
  | nil => cases h
  | cons n names ih =>
    rw [outcome_importNamed_cons] at h
    split at h
    · next hvisit =>
      cases h
      exact ⟨n, List.mem_cons_self, w, .refl w, .inl hvisit⟩
    · next w₁ hvisit =>
      obtain ⟨hfirst, -⟩ := hv hw (horigin n List.mem_cons_self) hvisit
      obtain ⟨m, hm, w₂, hrest, hcause⟩ :=
        ih (hw.completes hfirst) (fun n hn => horigin n (List.mem_cons_of_mem _ hn)) h
      exact ⟨m, List.mem_cons_of_mem _ hm, w₂, hfirst.trans hrest, hcause⟩
    · cases h
      exact ⟨n, List.mem_cons_self, w, .refl w, .inr rfl⟩

theorem importParents_error {cs : List ClassDecl}
    (horigin : ∀ c ∈ cs, ∀ parent, c.effectiveParent? = some parent → origin (objectModule parent))
    (h : outcome (importParents visit cs) w = (.error f, w')) :
    ∃ c ∈ cs, ∃ parent, c.effectiveParent? = some parent ∧ ∃ w₁, Completes l d env origin w w₁
      ∧ (outcome (visit (objectModule parent)) w₁ = (.error f, w')
        ∨ w₁ = w' ∧ w'.classes.contains parent = false ∧ f = .unknownParent c.name parent) := by
  induction cs generalizing w with
  | nil => cases h
  | cons c cs ih =>
    have hrest := fun c' hc' => horigin c' (List.mem_cons_of_mem c hc')
    rw [outcome_importParents_cons] at h
    split at h
    · obtain ⟨c', hc', hothers⟩ := ih hw hrest h
      exact ⟨c', List.mem_cons_of_mem _ hc', hothers⟩
    · next parent hparent =>
      split at h
      · next hclass =>
        cases h
        exact ⟨c, List.mem_cons_self, parent, hparent, w, .refl w,
          .inl (importClass_error hclass)⟩
      · next w₁ hclass =>
        have hfirst := importClass_ok hv hw (horigin c List.mem_cons_self parent hparent) hclass
        split at h
        · obtain ⟨c', hc', parent', hparent', w₂, hothers, hcause⟩ :=
            ih (hw.completes hfirst) hrest h
          exact ⟨c', List.mem_cons_of_mem _ hc', parent', hparent', w₂, hfirst.trans hothers,
            hcause⟩
        · next hmissing =>
          cases h
          exact ⟨c, List.mem_cons_self, parent, hparent, w', hfirst,
            .inr ⟨rfl, Bool.eq_false_iff.mpr hmissing, rfl⟩⟩

theorem importClasses_error {names : List String} (horigin : ∀ n ∈ names, origin (objectModule n))
    (h : outcome (importClasses visit names) w = (.error f, w')) :
    ∃ n ∈ names, ∃ w₁, Completes l d env origin w w₁
      ∧ outcome (visit (objectModule n)) w₁ = (.error f, w') := by
  induction names generalizing w with
  | nil => cases h
  | cons n names ih =>
    rw [outcome_importClasses_cons] at h
    split at h
    · next hclass =>
      cases h
      exact ⟨n, List.mem_cons_self, w, .refl w, importClass_error hclass⟩
    · next w₁ hclass =>
      have hfirst := importClass_ok hv hw (horigin n List.mem_cons_self) hclass
      obtain ⟨m, hm, w₂, hrest, hvisit⟩ :=
        ih (hw.completes hfirst) (fun n hn => horigin n (List.mem_cons_of_mem _ hn)) h
      exact ⟨m, List.mem_cons_of_mem _ hm, w₂, hfirst.trans hrest, hvisit⟩

theorem importRequested_error {names : List String}
    (horigin : ∀ n ∈ names, origin (objectModule n))
    (h : outcome (importRequested visit names) w = (.error f, w')) :
    ∃ n ∈ names, ∃ w₁, Completes l d env origin w w₁
      ∧ (outcome (visit (objectModule n)) w₁ = (.error f, w')
        ∨ w₁ = w' ∧ w'.classes.contains n = false ∧ f = .unresolvedClass n) := by
  induction names generalizing w with
  | nil => cases h
  | cons n names ih =>
    rw [outcome_importRequested_cons] at h
    split at h
    · next hclass =>
      cases h
      exact ⟨n, List.mem_cons_self, w, .refl w, .inl (importClass_error hclass)⟩
    · next w₁ hclass =>
      have hfirst := importClass_ok hv hw (horigin n List.mem_cons_self) hclass
      split at h
      · obtain ⟨m, hm, w₂, hrest, hcause⟩ :=
          ih (hw.completes hfirst) (fun n hn => horigin n (List.mem_cons_of_mem _ hn)) h
        exact ⟨m, List.mem_cons_of_mem _ hm, w₂, hfirst.trans hrest, hcause⟩
      · next hmissing =>
        cases h
        exact ⟨n, List.mem_cons_self, w', hfirst, .inr ⟨rfl, Bool.eq_false_iff.mpr hmissing, rfl⟩⟩

end Imports

end Discovery

end SimMetadata
