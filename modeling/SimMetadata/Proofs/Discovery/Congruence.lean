import SimMetadata.Registry.Discovery

/-!
# Imports over a list

Discovery imports many modules with a handful of functions that go over a list. They do nothing but
take answers, ask which classes are known, import one module after another, and fail. So whatever
relation between steps holds of these and passes to sequences, holds between two imports over one
list as soon as it holds between the imports of each module.

## Main definitions

* `Discovery.Congruence`: a relation between steps with these closure properties.

## Main results

* `Discovery.Congruence.importNamed`, `Discovery.Congruence.importParents`,
  `Discovery.Congruence.importClasses`, `Discovery.Congruence.importRequested`: the relation holds
  between imports over one list.

## Implementation notes

A property of single steps is the relation that ignores its second side.
-/

namespace SimMetadata

namespace Discovery

/-- A relation between steps that holds of a step without an effect and itself, and between two
sequences whose steps are related for every answer on the way. -/
structure Congruence (R : ∀ {α : Type}, Discovery α → Discovery α → Prop) : Prop where
  pure : ∀ {α : Type} (a : α), R (Pure.pure a : Discovery α) (Pure.pure a)
  throw : ∀ {α : Type} (f : Failure),
    R (MonadExcept.throw f : Discovery α) (MonadExcept.throw f)
  knows : ∀ className, R (Discovery.knows className) (Discovery.knows className)
  bind : ∀ {α β : Type} {s s' : Discovery α} {f f' : α → Discovery β},
    R s s' → (∀ a, R (f a) (f' a)) → R (s >>= f) (s' >>= f')

namespace Congruence

variable {R : ∀ {α : Type}, Discovery α → Discovery α → Prop} {α : Type}

theorem ite {c : Prop} [Decidable c] {s s' t t' : Discovery α} (hs : R s s') (ht : R t t') :
    R (if c then s else t) (if c then s' else t') := by
  split
  · exact hs
  · exact ht

variable (hR : Congruence R)
include hR

theorem discard {s s' : Discovery α} (hs : R s s') : R (discard s) (discard s') :=
  hR.bind hs fun _ => hR.pure ()

variable (visit visit' : String → Discovery Bool)

theorem importNamed (hv : ∀ name, R (visit name) (visit' name)) (importer : String)
    (names : List String) :
    R (importNamed visit importer names) (importNamed visit' importer names) := by
  induction names with
  | nil => exact hR.pure ()
  | cons name names ih => exact hR.bind (hv name) fun _ => ite ih (hR.throw _)

theorem importClass (hv : ∀ name, R (visit name) (visit' name)) (className : String) :
    R (importClass visit className) (importClass visit' className) :=
  hR.bind (hR.knows className) fun _ => ite (hR.pure ()) (hR.discard (hv _))

theorem importParents (hv : ∀ name, R (visit name) (visit' name)) (cs : List ClassDecl) :
    R (importParents visit cs) (importParents visit' cs) := by
  induction cs with
  | nil => exact hR.pure ()
  | cons c cs ih =>
    rw [Discovery.importParents, Discovery.importParents]
    cases c.effectiveParent? with
    | none => exact ih
    | some parent =>
      exact hR.bind (hR.importClass visit visit' hv parent) fun _ =>
        hR.bind (hR.knows parent) fun _ => ite ih (hR.throw _)

theorem importClasses (hv : ∀ name, R (visit name) (visit' name)) (names : List String) :
    R (importClasses visit names) (importClasses visit' names) := by
  induction names with
  | nil => exact hR.pure ()
  | cons name names ih => exact hR.bind (hR.importClass visit visit' hv name) fun _ => ih

theorem importRequested (hv : ∀ name, R (visit name) (visit' name)) (names : List String) :
    R (importRequested visit names) (importRequested visit' names) := by
  induction names with
  | nil => exact hR.pure ()
  | cons name names ih =>
    exact hR.bind (hR.importClass visit visit' hv name) fun _ =>
      hR.bind (hR.knows name) fun _ => ite ih (hR.throw _)

end Congruence

end Discovery

end SimMetadata
