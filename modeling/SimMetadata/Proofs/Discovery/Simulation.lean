import SimMetadata.Proofs.Discovery.Outcome

/-!
# Two walks side by side

To compare discovery over two sources of manifests, the walks are run side by side. `Agree` says
that two steps, taken from related walks, give one answer and leave related walks, and it passes
from the import of one module to the functions that import many. What the relation has to know of
related walks is which classes have been declared.

## Main definitions

* `Discovery.Agree`: two steps give one answer and keep a relation.

## Main results

* `Discovery.Agree.congruence`: sequences agree if their steps do, and so do imports over one list.
-/

namespace SimMetadata

namespace Discovery

variable {α β : Type} {R : Walk → Walk → Prop}

/-- From related walks, the two steps give the same answer and leave related walks. -/
def Agree (R : Walk → Walk → Prop) (s s' : Discovery α) : Prop :=
  ∀ ⦃w w'⦄, R w w' →
    (outcome s' w').1 = (outcome s w).1 ∧ R (outcome s w).2 (outcome s' w').2

/-- Related walks know the same classes. -/
def KnowsAlike (R : Walk → Walk → Prop) : Prop :=
  ∀ ⦃w w'⦄, R w w' → ∀ className, w'.classes.contains className = w.classes.contains className

namespace Agree

theorem pure (a : α) : Agree R (Pure.pure a : Discovery α) (Pure.pure a) := fun _ _ h => ⟨rfl, h⟩

theorem throw (f : Failure) :
    Agree R (MonadExcept.throw f : Discovery α) (MonadExcept.throw f) := fun _ _ h => ⟨rfl, h⟩

theorem knows (hR : KnowsAlike R) (className : String) :
    Agree R (Discovery.knows className) (Discovery.knows className) := by
  intro w w' h
  rw [outcome_knows, outcome_knows, hR h]
  exact ⟨rfl, h⟩

theorem bind {s s' : Discovery α} {f f' : α → Discovery β} (hs : Agree R s s')
    (hf : ∀ a, Agree R (f a) (f' a)) : Agree R (s >>= f) (s' >>= f') := by
  intro w w' h
  obtain ⟨hanswer, hwalk⟩ := hs h
  rw [outcome_bind, outcome_bind]
  generalize outcome s w = first at hanswer hwalk ⊢
  generalize outcome s' w' = second at hanswer hwalk ⊢
  obtain ⟨answer, w₁⟩ := first
  obtain ⟨_, w₁'⟩ := second
  cases hanswer
  cases answer with
  | error f => exact ⟨rfl, hwalk⟩
  | ok a => exact hf a hwalk

/-- A step that depends on the walk agrees if it does for any two related walks. -/
theorem get_bind {f f' : Walk → Discovery β} (hf : ∀ w w', R w w' → Agree R (f w) (f' w')) :
    Agree R (get >>= f) (get >>= f') :=
  fun w w' h => hf w w' h h

theorem congruence (hR : KnowsAlike R) : Congruence (Agree R) where
  pure := Agree.pure
  throw := Agree.throw
  knows := Agree.knows hR
  bind := Agree.bind

end Agree

end Discovery

end SimMetadata
