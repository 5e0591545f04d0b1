import Mathlib.Order.Compare
import SimMetadata.Path

/-!
# Paths are ordered by their components

Components are compared by their kind and then by their names, and paths by their components. This
is a linear order of components and of lists of them: no two different ones compare as equal.
-/

namespace SimMetadata.Path

namespace Component

/-- The text of a component; all but names have none. -/
def label : Component → String
  | name n => n
  | _ => ""

/-- Comparing components is comparing their kinds and then their names. -/
theorem compare_eq : compare = compareLex (compareOn rank) (compareOn label) := by
  funext c d
  cases c <;> cases d <;> rfl

instance : Std.TransCmp compare := by
  rw [compare_eq]
  infer_instance

instance : Std.LawfulEqCmp compare where
  compare_self := Std.ReflCmp.compare_self
  eq_of_compare {c d} h := by
    rw [compare_eq, compareLex, Ordering.then_eq_eq, compareOn, compareOn,
      Std.LawfulEqCmp.compare_eq_iff_eq, Std.LawfulEqCmp.compare_eq_iff_eq] at h
    obtain ⟨hrank, hlabel⟩ := h
    cases c <;> cases d <;> simp_all [rank, label]

end Component

theorem compareComponents_eq : compareComponents = List.compareLex Component.compare := by
  funext cs ds
  induction cs generalizing ds with
  | nil => cases ds <;> rfl
  | cons c cs ih =>
    cases ds with
    | nil => rfl
    | cons d ds => rw [compareComponents, List.compareLex_cons_cons, ih]

instance : Std.TransCmp compareComponents := by
  rw [compareComponents_eq]
  infer_instance

instance : Std.LawfulEqCmp compareComponents := by
  rw [compareComponents_eq]
  infer_instance

end SimMetadata.Path
