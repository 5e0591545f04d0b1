import Mathlib.Data.List.Basic
import Mathlib.Data.List.Induction
import Mathlib.Data.List.Nodup
import Mathlib.Data.List.Perm.Basic

/-!
# The order in which elements are first seen

To remove the duplicates from a list is to keep of each element the place where it is seen first.
What comes out is told by two facts: it has the elements of the list, and of two elements that one
comes first which the list has first. No other list does that.

## Main definitions

* `IsFirstSeen`: a list has the elements of another one in the order in which they are first seen.

## Main results

* `IsFirstSeen.unique`: there is one such list at most.
* `isFirstSeen_eraseDups`: what is left without the duplicates is such a list.
-/

namespace SimMetadata

variable {α : Type} [BEq α] {all out out' : List α}

/-- The list `out` has the elements of `all`, each once, in the order in which they are first seen
there. -/
structure IsFirstSeen (all out : List α) : Prop where
  nodup : out.Nodup
  mem_iff : ∀ x, x ∈ out ↔ x ∈ all
  order : out.Pairwise fun x y => all.idxOf x < all.idxOf y

/-- **There is one list at most** in that order. -/
theorem IsFirstSeen.unique (h : IsFirstSeen all out) (h' : IsFirstSeen all out') : out = out' := by
  have hperm : out.Perm out' := (List.perm_ext_iff_of_nodup h.nodup h'.nodup).mpr fun x => by
    rw [h.mem_iff, h'.mem_iff]
  refine hperm.eq_of_pairwise (fun x y _ _ hxy hyx => ?_) h.order h'.order
  exact absurd hyx (Nat.lt_asymm hxy)

variable [LawfulBEq α]

/-- One element more changes what is left only if it is new. -/
theorem eraseDups_concat (all : List α) (x : α) :
    (all ++ [x]).eraseDups = if x ∈ all then all.eraseDups else all.eraseDups ++ [x] := by
  rw [List.eraseDups_append]
  by_cases h : x ∈ all <;> simp [List.removeAll, List.eraseDups_cons, h]

/-- What is left of a list is the beginning of what is left of a longer one. -/
theorem eraseDups_prefix_append (all more : List α) :
    all.eraseDups <+: (all ++ more).eraseDups := by
  rw [List.eraseDups_append]
  exact List.prefix_append _ _

/-- **What is left without the duplicates** is in the order in which it is first seen. The induction
is from the back, where an element is kept if it is new. -/
theorem isFirstSeen_eraseDups (all : List α) : IsFirstSeen all all.eraseDups := by
  induction all using List.reverseRecOn with
  | nil => exact ⟨List.nodup_nil, by simp, List.Pairwise.nil⟩
  | append_singleton all x ih =>
    -- What has been seen is still first seen where it was.
    have hearlier : all.eraseDups.Pairwise fun y z =>
        (all ++ [x]).idxOf y < (all ++ [x]).idxOf z := by
      refine ih.order.imp_of_mem fun {y z} hy hz hlt => ?_
      rwa [List.idxOf_append_of_mem ((ih.mem_iff y).mp hy),
        List.idxOf_append_of_mem ((ih.mem_iff z).mp hz)]
    refine ⟨?_, fun y => List.mem_eraseDups, ?_⟩
    · rw [eraseDups_concat]
      split
      · exact ih.nodup
      · next hnew =>
        rw [List.nodup_append_comm]
        exact List.nodup_cons.mpr ⟨fun hx => hnew ((ih.mem_iff x).mp hx), ih.nodup⟩
    · rw [eraseDups_concat]
      split
      · exact hearlier
      · next hnew =>
        refine List.pairwise_append.mpr ⟨hearlier, List.pairwise_singleton _ _, fun y hy z hz => ?_⟩
        have hy : y ∈ all := (ih.mem_iff y).mp hy
        rw [List.mem_singleton.mp hz, List.idxOf_append_of_mem hy,
          List.idxOf_append_of_notMem hnew]
        exact Nat.lt_add_right _ (List.idxOf_lt_length_of_mem hy)

end SimMetadata
