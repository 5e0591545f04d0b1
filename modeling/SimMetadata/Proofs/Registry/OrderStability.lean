import SimMetadata.Proofs.Registry.Visit

/-!
# An order can be extended

Whoever asks for more classes gets the order from before with more classes behind it. This is so
because a list with parents first is closed under parents: a later climb stops where it reaches the
list, and what is on the list is not listed again. For the same reason the order of an order is the
order itself.

## Main results

* `Linearization.ParentsFirst.visitsAll`: the names of a list with parents first are listed as the
  list has them.
* `Linearization.linearize_stable`: more names extend an order, the names of an order give it back,
  and names that it has already change nothing.
-/

namespace SimMetadata

namespace Linearization

variable {classes : NameMap ConfigClass} {listed mid ordered out : List ConfigClass}
  {names more ns ms : List String}

/-! ### Visits in turn -/

theorem VisitsAll.append (h : VisitsAll classes listed names mid)
    (h' : VisitsAll classes mid more out) : VisitsAll classes listed (names ++ more) out := by
  induction h with
  | nil => exact h'
  | cons first _ ih => exact .cons first (ih h')

/-- Names that have been listed are skipped. -/
theorem visitsAll_of_subset (h : more ⊆ listed.map ConfigClass.name) :
    VisitsAll classes listed more listed := by
  induction more with
  | nil => exact .nil
  | cons n more ih =>
    obtain ⟨hn, hmore⟩ := List.cons_subset.mp h
    refine .cons (.skip hn) ?_
    rw [List.append_nil]
    exact ih hmore

/-- What has been listed stays in front. -/
theorem VisitsAll.prefix_out (h : VisitsAll classes listed names out) : listed <+: out := by
  induction h with
  | nil => exact List.prefix_rfl
  | cons _ _ ih => exact (List.prefix_append _ _).trans ih

/-- **The names of a list with parents first are listed as the list has them.** The visit of each
class finds its parent listed, so it adds the class and nothing else. -/
theorem ParentsFirst.visitsAll (h : ParentsFirst classes ordered) :
    VisitsAll classes [] (ordered.map ConfigClass.name) ordered := by
  induction h with
  | nil => exact .nil
  | @snoc ordered c before registered new parent ih =>
    have hvisit : Visits classes ordered c.name [c] := by
      cases hparent : c.parent with
      | none => exact .top new registered hparent
      | some p => exact .derived new registered hparent (.skip (parent p hparent))
    rw [List.map_append, List.map_singleton]
    exact ih.append (.cons hvisit .nil)

/-! ### More names -/

/-- **An order can be extended.** If there is an order for some names and more, there is one for the
names alone, and the other one begins with it. The names of an order, asked for in turn, give the
order back, and asking as well for names that it has changes nothing. -/
theorem linearize_stable (hkeyed : Keyed classes) (h : linearize classes (ns ++ ms) = .ok out) :
    linearize classes (out.map ConfigClass.name) = .ok out
      ∧ ∃ front, linearize classes ns = .ok front ∧ front <+: out
        ∧ ∀ known, known ⊆ front.map ConfigClass.name →
          linearize classes (ns ++ known) = .ok front := by
  obtain ⟨hout, -⟩ := linearize_ok hkeyed h
  rw [linearize, extend_append, except_bind_eq_ok_iff] at h
  obtain ⟨front, hfront, hrest⟩ := h
  have hvisits := (extend_eq_ok_iff hkeyed).mp hfront
  refine ⟨(linearize_eq_ok_iff hkeyed).mpr hout.visitsAll, front, hfront,
    ((extend_eq_ok_iff hkeyed).mp hrest).prefix_out, fun known hknown => ?_⟩
  exact (linearize_eq_ok_iff hkeyed).mpr (hvisits.append (visitsAll_of_subset hknown))

/-- The second name has an ancestor that the first one has brought in. -/
theorem forked_stable :
    ∃ out, linearize forkedClasses (["SlowCore"] ++ ["FastCore"]) = .ok out
      ∧ linearize forkedClasses (out.map ConfigClass.name) = .ok out
      ∧ ∃ front, linearize forkedClasses ["SlowCore"] = .ok front ∧ front <+: out
        ∧ ∀ known, known ⊆ front.map ConfigClass.name →
          linearize forkedClasses (["SlowCore"] ++ known) = .ok front := by
  obtain ⟨out, hout⟩ : ∃ out, linearize forkedClasses (["SlowCore"] ++ ["FastCore"]) = .ok out :=
    ⟨_, rfl⟩
  exact ⟨out, hout, linearize_stable keyed_forkedClasses hout⟩

end Linearization

end SimMetadata
