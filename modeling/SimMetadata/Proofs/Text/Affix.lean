import SimMetadata.Path

/-!
# Texts that begin or end differently

Generated paths and lines are printed around names that nobody checks. Two of them can be told apart
without looking at the names if they begin differently or end differently in what is printed around
the names.

## Main definitions

* `Text.clash`: no text begins with both of two texts.
* `Path.FramedBy`: how the text of a path begins and ends.

## Main results

* `Path.FramedBy.ne`: paths are different if what is printed around the names is.
-/

namespace SimMetadata

namespace Text

variable {cs s t : List Char}

/-- Neither of two texts continues the other, so no text begins with both. -/
def clash (s t : List Char) : Bool := !s.isPrefixOf t && !t.isPrefixOf s

theorem not_prefix_of_clash (h : clash s t = true) (hs : s <+: cs) : ¬ t <+: cs := by
  intro ht
  rw [clash, Bool.and_eq_true, Bool.not_eq_true', Bool.not_eq_true'] at h
  rcases List.prefix_or_prefix_of_prefix hs ht with hst | hts
  · rw [List.isPrefixOf_iff_prefix.mpr hst] at h
    cases h.1
  · rw [List.isPrefixOf_iff_prefix.mpr hts] at h
    cases h.2

end Text

namespace Path

variable {p q : Path} {frames frames' : List (String × String)}

/-- The text of the path begins and ends as one of some frames has it. The two may overlap. -/
def FramedBy (frames : List (String × String)) (p : Path) : Prop :=
  ∃ f ∈ frames, f.1.toList <+: p.text.toList ∧ f.2.toList <:+ p.text.toList

theorem framedBy_append (opening name closing : String) :
    FramedBy [(opening, closing)] ⟨opening ++ name ++ closing⟩ := by
  refine ⟨_, List.mem_singleton_self _, ?_, ?_⟩
  · rw [String.toList_append, String.toList_append, List.append_assoc]
    exact List.prefix_append _ _
  · rw [String.toList_append]
    exact List.suffix_append _ _

/-- A path is a frame of its own. -/
theorem framedBy_of_mem {ps : List Path} (h : p ∈ ps) :
    p.FramedBy (ps.map fun p => (p.text, p.text)) :=
  ⟨_, List.mem_map_of_mem h, List.prefix_refl _, List.suffix_refl _⟩

theorem FramedBy.mono (h : p.FramedBy frames) (hsub : frames ⊆ frames') : p.FramedBy frames' := by
  obtain ⟨f, hf, hfits⟩ := h
  exact ⟨f, hsub hf, hfits⟩

/-- Two frames differ at the beginning or at the end. -/
def framesClash (f g : String × String) : Bool :=
  Text.clash f.1.toList g.1.toList || Text.clash f.2.toList.reverse g.2.toList.reverse

/-- Paths are different if their frames are. -/
theorem FramedBy.ne (hp : p.FramedBy frames) (hq : q.FramedBy frames')
    (h : ∀ f ∈ frames, ∀ g ∈ frames', framesClash f g = true) : p ≠ q := by
  rintro rfl
  obtain ⟨f, hf, hopens, hcloses⟩ := hp
  obtain ⟨g, hg, hopens', hcloses'⟩ := hq
  rcases Bool.or_eq_true_iff.mp (h f hf g hg) with hclash | hclash
  · exact Text.not_prefix_of_clash hclash hopens hopens'
  · exact Text.not_prefix_of_clash hclash (List.reverse_prefix.mpr hcloses)
      (List.reverse_prefix.mpr hcloses')

end Path

end SimMetadata
