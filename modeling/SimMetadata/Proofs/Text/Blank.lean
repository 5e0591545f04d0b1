import Mathlib.Data.List.TakeWhile
import SimMetadata.Text.Blank

/-!
# White space around a text

Trimming is described by the function that does it. Here it is described by what a reader sees: a
text with white space on either side of it. What is left by `trim` is the text that stands there,
and it can be named as soon as one knows a text that does not itself begin or end with white space.

## Main definitions

* `Blank`: white space and nothing else.
* `Padded`: a text with white space on either side.

## Main results

* `padded_trim`: a text is what trimming leaves of it, padded.
* `trim_eq_iff`: what trimming leaves, if it is a text without white space at its ends.
-/

namespace SimMetadata.Text

variable {s w w' cs : List Char}

/-- White space and nothing else. -/
def Blank (w : List Char) : Prop := ∀ c ∈ w, isBlank c = true

/-- The characters are a text with white space on either side of it. -/
def Padded (s cs : List Char) : Prop := ∃ w w', Blank w ∧ Blank w' ∧ cs = w ++ s ++ w'

/-- There need not be any white space. -/
theorem Padded.refl (s : List Char) : Padded s s := ⟨[], [], by simp [Blank]⟩

theorem Blank.reverse (h : Blank w) : Blank w.reverse := fun c hc => h c (List.mem_reverse.mp hc)

theorem blank_takeWhile (cs : List Char) : Blank (cs.takeWhile isBlank) := by
  intro c hc
  exact List.mem_takeWhile_imp hc

theorem trimStart_append (h : Blank w) (cs : List Char) : trimStart (w ++ cs) = trimStart cs :=
  List.dropWhile_append_of_pos h

theorem trimEnd_append (h : Blank w) (cs : List Char) : trimEnd (cs ++ w) = trimEnd cs := by
  rw [trimEnd, List.reverse_append, trimStart_append h.reverse, trimEnd]

/-- What is left at the end is followed by the white space that is not. -/
theorem trimEnd_append_blank (cs : List Char) : ∃ w, Blank w ∧ cs = trimEnd cs ++ w := by
  refine ⟨(cs.reverse.takeWhile isBlank).reverse, (blank_takeWhile _).reverse, ?_⟩
  rw [trimEnd, trimStart, ← List.reverse_append, List.takeWhile_append_dropWhile,
    List.reverse_reverse]

/-- **Only white space is trimmed.** -/
theorem padded_trim (cs : List Char) : Padded (trim cs) cs := by
  obtain ⟨w', hw', hend⟩ := trimEnd_append_blank (trimStart cs)
  refine ⟨cs.takeWhile isBlank, w', blank_takeWhile cs, hw', ?_⟩
  rw [trim, List.append_assoc, ← hend, trimStart, List.takeWhile_append_dropWhile]

/-- White space around a text is trimmed. -/
theorem trim_of_padded (h : Padded s cs) : trim cs = trim s := by
  obtain ⟨w, w', hw, hw', rfl⟩ := h
  rw [trim, List.append_assoc, trimStart_append hw, trimStart, List.dropWhile_append]
  split
  · next hempty =>
    -- The text is white space itself: nothing is left of it, and nothing of what follows it.
    rw [List.dropWhile_eq_nil_iff.mpr hw', trim, trimStart, List.isEmpty_iff.mp hempty]
  · exact trimEnd_append hw' _

/-- **What trimming leaves**, for a text that does not begin or end with white space. -/
theorem trim_eq_iff (hs : trim s = s) : trim cs = s ↔ Padded s cs :=
  ⟨fun h => h ▸ padded_trim cs, fun h => (trim_of_padded h).trans hs⟩

theorem isBlank_of_mem {c : Char} (h : cs.any isBlank = false) (hc : c ∈ cs) :
    isBlank c = false := by
  simpa using List.any_eq_false.mp h c hc

/-- What is not white space is in the text, not around it. -/
theorem Padded.mem_iff {c : Char} (h : Padded s cs) (hc : isBlank c = false) : c ∈ cs ↔ c ∈ s := by
  obtain ⟨w, w', hw, hw', rfl⟩ := h
  have hnot : ∀ {w : List Char}, Blank w → c ∉ w := by
    intro w hw hmem
    rw [hw c hmem] at hc
    cases hc
  simp [hnot hw, hnot hw']

end SimMetadata.Text
