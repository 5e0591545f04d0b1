import SimMetadata.Text.Layout

/-!
# The characters of printed lines

A printed file is its lines, each ended by a line feed. Reading it goes over its characters.

## Main results

* `Text.toList_unlines`: the characters of some lines.
* `Text.unlines_append`: lines with others after them.
* `Text.splitOn_unlines`: the lines are found again.
-/

namespace SimMetadata.Text

theorem toList_unlines (lines : List String) :
    (unlines lines).toList = lines.flatMap fun l => l.toList ++ ['\n'] := by
  rw [unlines, String.toList_join, List.flatMap_map]
  simp

theorem unlines_append (lines more : List String) :
    unlines (lines ++ more) = unlines lines ++ unlines more := by
  rw [unlines, List.map_append, String.join_append, unlines, unlines]

/-- Lines without a line feed are found again. Behind the last one there is nothing. -/
theorem splitOn_unlines {lines : List String} (h : ∀ l ∈ lines, '\n' ∉ l.toList) :
    (unlines lines).toList.splitOn '\n' = lines.map String.toList ++ [[]] := by
  rw [toList_unlines]
  induction lines with
  | nil => rfl
  | cons l lines ih =>
    obtain ⟨hl, hlines⟩ := List.forall_mem_cons.mp h
    rw [List.flatMap_cons, List.append_assoc, List.singleton_append,
      List.splitOn_append_cons_self_of_not_mem hl, ih hlines, List.map_cons, List.cons_append]

end SimMetadata.Text
