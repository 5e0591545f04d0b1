import Mathlib.Data.List.Basic
import SimMetadata.Proofs.Text.Layout

/-!
# Reading printed lines

A printed file is read line by line. What a line is about stands between what is printed in front of
it and what is printed behind it. Nobody checks the names that files are about, so they may hold
anything that is printed around them as well. A line is therefore taken apart from its ends, and
never at the first mark in it that looks right.

A list may be printed with a comma behind each item, or with none behind the last one.

## Main definitions

* `Text.linesOf`: the lines of a text.
* `Text.between?`: what a line has between its two ends.
* `Text.items?`: the items of a list whose last line has no comma.

## Main results

* `Text.linesOf_unlines`: lines without a line feed are read back.
* `Text.between?_append`, `Text.items?_lines`: so are what stands between two ends, and a list.
-/

namespace SimMetadata.Text

variable {α β : Type} {lines : List String}

/-- The lines of a text, each of which is ended by a line feed. -/
def linesOf (text : String) : List String :=
  (text.toList.splitOn '\n').dropLast.map String.ofList

theorem linesOf_unlines (h : ∀ l ∈ lines, '\n' ∉ l.toList) : linesOf (unlines lines) = lines := by
  rw [linesOf, splitOn_unlines h, List.dropLast_concat, List.map_map]
  simp [Function.comp_def]

/-! ### A line between its ends -/

/-- What a line has between its beginning and its end. -/
def between? (opening closing line : String) : Option String :=
  (line.toList.dropPrefix? opening.toList).bind fun cs =>
    (cs.dropSuffix? closing.toList).map String.ofList

theorem between?_append (opening s closing : String) :
    between? opening closing (opening ++ s ++ closing) = some s := by
  have hprefix : (opening ++ s ++ closing).toList.dropPrefix? opening.toList
      = some (s.toList ++ closing.toList) := by
    rw [String.toList_append, String.toList_append, List.append_assoc]
    exact List.dropPrefix?_append_of_beq _ (beq_self_eq_true _)
  have hsuffix : (s.toList ++ closing.toList).dropSuffix? closing.toList = some s.toList :=
    List.dropSuffix?_eq_some_iff.mpr ⟨closing.toList, rfl, beq_self_eq_true _⟩
  rw [between?, hprefix, Option.bind_some, hsuffix, Option.map_some, String.ofList_toList]

/-- The last line of a list has nothing behind its item. -/
theorem between?_append_left (opening s : String) :
    between? opening "" (opening ++ s) = some s := by
  have h := between?_append opening s ""
  rwa [String.append_empty] at h

/-! ### Lines up to a mark -/

section Mark

variable [DecidableEq α] {as rest : List α} {mark : α}

/-- What stands in front of the first mark. -/
theorem takeWhile_ne_append (h : mark ∉ as) :
    (as ++ mark :: rest).takeWhile (· ≠ mark) = as := by
  rw [List.takeWhile_append_of_pos fun a ha => decide_eq_true (ne_of_mem_of_not_mem ha h),
    List.takeWhile_cons_of_neg (by simp), List.append_nil]

/-- What stands from the first mark on. -/
theorem dropWhile_ne_append (h : mark ∉ as) :
    (as ++ mark :: rest).dropWhile (· ≠ mark) = mark :: rest := by
  rw [List.dropWhile_append_of_pos fun a ha => decide_eq_true (ne_of_mem_of_not_mem ha h),
    List.dropWhile_cons_of_neg (by simp)]

end Mark

/-! ### Lists, line by line -/

/-- What is read back one by one is read back as a list. -/
theorem mapM_map_eq_some {write : α → β} {read? : β → Option α}
    (h : ∀ a, read? (write a) = some a) (as : List α) : (as.map write).mapM read? = some as := by
  induction as with
  | nil => rfl
  | cons a as ih =>
    rw [List.map_cons, List.mapM_cons, h, ih]
    rfl

/-- The items on some lines. Every item but the last has a comma behind it. -/
def items? (indent : String) : List String → Option (List String)
  | [] => some []
  | [line] => (between? indent "" line).map ([·])
  | line :: next :: lines =>
    (between? indent "," line).bind fun item => (items? indent (next :: lines)).map (item :: ·)

theorem items?_concat (indent : String) (items : List String) (last : String) :
    items? indent (items.map (indent ++ · ++ ",") ++ [indent ++ last])
      = some (items ++ [last]) := by
  induction items with
  | nil =>
    change (between? indent "" (indent ++ last)).map ([·]) = some [last]
    rw [between?_append_left, Option.map_some]
  | cons item items ih =>
    obtain ⟨next, lines, hnext⟩ : ∃ next lines,
        items.map (indent ++ · ++ ",") ++ [indent ++ last] = next :: lines :=
      List.exists_cons_of_ne_nil (List.append_ne_nil_of_right_ne_nil _ (List.cons_ne_nil _ _))
    rw [List.map_cons, List.cons_append, hnext, items?, between?_append, Option.bind_some, ← hnext,
      ih, Option.map_some, List.cons_append]

/-- The items of a list are read back. -/
theorem items?_lines (indent : String) (items : List String) :
    items? indent (items.dropLast.map (indent ++ · ++ ",")
      ++ items.getLast?.toList.map (indent ++ ·)) = some items := by
  rcases List.eq_nil_or_concat' items with rfl | ⟨items, last, rfl⟩
  · rfl
  · rw [List.dropLast_concat, List.getLast?_concat]
    exact items?_concat indent items last

end SimMetadata.Text
