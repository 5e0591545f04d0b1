import Mathlib.Data.List.Nodup
import SimMetadata.Enumeration

/-!
# Which enumerations are well-formed

A declaration describes an enumeration exactly if no name stands in it twice. Numbering leaves the
names as they are, and in their order.

## Main results

* `EnumDecl.toEnumeration?_eq_ok_iff`: which declarations describe an enumeration, and which one.
-/

namespace SimMetadata

namespace EnumDecl

variable {seen names : List String}

/-- The search also compares with names that came before the list: the induction needs it, since a
name that has been passed is compared with all that follow. -/
theorem firstRepeat?_eq_none_iff :
    firstRepeat? seen names = none ↔ names.Nodup ∧ ∀ n ∈ names, n ∉ seen := by
  induction names generalizing seen with
  | nil => simp [firstRepeat?]
  | cons n rest ih =>
    rw [firstRepeat?]
    by_cases hn : n ∈ seen
    · simp [hn]
    · rw [if_neg hn, ih, List.nodup_cons, List.forall_mem_cons]
      simp only [List.mem_cons, not_or]
      grind

theorem map_name_number (next : Int) (entries : List EnumEntry) :
    (number next entries).map EnumValue.name = entries.map EnumEntry.name := by
  induction entries generalizing next with
  | nil => rfl
  | cons entry rest ih =>
    cases entry with
    | bare name => simp [number, EnumEntry.name, ih]
    | explicit name value => simp [number, EnumEntry.name, ih]

/-- **Which declarations describe an enumeration.** -/
theorem toEnumeration?_eq_ok_iff {d : EnumDecl} {e : Enumeration} :
    d.toEnumeration? = .ok e ↔
      (d.entries.map EnumEntry.name).Nodup ∧ e = ⟨d.name, number 0 d.entries⟩ := by
  have hnone : firstRepeat? [] (d.entries.map EnumEntry.name) = none ↔
      (d.entries.map EnumEntry.name).Nodup := by
    simp [firstRepeat?_eq_none_iff]
  rw [toEnumeration?, ← hnone]
  cases firstRepeat? [] (d.entries.map EnumEntry.name) with
  | none => simp [eq_comm]
  | some value => simp

/-- What is refused repeats a value. -/
theorem toEnumeration?_error {d : EnumDecl} {f : Failure} (h : d.toEnumeration? = .error f) :
    ∃ value, f = .duplicateEnumValue d.name value := by
  rw [toEnumeration?] at h
  split at h
  · next value _ =>
    cases h
    exact ⟨value, rfl⟩
  · cases h

/-- The names of an enumeration that is declared are pairwise different. -/
theorem nodup_names {d : EnumDecl} {e : Enumeration} (h : d.toEnumeration? = .ok e) :
    (e.values.map EnumValue.name).Nodup := by
  obtain ⟨hnodup, rfl⟩ := toEnumeration?_eq_ok_iff.mp h
  rw [map_name_number]
  exact hnodup

end EnumDecl

end SimMetadata
