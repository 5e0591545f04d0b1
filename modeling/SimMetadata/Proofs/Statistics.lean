import Mathlib.Algebra.GroupWithZero.Nat
import SimMetadata.Proofs.NameMap
import SimMetadata.Statistics

/-!
# Every file is counted

The tallies are kept by kind, and a kind is counted the first time that a file of it is written. So
all kinds together count every file once, whatever its kind.

## Main results

* `Statistics.total_record`: one more file adds to the total.
-/

namespace SimMetadata

namespace Tally

theorem foldl_add (tallies : List Tally) (t : Tally) :
    tallies.foldl add t
      = ⟨t.files + (tallies.map files).sum, t.bytes + (tallies.map bytes).sum⟩ := by
  induction tallies generalizing t with
  | nil => rfl
  | cons u rest ih =>
    rw [List.foldl_cons, ih]
    simp only [add, List.map_cons, List.sum_cons, Nat.add_assoc]

end Tally

namespace Statistics

/-- The order of the kinds does not matter for the total. -/
theorem total_of_perm {s : Statistics} {entries : List (String × Tally)}
    (h : s.kinds.entries.Perm entries) :
    s.total = ⟨(entries.map fun e => e.2.files).sum, (entries.map fun e => e.2.bytes).sum⟩ := by
  rw [total, Tally.foldl_add, NameMap.values, List.map_map, List.map_map]
  have hfiles := (h.map fun e => e.2.files).sum_nat
  have hbytes := (h.map fun e => e.2.bytes).sum_nat
  simp only [Tally.zero, Function.comp_def, hfiles, hbytes, Nat.zero_add]

/-- **One more file adds to the total.** -/
theorem total_record (s : Statistics) (kind : String) (bytes : Nat) :
    (s.record kind bytes).total = s.total.addFile bytes := by
  have hrecord : (s.record kind bytes).kinds.entries.Perm
      ((kind, (s.tallyOf kind).addFile bytes) :: (s.kinds.erase kind).entries) := by
    rw [← NameMap.erase_insert_self s.kinds kind ((s.tallyOf kind).addFile bytes)]
    exact NameMap.entries_perm_erase (NameMap.get?_insert_self _ _ _)
  rw [total_of_perm hrecord]
  cases hkind : s.kinds.get? kind with
  | none =>
    rw [NameMap.erase_eq_self hkind, total_of_perm (List.Perm.refl s.kinds.entries)]
    simp only [tallyOf, hkind, Option.getD_none, Tally.zero, Tally.addFile, List.map_cons,
      List.sum_cons]
    congr 1 <;> omega
  | some t =>
    rw [total_of_perm (NameMap.entries_perm_erase hkind)]
    simp only [tallyOf, hkind, Option.getD_some, Tally.addFile, List.map_cons, List.sum_cons]
    congr 1 <;> omega

end Statistics

end SimMetadata
