import Mathlib.Data.List.Infix
import SimMetadata.Text.Utf8

/-!
# Finding characters among the bytes of a text

A character below 128 is its own byte, and the bytes of any other character are all at least 128. So
characters below 128 stand in the bytes of a text exactly where they stand in the text.

## Main results

* `Text.utf8_infix_iff`: a text of such characters occurs in the bytes of a text exactly if it
  occurs in the text.
-/

namespace SimMetadata.Text

variable {c : Char} {cs t : List Char}

theorem utf8_eq_flatMap (s : String) : utf8 s = s.toList.flatMap String.utf8EncodeChar := by
  conv_lhs => rw [← String.ofList_toList (s := s)]
  rw [utf8, String.toUTF8_eq_toByteArray, String.toByteArray_ofList]
  simp [List.utf8Encode]

theorem utf8_inj {s s' : String} : utf8 s = utf8 s' ↔ s = s' := by
  constructor
  · intro h
    have htext := ofUtf8?_utf8 s
    rw [h, ofUtf8?_utf8] at htext
    exact (Option.some_inj.mp htext).symm
  · rintro rfl
    rfl

/-! ### The bytes of one character -/

theorem utf8EncodeChar_of_lt (h : c.toNat < 128) : String.utf8EncodeChar c = [c.toUInt8] := by
  have hle : c.val.toNat ≤ 127 := Nat.le_of_lt_succ h
  rw [String.utf8EncodeChar.eq_1, if_pos hle]
  rfl

theorem le_of_mem_utf8EncodeChar (h : 128 ≤ c.toNat) {b : UInt8}
    (hb : b ∈ String.utf8EncodeChar c) : 128 ≤ b.toNat := by
  have hlt : ¬ c.val.toNat ≤ 127 := Nat.not_le_of_lt h
  revert b
  rw [String.utf8EncodeChar.eq_1, if_neg hlt]
  -- However many bytes there are, each is a few bits of the character and a mark above them.
  split
  · simp
    omega
  split
  · simp
    omega
  · simp
    omega

theorem toNat_toUInt8_of_lt (h : c.toNat < 128) : c.toUInt8.toNat = c.toNat := by
  rw [Char.toUInt8, UInt32.toNat_toUInt8]
  exact Nat.mod_eq_of_lt (Nat.lt_trans h (by decide))

theorem toUInt8_inj_of_lt {a : Char} (ha : a.toNat < 128) (hc : c.toNat < 128) :
    a.toUInt8 = c.toUInt8 ↔ a = c := by
  rw [← UInt8.toNat_inj, toNat_toUInt8_of_lt ha, toNat_toUInt8_of_lt hc]
  exact Char.toNat_inj

/-! ### Characters below 128 among the bytes of a text -/

theorem map_toUInt8_prefix_iff (ht : ∀ a ∈ t, a.toNat < 128) :
    t.map Char.toUInt8 <+: cs.flatMap String.utf8EncodeChar ↔ t <+: cs := by
  induction t generalizing cs with
  | nil => simp
  | cons a t ih =>
    obtain ⟨ha, ht⟩ := List.forall_mem_cons.mp ht
    cases cs with
    | nil => simp
    | cons c cs =>
      rw [List.map_cons, List.flatMap_cons, List.cons_prefix_cons]
      by_cases hc : c.toNat < 128
      · rw [utf8EncodeChar_of_lt hc, List.singleton_append, List.cons_prefix_cons,
          toUInt8_inj_of_lt ha hc, ih ht]
      · have hhigh := fun b => le_of_mem_utf8EncodeChar (b := b) (Nat.le_of_not_lt hc)
        obtain ⟨b, bs, hbytes⟩ := List.exists_cons_of_ne_nil (String.utf8EncodeChar_ne_nil (c := c))
        rw [hbytes, List.cons_append, List.cons_prefix_cons]
        refine iff_of_false ?_ ?_
        · rintro ⟨rfl, -⟩
          refine Nat.not_lt_of_le (hhigh _ (hbytes ▸ List.mem_cons_self)) ?_
          rwa [toNat_toUInt8_of_lt ha]
        · rintro ⟨rfl, -⟩
          exact hc ha

/-- Bytes that do not occur in a list are not found any earlier if the list is put in front. -/
theorem infix_append_iff_of_not_mem {b : UInt8} {bs high rest : Bytes} (h : b ∉ high) :
    b :: bs <:+: high ++ rest ↔ b :: bs <:+: rest := by
  induction high with
  | nil => rfl
  | cons x high ih =>
    rw [List.mem_cons, not_or] at h
    rw [List.cons_append, List.infix_cons_iff, List.cons_prefix_cons, ih h.2]
    exact or_iff_right fun heq => h.1 heq.1

theorem map_toUInt8_infix_iff (hne : t ≠ []) (ht : ∀ a ∈ t, a.toNat < 128) :
    t.map Char.toUInt8 <:+: cs.flatMap String.utf8EncodeChar ↔ t <:+: cs := by
  induction cs with
  | nil => simp
  | cons c cs ih =>
    rw [List.infix_cons_iff, ← ih]
    by_cases hc : c.toNat < 128
    · rw [← map_toUInt8_prefix_iff ht, List.flatMap_cons, utf8EncodeChar_of_lt hc,
        List.singleton_append, List.infix_cons_iff]
    · obtain ⟨a, t, rfl⟩ := List.exists_cons_of_ne_nil hne
      have ha : a.toNat < 128 := ht a List.mem_cons_self
      have hprefix : ¬ a :: t <+: c :: cs := by
        rw [List.cons_prefix_cons]
        rintro ⟨rfl, -⟩
        exact hc ha
      have hmem : a.toUInt8 ∉ String.utf8EncodeChar c := by
        intro hmem
        refine Nat.not_lt_of_le (le_of_mem_utf8EncodeChar (Nat.le_of_not_lt hc) hmem) ?_
        rwa [toNat_toUInt8_of_lt ha]
      rw [or_iff_right hprefix, List.flatMap_cons, List.map_cons, infix_append_iff_of_not_mem hmem]

/-- **Where a text of characters below 128 occurs** in the bytes of a text. -/
theorem utf8_infix_iff {s : String} {text : String} (hne : s ≠ "")
    (hs : ∀ a ∈ s.toList, a.toNat < 128) : utf8 s <:+: utf8 text ↔ s.toList <:+: text.toList := by
  have hbytes : utf8 s = s.toList.map Char.toUInt8 := by
    rw [utf8_eq_flatMap, List.map_eq_flatMap]
    exact List.flatMap_congr fun a ha => utf8EncodeChar_of_lt (hs a ha)
  rw [hbytes, utf8_eq_flatMap text]
  exact map_toUInt8_infix_iff (mt String.toList_eq_nil_iff.mp hne) hs

end SimMetadata.Text
