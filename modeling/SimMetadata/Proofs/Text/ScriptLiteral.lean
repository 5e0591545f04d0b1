import Mathlib.Tactic.SplitIfs
import SimMetadata.Proofs.Text.Literal
import SimMetadata.Text.ScriptLiteral

/-!
# String literals of the scripting layer read back

A character is written in one of three ways: as it is, by a backslash and a letter, or by its code
in four hexadecimal digits. Each of them is read as this character, whatever follows, so a text is
read back from its literal.

## Main results

* `ScriptLiteral.escape_cases`: the three ways to write a character.
* `ScriptLiteral.decode?_encode`: a text is read back from its literal.
* `ScriptLiteral.read?_encode`: a printed literal ends where it was meant to.
-/

namespace SimMetadata.Text.ScriptLiteral

variable {c : Char} {cs rest : List Char}

/-! ### What is written for one character -/

/-- The letters of the short escapes. -/
def letters : List Char := ['\"', '\\', 'b', 't', 'n', 'f', 'r']

/-- The three ways to write a character. -/
theorem escape_cases (c : Char) :
    (Literal.isPlain c = true ∧ 0x20 ≤ c.toNat ∧ escape c = [c])
      ∨ (∃ letter ∈ letters, unescape? letter = some c ∧ escape c = ['\\', letter])
      ∨ (c.toNat < 0x20 ∧
        escape c = ['\\', 'u', '0', '0', hexDigit (c.toNat / 16), hexDigit c.toNat]) := by
  unfold escape
  split_ifs with hquote hbackslash hbell htab hfeed hpage hreturn hcontrol
  · exact .inr (.inl ⟨'\"', by decide, by rw [hquote]; rfl, rfl⟩)
  · exact .inr (.inl ⟨'\\', by decide, by rw [hbackslash]; rfl, rfl⟩)
  · exact .inr (.inl ⟨'b', by decide, by rw [hbell]; rfl, rfl⟩)
  · exact .inr (.inl ⟨'t', by decide, by rw [htab]; rfl, rfl⟩)
  · exact .inr (.inl ⟨'n', by decide, by rw [hfeed]; rfl, rfl⟩)
  · exact .inr (.inl ⟨'f', by decide, by rw [hpage]; rfl, rfl⟩)
  · exact .inr (.inl ⟨'r', by decide, by rw [hreturn]; rfl, rfl⟩)
  · exact .inr (.inr ⟨hcontrol, rfl⟩)
  · have hplain : Literal.isPlain c = true := by
      simp [Literal.isPlain, hquote, hbackslash, hfeed]
    exact .inl ⟨hplain, Nat.le_of_not_lt hcontrol, rfl⟩

theorem isPlain_hexDigit (n : Nat) : Literal.isPlain (hexDigit n) = true := by
  have hplain : ∀ k < 16, Literal.isPlain (Nat.digitChar k) = true := by decide
  exact hplain _ (Nat.mod_lt n (by decide))

theorem passes_escape (c : Char) : Literal.Passes (escape c) := by
  obtain ⟨hplain, -, heq⟩ | ⟨letter, hletter, -, heq⟩ | ⟨-, heq⟩ := escape_cases c
  · rw [heq]
    exact Literal.passes_plain (by simp [hplain])
  · have hfeed : ∀ l ∈ letters, l ≠ '\n' := by simp [letters]
    rw [heq]
    exact Literal.passes_escaped (hfeed letter hletter) rfl
  · have hzero : Literal.isPlain '0' = true := by decide
    rw [heq]
    exact Literal.passes_escaped (by decide) (by simp [hzero, isPlain_hexDigit])

/-! ### Reading back -/

theorem hexValue?_hexDigit (n : Nat) : hexValue? (hexDigit n) = some (n % 16) := by
  have hvalue : ∀ k < 16, hexValue? (Nat.digitChar k) = some k := by decide
  exact hvalue _ (Nat.mod_lt n (by decide))

theorem decodeBody?_plain (hc : Literal.isPlain c = true) (hprintable : 0x20 ≤ c.toNat)
    (rest : List Char) : decodeBody? (c :: rest) = (decodeBody? rest).map (c :: ·) := by
  simp only [Literal.isPlain, Bool.and_eq_true, decide_eq_true_eq] at hc
  obtain ⟨⟨hquote, hbackslash⟩, -⟩ := hc
  rw [decodeBody?, if_neg (Nat.not_lt.mpr hprintable)]
  · exact hquote
  · exact fun _ _ _ _ _ heq _ => hbackslash heq
  · exact fun _ _ heq _ => hbackslash heq

theorem decodeBody?_letter {letter : Char} (hu : letter ≠ 'u') (hc : unescape? letter = some c)
    (rest : List Char) :
    decodeBody? ('\\' :: letter :: rest) = (decodeBody? rest).map (c :: ·) := by
  rw [decodeBody?, hc]
  · cases decodeBody? rest <;> rfl
  · exact fun _ _ _ _ _ heq _ => hu heq

theorem decodeBody?_code {n : Nat} (h : n < 0x20) (rest : List Char) :
    decodeBody? ('\\' :: 'u' :: '0' :: '0' :: hexDigit (n / 16) :: hexDigit n :: rest)
      = (decodeBody? rest).map (Char.ofNat n :: ·) := by
  have hzero : hexValue? '0' = some 0 := by decide
  have hcode : n / 16 % 16 * 16 + n % 16 = n := by omega
  have hvalid : n.isValidChar := .inl (by omega)
  rw [decodeBody?, hzero, hexValue?_hexDigit, hexValue?_hexDigit]
  simp only [Option.bind_eq_bind, Option.bind_some, Nat.zero_mul, Nat.zero_add, hcode,
    if_pos hvalid]
  cases decodeBody? rest <;> rfl

/-- What is written for a character is read as this character. -/
theorem decodeBody?_escape (c : Char) (rest : List Char) :
    decodeBody? (escape c ++ rest) = (decodeBody? rest).map (c :: ·) := by
  obtain ⟨hplain, hc, heq⟩ | ⟨letter, hletter, hc, heq⟩ | ⟨hc, heq⟩ := escape_cases c
  · rw [heq, List.singleton_append, decodeBody?_plain hplain hc]
  · have hu : ∀ l ∈ letters, l ≠ 'u' := by simp [letters]
    rw [heq, List.cons_append, List.singleton_append, decodeBody?_letter (hu letter hletter) hc]
  · rw [heq]
    simp only [List.cons_append, List.nil_append]
    rw [decodeBody?_code hc, Char.ofNat_toNat]

/-- **A text is read back from its literal.** -/
theorem decode?_encode (cs : List Char) : decode? (encode cs) = some cs := by
  rw [encode, List.cons_append, decode?, Literal.read_flatMap decodeBody?_escape, decodeBody?,
    if_pos rfl]
  simp

/-- A printed literal is read as its text, whatever follows it. -/
theorem read?_encode (cs rest : List Char) :
    Literal.read? decode? (encode cs ++ rest) = some (cs, rest) :=
  Literal.read?_of_passes (Literal.passes_flatMap passes_escape cs) (decode?_encode cs) rest

/-- A printed literal stands on one line. -/
theorem feed_not_mem_encode (cs : List Char) : '\n' ∉ encode cs := by
  obtain ⟨body, heq, hfeed, -⟩ := Literal.read?_eq_some (read?_encode cs [])
  rw [List.append_nil] at heq
  rw [heq]
  simp [hfeed]

theorem unquote?_quote (s : String) : unquote? (quote s) = some s := by
  rw [unquote?, toList_quote, decode?_encode, Option.map_some, String.ofList_toList]

end SimMetadata.Text.ScriptLiteral
