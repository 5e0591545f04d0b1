import Mathlib.Tactic.SplitIfs
import SimMetadata.Proofs.Text.Literal
import SimMetadata.Text.NativeLiteral

/-!
# Native string literals read back

A character is written in one of three ways: as it is, by a backslash and a letter, or by its code
in three octal digits. Three are the most that an octal escape takes, so each of them is read as
this character, whatever follows, and a text is read back from its literal.

Some tables put a text between quotes as it is. It then stands for itself exactly if nothing in it
is special in a literal, because an escape is longer than what it stands for.

## Main results

* `NativeLiteral.escape_cases`: the three ways to write a character.
* `NativeLiteral.split?_encode`: a printed literal ends where it was meant to.
* `NativeLiteral.unquote?_quote`, `NativeLiteral.quote_injective`: a text is read back from its
  literal.
* `NativeLiteral.decode?_quoted_iff`: which texts stand for themselves between quotes.
-/

namespace SimMetadata.Text.NativeLiteral

variable {c : Char} {cs rest : List Char}

/-! ### What is written for one character -/

/-- The letters of the short escapes that are written. -/
def letters : List Char := ['\"', '\\', 'n', 't', 'r']

/-- The three ways to write a character. -/
theorem escape_cases (c : Char) :
    (Literal.isPlain c = true ∧ 0x20 ≤ c.toNat ∧ escape c = [c])
      ∨ (∃ letter ∈ letters, unescape? letter = some c ∧ escape c = ['\\', letter])
      ∨ (c.toNat < 0x20 ∧ escape c = ['\\', octalDigit (c.toNat / 64), octalDigit (c.toNat / 8),
        octalDigit c.toNat]) := by
  unfold escape
  split_ifs with hquote hbackslash hfeed htab hreturn hcontrol
  · exact .inr (.inl ⟨'\"', by decide, by rw [hquote]; rfl, rfl⟩)
  · exact .inr (.inl ⟨'\\', by decide, by rw [hbackslash]; rfl, rfl⟩)
  · exact .inr (.inl ⟨'n', by decide, by rw [hfeed]; rfl, rfl⟩)
  · exact .inr (.inl ⟨'t', by decide, by rw [htab]; rfl, rfl⟩)
  · exact .inr (.inl ⟨'r', by decide, by rw [hreturn]; rfl, rfl⟩)
  · exact .inr (.inr ⟨hcontrol, rfl⟩)
  · have hplain : Literal.isPlain c = true := by
      simp [Literal.isPlain, hquote, hbackslash, hfeed]
    exact .inl ⟨hplain, Nat.le_of_not_lt hcontrol, rfl⟩

/-- An octal digit is a digit. -/
theorem octalDigit_eq (n : Nat) : ∃ k < 8, octalDigit n = Nat.digitChar k :=
  ⟨n % 8, Nat.mod_lt n (by decide), rfl⟩

theorem isPlain_octalDigit (n : Nat) : Literal.isPlain (octalDigit n) = true := by
  obtain ⟨k, hk, heq⟩ := octalDigit_eq n
  have hplain : ∀ k < 8, Literal.isPlain (Nat.digitChar k) = true := by decide
  rw [heq, hplain k hk]

theorem passes_escape (c : Char) : Literal.Passes (escape c) := by
  obtain ⟨hplain, -, heq⟩ | ⟨letter, hletter, -, heq⟩ | ⟨-, heq⟩ := escape_cases c
  · rw [heq]
    exact Literal.passes_plain (by simp [hplain])
  · have hfeed : ∀ l ∈ letters, l ≠ '\n' := by simp [letters]
    rw [heq]
    exact Literal.passes_escaped (hfeed letter hletter) rfl
  · have hne : octalDigit (c.toNat / 64) ≠ '\n' := by
      intro h
      exact absurd (isPlain_octalDigit (c.toNat / 64)) (by rw [h]; decide)
    rw [heq]
    exact Literal.passes_escaped hne (by simp [isPlain_octalDigit])

/-- A printed literal ends where it was meant to, whatever follows it. -/
theorem split?_encode (cs rest : List Char) :
    Literal.split? (encode cs ++ rest) = some (encode cs, rest) :=
  Literal.split?_of_passes (Literal.passes_flatMap passes_escape cs) rest

/-- No control character stands in a literal. -/
theorem printable_escape (c : Char) : ∀ d ∈ escape c, 0x20 ≤ d.toNat := by
  obtain ⟨-, hc, heq⟩ | ⟨letter, hletter, -, heq⟩ | ⟨-, heq⟩ := escape_cases c
  · rw [heq]
    simpa using hc
  · have hall : ∀ l ∈ letters, 0x20 ≤ l.toNat := by simp [letters]
    rw [heq]
    simpa using hall letter hletter
  · have hdigit : ∀ n, 0x20 ≤ (octalDigit n).toNat := by
      intro n
      obtain ⟨k, hk, heq⟩ := octalDigit_eq n
      have hall : ∀ k < 8, 0x20 ≤ (Nat.digitChar k).toNat := by decide
      rw [heq]
      exact hall k hk
    rw [heq]
    simp [hdigit]

theorem printable_encode (cs : List Char) : ∀ c ∈ encode cs, 0x20 ≤ c.toNat := by
  intro c hc
  rw [encode, List.cons_append, List.mem_cons, List.mem_append, List.mem_singleton] at hc
  rcases hc with rfl | hc | rfl
  · decide
  · obtain ⟨d, -, hd⟩ := List.mem_flatMap.mp hc
    exact printable_escape d c hd
  · decide

/-! ### Reading back -/

/-- An escape of three octal digits takes all three and no more, whatever follows them. -/
theorem octalEscape?_digits {n : Nat} (h : n < 0x20) (rest : List Char) :
    octalEscape? (octalDigit (n / 64) :: octalDigit (n / 8) :: octalDigit n :: rest)
      = some (n, 3) := by
  have hall : ∀ n < 0x20,
      octalEscape? [octalDigit (n / 64), octalDigit (n / 8), octalDigit n] = some (n, 3) := by
    decide
  exact hall n h

theorem decodeBody?_plain (hc : Literal.isPlain c = true) (rest : List Char) :
    decodeBody? 0 (c :: rest) = (decodeBody? 0 rest).map (c :: ·) := by
  simp only [Literal.isPlain, Bool.and_eq_true, decide_eq_true_eq] at hc
  obtain ⟨⟨hquote, hbackslash⟩, hfeed⟩ := hc
  rw [decodeBody?]
  · exact hquote
  · exact hbackslash
  · exact hfeed

/-- A letter that is no octal digit is an escape by itself. -/
theorem decodeBody?_letter {letter : Char} (hdigit : octalValue? letter = none)
    (hc : unescape? letter = some c) (rest : List Char) :
    decodeBody? 0 ('\\' :: letter :: rest) = (decodeBody? 0 rest).map (c :: ·) := by
  have hoctal : octalEscape? (letter :: rest) = none := by
    simp [octalEscape?, hdigit]
  rw [decodeBody?, hoctal]
  simp only [hc, decodeBody?]
  cases decodeBody? 0 rest <;> rfl

/-- What is written for a character is read as this character. -/
theorem decodeBody?_escape (c : Char) (rest : List Char) :
    decodeBody? 0 (escape c ++ rest) = (decodeBody? 0 rest).map (c :: ·) := by
  obtain ⟨hplain, -, heq⟩ | ⟨letter, hletter, hc, heq⟩ | ⟨hc, heq⟩ := escape_cases c
  · rw [heq, List.singleton_append, decodeBody?_plain hplain]
  · have hdigit : ∀ l ∈ letters, octalValue? l = none := by simp [letters, octalValue?]
    rw [heq, List.cons_append, List.singleton_append,
      decodeBody?_letter (hdigit letter hletter) hc]
  · rw [heq]
    simp only [List.cons_append, List.nil_append]
    rw [decodeBody?, octalEscape?_digits hc]
    simp only [decodeBody?, Char.ofNat_toNat]

/-- **A text is read back from its literal.** -/
theorem decode?_encode (cs : List Char) : decode? (encode cs) = some cs := by
  rw [encode, List.cons_append, decode?, Literal.read_flatMap decodeBody?_escape, decodeBody?,
    if_pos rfl]
  simp

/-! ### Texts between quotes as they are -/

/-- An octal escape takes a digit at least. -/
theorem octalEscape?_pos {code digits : Nat} (h : octalEscape? cs = some (code, digits)) :
    0 < digits := by
  rw [octalEscape?] at h
  split at h
  · cases h
  · next hne =>
    cases h
    exact List.length_pos_iff.mpr hne

/-- A text has room in front of the closing quote, and so have the digits that are passed over. -/
theorem length_decodeBody? {n : Nat} {text : List Char} (h : decodeBody? n cs = some text) :
    text.length + n < cs.length := by
  fun_induction decodeBody? n cs generalizing text with
  | case1 => cases h
  | case2 n c rest ih => exact Nat.succ_lt_succ (ih h)
  | case3 =>
    cases h
    decide
  | case4 => cases h
  | case5 rest code digits hoctal ih =>
    obtain ⟨tail, htail, rfl⟩ := Option.map_eq_some_iff.mp h
    have hlt := ih htail
    have hpos := octalEscape?_pos hoctal
    simp only [List.length_cons]
    omega
  | case6 => cases h
  | case7 c rest hoctal ih =>
    obtain ⟨d, hd, h⟩ := Option.bind_eq_some_iff.mp h
    obtain ⟨tail, htail, h⟩ := Option.bind_eq_some_iff.mp h
    cases h
    have hlt := ih htail
    simp only [List.length_cons] at hlt ⊢
    omega
  | case8 => cases h
  | case9 c rest _ _ _ ih =>
    obtain ⟨tail, htail, rfl⟩ := Option.map_eq_some_iff.mp h
    exact Nat.succ_lt_succ (ih htail)

/-- With an escape in front, a text is shorter than what stands between the quotes. -/
theorem length_decodeBody?_backslash {text : List Char}
    (h : decodeBody? 0 ('\\' :: cs) = some text) : text.length < cs.length := by
  cases cs with
  | nil => cases h
  | cons c cs =>
    rw [decodeBody?] at h
    split at h
    · next hoctal =>
      obtain ⟨tail, htail, rfl⟩ := Option.map_eq_some_iff.mp h
      have hlt := length_decodeBody? htail
      have hpos := octalEscape?_pos hoctal
      simp only [List.length_cons] at hlt ⊢
      omega
    · obtain ⟨d, -, h⟩ := Option.bind_eq_some_iff.mp h
      obtain ⟨tail, htail, h⟩ := Option.bind_eq_some_iff.mp h
      cases h
      exact length_decodeBody? htail

/-- A text that is put between quotes as it is stands for itself exactly if it has nothing in it
that is special in a literal: an escape is longer than what it stands for. -/
theorem decode?_quoted_iff : decode? ('\"' :: cs ++ ['\"']) = some cs ↔ cs.all Literal.isPlain := by
  rw [List.cons_append, decode?]
  induction cs with
  | nil => simp [decodeBody?]
  | cons c cs ih =>
    rw [List.cons_append, List.all_cons]
    cases hplain : Literal.isPlain c with
    | true =>
      rw [decodeBody?_plain hplain, Bool.true_and, ← ih]
      simp
    | false =>
      refine iff_of_false (fun h => ?_) (by simp)
      obtain rfl | rfl | rfl := Literal.not_isPlain_iff.mp hplain
      · rw [decodeBody?, if_neg (by simp)] at h
        cases h
      · have hlt := length_decodeBody?_backslash h
        simp at hlt
      · cases h

/-! ### Literals with something after them -/

/-- A printed literal is read as its text, whatever follows it. -/
theorem read?_encode (cs rest : List Char) :
    Literal.read? decode? (encode cs ++ rest) = some (cs, rest) :=
  Literal.read?_of_passes (Literal.passes_flatMap passes_escape cs) (decode?_encode cs) rest

theorem read?_quoted (h : cs.all Literal.isPlain = true) (rest : List Char) :
    Literal.read? decode? ('\"' :: cs ++ '\"' :: rest) = some (cs, rest) := by
  have hread := Literal.read?_of_passes (Literal.passes_plain h) (decode?_quoted_iff.mpr h) rest
  rwa [List.append_assoc, List.singleton_append] at hread

/-- A text that is put between quotes as it is, at the end of a line, is read as itself only if it
has nothing special in it. The literal that is read cannot go beyond the line, and what it stands
for is not longer than it is, so it has to be the text between the quotes. -/
theorem isPlain_of_read?_quoted {after : List Char}
    (h : Literal.read? decode? ('\"' :: cs ++ '\"' :: ',' :: '\n' :: rest) = some (cs, after)) :
    cs.all Literal.isPlain = true := by
  obtain ⟨body, heq, hfeed, htext⟩ := Literal.read?_eq_some h
  have hlength : cs.length ≤ body.length := by
    rw [List.cons_append, decode?] at htext
    have hlt := length_decodeBody? htext
    rw [List.length_append, List.length_singleton] at hlt
    exact Nat.le_of_lt_succ hlt
  have hbody : body = cs := by
    obtain ⟨beyond, rfl, hbeyond⟩ | ⟨missing, rfl, -⟩ :=
      List.append_eq_append_iff.mp (List.cons.inj heq).2
    · match beyond, hbeyond with
      | [], _ => exact List.append_nil _
      | [_], hbeyond => simp at hbeyond
      | [_, _], hbeyond => simp at hbeyond
      | _ :: _ :: _ :: _, hbeyond =>
        obtain ⟨rfl, rfl, rfl, -⟩ : _ ∧ _ ∧ _ ∧ _ := by simpa using hbeyond
        simp at hfeed
    · rw [List.length_append] at hlength
      rw [List.eq_nil_of_length_eq_zero (by omega : missing.length = 0), List.append_nil]
  rw [hbody] at htext
  exact decode?_quoted_iff.mp htext

/-! ### Strings -/

theorem unquote?_quote (s : String) : unquote? (quote s) = some s := by
  rw [unquote?, toList_quote, decode?_encode, Option.map_some, String.ofList_toList]

theorem quote_injective : Function.Injective quote := by
  intro s s' h
  have htext := unquote?_quote s
  rw [h, unquote?_quote] at htext
  exact (Option.some_inj.mp htext).symm

end SimMetadata.Text.NativeLiteral
