import SimMetadata.ParamType

/-!
# The names in parameter types

A type is read from a text with some idea of which names are enumerations. Reading looks a name up
among the scalars and the enumerations only, so the class that a type refers to does not depend on
the enumerations, as long as it is one.

## Main definitions

* `ParamType.referredName?`: the class that a text refers to when no enumeration is known.
* `ParamType.Known`: what a type refers to is known.

## Main results

* `ParamType.isEnum_of_ofText?`: the enumeration of a type is one of those it was read with.
* `ParamType.ofText?_congr`: which enumerations a text is read with matters for its own name only.
* `ParamType.referredName?_of_ofText?`, `ParamType.referred_of_ofText?`: the name that a text refers
  to is the class of its type, or else the enumeration.
* `ParamType.ofText?_name`: the normalised name of a type is read as that type.
-/

namespace SimMetadata

namespace Text

/-- What may stand in an identifier is not blank. -/
theorem isBlank_of_continuesIdentifier {c : Char} (h : continuesIdentifier c = true) :
    isBlank c = false := by
  have hrange : 48 ≤ c.toNat ∧ c.toNat ≤ 122 := by
    rw [continuesIdentifier, Bool.or_eq_true, decide_eq_true_eq] at h
    rcases h with h | rfl
    · change (decide ('A'.val ≤ c.val ∧ c.val ≤ 'Z'.val)
        || decide ('a'.val ≤ c.val) && decide (c.val ≤ 'z'.val)
        || decide ('0'.val ≤ c.val) && decide (c.val ≤ '9'.val)) = true at h
      simp only [Bool.or_eq_true, Bool.and_eq_true, decide_eq_true_eq,
        UInt32.le_iff_toNat_le] at h
      rcases h with (h | h) | h <;>
        exact ⟨Nat.le_trans (by decide) h.1, Nat.le_trans h.2 (by decide)⟩
    · decide
  rw [isBlank, List.any_eq_false]
  simp only [blankRanges, List.mem_cons, List.not_mem_nil, or_false, forall_eq_or_imp, forall_eq,
    Bool.and_eq_true, decide_eq_true_eq]
  omega

/-- There is nothing to trim around an identifier. -/
theorem trim_of_isIdentifier {cs : List Char} (h : isIdentifier cs = true) : trim cs = cs :=
  trim_eq_self
    (fun _ hc => isBlank_of_continuesIdentifier
      (continuesIdentifier_of_mem h (List.mem_of_head? hc)))
    (fun _ hc => isBlank_of_continuesIdentifier
      (continuesIdentifier_of_mem h (List.mem_of_getLast? hc)))

end Text

namespace ElementType

variable {isEnum isEnum' : String → Bool} {cs : List Char} {e e' : ElementType} {name : String}

theorem enumName?_eq_some_iff : e.enumName? = some name ↔ e = enum name := by
  cases e <;> simp [enumName?]

theorem objectName?_eq_some_iff : e.objectName? = some name ↔ e = object name := by
  cases e <;> simp [objectName?]

/-- The three ways to read an element type. -/
theorem ofChars?_cases (h : ofChars? isEnum cs = some e) :
    Text.isIdentifier cs = true ∧
      ((∃ s, Scalar.ofName? (String.ofList cs) = some s ∧ e = scalar s)
        ∨ (Scalar.ofName? (String.ofList cs) = none
          ∧ e = if isEnum (String.ofList cs) then enum (String.ofList cs)
            else object (String.ofList cs))) := by
  rw [ofChars?] at h
  split at h
  · next hid =>
    refine ⟨hid, ?_⟩
    dsimp only at h
    split at h
    · next s hs => cases h; exact .inl ⟨s, hs, rfl⟩
    · next hs => cases h; exact .inr ⟨hs, rfl⟩
  · cases h

theorem isEnum_of_ofChars? (h : ofChars? isEnum cs = some e) (hn : e.enumName? = some name) :
    isEnum name = true := by
  obtain ⟨-, ⟨s, -, rfl⟩ | ⟨-, rfl⟩⟩ := ofChars?_cases h
  · cases hn
  · split at hn
    · next he => cases hn; exact he
    · cases hn

/-- The name of a type is what the type was read from. -/
theorem name_of_ofChars? (h : ofChars? isEnum cs = some e) : e.name = String.ofList cs := by
  obtain ⟨-, ⟨s, hs, rfl⟩ | ⟨-, rfl⟩⟩ := ofChars?_cases h
  · exact Scalar.name_of_ofName? hs
  · split <;> rfl

/-- The same characters give the same type with other enumerations, if these have its name exactly
when it is the name of an enumeration. -/
theorem ofChars?_congr (h : ofChars? isEnum cs = some e)
    (henum : ∀ n, e.enumName? = some n → isEnum' n = true)
    (hobject : ∀ n, e.objectName? = some n → isEnum' n = false) :
    ofChars? isEnum' cs = some e := by
  obtain ⟨hid, ⟨s, hs, rfl⟩ | ⟨hscalar, rfl⟩⟩ := ofChars?_cases h
  · rw [ofChars?, if_pos hid]
    dsimp only
    rw [hs]
  · rw [ofChars?, if_pos hid]
    dsimp only
    rw [hscalar]
    by_cases he : isEnum (String.ofList cs) = true
    · rw [if_pos he] at henum ⊢
      rw [henum _ rfl]
      rfl
    · rw [if_neg he] at hobject ⊢
      rw [hobject _ rfl]
      rfl

/-- A name that counts as a class while no enumeration is known is a class or an enumeration. -/
theorem referred_of_ofChars? (h : ofChars? isEnum cs = some e)
    (h' : ofChars? (fun _ => false) cs = some e') (hn : e'.objectName? = some name) :
    e.objectName? = some name ∨ e.enumName? = some name := by
  obtain ⟨-, ⟨s', -, rfl⟩ | ⟨hscalar, rfl⟩⟩ := ofChars?_cases h'
  · cases hn
  · cases hn
    obtain ⟨-, ⟨s, hs, -⟩ | ⟨-, rfl⟩⟩ := ofChars?_cases h
    · cases hscalar.symm.trans hs
    · split
      · exact .inr rfl
      · exact .inl rfl

end ElementType

namespace ParamType

variable {isEnum isEnum' : String → Bool} {text name : String} {t : ParamType}

theorem element_eq_iff {e : ElementType} : t.element = e ↔ t = plain e ∨ t = vector e := by
  cases t <;> simp [element]

/-- A type refers to an enumeration directly or as a vector of it. -/
theorem enumName?_eq_some_iff :
    t.enumName? = some name ↔ t = plain (.enum name) ∨ t = vector (.enum name) := by
  rw [enumName?, ElementType.enumName?_eq_some_iff, element_eq_iff]

/-- A type refers to a class directly or as a vector of references to it. -/
theorem objectName?_eq_some_iff :
    t.objectName? = some name ↔ t = plain (.object name) ∨ t = vector (.object name) := by
  rw [objectName?, ElementType.objectName?_eq_some_iff, element_eq_iff]

/-- A type is read from the characters of its element, in a way that does not depend on the
enumerations. -/
theorem ofText?_eq (text : String) : ∃ cs make, ∀ isEnum,
    ofText? isEnum text = (ElementType.ofChars? isEnum cs).map make
      ∧ ∀ e : ElementType, (make e).element = e := by
  cases h : vectorElement? (Text.trim text.toList) with
  | some inner =>
    refine ⟨Text.trim inner, vector, fun isEnum => ⟨?_, fun _ => rfl⟩⟩
    rw [ofText?, ofChars?, h]
  | none =>
    refine ⟨Text.trim text.toList, plain, fun isEnum => ⟨?_, fun _ => rfl⟩⟩
    rw [ofText?, ofChars?, h]

theorem isEnum_of_ofText? (h : ofText? isEnum text = some t) (hn : t.enumName? = some name) :
    isEnum name = true := by
  obtain ⟨cs, make, hmake⟩ := ofText?_eq text
  obtain ⟨heq, helement⟩ := hmake isEnum
  rw [heq] at h
  obtain ⟨e, he, rfl⟩ := Option.map_eq_some_iff.mp h
  rw [enumName?, helement] at hn
  exact ElementType.isEnum_of_ofChars? he hn

/-- The same text gives the same type with other enumerations, if these have the name in it exactly
when the type is an enumeration. -/
theorem ofText?_congr (h : ofText? isEnum text = some t)
    (henum : ∀ n, t.enumName? = some n → isEnum' n = true)
    (hobject : ∀ n, t.objectName? = some n → isEnum' n = false) :
    ofText? isEnum' text = some t := by
  obtain ⟨cs, make, hmake⟩ := ofText?_eq text
  rw [(hmake isEnum).1] at h
  obtain ⟨e, he, rfl⟩ := Option.map_eq_some_iff.mp h
  rw [enumName?, (hmake isEnum).2] at henum
  rw [objectName?, (hmake isEnum).2] at hobject
  rw [(hmake isEnum').1, ElementType.ofChars?_congr he henum hobject]
  rfl

/-- The class that the text of a type refers to when no enumeration is known. It is the name in the
text, by itself or as the element of a vector, unless that is the name of a scalar. -/
def referredName? (text : String) : Option String :=
  ofText? (fun _ => false) text >>= objectName?

/-- A type that refers to a class refers to it when no enumeration is known, too. -/
theorem referredName?_of_ofText? (h : ofText? isEnum text = some t)
    (hn : t.objectName? = some name) : referredName? text = some name := by
  have hnone : t.enumName? = none := by
    rcases objectName?_eq_some_iff.mp hn with rfl | rfl <;> rfl
  have hread : ofText? (fun _ => false) text = some t :=
    ofText?_congr h (by simp [hnone]) (fun _ _ => rfl)
  rw [referredName?, hread]
  exact hn

/-- What a text refers to when no enumeration is known is a class or an enumeration in the end. -/
theorem referred_of_ofText? (h : ofText? isEnum text = some t)
    (hn : referredName? text = some name) :
    t.objectName? = some name ∨ t.enumName? = some name := by
  obtain ⟨cs, make, hmake⟩ := ofText?_eq text
  obtain ⟨t', ht', hn⟩ := Option.bind_eq_some_iff.mp hn
  rw [(hmake _).1] at h ht'
  obtain ⟨e, he, rfl⟩ := Option.map_eq_some_iff.mp h
  obtain ⟨e', he', rfl⟩ := Option.map_eq_some_iff.mp ht'
  rw [objectName?, (hmake isEnum).2] at hn
  rw [objectName?, enumName?, (hmake isEnum).2]
  exact ElementType.referred_of_ofChars? he he' hn

/-- The class and the enumeration that a type refers to, if any, are known. -/
structure Known (isEnum isClass : String → Bool) (t : ParamType) : Prop where
  object : ∀ name, t.objectName? = some name → isClass name = true
  enum : ∀ name, t.enumName? = some name → isEnum name = true

/-! ### Normalised names -/

theorem vectorElement?_of_isIdentifier {cs : List Char} (h : Text.isIdentifier cs = true) :
    vectorElement? cs = none := by
  rw [vectorElement?.eq_def]
  split
  · exact absurd (Text.continuesIdentifier_of_mem (c := '<') h (by simp)) (by decide)
  · rfl

/-- **A type is read from its own name**, because the name has nothing around it to leave out. -/
theorem ofText?_name (h : ofText? isEnum text = some t) : ofText? isEnum t.name = some t := by
  rw [ofText?, ofChars?] at h
  split at h
  · next inner _ =>
    obtain ⟨e, he, rfl⟩ := Option.map_eq_some_iff.mp h
    obtain ⟨hid, -⟩ := ElementType.ofChars?_cases he
    have htext : (vector e).name.toList
        = ('V' :: 'e' :: 'c' :: 't' :: 'o' :: 'r' :: '<' :: Text.trim inner) ++ ['>'] := by
      rw [name, ElementType.name_of_ofChars? he]
      simp
    have htrim : Text.trim (vector e).name.toList = (vector e).name.toList := by
      refine Text.trim_eq_self (fun c hc => ?_) (fun c hc => ?_)
      · rw [htext] at hc
        cases hc
        decide
      · rw [htext, List.getLast?_concat] at hc
        cases hc
        decide
    rw [ofText?, ofChars?, htrim, htext]
    simp [vectorElement?, Text.trim_of_isIdentifier hid, he]
  · obtain ⟨e, he, rfl⟩ := Option.map_eq_some_iff.mp h
    obtain ⟨hid, -⟩ := ElementType.ofChars?_cases he
    have htext : (plain e).name.toList = Text.trim text.toList := by
      rw [name, ElementType.name_of_ofChars? he, String.toList_ofList]
    rw [ofText?, ofChars?, htext, Text.trim_of_isIdentifier hid, vectorElement?_of_isIdentifier hid,
      he]
    rfl

end ParamType

end SimMetadata
