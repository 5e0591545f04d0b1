import SimMetadata.Proofs.ParamType
import SimMetadata.Proofs.Text.Blank

/-!
# The grammar of parameter types

The reader of types trims, looks for the brackets of a vector, and trims again. What it accepts is
described here without it: an identifier, or an identifier between the brackets of a vector, where
white space may stand around the whole and around what is between the brackets.

Neither form is a special case of the other, because no identifier contains a bracket. A text in
which the brackets do not match falls through to the first form and is refused there.

## Main definitions

* `ElementType.Stands`: the type that a name stands for.
* `ParamType.bracketed`: the brackets of a vector around some characters.
* `ParamType.Spelled`: some characters, the normalised name and the type that belong together.

## Main results

* `ParamType.ofText?_eq_some_iff`: what is read is what is spelled.
* `ParamType.accepts_grammar`: the texts that are accepted, what they are read as, and the names of
  types as their normal forms.
-/

namespace SimMetadata

theorem Scalar.ofName?_eq_none_iff {name : String} :
    Scalar.ofName? name = none ↔ ∀ s : Scalar, s.name ≠ name := by
  constructor
  · rintro hnone s rfl
    rw [Scalar.ofName?_name] at hnone
    cases hnone
  · intro hnone
    rw [Option.eq_none_iff_forall_ne_some]
    exact fun s hs => hnone s (Scalar.name_of_ofName? hs)

/-- There is something in an identifier. -/
theorem Text.exists_mem_of_isIdentifier {cs : List Char} (h : Text.isIdentifier cs = true) :
    ∃ c, c ∈ cs := by
  cases cs with
  | nil => cases h
  | cons c cs => exact ⟨c, List.mem_cons_self⟩

namespace ElementType

variable {isEnum : String → Bool} {cs : List Char} {e : ElementType}

/-- The type that a name stands for. The scalars have the first claim to their names; of the other
names, `isEnum` knows those of enumerations, and the rest are taken for classes. -/
inductive Stands (isEnum : String → Bool) : String → ElementType → Prop
  | scalar (s : Scalar) : Stands isEnum s.name (scalar s)
  | enum {name : String} (hscalar : ∀ s : Scalar, s.name ≠ name) (henum : isEnum name = true) :
      Stands isEnum name (enum name)
  | object {name : String} (hscalar : ∀ s : Scalar, s.name ≠ name) (henum : isEnum name = false) :
      Stands isEnum name (object name)

/-- Every name stands for something. -/
theorem exists_stands (isEnum : String → Bool) (name : String) : ∃ e, Stands isEnum name e := by
  by_cases hscalar : ∃ s : Scalar, s.name = name
  · obtain ⟨s, rfl⟩ := hscalar
    exact ⟨scalar s, .scalar s⟩
  · rw [not_exists] at hscalar
    cases henum : isEnum name with
    | true => exact ⟨enum name, .enum hscalar henum⟩
    | false => exact ⟨object name, .object hscalar henum⟩

/-- An element type is read from the identifiers that stand for it. -/
theorem ofChars?_eq_some_iff :
    ofChars? isEnum cs = some e
      ↔ Text.isIdentifier cs = true ∧ Stands isEnum (String.ofList cs) e := by
  constructor
  · intro h
    obtain ⟨hid, ⟨s, hs, rfl⟩ | ⟨hnone, rfl⟩⟩ := ofChars?_cases h
    · rw [← Scalar.name_of_ofName? hs]
      exact ⟨hid, .scalar s⟩
    · rw [Scalar.ofName?_eq_none_iff] at hnone
      refine ⟨hid, ?_⟩
      split
      · next henum => exact .enum hnone henum
      · next henum => exact .object hnone (by simpa using henum)
  · rintro ⟨hid, hstands⟩
    rw [ofChars?, if_pos hid]
    dsimp only
    generalize String.ofList cs = name at hstands
    cases hstands with
    | scalar s => rw [Scalar.ofName?_name]
    | enum hscalar henum => rw [Scalar.ofName?_eq_none_iff.mpr hscalar, henum, if_pos rfl]
    | object hscalar henum => simp [Scalar.ofName?_eq_none_iff.mpr hscalar, henum]

/-- The name that stands for a type is its name. -/
theorem Stands.name_eq {name : String} (h : Stands isEnum name e) : e.name = name := by
  cases h <;> rfl

end ElementType

namespace ParamType

variable {isEnum : String → Bool} {cs core inner n : List Char} {text name : String} {t : ParamType}

/-- The brackets of a vector around some characters. -/
def bracketed (inner : List Char) : List Char :=
  ['V', 'e', 'c', 't', 'o', 'r', '<'] ++ inner ++ ['>']

theorem ofList_bracketed (inner : List Char) :
    String.ofList (bracketed inner) = "Vector<" ++ String.ofList inner ++ ">" := by
  rw [← String.toList_inj]
  simp [bracketed]

/-- The element is what stands between the brackets. -/
theorem vectorElement?_eq_some_iff : vectorElement? cs = some inner ↔ cs = bracketed inner := by
  constructor
  · intro h
    rw [vectorElement?.eq_def] at h
    split at h
    · next rest =>
      split at h
      · next inner' hrev =>
        cases h
        have hrest : rest = inner'.reverse ++ ['>'] := by
          rw [← List.reverse_cons, ← hrev, List.reverse_reverse]
        rw [hrest]
        rfl
      · cases h
    · cases h
  · rintro rfl
    simp [bracketed, vectorElement?]

/-- There is nothing to trim around a vector. -/
theorem trim_bracketed (inner : List Char) : Text.trim (bracketed inner) = bracketed inner := by
  refine Text.trim_eq_self (fun c hc => ?_) (fun c hc => ?_)
  · cases hc
    decide
  · rw [bracketed, List.getLast?_concat] at hc
    cases hc
    decide

/-- **The grammar of types**: the characters of a type without white space around them, the name of
the type, and the type. -/
inductive Spelled (isEnum : String → Bool) : List Char → String → ParamType → Prop
  /-- An identifier on its own. -/
  | plain {n : List Char} {e : ElementType} (hid : Text.isIdentifier n = true)
      (hstands : e.Stands isEnum (String.ofList n)) :
      Spelled isEnum n (String.ofList n) (plain e)
  /-- An identifier as the element of a vector, with white space that the name leaves out. -/
  | vector {n inner : List Char} {e : ElementType} (hid : Text.isIdentifier n = true)
      (hinner : Text.Padded n inner) (hstands : e.Stands isEnum (String.ofList n)) :
      Spelled isEnum (bracketed inner) ("Vector<" ++ String.ofList n ++ ">") (vector e)

theorem Spelled.name_eq (h : Spelled isEnum core name t) : t.name = name := by
  cases h with
  | plain _ hstands => exact hstands.name_eq
  | vector _ _ hstands => rw [ParamType.name, hstands.name_eq]

theorem Spelled.trim_eq (h : Spelled isEnum core name t) : Text.trim core = core := by
  cases h with
  | plain hid _ => exact Text.trim_of_isIdentifier hid
  | vector _ _ _ => exact trim_bracketed _

/-- Reading is described by the grammar once the text is trimmed. -/
theorem ofChars?_eq_some_iff :
    ofChars? isEnum cs = some t ↔ ∃ name, Spelled isEnum (Text.trim cs) name t := by
  rw [ofChars?]
  constructor
  · intro h
    split at h
    · next inner hvector =>
      obtain ⟨e, he, rfl⟩ := Option.map_eq_some_iff.mp h
      obtain ⟨hid, hstands⟩ := ElementType.ofChars?_eq_some_iff.mp he
      rw [vectorElement?_eq_some_iff.mp hvector]
      exact ⟨_, .vector hid (Text.padded_trim inner) hstands⟩
    · obtain ⟨e, he, rfl⟩ := Option.map_eq_some_iff.mp h
      obtain ⟨hid, hstands⟩ := ElementType.ofChars?_eq_some_iff.mp he
      exact ⟨_, .plain hid hstands⟩
  · rintro ⟨name, hspelled⟩
    generalize Text.trim cs = core at hspelled
    cases hspelled with
    | plain hid hstands =>
      rw [vectorElement?_of_isIdentifier hid, ElementType.ofChars?_eq_some_iff.mpr ⟨hid, hstands⟩]
      rfl
    | vector hid hinner hstands =>
      have htrim := (Text.trim_eq_iff (Text.trim_of_isIdentifier hid)).mpr hinner
      rw [vectorElement?_eq_some_iff.mpr rfl]
      dsimp only
      rw [htrim, ElementType.ofChars?_eq_some_iff.mpr ⟨hid, hstands⟩]
      rfl

/-- **What is read is what is spelled**, in a text with white space around it. -/
theorem ofText?_eq_some_iff :
    ofText? isEnum text = some t
      ↔ ∃ core name, Text.Padded core text.toList ∧ Spelled isEnum core name t := by
  rw [ofText?, ofChars?_eq_some_iff]
  constructor
  · rintro ⟨name, hspelled⟩
    exact ⟨_, name, Text.padded_trim _, hspelled⟩
  · rintro ⟨core, name, hpadded, hspelled⟩
    rw [(Text.trim_eq_iff hspelled.trim_eq).mpr hpadded]
    exact ⟨name, hspelled⟩

/-- The characters that the grammar allows, whatever the names stand for. -/
theorem exists_spelled_iff :
    (∃ name t, Spelled isEnum core name t) ↔ ∃ n, Text.isIdentifier n = true
      ∧ (core = n ∨ ∃ inner, Text.Padded n inner ∧ core = bracketed inner) := by
  constructor
  · rintro ⟨name, t, hspelled⟩
    cases hspelled with
    | plain hid _ => exact ⟨_, hid, .inl rfl⟩
    | vector hid hinner _ => exact ⟨_, hid, .inr ⟨_, hinner, rfl⟩⟩
  · rintro ⟨n, hid, hform⟩
    obtain ⟨e, hstands⟩ := ElementType.exists_stands isEnum (String.ofList n)
    obtain rfl | ⟨inner, hinner, rfl⟩ := hform
    · exact ⟨_, _, .plain hid hstands⟩
    · exact ⟨_, _, .vector hid hinner hstands⟩

/-- The brackets of a type match. -/
theorem Spelled.brackets (h : Spelled isEnum core name t) : '<' ∈ core ↔ '>' ∈ core := by
  cases h with
  | plain hid _ =>
    exact iff_of_false (Text.not_mem_of_isIdentifier hid (by decide))
      (Text.not_mem_of_isIdentifier hid (by decide))
  | vector _ _ _ => simp [bracketed]

theorem bracketed_inj {inner' : List Char} (h : bracketed inner = bracketed inner') :
    inner = inner' := by
  simpa [bracketed] using h

/-- Between brackets there is an identifier, so there is something and there are no brackets. -/
theorem Spelled.inside (h : Spelled isEnum (bracketed inner) name t) :
    ¬ Text.Blank inner ∧ '<' ∉ inner ∧ '>' ∉ inner := by
  generalize hcore : bracketed inner = core at h
  cases h with
  | plain hid _ =>
    have hmem : '<' ∈ core := by simp [← hcore, bracketed]
    exact absurd hmem (Text.not_mem_of_isIdentifier hid (by decide))
  | vector hid hinner _ =>
    obtain rfl := bracketed_inj hcore
    refine ⟨fun hblank => ?_, ?_, ?_⟩
    · obtain ⟨c, hc⟩ := Text.exists_mem_of_isIdentifier hid
      have hnot := Text.isBlank_of_continuesIdentifier (Text.continuesIdentifier_of_mem hid hc)
      rw [hblank c ((hinner.mem_iff hnot).mpr hc)] at hnot
      cases hnot
    · rw [hinner.mem_iff (by decide)]
      exact Text.not_mem_of_isIdentifier hid (by decide)
    · rw [hinner.mem_iff (by decide)]
      exact Text.not_mem_of_isIdentifier hid (by decide)

/-- No white space is left in a name. -/
theorem Spelled.not_isBlank (h : Spelled isEnum core name t) :
    ∀ c ∈ name.toList, Text.isBlank c = false := by
  cases h with
  | plain hid _ =>
    intro c hc
    rw [String.toList_ofList] at hc
    exact Text.isBlank_of_continuesIdentifier (Text.continuesIdentifier_of_mem hid hc)
  | vector hid _ _ =>
    intro c hc
    rw [← ofList_bracketed, String.toList_ofList, bracketed, List.mem_append, List.mem_append] at hc
    obtain (hopening | hn) | hclosing := hc
    · exact Text.isBlank_of_mem (by decide) hopening
    · exact Text.isBlank_of_continuesIdentifier (Text.continuesIdentifier_of_mem hid hn)
    · exact Text.isBlank_of_mem (by decide) hclosing

/-- The texts that are accepted, without regard to what they are read as. -/
theorem isSome_ofText?_iff :
    (ofText? isEnum text).isSome = true ↔ ∃ core, Text.Padded core text.toList
      ∧ ∃ n, Text.isIdentifier n = true
        ∧ (core = n ∨ ∃ inner, Text.Padded n inner ∧ core = bracketed inner) := by
  rw [Option.isSome_iff_exists]
  constructor
  · rintro ⟨t, h⟩
    obtain ⟨core, name, hcore, hspelled⟩ := ofText?_eq_some_iff.mp h
    exact ⟨core, hcore, exists_spelled_iff.mp ⟨name, t, hspelled⟩⟩
  · rintro ⟨core, hcore, hform⟩
    obtain ⟨name, t, hspelled⟩ : ∃ name t, Spelled isEnum core name t :=
      exists_spelled_iff.mpr hform
    exact ⟨t, ofText?_eq_some_iff.mpr ⟨core, name, hcore, hspelled⟩⟩

/-- A vector of nothing is refused, and so is a vector of a vector. -/
theorem ofText?_eq_none_of_inside (hpadded : Text.Padded (bracketed inner) text.toList)
    (hinner : Text.Blank inner ∨ '<' ∈ inner ∨ '>' ∈ inner) : ofText? isEnum text = none := by
  refine Option.eq_none_iff_forall_ne_some.mpr fun t h => ?_
  obtain ⟨core, name, hcore, hspelled⟩ := ofText?_eq_some_iff.mp h
  obtain rfl : core = bracketed inner :=
    ((Text.trim_eq_iff hspelled.trim_eq).mpr hcore).symm.trans
      ((Text.trim_eq_iff (trim_bracketed inner)).mpr hpadded)
  obtain ⟨hblank, hopening, hclosing⟩ := hspelled.inside
  obtain h | h | h := hinner
  · exact hblank h
  · exact hopening h
  · exact hclosing h

/-- The brackets of an accepted text match. -/
theorem brackets_of_ofText? (h : ofText? isEnum text = some t) :
    '<' ∈ text.toList ↔ '>' ∈ text.toList := by
  obtain ⟨core, name, hcore, hspelled⟩ := ofText?_eq_some_iff.mp h
  rw [hcore.mem_iff (by decide), hcore.mem_iff (by decide)]
  exact hspelled.brackets

theorem not_isBlank_of_ofText? (h : ofText? isEnum text = some t) :
    ∀ c ∈ t.name.toList, Text.isBlank c = false := by
  obtain ⟨core, name, -, hspelled⟩ := ofText?_eq_some_iff.mp h
  rw [hspelled.name_eq]
  exact hspelled.not_isBlank

/-- Types with one name are the same, because both are read from it. -/
theorem eq_of_name_eq {text' : String} {t' : ParamType} (h : ofText? isEnum text = some t)
    (h' : ofText? isEnum text' = some t') (hname : t.name = t'.name) : t = t' := by
  have hread := ofText?_name h
  rw [hname, ofText?_name h'] at hread
  exact (Option.some.inj hread).symm

/-- **The grammar and the normal form of parameter types.** A text is accepted exactly if it is,
white space around it left out, an identifier or an identifier between the brackets of a vector with
white space on either side; so a vector of nothing or of a vector is refused, and so are brackets
that do not match. An accepted text is read as the type that the grammar gives it, with the name
that the grammar gives it. No white space is in that name, it is read as the same type, and it tells
the types of accepted texts apart. -/
theorem accepts_grammar (isEnum : String → Bool) (text : String) :
    ((ofText? isEnum text).isSome = true ↔ ∃ core, Text.Padded core text.toList
        ∧ ∃ n, Text.isIdentifier n = true
          ∧ (core = n ∨ ∃ inner, Text.Padded n inner ∧ core = bracketed inner))
      ∧ (∀ inner, Text.Padded (bracketed inner) text.toList →
        (Text.Blank inner ∨ '<' ∈ inner ∨ '>' ∈ inner) → ofText? isEnum text = none)
      ∧ (¬ ('<' ∈ text.toList ↔ '>' ∈ text.toList) → ofText? isEnum text = none)
      ∧ (∀ t name, (ofText? isEnum text = some t ∧ t.name = name)
        ↔ ∃ core, Text.Padded core text.toList ∧ Spelled isEnum core name t)
      ∧ ∀ t, ofText? isEnum text = some t →
        (∀ c ∈ t.name.toList, Text.isBlank c = false)
          ∧ ofText? isEnum t.name = some t
          ∧ ∀ text' t', ofText? isEnum text' = some t' → (t = t' ↔ t.name = t'.name) := by
  refine ⟨isSome_ofText?_iff, fun inner => ofText?_eq_none_of_inside, fun hbrackets => ?_,
    fun t name => ?_, fun t h => ⟨not_isBlank_of_ofText? h, ofText?_name h, fun text' t' h' => ?_⟩⟩
  · exact Option.eq_none_iff_forall_ne_some.mpr fun t h => hbrackets (brackets_of_ofText? h)
  · constructor
    · rintro ⟨h, rfl⟩
      obtain ⟨core, name, hcore, hspelled⟩ := ofText?_eq_some_iff.mp h
      exact ⟨core, hcore, hspelled.name_eq ▸ hspelled⟩
    · rintro ⟨core, hcore, hspelled⟩
      exact ⟨ofText?_eq_some_iff.mpr ⟨core, name, hcore, hspelled⟩, hspelled.name_eq⟩
  · exact ⟨congrArg ParamType.name, eq_of_name_eq h h'⟩

/-- A vector of modes with white space in it is read as its name is; a vector of such a vector is
not read, nor is one whose brackets do not match. -/
theorem accepts_vector_of_modes :
    ofText? (· = "Mode") "\tVector< Mode > " = some (vector (.enum "Mode"))
      ∧ ofText? (· = "Mode") "Vector<Mode>" = some (vector (.enum "Mode"))
      ∧ ofText? (· = "Mode") "Vector<Vector<Mode>>" = none
      ∧ ofText? (· = "Mode") "Vector<Mode" = none := by
  have hread : ofText? (· = "Mode") "\tVector< Mode > " = some (vector (.enum "Mode")) := by decide
  have hnested : Text.Padded (bracketed "Vector<Mode>".toList) "Vector<Vector<Mode>>".toList :=
    Text.Padded.refl _
  obtain ⟨-, -, -, -, hnormal⟩ := accepts_grammar (· = "Mode") "\tVector< Mode > "
  obtain ⟨-, hinside, -⟩ := accepts_grammar (· = "Mode") "Vector<Vector<Mode>>"
  obtain ⟨-, -, hbrackets, -⟩ := accepts_grammar (· = "Mode") "Vector<Mode"
  exact ⟨hread, (hnormal _ hread).2.1, hinside _ hnested (.inr (.inl (by decide))),
    hbrackets (by decide)⟩

/-- A scalar has the first claim to its name. -/
example : ofText? (fun _ => true) "Int" = some (plain (.scalar .int)) := by decide

end ParamType

end SimMetadata
