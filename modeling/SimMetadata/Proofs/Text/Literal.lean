/-!
# Where a string literal ends

Literals of the native core and of the scripting layer escape different characters in different
ways, but they end by one rule: at the first quote that no backslash escapes, and on the line on
which they begin. To find the end of a literal one does not have to know what it stands for.

A literal that is printed ends where it was meant to end, whatever follows, because what is written
for one character is passed as a whole: no quote stands free in it, and no backslash at its end.

## Main definitions

* `Literal.split?`: the literal that some characters begin with, and what follows it.
* `Literal.read?`: the text that this literal stands for, by the rules of either layer.
* `Literal.isPlain`: the characters that are nothing special in a literal.

## Main results

* `Literal.split?_of_passes`: a literal ends where it was meant to, if all in it is passed over.
* `Literal.split?_eq_some`: what is split off is a literal on one line, and what is left follows it.
* `Literal.read_flatMap`: a text is read back if each of its characters is.
-/

namespace SimMetadata.Text

namespace Literal

variable {cs body rest e e' : List Char} {c : Char}

/-- A character that neither ends a literal nor begins an escape. -/
def isPlain (c : Char) : Bool := c ≠ '\"' && c ≠ '\\' && c ≠ '\n'

theorem not_isPlain_iff : isPlain c = false ↔ c = '\"' ∨ c = '\\' ∨ c = '\n' := by
  simp only [isPlain, Bool.and_eq_false_iff, decide_eq_false_iff_not, Decidable.not_not, or_assoc,
    ne_eq]

/-- What stands in front of the closing quote, and what follows this quote. -/
def splitBody? : List Char → Option (List Char × List Char)
  | [] => none
  | '\"' :: rest => some ([], rest)
  | '\n' :: _ => none
  | '\\' :: c :: rest =>
    if c = '\n' then none else (splitBody? rest).map fun p => ('\\' :: c :: p.1, p.2)
  | c :: rest => (splitBody? rest).map fun p => (c :: p.1, p.2)

/-- The literal that the characters begin with, and what follows it. -/
def split? : List Char → Option (List Char × List Char)
  | '\"' :: rest => (splitBody? rest).map fun p => ('\"' :: p.1 ++ ['\"'], p.2)
  | _ => none

theorem splitBody?_quote (rest : List Char) : splitBody? ('\"' :: rest) = some ([], rest) := by
  rw [splitBody?]

theorem splitBody?_escaped (hc : c ≠ '\n') (rest : List Char) :
    splitBody? ('\\' :: c :: rest) = (splitBody? rest).map fun p => ('\\' :: c :: p.1, p.2) := by
  rw [splitBody?, if_neg hc]

theorem splitBody?_plain (hc : isPlain c = true) (rest : List Char) :
    splitBody? (c :: rest) = (splitBody? rest).map fun p => (c :: p.1, p.2) := by
  simp only [isPlain, Bool.and_eq_true, decide_eq_true_eq] at hc
  obtain ⟨⟨hquote, hbackslash⟩, hfeed⟩ := hc
  rw [splitBody?]
  · exact hquote
  · exact hfeed
  · exact fun _ _ heq => absurd heq hbackslash

/-- What is split off is followed by a quote, and stands on one line. -/
theorem splitBody?_eq_some (h : splitBody? cs = some (body, rest)) :
    cs = body ++ '\"' :: rest ∧ '\n' ∉ body := by
  fun_induction splitBody? cs generalizing body with
  | case1 => cases h
  | case2 _ =>
    cases h
    exact ⟨rfl, List.not_mem_nil⟩
  | case3 => cases h
  | case4 => cases h
  | case5 c cs hc ih =>
    obtain ⟨p, hp, hsplit⟩ := Option.map_eq_some_iff.mp h
    cases hsplit
    obtain ⟨rfl, hfeed⟩ := ih hp
    exact ⟨rfl, by simp [hfeed, Ne.symm hc]⟩
  | case6 c cs hquote hfeed hbackslash ih =>
    obtain ⟨p, hp, hsplit⟩ := Option.map_eq_some_iff.mp h
    cases hsplit
    obtain ⟨rfl, hbody⟩ := ih hp
    refine ⟨rfl, ?_⟩
    rw [List.mem_cons, not_or]
    exact ⟨fun heq => hfeed heq.symm, hbody⟩

/-- A literal and what follows it are all that there is. -/
theorem split?_eq_some {literal : List Char} (h : split? cs = some (literal, rest)) :
    ∃ body, literal = '\"' :: body ++ ['\"'] ∧ cs = literal ++ rest ∧ '\n' ∉ body := by
  rw [split?.eq_def] at h
  split at h
  · obtain ⟨p, hp, hsplit⟩ := Option.map_eq_some_iff.mp h
    cases hsplit
    obtain ⟨rfl, hfeed⟩ := splitBody?_eq_some hp
    exact ⟨p.1, rfl, by simp, hfeed⟩
  · cases h

/-! ### What is passed as a whole -/

/-- The search for the closing quote passes over the characters, whatever follows them. -/
def Passes (e : List Char) : Prop :=
  ∀ rest, splitBody? (e ++ rest) = (splitBody? rest).map fun p => (e ++ p.1, p.2)

theorem passes_nil : Passes [] := by
  intro rest
  simp

theorem Passes.append (h : Passes e) (h' : Passes e') : Passes (e ++ e') := by
  intro rest
  rw [List.append_assoc, h, h', Option.map_map]
  simp [Function.comp_def]

theorem passes_plain (h : e.all isPlain = true) : Passes e := by
  induction e with
  | nil => exact passes_nil
  | cons c e ih =>
    rw [List.all_cons, Bool.and_eq_true] at h
    intro rest
    rw [List.cons_append, splitBody?_plain h.1, ih h.2, Option.map_map]
    rfl

/-- A backslash takes the next character with it. -/
theorem passes_escaped (hc : c ≠ '\n') (h : e.all isPlain = true) : Passes ('\\' :: c :: e) := by
  intro rest
  rw [List.cons_append, List.cons_append, splitBody?_escaped hc, passes_plain h, Option.map_map]
  rfl

theorem passes_flatMap {escape : Char → List Char} (h : ∀ c, Passes (escape c)) (cs : List Char) :
    Passes (cs.flatMap escape) := by
  induction cs with
  | nil => exact passes_nil
  | cons c cs ih => exact (h c).append ih

/-- A literal whose inside is passed ends at its last quote. -/
theorem split?_of_passes (h : Passes body) (rest : List Char) :
    split? ('\"' :: body ++ ['\"'] ++ rest) = some ('\"' :: body ++ ['\"'], rest) := by
  have hclosing : splitBody? (body ++ '\"' :: rest) = some (body, rest) := by
    rw [h, splitBody?_quote]
    simp
  simp [split?, hclosing]

/-! ### Reading a literal -/

variable {decode? : List Char → Option (List Char)}

/-- The text of the literal that the characters begin with, and what follows the literal, where
`decode?` knows what literals stand for. -/
def read? (decode? : List Char → Option (List Char)) (cs : List Char) :
    Option (List Char × List Char) :=
  (split? cs).bind fun p => (decode? p.1).map fun text => (text, p.2)

theorem read?_of_passes {text : List Char} (h : Passes body)
    (htext : decode? ('\"' :: body ++ ['\"']) = some text) (rest : List Char) :
    read? decode? ('\"' :: body ++ ['\"'] ++ rest) = some (text, rest) := by
  rw [read?, split?_of_passes h, Option.bind_some, htext, Option.map_some]

/-- A text is read from a literal on one line. -/
theorem read?_eq_some {text : List Char} (h : read? decode? cs = some (text, rest)) :
    ∃ body, cs = '\"' :: body ++ '\"' :: rest ∧ '\n' ∉ body
      ∧ decode? ('\"' :: body ++ ['\"']) = some text := by
  obtain ⟨⟨literal, after⟩, hsplit, h⟩ := Option.bind_eq_some_iff.mp h
  obtain ⟨t, htext, h⟩ := Option.map_eq_some_iff.mp h
  cases h
  obtain ⟨body, rfl, rfl, hfeed⟩ := split?_eq_some hsplit
  exact ⟨body, by simp, hfeed, htext⟩

/-- A literal takes at least one character. -/
theorem length_read? {text : List Char} (h : read? decode? cs = some (text, rest)) :
    rest.length < cs.length := by
  obtain ⟨body, rfl, -, -⟩ := read?_eq_some h
  simp only [List.length_append, List.length_cons]
  omega

/-- If what is written for a character is read as this character, whatever follows it, then what is
written for a text is read as this text. -/
theorem read_flatMap {read : List Char → Option (List Char)} {escape : Char → List Char}
    (h : ∀ c rest, read (escape c ++ rest) = (read rest).map (c :: ·)) (cs rest : List Char) :
    read (cs.flatMap escape ++ rest) = (read rest).map (cs ++ ·) := by
  induction cs with
  | nil => simp
  | cons c cs ih =>
    rw [List.flatMap_cons, List.append_assoc, h, ih, Option.map_map]
    rfl

end Literal

end SimMetadata.Text
