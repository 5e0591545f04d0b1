/-!
# Identifiers

Parameter types, environment keys and generated variables are spelled as identifiers: a letter or
an underscore, then letters, digits and underscores. Letters and digits are the ASCII ones alone,
because the generated native and scripting code has to accept them everywhere.
-/

namespace SimMetadata.Text

/-- A character that may begin an identifier. -/
def startsIdentifier (c : Char) : Bool := c.isAlpha || c = '_'

/-- A character that may continue an identifier. -/
def continuesIdentifier (c : Char) : Bool := c.isAlphanum || c = '_'

/-- Whether the characters spell an identifier. The empty text spells none. -/
def isIdentifier : List Char → Bool
  | [] => false
  | c :: cs => startsIdentifier c && cs.all continuesIdentifier

@[simp] theorem isIdentifier_nil : isIdentifier [] = false := rfl

@[simp] theorem isIdentifier_cons (c : Char) (cs : List Char) :
    isIdentifier (c :: cs) = (startsIdentifier c && cs.all continuesIdentifier) := rfl

/-- What may begin an identifier may also continue one. -/
theorem continuesIdentifier_of_startsIdentifier {c : Char} (h : startsIdentifier c = true) :
    continuesIdentifier c = true := by
  simp only [startsIdentifier, continuesIdentifier, Char.isAlphanum, Bool.or_eq_true,
    decide_eq_true_eq] at h ⊢
  exact h.imp_left .inl

/-- Every character of an identifier may continue one. -/
theorem continuesIdentifier_of_mem {cs : List Char} (h : isIdentifier cs = true) {c : Char}
    (hc : c ∈ cs) : continuesIdentifier c = true := by
  cases cs with
  | nil => simp at hc
  | cons d ds =>
    simp only [isIdentifier_cons, Bool.and_eq_true, List.all_eq_true] at h
    rcases List.mem_cons.1 hc with rfl | hc
    · exact continuesIdentifier_of_startsIdentifier h.1
    · exact h.2 c hc

/-- Other characters do not occur in an identifier. -/
theorem not_mem_of_isIdentifier {cs : List Char} (h : isIdentifier cs = true) {c : Char}
    (hc : continuesIdentifier c = false) : c ∉ cs := by
  intro hmem
  rw [continuesIdentifier_of_mem h hmem] at hc
  cases hc

end SimMetadata.Text
