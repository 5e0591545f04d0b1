import SimMetadata.Proofs.Text.ScriptLiteral
import SimMetadata.Text.Identifier

/-!
# Tokens of the scripting layer

A scripting source is read as a sequence of tokens with white space between them: words, string
literals and single marks. A word is as long as it can be, and may be a number with a sign. A
literal ends at the quote that ends it, so that nothing in it is taken for a token of its own, be it
a quote, a separator, or what looks like a word.

The lemmas say what the tokens of a source are, given how it begins, whatever the rest of it is. So
the tokens of a printed source are found piece by piece.

## Main definitions

* `ScriptToken`: the tokens.
* `ScriptToken.ofChars?`: the tokens of a source.
* `ScriptToken.Reads`: a piece of a source gives some tokens.
* `ScriptToken.integer?`: the number that a word is.

## Main results

* `ScriptToken.ofChars?_word`, `ScriptToken.ofChars?_quote`, `ScriptToken.ofChars?_mark`: the tokens
  of a source that begins with a word, with a printed literal, with a mark.
* `ScriptToken.integer?_toString`: a printed number is read back.
-/

namespace SimMetadata

open Text

/-- A token of a scripting source. -/
inductive ScriptToken where
  | word (w : String)
  /-- A literal that stands for a text. -/
  | string (s : String)
  | mark (c : Char)
  deriving DecidableEq, Repr

namespace ScriptToken

variable {c : Char} {w cs rest : List Char} {t : ScriptToken}

/-- A character of words and of numbers. -/
def isWordChar (c : Char) : Bool := continuesIdentifier c || c = '-'

/-- The token that begins with a character, where others come after it, and what follows it. -/
def first? (c : Char) (cs : List Char) : Option (ScriptToken × List Char) :=
  if c = '\"' then
    (Literal.read? ScriptLiteral.decode? (c :: cs)).map fun p => (string (String.ofList p.1), p.2)
  else if isWordChar c then
    some (word (String.ofList (c :: cs.takeWhile isWordChar)), cs.dropWhile isWordChar)
  else some (mark c, cs)

/-- A token takes at least one character. -/
theorem length_first? (h : first? c cs = some (t, rest)) : rest.length < (c :: cs).length := by
  rw [first?] at h
  split at h
  · obtain ⟨p, hp, heq⟩ := Option.map_eq_some_iff.mp h
    cases heq
    exact Literal.length_read? hp
  · split at h
    · cases h
      exact Nat.lt_succ_of_le (List.dropWhile_suffix _).length_le
    · cases h
      exact Nat.lt_succ_self _

/-- The tokens of a source. -/
def ofChars? : List Char → Option (List ScriptToken)
  | [] => some []
  | c :: cs =>
    if c.isWhitespace then ofChars? cs
    else
      match _h : first? c cs with
      | some (t, rest) => (ofChars? rest).map (t :: ·)
      | none => none
termination_by cs => cs.length
decreasing_by
  · exact Nat.lt_succ_self _
  · exact length_first? _h

theorem ofChars?_nil : ofChars? [] = some [] := by rw [ofChars?]

/-- White space is no token. -/
theorem ofChars?_blank (hc : c.isWhitespace = true) (rest : List Char) :
    ofChars? (c :: rest) = ofChars? rest := by
  rw [ofChars?, if_pos hc]

/-- What follows the first token is read in the same way. -/
theorem ofChars?_first (hc : c.isWhitespace = false) (h : first? c cs = some (t, rest)) :
    ofChars? (c :: cs) = (ofChars? rest).map (t :: ·) := by
  rw [ofChars?, if_neg (by simp [hc])]
  split
  · next heq => cases h.symm.trans heq; rfl
  · next heq => cases h.symm.trans heq

/-- No word has white space in it. -/
theorem not_isWhitespace_of_isWordChar (hc : isWordChar c = true) : c.isWhitespace = false := by
  refine Bool.eq_false_iff.mpr fun hblank => ?_
  simp only [Char.isWhitespace, Bool.or_eq_true, decide_eq_true_eq] at hblank
  rcases hblank with ((rfl | rfl) | rfl) | rfl <;> exact absurd hc (by decide)

/-- A word ends where no character of words follows. -/
theorem ofChars?_word (hw : w ≠ []) (hall : w.all isWordChar = true) (hc : isWordChar c = false)
    (rest : List Char) :
    ofChars? (w ++ c :: rest) = (ofChars? (c :: rest)).map (word (String.ofList w) :: ·) := by
  cases w with
  | nil => exact absurd rfl hw
  | cons d w =>
    rw [List.all_cons, Bool.and_eq_true, List.all_eq_true] at hall
    obtain ⟨hd, hall⟩ := hall
    have hquote : d ≠ '\"' := by
      rintro rfl
      exact absurd hd (by decide)
    have hend : ¬ isWordChar c = true := by simp [hc]
    rw [List.cons_append]
    refine ofChars?_first (not_isWhitespace_of_isWordChar hd) ?_
    rw [first?, if_neg hquote, if_pos hd, List.takeWhile_append_of_pos hall,
      List.dropWhile_append_of_pos hall, List.takeWhile_cons_of_neg hend,
      List.dropWhile_cons_of_neg hend, List.append_nil]

/-- A printed literal stands for the text that it was made from. -/
theorem ofChars?_quote (s : String) (rest : List Char) :
    ofChars? (ScriptLiteral.encode s.toList ++ rest) = (ofChars? rest).map (string s :: ·) := by
  have hread := ScriptLiteral.read?_encode s.toList rest
  rw [ScriptLiteral.encode, List.cons_append, List.cons_append] at hread ⊢
  refine ofChars?_first (by decide) ?_
  rw [first?, if_pos rfl, hread, Option.map_some, String.ofList_toList]

/-- A character of no other kind. -/
def isMark (c : Char) : Bool := !c.isWhitespace && c ≠ '\"' && !isWordChar c

theorem ofChars?_mark (h : isMark c = true) (rest : List Char) :
    ofChars? (c :: rest) = (ofChars? rest).map (mark c :: ·) := by
  simp only [isMark, Bool.and_eq_true, Bool.not_eq_true', decide_eq_true_eq] at h
  obtain ⟨⟨hblank, hquote⟩, hword⟩ := h
  refine ofChars?_first hblank ?_
  rw [first?, if_neg hquote, if_neg (by simp [hword])]

/-! ### Pieces of a source -/

/-- A piece of a source gives some tokens, whatever comes after it. -/
def Reads (cs : List Char) (ts : List ScriptToken) : Prop :=
  ∀ rest, ofChars? (cs ++ rest) = (ofChars? rest).map (ts ++ ·)

namespace Reads

variable {cs' : List Char} {ts ts' : List ScriptToken}

theorem nil : Reads [] [] := fun rest => by simp

theorem append (h : Reads cs ts) (h' : Reads cs' ts') : Reads (cs ++ cs') (ts ++ ts') := by
  intro rest
  rw [List.append_assoc, h, h', Option.map_map]
  simp [Function.comp_def]

theorem flatMap {α : Type} {f : α → List Char} {g : α → List ScriptToken}
    (h : ∀ a, Reads (f a) (g a)) (as : List α) : Reads (as.flatMap f) (as.flatMap g) := by
  induction as with
  | nil => exact nil
  | cons a as ih => exact (h a).append ih

theorem blank (hc : c.isWhitespace = true) (h : Reads cs ts) : Reads (c :: cs) ts := by
  intro rest
  rw [List.cons_append, ofChars?_blank hc, h]

theorem mark (hc : isMark c = true) (h : Reads cs ts) :
    Reads (c :: cs) (ScriptToken.mark c :: ts) := by
  intro rest
  rw [List.cons_append, ofChars?_mark hc, h, Option.map_map]
  rfl

theorem quote (s : String) (h : Reads cs ts) :
    Reads (ScriptLiteral.encode s.toList ++ cs) (ScriptToken.string s :: ts) := by
  intro rest
  rw [List.append_assoc, ofChars?_quote, h, Option.map_map]
  rfl

/-- A word is told by what follows it. -/
theorem word (hw : w ≠ []) (hall : w.all isWordChar = true) (hc : isWordChar c = false)
    (h : Reads (c :: cs) ts) :
    Reads (w ++ c :: cs) (ScriptToken.word (String.ofList w) :: ts) := by
  intro rest
  have hrest := h rest
  rw [List.cons_append] at hrest
  rw [List.append_assoc, List.cons_append, ofChars?_word hw hall hc, hrest, Option.map_map]
  rfl

/-- The tokens of a source are those of its pieces. -/
theorem ofChars?_eq (h : Reads cs ts) : ofChars? cs = some ts := by
  have heq := h []
  rwa [List.append_nil, ofChars?_nil, Option.map_some, List.append_nil] at heq

end Reads

/-! ### Numbers -/

/-- The number that decimal digits stand for. -/
def decimal? (cs : List Char) : Option Nat :=
  if cs ≠ [] ∧ cs.all Char.isDigit = true then some (Nat.ofDigitChars 10 cs 0) else none

/-- The number that decimal digits with a sign, or without, stand for. -/
def integer? : List Char → Option Int
  | '-' :: cs => (decimal? cs).map fun n => -(n : Int)
  | cs => (decimal? cs).map fun n => (n : Int)

theorem isDigit_of_mem_repr {n : Nat} (h : c ∈ n.repr.toList) : c.isDigit = true := by
  rw [Nat.toList_repr] at h
  exact Nat.isDigit_of_mem_toDigits (by decide) (by decide) h

theorem toList_repr_ne_nil (n : Nat) : n.repr.toList ≠ [] := by
  rw [Nat.toList_repr]
  exact Nat.toDigits_ne_nil

theorem decimal?_repr (n : Nat) : decimal? n.repr.toList = some n := by
  have hdigits : n.repr.toList.all Char.isDigit = true :=
    List.all_eq_true.mpr fun c hc => isDigit_of_mem_repr hc
  rw [decimal?, if_pos ⟨toList_repr_ne_nil n, hdigits⟩, Nat.toList_repr,
    Nat.ofDigitChars_toDigits (by decide) (by decide)]

theorem toList_toString_negSucc (n : Nat) :
    (toString (Int.negSucc n)).toList = '-' :: (n + 1).repr.toList := by
  change ("-" ++ (n + 1).repr).toList = _
  rw [String.toList_append]
  rfl

/-- A number is read back from its digits. -/
theorem integer?_toString (n : Int) : integer? (toString n).toList = some n := by
  cases n with
  | ofNat n =>
    change integer? n.repr.toList = some (n : Int)
    have hsign : ∀ cs, n.repr.toList ≠ '-' :: cs := by
      intro cs heq
      exact absurd (isDigit_of_mem_repr (heq ▸ List.mem_cons_self)) (by decide)
    rw [integer?, decimal?_repr]
    · rfl
    · exact hsign
  | negSucc n =>
    rw [toList_toString_negSucc, integer?, decimal?_repr]
    rfl

theorem isWordChar_of_isDigit (h : c.isDigit = true) : isWordChar c = true := by
  simp [isWordChar, continuesIdentifier, Char.isAlphanum, h]

theorem all_isWordChar_repr (n : Nat) : n.repr.toList.all isWordChar = true :=
  List.all_eq_true.mpr fun _ hc => isWordChar_of_isDigit (isDigit_of_mem_repr hc)

/-- A number is written as one word. -/
theorem all_isWordChar_toString (n : Int) : (toString n).toList.all isWordChar = true := by
  cases n with
  | ofNat n => exact all_isWordChar_repr n
  | negSucc n =>
    rw [toList_toString_negSucc, List.all_cons, all_isWordChar_repr]
    rfl

/-- What stands in no word does not stand in a number. -/
theorem not_mem_toString_of_not_isWordChar (hc : isWordChar c = false) (n : Int) :
    c ∉ (toString n).toList := by
  intro h
  rw [List.all_eq_true.mp (all_isWordChar_toString n) c h] at hc
  cases hc

theorem toList_toString_ne_nil (n : Int) : (toString n).toList ≠ [] := by
  cases n with
  | ofNat n => exact toList_repr_ne_nil n
  | negSucc n =>
    rw [toList_toString_negSucc]
    exact List.cons_ne_nil _ _

/-- The word that a number is written as. -/
theorem ofChars?_int (n : Int) (hc : isWordChar c = false) (rest : List Char) :
    ofChars? ((toString n).toList ++ c :: rest)
      = (ofChars? (c :: rest)).map (word (toString n) :: ·) := by
  rw [ofChars?_word (toList_toString_ne_nil n) (all_isWordChar_toString n) hc,
    String.ofList_toList]

end ScriptToken

end SimMetadata
