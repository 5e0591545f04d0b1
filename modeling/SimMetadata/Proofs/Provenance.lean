import SimMetadata.Proofs.Text.Layout
import SimMetadata.Proofs.Text.NativeLiteral
import SimMetadata.Provenance

/-!
# Native literals and the stamp of a build

The revision and the date of a build are free texts: they are what version control says about a
tree. The stamp holds them as native literals, so what they are can be read back from it by the
rules of the native language, whatever characters they have.

## Main definitions

* `Provenance.ofText?`: the stamp that a native source holds.

## Main results

* `Provenance.literals_roundTrip`: every text is read back from its native literal, and every stamp
  from its native source.
-/

namespace SimMetadata

open Text

namespace Provenance

/-- What follows an opening, if the characters begin with it. -/
def after? (opening cs : List Char) : Option (List Char) :=
  if opening.isPrefixOf cs then some (cs.drop opening.length) else none

theorem after?_append (opening rest : List Char) :
    after? opening (opening ++ rest) = some rest := by
  simp [after?]

/-- The text that a definition gives to a constant, where the characters begin with the definition,
and what follows the definition. -/
def constant? (declaration : String) (cs : List Char) : Option (String × List Char) :=
  (after? (declaration ++ " = ").toList cs).bind fun value =>
    (Literal.read? NativeLiteral.decode? value).bind fun p =>
      (after? [';', '\n'] p.2).map fun rest => (String.ofList p.1, rest)

/-- The stamp that a native source holds, if it holds one and nothing else. -/
def ofText? (source : String) : Option Provenance :=
  (constant? "const char *scmRev" source.toList).bind fun revision =>
    (constant? "const char *scmDate" revision.2).bind fun date =>
      if date.2 = [] then some ⟨revision.1, date.1⟩ else none

theorem constant?_quote (declaration text : String) (rest : List Char) :
    constant? declaration
      ((declaration ++ " = " ++ NativeLiteral.quote text ++ ";").toList ++ '\n' :: rest)
        = some (text, rest) := by
  have hchars : (declaration ++ " = " ++ NativeLiteral.quote text ++ ";").toList ++ '\n' :: rest
      = (declaration ++ " = ").toList
        ++ (NativeLiteral.encode text.toList ++ ([';', '\n'] ++ rest)) := by
    simp
  rw [constant?, hchars, after?_append, Option.bind_some, NativeLiteral.read?_encode,
    Option.bind_some, after?_append, Option.map_some, String.ofList_toList]

theorem ofText?_text (p : Provenance) : ofText? p.text = some p := by
  have hchars : p.text.toList
      = ("const char *scmRev" ++ " = " ++ NativeLiteral.quote p.revision ++ ";").toList ++ '\n' ::
        (("const char *scmDate" ++ " = " ++ NativeLiteral.quote p.date ++ ";").toList
          ++ '\n' :: []) := by
    rw [text, toList_unlines]
    simp
  rw [ofText?, hchars, constant?_quote, Option.bind_some, constant?_quote, Option.bind_some,
    if_pos rfl]

/-- **Every text is read back from its native literal.** The literal has no control character in it
and ends where it was meant to, whatever follows it: no quote stands free in it. By the rules of the
native language it stands for the text it was made from, also where a digit follows a control
character. So different texts have different literals, and a stamp is read back from its native
source, whatever the revision and the date are. -/
theorem literals_roundTrip :
    (∀ s : String,
      (NativeLiteral.quote s).toList.all (fun c => 0x20 ≤ c.toNat) = true
        ∧ (∀ rest, Literal.split? ((NativeLiteral.quote s).toList ++ rest)
          = some ((NativeLiteral.quote s).toList, rest))
        ∧ NativeLiteral.unquote? (NativeLiteral.quote s) = some s)
      ∧ Function.Injective NativeLiteral.quote
      ∧ ∀ p : Provenance, ofText? p.text = some p := by
  refine ⟨fun s => ⟨?_, fun rest => ?_, NativeLiteral.unquote?_quote s⟩,
    NativeLiteral.quote_injective, ofText?_text⟩
  · rw [NativeLiteral.toList_quote, List.all_eq_true]
    exact fun c hc => decide_eq_true (NativeLiteral.printable_encode s.toList c hc)
  · rw [NativeLiteral.toList_quote, NativeLiteral.split?_encode]

/-- A digit behind a control character is not taken for a part of its escape. -/
example : NativeLiteral.quote "\x011" = "\"\\0011\"" := by decide

end Provenance

end SimMetadata
