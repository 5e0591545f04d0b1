import SimMetadata.Artifact.EnumTables
import SimMetadata.Proofs.Text.LineReading
import SimMetadata.Proofs.Text.ScriptToken

/-!
# Reading enumerations of native files

A header defines an enumeration one enumerator on a line: a name, an equals sign and a number. The
number is read from the end of the line, since the name in front of it may be any text, even one
that has an equals sign in it. All enumerators but the last have a comma behind them.

## Main definitions

* `Enumerator.ofText?`, `Enumerator.ofLines?`: the enumerator that a text defines, and those that
  some lines define.
* `EnumHeader.ofLines?`: what the header of an enumeration declares.
* `EnumSource.literals?`: the table that its source defines.

## Main results

* `Enumerator.ofText?_text`, `Enumerator.ofLines?_lines`: enumerators are read back.
* `EnumHeader.ofLines?_lines`, `EnumSource.literals?_lines`: so are a header and a table.
-/

namespace SimMetadata

open Text

namespace Enumerator

/-- The enumerator that a text defines. Behind its last equals sign there is the number. -/
def ofText? (text : String) : Option Enumerator :=
  let backwards := text.toList.reverse
  match backwards.dropWhile (· ≠ ' ') with
  | ' ' :: '=' :: ' ' :: name =>
    (ScriptToken.integer? (backwards.takeWhile (· ≠ ' ')).reverse).map fun value =>
      ⟨String.ofList name.reverse, value⟩
  | _ => none

theorem ofText?_text (e : Enumerator) : ofText? e.text = some e := by
  have hchars : e.text.toList.reverse
      = (toString e.value).toList.reverse ++ ' ' :: '=' :: ' ' :: e.name.toList.reverse := by
    simp [text]
  have hdigits : ' ' ∉ (toString e.value).toList.reverse := by
    rw [List.mem_reverse]
    exact ScriptToken.not_mem_toString_of_not_isWordChar (by decide) e.value
  rw [ofText?]
  simp only [hchars, takeWhile_ne_append hdigits, dropWhile_ne_append hdigits, List.reverse_reverse,
    ScriptToken.integer?_toString, Option.map_some, String.ofList_toList]

/-- The enumerators that some lines define. -/
def ofLines? (indent : String) (lines : List String) : Option (List Enumerator) :=
  (items? indent lines).bind fun items => items.mapM ofText?

/-- Enumerators are read back from their lines. -/
theorem ofLines?_lines (indent : String) (es : List Enumerator) (last : Enumerator) :
    ofLines? indent (es.map (fun e => indent ++ e.text ++ ",") ++ [indent ++ last.text])
      = some (es ++ [last]) := by
  have hitems := items?_concat indent (es.map text) last.text
  rw [List.map_map] at hitems
  have hback := mapM_map_eq_some ofText?_text (es ++ [last])
  rw [List.map_append, List.map_singleton] at hback
  rw [ofLines?]
  exact (congrArg (Option.bind · _) hitems).trans hback

/-- An enumerator stands on one line if its name does. -/
theorem feed_not_mem_text {e : Enumerator} (h : '\n' ∉ e.name.toList) : '\n' ∉ e.text.toList := by
  have hvalue := ScriptToken.not_mem_toString_of_not_isWordChar (c := '\n') (by decide) e.value
  rw [text, String.toList_append, String.toList_append, List.mem_append, List.mem_append]
  rintro ((hname | hsign) | hnumber)
  · exact h hname
  · exact absurd hsign (by decide)
  · exact hvalue hnumber

end Enumerator

/-! ### The header of an enumeration -/

namespace EnumHeader

/-- What the header of an enumeration declares. The last enumerator is the count, and a table has
its size. -/
def ofLines? : List String → Option EnumHeader
  | _ :: _ :: "" :: "namespace Enums \x7b" :: opening :: rest => do
    let name ← between? "    enum " " \x7b" opening
    let enumerators ← Enumerator.ofLines? "        " (rest.takeWhile (· ≠ "    \x7d;"))
    let count ← enumerators.getLast?
    let declaration ← (rest.dropWhile (· ≠ "    \x7d;"))[1]?
    let table ← between? "extern const char *" ("[" ++ count.name ++ "];") declaration
    return { name, enumerators := enumerators.dropLast, count, table }
  | _ => none

/-- **The header of an enumeration is read back.** -/
theorem ofLines?_lines (h : EnumHeader) : ofLines? h.lines = some h := by
  have hlines : h.lines = ("#ifndef __ENUM__" ++ h.name ++ "__")
      :: ("#define __ENUM__" ++ h.name ++ "__") :: "" :: "namespace Enums \x7b"
      :: ("    enum " ++ h.name ++ " \x7b")
      :: ((h.enumerators.map (fun e => "        " ++ e.text ++ ",") ++ ["        " ++ h.count.text])
        ++ "    \x7d;"
        :: ("extern const char *" ++ h.table ++ ("[" ++ h.count.name ++ "];"))
        :: ["\x7d", "", "#endif // __ENUM__" ++ h.name ++ "__"]) := by
    simp [lines, ← String.append_assoc]
  have hbody : "    \x7d;" ∉
      h.enumerators.map (fun e => "        " ++ e.text ++ ",") ++ ["        " ++ h.count.text] := by
    simp [← String.toList_inj]
  rw [hlines, ofLines?, takeWhile_ne_append hbody, dropWhile_ne_append hbody, between?_append,
    Enumerator.ofLines?_lines]
  simp only [Option.bind_eq_bind, Option.bind_some, List.getLast?_concat, List.dropLast_concat,
    List.getElem?_cons_succ, List.getElem?_cons_zero, between?_append]
  rfl

end EnumHeader

/-! ### The source of an enumeration -/

namespace EnumSource

/-- The entries of the table that a source defines. Every entry has a comma behind it. -/
def literals? : List String → Option (List String)
  | _ :: "" :: "namespace Enums \x7b" :: _ :: "    \x7b" :: rest =>
    (rest.takeWhile (· ≠ "    \x7d;")).mapM (between? "        " ",")
  | _ => none

/-- The table of an enumeration is read back. -/
theorem literals?_lines (s : EnumSource) : literals? s.lines = some s.literals := by
  have hlines : s.lines = ("#include \"" ++ s.header ++ "\"") :: "" :: "namespace Enums \x7b"
      :: ("    const char *" ++ s.table ++ "[" ++ s.size ++ "] =") :: "    \x7b"
      :: (s.literals.map (fun l => "        " ++ l ++ ",")
        ++ "    \x7d;" :: ["/* namespace Enums */ \x7d"]) := by
    simp [lines]
  have hentries : "    \x7d;" ∉ s.literals.map (fun l => "        " ++ l ++ ",") := by
    simp [← String.toList_inj]
  rw [hlines, literals?, takeWhile_ne_append hentries]
  exact mapM_map_eq_some (fun l => between?_append _ l _) s.literals

end EnumSource

end SimMetadata
