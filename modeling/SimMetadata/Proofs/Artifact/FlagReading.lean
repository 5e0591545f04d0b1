import SimMetadata.Artifact.FlagTables
import SimMetadata.Proofs.Artifact.EnumReading
import SimMetadata.Proofs.Text.ScriptToken

/-!
# Reading the files of the trace flags

What the three files say is read back from what is written in them. The native files are read by
lines: their parts are separated by empty lines, and a name is what is left of a line when all that
is printed around it is taken off. The scripting module is read by tokens, so that its literals may
hold anything.

The readers are written apart from the printers, and every record is read back whatever its names
are.

## Main definitions

* `FlagHeader.ofLines?`, `FlagSource.ofLines?`: what the lines of the native files define.
* `FlagScript.ofText?`: what a scripting module defines.

## Main results

* `FlagHeader.ofLines?_lines`, `FlagSource.ofLines?_lines`, `FlagScript.ofText?_text`: the files are
  read back.
* `FlagHeader.feed_not_mem_lines`, `FlagSource.feed_not_mem_lines`: where lines can be told apart in
  a file.
-/

namespace SimMetadata

open Text

/-! ### The native header -/

namespace FlagHeader

/-- A line that is a comment. -/
def isComment (line : String) : Bool := "//".toList.isPrefixOf line.toList

/-- What the lines of a header define. The enumeration has two parts, with an empty line between
them and some comments, and each part ends with a count. -/
def ofLines? (lines : List String) : Option FlagHeader :=
  match (lines.splitOn "").dropWhile (·.head? ≠ some "enum Flags \x7b") with
  | (_ :: simple) :: compounds :: _ => do
    let compounds := compounds.dropWhile isComment
    if compounds.getLast? ≠ some "\x7d; // enum Flags" then none
    let enumerators ← Enumerator.ofLines? "    " (simple ++ compounds.dropLast)
    let (simple, compounds) := enumerators.splitAt simple.length
    return {
      simple := simple.dropLast
      numFlags := ← simple.getLast?
      compounds := compounds.dropLast
      numCompoundFlags := ← compounds.getLast? }
  | _ => none

/-- The lines of the first part of the enumeration. -/
def simpleLines (h : FlagHeader) : List String := (h.simple ++ [h.numFlags]).map enumeratorLine

/-- The comments in front of the second part. -/
def comments : List String :=
  ["// The remaining enum values are *not* valid indices for Trace::flags.",
    "// They are \"compound\" flags, which correspond to sets of base",
    "// flags, and are used by changeFlag."]

/-- The lines of the second part of the enumeration, behind the comments. -/
def compoundLines (h : FlagHeader) : List String :=
  h.compounds.map enumeratorLine ++ ["    " ++ h.numCompoundFlags.text]

/-- The lines behind the enumeration, after an empty one. -/
def closing : List String :=
  ["// Array of strings for SimpleEnumParam", "extern const char *flagStrings[];",
    "extern const int numFlagStrings;", "",
    "// Array of array pointers: for each compound flag, gives the list of",
    "// base flags to set.  Individual flag arrays are terminated by -1.",
    "extern const Flags *compoundFlags[];", "", "/* namespace Trace */ \x7d", "",
    "#endif // __BASE_TRACE_FLAGS_HH__"]

theorem exists_indented {h : FlagHeader} {l : String} (hl : l ∈ h.simpleLines ++ h.compoundLines) :
    ∃ text, l = "    " ++ text := by
  rw [simpleLines, compoundLines, List.mem_append, List.mem_append, List.mem_map, List.mem_map,
    List.mem_singleton] at hl
  rcases hl with ⟨e, -, rfl⟩ | ⟨e, -, rfl⟩ | rfl
  · exact ⟨_, String.append_assoc ..⟩
  · exact ⟨_, String.append_assoc ..⟩
  · exact ⟨_, rfl⟩

theorem empty_not_mem (h : FlagHeader) : "" ∉ h.simpleLines ++ h.compoundLines := by
  intro hl
  obtain ⟨text, htext⟩ := exists_indented hl
  simp [← String.toList_inj] at htext

/-- The comments alone are skipped. -/
theorem dropWhile_comments (h : FlagHeader) (rest : List String) :
    (comments ++ (h.compoundLines ++ rest)).dropWhile isComment = h.compoundLines ++ rest := by
  have hcomments : ∀ l ∈ comments, isComment l = true := by simp [comments, isComment]
  obtain ⟨first, others, hfirst⟩ : ∃ first others, h.compoundLines = first :: others :=
    List.exists_cons_of_ne_nil (List.append_ne_nil_of_right_ne_nil _ (List.cons_ne_nil _ _))
  obtain ⟨text, rfl⟩ : ∃ text, first = "    " ++ text :=
    exists_indented (h := h) (List.mem_append_right _ (hfirst ▸ List.mem_cons_self))
  have hcode : ¬ isComment ("    " ++ text) = true := by
    rw [isComment, String.toList_append]
    exact Bool.noConfusion
  rw [List.dropWhile_append_of_pos hcomments, hfirst, List.cons_append,
    List.dropWhile_cons_of_neg hcode]

/-- The header in its paragraphs. -/
theorem lines_eq (h : FlagHeader) : h.lines
    = ["/*", " * DO NOT EDIT THIS FILE!", " *",
        " * Automatically generated from the trace flag list", " */"]
      ++ "" :: (["#ifndef __BASE_TRACE_FLAGS_HH__", "#define __BASE_TRACE_FLAGS_HH__"]
      ++ "" :: (["namespace Trace \x7b"]
      ++ "" :: (("enum Flags \x7b" :: h.simpleLines)
      ++ "" :: ((comments ++ (h.compoundLines ++ ["\x7d; // enum Flags"])) ++ "" :: closing)))) := by
  simp [lines, simpleLines, compoundLines, comments, closing]

theorem enumeratorLines_eq (h : FlagHeader) :
    h.simpleLines ++ h.compoundLines
      = (h.simple ++ [h.numFlags] ++ h.compounds).map (fun e => "    " ++ e.text ++ ",")
        ++ ["    " ++ h.numCompoundFlags.text] := by
  rw [simpleLines, compoundLines, ← List.append_assoc, ← List.map_append]
  rfl

/-- **The header of the flags is read back.** -/
theorem ofLines?_lines (h : FlagHeader) : ofLines? h.lines = some h := by
  have hne := h.empty_not_mem
  rw [List.mem_append, not_or] at hne
  have hparts : (h.lines.splitOn "").dropWhile (·.head? ≠ some "enum Flags \x7b")
      = ("enum Flags \x7b" :: h.simpleLines)
        :: (comments ++ (h.compoundLines ++ ["\x7d; // enum Flags"])) :: closing.splitOn "" := by
    rw [lines_eq, List.splitOn_append_cons_self_of_not_mem (by simp),
      List.splitOn_append_cons_self_of_not_mem (by simp),
      List.splitOn_append_cons_self_of_not_mem (by simp),
      List.splitOn_append_cons_self_of_not_mem (by simp [hne.1]),
      List.splitOn_append_cons_self_of_not_mem (by simp [hne.2, comments])]
    simp
  have hread : Enumerator.ofLines? "    " (h.simpleLines ++ h.compoundLines)
      = some (h.simple ++ [h.numFlags] ++ (h.compounds ++ [h.numCompoundFlags])) := by
    rw [enumeratorLines_eq, Enumerator.ofLines?_lines, List.append_assoc]
  have hlength : h.simpleLines.length = (h.simple ++ [h.numFlags]).length := List.length_map _
  rw [ofLines?, hparts]
  simp only [dropWhile_comments, List.getLast?_concat, List.dropLast_concat, hread, hlength,
    List.splitAt_eq, List.take_left, List.drop_left, Option.bind_eq_bind, Option.bind_some, ne_eq,
    not_true_eq_false, if_false]
  rfl

/-- No line has a line feed in it if no name has. -/
theorem feed_not_mem_lines {h : FlagHeader} (hnames : ∀ e ∈ h.enumerators, '\n' ∉ e.name.toList) :
    ∀ l ∈ h.lines, '\n' ∉ l.toList := by
  have hline : ∀ e ∈ h.enumerators, '\n' ∉ (enumeratorLine e).toList := by
    intro e he
    have htext := Enumerator.feed_not_mem_text (hnames e he)
    simp [enumeratorLine, htext]
  simp only [enumerators, List.forall_mem_append, List.forall_mem_singleton] at hline hnames
  obtain ⟨⟨⟨hsimple, hnumFlags⟩, hcompounds⟩, -⟩ := hline
  have hlast := Enumerator.feed_not_mem_text hnames.2
  simp only [lines, List.forall_mem_append, List.forall_mem_map, List.forall_mem_cons]
  refine ⟨⟨⟨⟨by simp, hsimple⟩, hnumFlags, by simp⟩, hcompounds⟩, ?_, by simp⟩
  simp [hlast]

end FlagHeader

/-! ### The native source -/

namespace MemberArray

/-- The table of members that some lines define. -/
def ofLines? : List String → Option MemberArray
  | opening :: rest => do
    if rest.getLast? ≠ some "\x7d;" then none
    return {
      symbol := ← between? "static const Flags " "[] = \x7b" opening
      entries := ← items? "    " rest.dropLast }
  | [] => none

/-- The lines of the table without the empty line behind it. -/
def block (a : MemberArray) : List String :=
  ("static const Flags " ++ a.symbol ++ "[] = \x7b")
    :: (a.entries.dropLast.map ("    " ++ · ++ ",") ++ a.entries.getLast?.toList.map ("    " ++ ·)
      ++ ["\x7d;"])

theorem lines_eq_block (a : MemberArray) : a.lines = a.block ++ [""] := by
  simp [lines, block]

/-- A table of members is read back. -/
theorem ofLines?_block (a : MemberArray) : ofLines? a.block = some a := by
  rw [block, ofLines?]
  simp only [List.getLast?_concat, List.dropLast_concat, between?_append, items?_lines,
    Option.bind_eq_bind, Option.bind_some, ne_eq, not_true_eq_false, if_false]
  rfl

theorem empty_not_mem_block (a : MemberArray) : "" ∉ a.block := by
  simp [block, ← String.toList_inj, -List.map_dropLast]

end MemberArray

namespace FlagSource

/-- The entries of a table that some lines define. Every entry has a comma behind it. -/
def table? (declaration : String) : List String → Option (List String)
  | first :: "\x7b" :: rest =>
    if first = declaration ∧ rest.getLast? = some "\x7d;" then
      rest.dropLast.mapM (between? "    " ",")
    else none
  | _ => none

/-- What the lines of a source define: a table of names and its length, tables of members, and the
table of these tables. -/
def ofLines? (lines : List String) : Option FlagSource :=
  match (lines.splitOn "").dropWhile (·.head? ≠ some "const char *Trace::flagStrings[] =") with
  | names :: [count] :: rest => do
    let digits ← between? "const int Trace::numFlagStrings = " ";" count
    return {
      flagStrings := ← table? "const char *Trace::flagStrings[] =" names
      numFlagStrings := ← ScriptToken.decimal? digits.toList
      memberArrays := ← rest.dropLast.mapM MemberArray.ofLines?
      compoundFlags := ← rest.getLast?.bind (table? "const Flags *Trace::compoundFlags[] =") }
  | _ => none

/-- The lines of a table. -/
def tableLines (declaration : String) (entries : List String) : List String :=
  declaration :: "\x7b" :: (entries.map ("    " ++ · ++ ",") ++ ["\x7d;"])

theorem table?_tableLines (declaration : String) (entries : List String) :
    table? declaration (tableLines declaration entries) = some entries := by
  rw [tableLines, table?, if_pos ⟨rfl, List.getLast?_concat⟩, List.dropLast_concat]
  exact mapM_map_eq_some (fun entry => between?_append _ entry _) entries

theorem empty_not_mem_tableLines {declaration : String} (h : "" ≠ declaration)
    (entries : List String) : "" ∉ tableLines declaration entries := by
  simp [tableLines, h, ← String.toList_inj]

/-- Tables of members are found between the empty lines behind them. -/
theorem splitOn_memberArrays (as : List MemberArray) {rest : List String} (h : "" ∉ rest) :
    (as.flatMap MemberArray.lines ++ rest).splitOn "" = as.map MemberArray.block ++ [rest] := by
  induction as with
  | nil => exact List.splitOn_eq_singleton h
  | cons a as ih =>
    rw [List.flatMap_cons, a.lines_eq_block, List.append_assoc, List.append_assoc,
      List.singleton_append, List.splitOn_append_cons_self_of_not_mem a.empty_not_mem_block, ih,
      List.map_cons, List.cons_append]

/-- **The source of the flags is read back.** -/
theorem ofLines?_lines (s : FlagSource) : ofLines? s.lines = some s := by
  let names := tableLines "const char *Trace::flagStrings[] =" s.flagStrings
  let count := "const int Trace::numFlagStrings = " ++ toString s.numFlagStrings ++ ";"
  let pointers := tableLines "const Flags *Trace::compoundFlags[] =" s.compoundFlags
  have hnames : "" ∉ names := empty_not_mem_tableLines (by decide) _
  have hcount : "" ∉ [count] := by simp [count, ← String.toList_inj]
  have hpointers : "" ∉ pointers := empty_not_mem_tableLines (by decide) _
  have hlines : s.lines
      = ["/*", " * DO NOT EDIT THIS FILE! Automatically generated", " */"]
        ++ "" :: (["#include \"base/traceflags.hh\""]
        ++ "" :: (["using namespace Trace;"]
        ++ "" :: (names ++ "" :: ([count]
        ++ "" :: (s.memberArrays.flatMap MemberArray.lines ++ pointers))))) := by
    simp [lines, names, count, pointers, tableLines]
  have hparts : (s.lines.splitOn "").dropWhile
      (·.head? ≠ some "const char *Trace::flagStrings[] =")
        = names :: [count] :: (s.memberArrays.map MemberArray.block ++ [pointers]) := by
    rw [hlines, List.splitOn_append_cons_self_of_not_mem (by simp),
      List.splitOn_append_cons_self_of_not_mem (by simp),
      List.splitOn_append_cons_self_of_not_mem (by simp),
      List.splitOn_append_cons_self_of_not_mem hnames,
      List.splitOn_append_cons_self_of_not_mem hcount, splitOn_memberArrays _ hpointers]
    simp [names, tableLines]
  have hdigits : ScriptToken.decimal? (toString s.numFlagStrings).toList = some s.numFlagStrings :=
    ScriptToken.decimal?_repr s.numFlagStrings
  rw [ofLines?, hparts]
  simp only [names, count, pointers, between?_append, table?_tableLines, hdigits,
    List.dropLast_concat, List.getLast?_concat, mapM_map_eq_some MemberArray.ofLines?_block,
    Option.bind_eq_bind, Option.bind_some]
  rfl

/-- No line has a line feed in it if no name has. -/
theorem feed_not_mem_lines {s : FlagSource} (hstrings : ∀ l ∈ s.flagStrings, '\n' ∉ l.toList)
    (hsymbols : ∀ a ∈ s.memberArrays, '\n' ∉ a.symbol.toList)
    (hentries : ∀ a ∈ s.memberArrays, ∀ e ∈ a.entries, '\n' ∉ e.toList)
    (hflags : ∀ n ∈ s.compoundFlags, '\n' ∉ n.toList) : ∀ l ∈ s.lines, '\n' ∉ l.toList := by
  have hcount : '\n' ∉ (toString s.numFlagStrings).toList := fun hc =>
    absurd (List.all_eq_true.mp (ScriptToken.all_isWordChar_repr _) _ hc) (by decide)
  have harray : ∀ a ∈ s.memberArrays, ∀ l ∈ a.lines, '\n' ∉ l.toList := by
    intro a ha
    have hlast : ∀ e ∈ a.entries.getLast?.toList, '\n' ∉ e.toList := fun e he =>
      hentries a ha e (List.mem_of_getLast? (Option.mem_toList.mp he))
    simp only [MemberArray.lines, List.forall_mem_append, List.forall_mem_map]
    refine ⟨⟨⟨?_, fun e he => ?_⟩, fun e he => ?_⟩, by simp⟩
    · simp [hsymbols a ha]
    · simp [hentries a ha e (List.dropLast_subset _ he)]
    · simp [hlast e he]
  simp only [lines, List.forall_mem_append, List.forall_mem_map, List.forall_mem_flatMap]
  refine ⟨⟨⟨⟨⟨⟨by simp, fun l hl => ?_⟩, ?_⟩, harray⟩, by simp⟩, fun n hn => ?_⟩, by simp⟩
  · simp [hstrings l hl]
  · simpa using hcount
  · simp [hflags n hn]

end FlagSource

/-! ### The scripting module -/

namespace FlagScript

variable {ts rest : List ScriptToken} {items : List String}

/-- The texts of a list, where the tokens begin behind its opening bracket, and what follows the
list. There may be a comma behind the last text. -/
def texts? : List ScriptToken → Option (List String × List ScriptToken)
  | .mark ']' :: rest => some ([], rest)
  | .string s :: .mark ']' :: rest => some ([s], rest)
  | .string s :: .mark ',' :: rest => (texts? rest).map fun p => (s :: p.1, p.2)
  | _ => none

theorem length_texts? {p : List String × List ScriptToken} (h : texts? ts = some p) :
    p.2.length < ts.length := by
  induction ts using texts?.induct generalizing p with
  | case1 rest =>
    cases h
    exact Nat.lt_succ_self _
  | case2 s rest =>
    cases h
    simp only [List.length_cons]
    omega
  | case3 s rest ih =>
    obtain ⟨q, hq, rfl⟩ := Option.map_eq_some_iff.mp h
    have hlt := ih hq
    simp only [List.length_cons]
    omega
  | case4 => simp_all [texts?]

/-- The compounds of a dictionary that gives each of them a list, where the tokens begin behind its
opening brace, and what follows the dictionary. -/
def compounds? (ts : List ScriptToken) : Option (List CompoundFlag × List ScriptToken) :=
  match ts with
  | .mark '\x7d' :: rest => some ([], rest)
  | .string name :: .mark ':' :: .mark '[' :: list =>
    match _h : texts? list with
    | some (members, .mark ',' :: rest) =>
      (compounds? rest).map fun p => (⟨name, members⟩ :: p.1, p.2)
    | _ => none
  | _ => none
termination_by ts.length
decreasing_by
  have hlt := length_texts? _h
  simp only [List.length_cons] at hlt ⊢
  omega

/-- The texts of a dictionary that gives texts to texts, where the tokens begin behind its opening
brace, and what follows the dictionary. -/
def descriptions? : List ScriptToken → Option (List (String × String) × List ScriptToken)
  | .mark '\x7d' :: rest => some ([], rest)
  | .string name :: .mark ':' :: .string text :: .mark ',' :: rest =>
    (descriptions? rest).map fun p => ((name, text) :: p.1, p.2)
  | _ => none

/-- The tokens in front of a value in brackets that is assigned to a variable. -/
def assignTokens (name : String) (bracket : Char) : List ScriptToken :=
  [.word name, .mark '=', .mark bracket]

/-- What follows the bracket that opens the value of a variable. -/
def assigned? (name : String) (bracket : Char) (ts : List ScriptToken) :
    Option (List ScriptToken) :=
  ts.dropPrefix? (assignTokens name bracket)

/-- The definition of all flags, as the union of the simple flags and the compounds. -/
def unionTokens : List ScriptToken :=
  [.word "allFlags", .mark '=', .word "frozenset", .mark '(', .word "baseFlags", .mark '+',
    .word "compoundFlags", .mark ')']

/-- What a scripting module defines. -/
def ofText? (source : String) : Option FlagScript := do
  let ts ← ScriptToken.ofChars? source.toList
  let (baseFlags, ts) ← (assigned? "baseFlags" '[' ts).bind texts?
  let (compoundFlags, ts) ← (assigned? "compoundFlags" '[' ts).bind texts?
  let ts ← ts.dropPrefix? unionTokens
  let (compoundFlagMap, ts) ← (assigned? "compoundFlagMap" '\x7b' ts).bind compounds?
  let (flagDescriptions, ts) ← (assigned? "flagDescriptions" '\x7b' ts).bind descriptions?
  if ts = [] then return { baseFlags, compoundFlags, compoundFlagMap, flagDescriptions } else none

/-! The tokens of a module are those of its pieces. -/

/-- The tokens of a list with a comma behind each text. -/
def itemTokens (items : List String) : List ScriptToken :=
  items.flatMap fun s => [.string s, .mark ',']

/-- The tokens of a list with commas between the texts, behind its opening bracket. -/
def listTokens : List String → List ScriptToken
  | [] => [.mark ']']
  | [s] => [.string s, .mark ']']
  | s :: t :: rest => .string s :: .mark ',' :: listTokens (t :: rest)

/-- The tokens of a compound with its members. -/
def compoundTokens (c : CompoundFlag) : List ScriptToken :=
  .string c.name :: .mark ':' :: .mark '[' :: (listTokens c.members ++ [.mark ','])

/-- The tokens of a text with its description. -/
def descriptionTokens (d : String × String) : List ScriptToken :=
  [.string d.1, .mark ':', .string d.2, .mark ',']

theorem texts?_itemTokens (items : List String) (rest : List ScriptToken) :
    texts? (itemTokens items ++ .mark ']' :: rest) = some (items, rest) := by
  induction items with
  | nil => rfl
  | cons s items ih =>
    rw [itemTokens, List.flatMap_cons, ← itemTokens]
    change (texts? (itemTokens items ++ .mark ']' :: rest)).map _ = _
    rw [ih]
    rfl

theorem texts?_listTokens (items : List String) (rest : List ScriptToken) :
    texts? (listTokens items ++ rest) = some (items, rest) := by
  induction items using listTokens.induct with
  | case1 => rfl
  | case2 s => rfl
  | case3 s t items ih =>
    change (texts? (listTokens (t :: items) ++ rest)).map _ = _
    rw [ih]
    rfl

theorem compounds?_flatMap (cs : List CompoundFlag) (rest : List ScriptToken) :
    compounds? (cs.flatMap compoundTokens ++ .mark '\x7d' :: rest) = some (cs, rest) := by
  induction cs with
  | nil =>
    rw [List.flatMap_nil, List.nil_append, compounds?]
  | cons c cs ih =>
    have htokens : (c :: cs).flatMap compoundTokens ++ ScriptToken.mark '\x7d' :: rest
        = .string c.name :: .mark ':' :: .mark '[' :: (listTokens c.members
          ++ .mark ',' :: (cs.flatMap compoundTokens ++ .mark '\x7d' :: rest)) := by
      simp [compoundTokens]
    rw [htokens, compounds?, texts?_listTokens]
    simp only [ih, Option.map_some]

theorem descriptions?_flatMap (ds : List (String × String)) (rest : List ScriptToken) :
    descriptions? (ds.flatMap descriptionTokens ++ .mark '\x7d' :: rest) = some (ds, rest) := by
  induction ds with
  | nil => rfl
  | cons d ds ih =>
    rw [List.flatMap_cons]
    change (descriptions? (ds.flatMap descriptionTokens ++ .mark '\x7d' :: rest)).map _ = _
    rw [ih]
    rfl

/-- The characters of some lines. -/
def chars {α : Type} (line : α → String) (as : List α) : List Char :=
  as.flatMap fun a => (line a).toList ++ ['\n']

/-- The characters of a value in brackets that is assigned to a variable. -/
def blockChars (name : String) (opening closing : Char) (body : List Char) : List Char :=
  name.toList ++ ' ' :: '=' :: ' ' :: opening :: '\n' :: (body ++ [closing, '\n'])

theorem reads_block (name : String) (opening closing : Char) {body : List Char}
    (hname : name.toList ≠ [] ∧ name.toList.all ScriptToken.isWordChar = true)
    (hopening : ScriptToken.isMark opening = true) (hclosing : ScriptToken.isMark closing = true)
    (hbody : ScriptToken.Reads body ts) :
    ScriptToken.Reads (blockChars name opening closing body)
      (assignTokens name opening ++ ts ++ [.mark closing]) := by
  have hend : ScriptToken.Reads [closing, '\n'] [.mark closing] :=
    .mark hclosing (.blank (by decide) .nil)
  have hspace : (' ' : Char).isWhitespace = true := by decide
  have hvalue := ScriptToken.Reads.mark hopening
    (.blank (c := '\n') (by decide) (hbody.append hend))
  have hequals := ScriptToken.Reads.mark (c := '=') (by decide) (hvalue.blank hspace)
  have hword := ScriptToken.Reads.word hname.1 hname.2 (by decide) (hequals.blank hspace)
  rw [String.ofList_toList] at hword
  simpa [blockChars, assignTokens] using hword

/-- The line of a text in a list. -/
def itemLine (s : String) : String := "    " ++ ScriptLiteral.quote s ++ ","

/-- The line of a compound. -/
def compoundLine (c : CompoundFlag) : String :=
  "    " ++ ScriptLiteral.quote c.name ++ " : " ++ listText c.members ++ ","

/-- The line of a description. -/
def descriptionLine (d : String × String) : String :=
  "    " ++ ScriptLiteral.quote d.1 ++ " : " ++ ScriptLiteral.quote d.2 ++ ","

theorem toList_text (s : FlagScript) :
    s.text.toList = blockChars "baseFlags" '[' ']' (chars itemLine s.baseFlags)
      ++ '\n' :: (blockChars "compoundFlags" '[' ']' (chars itemLine s.compoundFlags)
      ++ '\n' :: ("allFlags = frozenset(baseFlags + compoundFlags)\n".toList
      ++ '\n' :: (blockChars "compoundFlagMap" '\x7b' '\x7d' (chars compoundLine s.compoundFlagMap)
      ++ '\n' :: blockChars "flagDescriptions" '\x7b' '\x7d'
        (chars descriptionLine s.flagDescriptions)))) := by
  simp [text, lines, toList_unlines, blockChars, chars, itemLine, compoundLine, descriptionLine,
    List.flatMap_map]

/-- A text in quotes behind the indentation of a line. -/
theorem reads_entry {cs : List Char} (s : String) (h : ScriptToken.Reads cs ts) :
    ScriptToken.Reads (("    " ++ ScriptLiteral.quote s).toList ++ cs) (.string s :: ts) := by
  have hspace : (' ' : Char).isWhitespace = true := by decide
  have hentry := ScriptToken.Reads.quote s h
  simpa using ((((hentry.blank hspace).blank hspace).blank hspace).blank hspace)

theorem reads_comma : ScriptToken.Reads [',', '\n'] [.mark ','] :=
  .mark (by decide) (.blank (by decide) .nil)

/-- What stands between a key and its value. -/
theorem reads_colon {cs : List Char} (h : ScriptToken.Reads cs ts) :
    ScriptToken.Reads (' ' :: ':' :: ' ' :: cs) (.mark ':' :: ts) :=
  .blank (by decide) (.mark (by decide) (.blank (by decide) h))

theorem reads_itemLine (s : String) :
    ScriptToken.Reads ((itemLine s).toList ++ ['\n']) [.string s, .mark ','] := by
  simpa [itemLine] using reads_entry s reads_comma

theorem reads_descriptionLine (d : String × String) :
    ScriptToken.Reads ((descriptionLine d).toList ++ ['\n']) (descriptionTokens d) := by
  have htext := ScriptToken.Reads.quote d.2 reads_comma
  simpa [descriptionLine, descriptionTokens] using reads_entry d.1 (reads_colon htext)

/-- The items of a list up to its closing bracket. -/
theorem reads_joinWith (items : List String) :
    ScriptToken.Reads ((joinWith ", " (items.map ScriptLiteral.quote)).toList ++ [']'])
      (listTokens items) := by
  have hend : ScriptToken.Reads [']'] [.mark ']'] := .mark (by decide) .nil
  induction items using listTokens.induct with
  | case1 => exact hend
  | case2 s => simpa [joinWith, listTokens] using ScriptToken.Reads.quote s hend
  | case3 s t items ih =>
    have hrest := ScriptToken.Reads.mark (c := ',') (by decide) (.blank (c := ' ') (by decide) ih)
    simpa [joinWith, listTokens] using ScriptToken.Reads.quote s hrest

theorem reads_compoundLine (c : CompoundFlag) :
    ScriptToken.Reads ((compoundLine c).toList ++ ['\n']) (compoundTokens c) := by
  have hlist := ScriptToken.Reads.mark (c := '[') (by decide)
    ((reads_joinWith c.members).append reads_comma)
  simpa [compoundLine, compoundTokens, listText] using reads_entry c.name (reads_colon hlist)

theorem reads_union :
    ScriptToken.Reads "allFlags = frozenset(baseFlags + compoundFlags)\n".toList unionTokens := by
  have hspace : (' ' : Char).isWhitespace = true := by decide
  have hclose : ScriptToken.Reads [')', '\n'] [.mark ')'] :=
    .mark (by decide) (.blank (by decide) .nil)
  have hcompounds := ScriptToken.Reads.word (w := "compoundFlags".toList) (by decide) (by decide)
    (by decide) hclose
  have hplus := ScriptToken.Reads.mark (c := '+') (by decide) (hcompounds.blank hspace)
  have hbase := ScriptToken.Reads.word (w := "baseFlags".toList) (by decide) (by decide) (by decide)
    (hplus.blank hspace)
  have hset := ScriptToken.Reads.word (w := "frozenset".toList) (by decide) (by decide) (by decide)
    (.mark (c := '(') (by decide) hbase)
  have hequals := ScriptToken.Reads.mark (c := '=') (by decide) (hset.blank hspace)
  have hall := ScriptToken.Reads.word (w := "allFlags".toList) (by decide) (by decide) (by decide)
    (hequals.blank hspace)
  simpa [unionTokens] using hall

/-- The tokens of a module. -/
def tokens (s : FlagScript) : List ScriptToken :=
  assignTokens "baseFlags" '[' ++ itemTokens s.baseFlags ++ [.mark ']']
    ++ (assignTokens "compoundFlags" '[' ++ itemTokens s.compoundFlags ++ [.mark ']']
    ++ (unionTokens
    ++ (assignTokens "compoundFlagMap" '\x7b' ++ s.compoundFlagMap.flatMap compoundTokens
      ++ [.mark '\x7d']
    ++ (assignTokens "flagDescriptions" '\x7b' ++ s.flagDescriptions.flatMap descriptionTokens
      ++ [.mark '\x7d']))))

theorem ofChars?_text (s : FlagScript) : ScriptToken.ofChars? s.text.toList = some s.tokens := by
  have hbase := reads_block "baseFlags" '[' ']' (by decide) (by decide) (by decide)
    (.flatMap reads_itemLine s.baseFlags)
  have hcompounds := reads_block "compoundFlags" '[' ']' (by decide) (by decide) (by decide)
    (.flatMap reads_itemLine s.compoundFlags)
  have hmap := reads_block "compoundFlagMap" '\x7b' '\x7d' (by decide) (by decide) (by decide)
    (.flatMap reads_compoundLine s.compoundFlagMap)
  have hdescriptions := reads_block "flagDescriptions" '\x7b' '\x7d' (by decide) (by decide)
    (by decide) (.flatMap reads_descriptionLine s.flagDescriptions)
  have hfeed : ('\n' : Char).isWhitespace = true := by decide
  rw [toList_text]
  exact (hbase.append (.blank hfeed (hcompounds.append (.blank hfeed (reads_union.append
    (.blank hfeed (hmap.append (.blank hfeed hdescriptions)))))))).ofChars?_eq

/-- **The scripting module of the flags is read back.** -/
theorem ofText?_text (s : FlagScript) : ofText? s.text = some s := by
  have hassigned : ∀ name bracket rest,
      assigned? name bracket (assignTokens name bracket ++ rest) = some rest :=
    fun _ _ _ => List.dropPrefix?_append_of_beq _ (beq_self_eq_true _)
  have hunion : ∀ rest, (unionTokens ++ rest).dropPrefix? unionTokens = some rest :=
    fun _ => List.dropPrefix?_append_of_beq _ (beq_self_eq_true _)
  have hmap := compounds?_flatMap s.compoundFlagMap
  have hdescriptions := descriptions?_flatMap s.flagDescriptions []
  rw [ofText?, ofChars?_text, tokens]
  simp only [List.append_assoc, List.singleton_append, hassigned, hunion, texts?_itemTokens, hmap,
    hdescriptions, Option.bind_eq_bind, Option.bind_some, if_true]
  rfl

end FlagScript

end SimMetadata
