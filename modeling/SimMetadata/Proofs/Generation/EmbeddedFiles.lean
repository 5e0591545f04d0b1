import SimMetadata.Generation
import SimMetadata.Proofs.Except
import SimMetadata.Proofs.NameMap
import SimMetadata.Proofs.Text.Layout
import SimMetadata.Proofs.Text.ScriptLiteral

/-!
# What the info module holds

The info module is read as a program: one assignment of a text to a variable on each line. When it
has been executed, a variable holds what was assigned to it last.

A variable is made from the file name alone, and what cannot stand in an identifier is folded, so
different files may have the same variable: files of one name in different directories, or names
that differ in what is folded. Nothing is said about it when they do. The module assigns all of them
to the variable, and the last one is what it holds.

## Main definitions

* `InfoModule.assignments?`, `InfoModule.execute?`: the assignments of a source, and what the
  variables hold after them.
* `foldedName`, `marked`: the two steps from a file name to a variable.

## Main results

* `infoVariable_eq_iff`: which files have the same variable.
* `readInfoFiles?_eq_ok_iff`: what is read.
* `InfoModule.assignments?_infoText`: the assignments are read back from the module.
* `embeddedFiles_kept_iff`: what each variable holds, and when no file is lost to another.
-/

namespace SimMetadata

open Text

/-! ### The info module as a program -/

namespace InfoModule

/-- The assignment that a line is: an identifier, and the literal of a text. -/
def assignment? (line : List Char) : Option (String × String) :=
  let variableName := line.takeWhile continuesIdentifier
  match line.dropWhile continuesIdentifier with
  | ' ' :: '=' :: ' ' :: literal =>
    if isIdentifier variableName then
      (ScriptLiteral.decode? literal).map fun text =>
        (String.ofList variableName, String.ofList text)
    else none
  | _ => none

/-- The assignments of a source, in order. There is one on each line, and each line is ended by a
line feed. -/
def assignments? (source : String) : Option (List (String × String)) :=
  let lines := source.toList.splitOn '\n'
  if lines.getLast? = some [] then lines.dropLast.mapM assignment? else none

/-- What the variables hold when the assignments of a source have been executed in order. -/
def execute? (source : String) : Option (NameMap String) :=
  (assignments? source).map NameMap.ofList

variable {f : EmbeddedFile} {infos : List EmbeddedFile}

theorem toList_text (f : EmbeddedFile) :
    f.text.toList = f.variableName.toList
      ++ ' ' :: '=' :: ' ' :: ScriptLiteral.encode f.contents.toList := by
  simp [EmbeddedFile.text]

theorem assignment?_text (h : isIdentifier f.variableName.toList = true) :
    assignment? f.text.toList = some (f.variableName, f.contents) := by
  have hall : ∀ c ∈ f.variableName.toList, continuesIdentifier c = true :=
    fun c hc => continuesIdentifier_of_mem h hc
  have hend : ¬ continuesIdentifier ' ' = true := by decide
  rw [assignment?, toList_text, List.takeWhile_append_of_pos hall,
    List.dropWhile_append_of_pos hall, List.takeWhile_cons_of_neg hend,
    List.dropWhile_cons_of_neg hend, List.append_nil]
  simp only [if_pos h, ScriptLiteral.decode?_encode, Option.map_some, String.ofList_toList]

/-- An assignment stands on one line, whatever the file holds. -/
theorem feed_not_mem_text (h : isIdentifier f.variableName.toList = true) :
    '\n' ∉ f.text.toList := by
  have hname : '\n' ∉ f.variableName.toList := not_mem_of_isIdentifier h (by decide)
  rw [toList_text]
  simp [hname, ScriptLiteral.feed_not_mem_encode]

/-- **The assignments are read back from the module.** -/
theorem assignments?_infoText (h : ∀ f ∈ infos, isIdentifier f.variableName.toList = true) :
    assignments? (infoText infos) = some (infos.map fun f => (f.variableName, f.contents)) := by
  have hlines : (infoText infos).toList.splitOn '\n'
      = (infos.map EmbeddedFile.text).map String.toList ++ [[]] := by
    refine splitOn_unlines fun l hl => ?_
    obtain ⟨f, hf, rfl⟩ := List.mem_map.mp hl
    exact feed_not_mem_text (h f hf)
  rw [assignments?, hlines, List.getLast?_concat, if_pos rfl, List.dropLast_concat]
  clear hlines
  induction infos with
  | nil => rfl
  | cons f infos ih =>
    obtain ⟨hf, hinfos⟩ := List.forall_mem_cons.mp h
    rw [List.map_cons, List.map_cons, List.mapM_cons, assignment?_text hf, ih hinfos]
    rfl

end InfoModule

/-! ### Variables -/

/-- The file name with every other character than an ASCII letter or digit turned into an
underscore. -/
def foldedName (file : Path) : List Char :=
  (file.fileName?.getD "").toList.map fun c => if c.isAlphanum then c else '_'

/-- Whether a name needs an underscore in front to be an identifier. -/
def needsMark (name : List Char) : Bool := name.head?.all Char.isDigit

/-- The name, with an underscore in front if it needs one. -/
def marked (name : List Char) : List Char := if needsMark name then '_' :: name else name

variable {file p q : Path} {name other : List Char}

theorem infoVariable_eq (file : Path) :
    infoVariable file = String.ofList (marked (foldedName file)) := by
  delta infoVariable
  rw [marked, needsMark]
  dsimp only
  rw [← foldedName]
  cases foldedName file with
  | nil => rfl
  | cons c cs =>
    rw [List.head?_cons, Option.all_some]
    dsimp only
    split <;> rfl

theorem continuesIdentifier_of_mem_foldedName {c : Char} (h : c ∈ foldedName file) :
    continuesIdentifier c = true := by
  obtain ⟨d, -, rfl⟩ := List.mem_map.mp h
  split
  · next hd => simp [continuesIdentifier, hd]
  · decide

/-- What may continue an identifier begins one, unless it is a digit. -/
theorem startsIdentifier_of_not_isDigit {c : Char} (h : continuesIdentifier c = true)
    (hdigit : c.isDigit = false) : startsIdentifier c = true := by
  simpa [startsIdentifier, continuesIdentifier, Char.isAlphanum, hdigit] using h

/-- **Every variable is an identifier.** -/
theorem isIdentifier_infoVariable (file : Path) :
    isIdentifier (infoVariable file).toList = true := by
  have hall : ∀ c ∈ foldedName file, continuesIdentifier c = true :=
    fun c hc => continuesIdentifier_of_mem_foldedName hc
  rw [infoVariable_eq, String.toList_ofList, marked]
  split
  · rw [isIdentifier_cons, List.all_eq_true.mpr hall]
    rfl
  · next hmark =>
    cases hname : foldedName file with
    | nil => simp [hname, needsMark] at hmark
    | cons c cs =>
      rw [hname] at hall hmark
      obtain ⟨hc, hcs⟩ := List.forall_mem_cons.mp hall
      have hdigit : c.isDigit = false := by simpa [needsMark] using hmark
      rw [isIdentifier_cons, startsIdentifier_of_not_isDigit hc hdigit, List.all_eq_true.mpr hcs]
      rfl

/-- A name with the mark does not need another. -/
theorem needsMark_cons_mark (name : List Char) : needsMark ('_' :: name) = false := rfl

theorem marked_eq_iff :
    marked name = marked other ↔ name = other
      ∨ (needsMark name = true ∧ other = '_' :: name)
      ∨ (needsMark other = true ∧ name = '_' :: other) := by
  constructor
  · intro h
    rw [marked, marked] at h
    split at h <;> split at h
    · exact .inl (List.cons.inj h).2
    · next hname _ => exact .inr (.inl ⟨hname, h.symm⟩)
    · next hother => exact .inr (.inr ⟨hother, h⟩)
    · exact .inl h
  · rintro (rfl | ⟨hname, rfl⟩ | ⟨hother, rfl⟩)
    · rfl
    · rw [marked, marked, if_pos hname, if_neg (by simp [needsMark_cons_mark])]
    · rw [marked, marked, if_pos hother, if_neg (by simp [needsMark_cons_mark])]

/-- **Two files have the same variable** exactly if their names are folded to the same, or to names
of which one is the other with the mark that this needs. Where the files are does not matter. -/
theorem infoVariable_eq_iff :
    infoVariable p = infoVariable q ↔ foldedName p = foldedName q
      ∨ (needsMark (foldedName p) = true ∧ foldedName q = '_' :: foldedName p)
      ∨ (needsMark (foldedName q) = true ∧ foldedName p = '_' :: foldedName q) := by
  rw [infoVariable_eq, infoVariable_eq, String.ofList_inj, marked_eq_iff]

/-- The mark is what one of the two names has already. -/
example : infoVariable ⟨"doc/7.txt"⟩ = infoVariable ⟨"_7-txt"⟩ := by decide

/-! ### What is read -/

variable {d : Disk} {config : BuildConfig} {files : List Path} {infos : List EmbeddedFile}

/-- The text of a file that is embedded. -/
def embeddedText (d : Disk) (config : BuildConfig) (file : Path) : String :=
  (d.readText (config.resolve file)).toOption.getD ""

theorem readInfoFiles?_cons (d : Disk) (config : BuildConfig) (file : Path) (files : List Path) :
    readInfoFiles? d config (file :: files) =
      match d.readText (config.resolve file) with
      | .error fault => .error (.io (config.resolve file) fault)
      | .ok text =>
        readInfoFiles? d config files >>= fun rest => .ok (⟨infoVariable file, text⟩ :: rest) := by
  -- Not by the equation of the definition: to find that one, Lean looks into `readText` at length.
  rfl

/-- Embedded files are read if all of them hold texts, and each gives its text to its variable. -/
theorem readInfoFiles?_eq_ok_iff :
    readInfoFiles? d config files = .ok infos ↔
      (∀ file ∈ files, d.readText (config.resolve file) = .ok (embeddedText d config file))
      ∧ infos = files.map fun file => ⟨infoVariable file, embeddedText d config file⟩ := by
  induction files generalizing infos with
  | nil =>
    change Except.ok [] = Except.ok infos ↔ _
    simp [eq_comm]
  | cons file files ih =>
    rw [readInfoFiles?_cons, List.forall_mem_cons, List.map_cons, embeddedText]
    cases hread : d.readText (config.resolve file) with
    | error fault => simp
    | ok text =>
      simp only [Except.toOption, Option.getD_some, true_and]
      constructor
      · intro h
        obtain ⟨rest, hrest, h⟩ := except_bind_eq_ok_iff.mp h
        cases h
        obtain ⟨htexts, rfl⟩ := ih.mp hrest
        exact ⟨htexts, rfl⟩
      · rintro ⟨htexts, rfl⟩
        exact except_bind_eq_ok_iff.mpr ⟨_, ih.mpr ⟨htexts, rfl⟩, rfl⟩

/-! ### What the variables hold -/

/-- The assignment of an embedded file to its variable. -/
def assignmentOf (d : Disk) (config : BuildConfig) (file : Path) : String × String :=
  (infoVariable file, embeddedText d config file)

/-- The info module of files that are read assigns each of them to its variable, in order. -/
theorem assignments?_of_read (h : readInfoFiles? d config files = .ok infos) :
    InfoModule.assignments? (infoText infos) = some (files.map (assignmentOf d config)) := by
  obtain ⟨-, rfl⟩ := readInfoFiles?_eq_ok_iff.mp h
  have hnames : ∀ f ∈ files.map fun file =>
      (⟨infoVariable file, embeddedText d config file⟩ : EmbeddedFile),
      isIdentifier f.variableName.toList = true := by
    intro f hf
    obtain ⟨file, -, rfl⟩ := List.mem_map.mp hf
    exact isIdentifier_infoVariable file
  rw [InfoModule.assignments?_infoText hnames, List.map_map]
  rfl

/-- **What the info module holds.** If the embedded files are read, the module that is printed is a
sequence of assignments, one for each file in order: the variable is an identifier, and what is
assigned to it is the text of the file. When they have been executed, a variable holds the text of
the last file that has it. So every file is held by its variable exactly if no two files with the
same variable have different texts, and it is said which files have the same variable. -/
theorem embeddedFiles_kept_iff (h : readInfoFiles? d config files = .ok infos) :
    (∀ file ∈ files, d.readText (config.resolve file) = .ok (embeddedText d config file))
    ∧ InfoModule.assignments? (infoText infos)
      = some (files.map fun file => (infoVariable file, embeddedText d config file))
    ∧ (∀ file ∈ files, isIdentifier (infoVariable file).toList = true)
    ∧ (∃ held, InfoModule.execute? (infoText infos) = some held
      ∧ (∀ before file after, files = before ++ file :: after →
        (∀ other ∈ after, infoVariable other ≠ infoVariable file) →
          held.get? (infoVariable file) = some (embeddedText d config file))
      ∧ ((∀ file ∈ files, held.get? (infoVariable file) = some (embeddedText d config file))
        ↔ ∀ file ∈ files, ∀ other ∈ files, infoVariable file = infoVariable other →
          embeddedText d config file = embeddedText d config other))
    ∧ ∀ p q, infoVariable p = infoVariable q ↔ foldedName p = foldedName q
      ∨ (needsMark (foldedName p) = true ∧ foldedName q = '_' :: foldedName p)
      ∨ (needsMark (foldedName q) = true ∧ foldedName p = '_' :: foldedName q) := by
  have hassignments := assignments?_of_read h
  refine ⟨(readInfoFiles?_eq_ok_iff.mp h).1, hassignments,
    fun file _ => isIdentifier_infoVariable file,
    ⟨NameMap.ofList (files.map (assignmentOf d config)), ?_, ?_, ?_⟩,
    fun _ _ => infoVariable_eq_iff⟩
  · rw [InfoModule.execute?, hassignments, Option.map_some]
  · rintro before file after rfl hlast
    rw [List.map_append, List.map_cons]
    refine NameMap.get?_ofList_append_cons fun assignment hmem => ?_
    obtain ⟨other, hother, rfl⟩ := List.mem_map.mp hmem
    exact hlast other hother
  · have hkept := NameMap.forall_get?_ofList_iff (files.map (assignmentOf d config))
    simp only [List.forall_mem_map] at hkept
    exact hkept

/-! ### Two files of one name -/

/-- A license, the one of a tree that is vendored, and a note. -/
def licenseDisk : Disk :=
  Disk.ofFiles ["work"]
    [("COPYING", some (.plain (utf8 "one\n"))), ("ext/COPYING", some (.plain (utf8 "\"two\"\n"))),
      ("7.txt", some (.plain (utf8 "\t\x07\n")))]

def licenseConfig : BuildConfig where
  root := ⟨"."⟩
  outDirField := ⟨"build"⟩
  objects := []
  bindingModules := []
  flags := none
  infoFiles := [⟨"COPYING"⟩, ⟨"ext/COPYING"⟩]
  envTable := []
  sources := []
  bundle := ⟨"objects.zip"⟩
  provenance := none

/-- The vendored license and the note have variables of their own, and both are held. -/
theorem note_kept :
    ∃ held, InfoModule.execute?
        "COPYING = \"\\\"two\\\"\\n\"\n_7_txt = \"\\t\\u0007\\n\"\n" = some held
      ∧ ∀ file ∈ [(⟨"ext/COPYING"⟩ : Path), ⟨"7.txt"⟩],
        held.get? (infoVariable file) = some (embeddedText licenseDisk licenseConfig file) := by
  have hread : readInfoFiles? licenseDisk licenseConfig [⟨"ext/COPYING"⟩, ⟨"7.txt"⟩]
      = .ok [⟨"COPYING", "\"two\"\n"⟩, ⟨"_7_txt", "\t\x07\n"⟩] := by
    decide +kernel
  obtain ⟨-, -, -, ⟨held, hheld, -, hkept⟩, -⟩ := embeddedFiles_kept_iff hread
  exact ⟨held, hheld, hkept.mpr (by decide +kernel)⟩

/-- **The license is lost.** The two files are different, and both are read. The module assigns both
to one variable, and when it has been executed, this holds the vendored license. -/
theorem copying_lost :
    licenseConfig.infoFiles.Pairwise (fun p q => p.components ≠ q.components)
      ∧ readInfoFiles? licenseDisk licenseConfig licenseConfig.infoFiles
        = .ok [⟨"COPYING", "one\n"⟩, ⟨"COPYING", "\"two\"\n"⟩]
      ∧ licenseDisk.readText (licenseConfig.resolve ⟨"COPYING"⟩) = .ok "one\n"
      ∧ (InfoModule.execute?
          (infoText [⟨"COPYING", "one\n"⟩, ⟨"COPYING", "\"two\"\n"⟩])).map
            (·.get? (infoVariable ⟨"COPYING"⟩)) = some (some "\"two\"\n") := by
  decide +kernel

end SimMetadata
