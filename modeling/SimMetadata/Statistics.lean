import SimMetadata.NameMap
import SimMetadata.Text.Layout

/-!
# Statistics of a run

A run counts the files that it writes and their bytes, by kind, and how many classes, enumerations
and parameter types it generated them from.

## Main definitions

* `Tally`, `Statistics`: the counts.
* `Statistics.record`: counts one more file.
* `Statistics.summary`: the report.
-/

namespace SimMetadata

/-- How many files there are and how many bytes they hold together. -/
structure Tally where
  files : Nat
  bytes : Nat
  deriving DecidableEq, Inhabited, Repr

namespace Tally

/-- Nothing counted. -/
def zero : Tally := ⟨0, 0⟩

/-- The tally with one more file. -/
def addFile (t : Tally) (bytes : Nat) : Tally := ⟨t.files + 1, t.bytes + bytes⟩

/-- Two tallies together. -/
def add (t u : Tally) : Tally := ⟨t.files + u.files, t.bytes + u.bytes⟩

/-- The tally in words. -/
def text (t : Tally) : String := toString t.files ++ " files, " ++ toString t.bytes ++ " bytes"

end Tally

/-- The counts of a run. -/
structure Statistics where
  classes : Nat
  enums : Nat
  paramTypes : Nat
  /-- The files that were written, by kind. -/
  kinds : NameMap Tally
  deriving DecidableEq, Inhabited

namespace Statistics

/-- Nothing counted. -/
def zero : Statistics := ⟨0, 0, 0, NameMap.empty⟩

/-- The tally of a kind. -/
def tallyOf (s : Statistics) (kind : String) : Tally := (s.kinds.get? kind).getD .zero

/-- The statistics with one more file of a kind. -/
def record (s : Statistics) (kind : String) (bytes : Nat) : Statistics :=
  { s with kinds := s.kinds.insert kind ((s.tallyOf kind).addFile bytes) }

/-- All files together. -/
def total (s : Statistics) : Tally := s.kinds.values.foldl Tally.add .zero

/-- A line across the report. -/
def rule (c : Char) : String := String.ofList (List.replicate 58 c)

/-- A line of the report with a label in front. -/
def labelled (label value : String) : String := Text.padRight 25 label ++ value

/-- The line of a kind. -/
def kindLine (kind : String) (t : Tally) : String :=
  "  " ++ Text.padRight 22 ("out." ++ kind) ++ " " ++ t.text

/-- The report, with the time that the run took if it is given. -/
def summary (s : Statistics) (seconds : Option String) : String :=
  Text.unlines <|
    [rule '=', "GENERATION STATISTICS", rule '=']
      ++ seconds.toList.map (fun t => labelled "host_seconds" (t ++ " s"))
      ++ [labelled "reg.classes" (toString s.classes), labelled "reg.enums" (toString s.enums),
        labelled "reg.param_types" (toString s.paramTypes), rule '-']
      ++ s.kinds.entries.map (fun e => kindLine e.1 e.2)
      ++ [rule '-', labelled "out.total" s.total.text]

end Statistics

end SimMetadata
