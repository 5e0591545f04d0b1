import SimMetadata.Failure
import SimMetadata.Statistics

/-!
# What the program prints

A command prints its answer, or a report of what it failed at and of the causes of that, or it
was misused. Each has an exit code of its own.

## Main definitions

* `FailureReport`: what failed, and the causes from the nearest on.
* `Outcome`: what comes of some arguments.
-/

namespace SimMetadata.CommandLine

/-- What failed and why. -/
structure FailureReport where
  headline : String
  /-- The causes, each of the one before. -/
  causes : List String
  deriving DecidableEq, Repr

namespace FailureReport

/-- A failure that stands for itself. -/
def ofFailure (f : Failure) : FailureReport := ⟨f.message, f.cause?.toList⟩

/-- A failure of a step that is named in front of it. -/
def ofStep (step : String) (f : Failure) : FailureReport := ⟨step, f.message :: f.cause?.toList⟩

/-- The text with some spaces in front of every line but the first. -/
def hang (width : Nat) (s : String) : String :=
  String.ofList <| s.toList.flatMap fun c =>
    if c = '\n' then '\n' :: List.replicate width ' ' else [c]

/-- The causes as lines. They are numbered if there are several. -/
def causeLines : List String → List String
  | [cause] => ["    " ++ hang 4 cause]
  | causes => causes.mapIdx fun i cause =>
    Text.padLeft ' ' 5 (toString i) ++ ": " ++ hang 7 cause

/-- The report. -/
def text (r : FailureReport) : String :=
  Text.unlines <|
    ("Error: " ++ r.headline)
      :: if r.causes = [] then [] else ["", "Caused by:"] ++ causeLines r.causes

end FailureReport

/-- What a command that succeeds prints. -/
inductive Answer where
  | text (s : String)
  /-- The statistics of a run. -/
  | statistics (s : Statistics)
  deriving Inhabited

/-- The answer as it is printed, with the time that a run took if it is given. -/
def Answer.print (seconds : Option String) : Answer → String
  | text s => s
  | statistics s => s.summary seconds

/-- What comes of some arguments. -/
inductive Outcome where
  | answered (a : Answer)
  | failed (r : FailureReport)
  /-- The arguments make no sense. -/
  | misused
  deriving Inhabited

/-- The exit code of the program. -/
def Outcome.exitCode : Outcome → Nat
  | answered _ => 0
  | failed _ => 1
  | misused => 2

end SimMetadata.CommandLine
