import SimMetadata.Disk
import SimMetadata.ScriptSource

/-!
# The bundle

The compiled forms of selected sources are put into one archive. A file is selected by the path of
its compiled form and stored under the archive name of the source that is compiled to it. Paths
count as the same when they have the same components, however they are written.

## Main definitions

* `Bundle.producer?`: the source that is compiled to a path.
* `Bundle.selection?`: what is to be stored, by archive name.
* `Bundle.archive?`: the archive; it is complete before anything is written.
* `Bundle.save`: writes the archive to a file.
-/

namespace SimMetadata

/-- A file to be stored. -/
structure Selected where
  /-- The name in the archive. -/
  arcname : String
  path : Path
  deriving DecidableEq, Inhabited, Repr

/-- Files are stored by archive name, and those of one name by the components of their paths. -/
def Selected.compare (s t : Selected) : Ordering :=
  (compareOfLessAndEq s.arcname t.arcname).then
    (Path.compareComponents s.path.components t.path.components)

namespace Bundle

/-- The first source whose compiled form has the path of an earlier one's. -/
def firstCollision? : List ScriptSource → List ScriptSource → Option ScriptSource
  | _, [] => none
  | earlier, s :: rest =>
    if earlier.any (·.compiled.denotesSame s.compiled) then some s
    else firstCollision? (s :: earlier) rest

/-- The source that is compiled to a path. -/
def producer? (sources : List ScriptSource) (p : Path) : Option ScriptSource :=
  sources.find? (·.compiled.denotesSame p)

/-- Some files in the order of `Selected.compare` with one more in its place. A file that is there
already, however its path is written, is kept. -/
def insertSelected (s : Selected) : List Selected → List Selected
  | [] => [s]
  | t :: rest =>
    match s.compare t with
    | .lt => s :: t :: rest
    | .eq => t :: rest
    | .gt => t :: insertSelected s rest

/-- Some paths of compiled forms as files to be stored, in the order of the paths. -/
def selectedFiles? (sources : List ScriptSource) : List Path → Except Failure (List Selected)
  | [] => .ok []
  | p :: ps =>
    match producer? sources p with
    | none => .error (.unknownCompiled p)
    | some s => do return ⟨s.arcname, p⟩ :: (← selectedFiles? sources ps)

/-- What is to be stored for some paths of compiled forms, by archive name and without
repetition. -/
def selection? (selected : List Path) (sources : List ScriptSource) :
    Except Failure (List Selected) :=
  match firstCollision? [] sources with
  | some s => .error (.duplicateCompiled s.compiled)
  | none => do
    let files ← selectedFiles? sources selected
    return files.foldl (fun all s => insertSelected s all) []

/-- The archive with some files added, each of which is read when its turn comes. -/
def addFiles? (d : Disk) : Archive → List Selected → Except Failure Archive
  | a, [] => .ok a
  | a, s :: rest =>
    match d.read s.path with
    | .error fault => .error (.io s.path fault)
    | .ok data =>
      match a.add? ⟨s.arcname, data⟩ with
      | none => .error .archive
      | some a => addFiles? d a rest

/-- The archive of the compiled forms at some paths. -/
def archive? (d : Disk) (selected : List Path) (sources : List ScriptSource) :
    Except Failure Archive := do
  addFiles? d Archive.empty (← selection? selected sources)

/-- Writes the archive of the compiled forms at some paths to a file, and gives its length. -/
def save (d : Disk) (target : Path) (selected : List Path) (sources : List ScriptSource)
    (zip : Archive → Bytes := Archive.toBytes) : Except Failure Nat × Disk :=
  match archive? d selected sources with
  | .error failure => (.error failure, d)
  | .ok a =>
    match d.save target (.archive (a.pack zip)) with
    | (.error failure, d) => (.error failure, d)
    | (.ok (), d) => (.ok (Content.archive (a.pack zip)).size, d)

end Bundle

end SimMetadata
