import SimMetadata.CommandLine

/-!
# The program

Takes a picture of the working directory, hands it to the command line together with the
arguments, prints what comes of it, and writes back what has changed. Everything is decided in
`CommandLine.run`. Links are not followed, nothing outside the working directory is seen, and
version control is not consulted, so that every tree is of unknown provenance.
-/

namespace SimMetadata.Program

/-- The location that an absolute path leads to. -/
def locationOf (absolute : String) : Location := (absolute.splitOn "/").filter (· ≠ "")

/-- The absolute path of a location. -/
def absolutePath (loc : Location) : String := "/" ++ "/".intercalate loc

/-- What stands at an entry of a directory and below it. What cannot be read is left out. -/
partial def survey (around : Location) (entry : IO.FS.DirEntry) : IO (List (Location × Node)) := do
  let here := around ++ [entry.fileName]
  try
    match (← entry.path.symlinkMetadata).type with
    | .dir =>
      let below ← (← entry.path.readDir).toList.mapM (survey here)
      return (here, .directory) :: below.flatten
    | .file => return [(here, .file (.plain (← IO.FS.readBinFile entry.path).data.toList))]
    | _ => return []
  catch _ => return []

/-- The disk as it is seen from the working directory. -/
def currentDisk : IO Disk := do
  let dir ← IO.currentDir
  let home := locationOf dir.toString
  let below ← (← dir.readDir).toList.mapM (survey home)
  return ⟨home, below.flatten⟩

/-- Writes what has been added to a disk, or changed on it, to the real one. -/
def writeBack (old new : Disk) : IO Unit := do
  for (loc, n) in new.nodes do
    unless old.nodes.lookup loc = some n do
      match n with
      | .directory => IO.FS.createDirAll (absolutePath loc)
      | .file content => IO.FS.writeBinFile (absolutePath loc) ⟨content.bytes.toArray⟩

/-- A time in milliseconds, in seconds with four places. -/
def secondsText (milliseconds : Nat) : String :=
  toString (milliseconds / 1000) ++ "." ++ Text.padLeft '0' 3 (toString (milliseconds % 1000))
    ++ "0"

end SimMetadata.Program

open SimMetadata in
/-- The program. -/
def main (arguments : List String) : IO UInt32 := do
  let started ← IO.monoMsNow
  let d ← Program.currentDisk
  let (outcome, left) := CommandLine.run (fun _ => none) d arguments
  Program.writeBack d left
  match outcome with
  | .answered a => IO.print (a.print (some (Program.secondsText ((← IO.monoMsNow) - started))))
  | .failed report => IO.eprint report.text
  | .misused => IO.eprint (CommandLine.HelpTopic.text .program)
  return UInt32.ofNat outcome.exitCode
