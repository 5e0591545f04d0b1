import SimMetadata.Archive
import SimMetadata.Failure
import SimMetadata.NameMap

/-!
# The disk

A run reads manifests and sources and writes generated files. `Disk` is what it sees of the file
system: directories and ordinary files at known locations, and the directory from which relative
paths start. Every operation is a function from a disk to an answer and, if it writes, a disk, so
the effect of a whole run is a value.

## Main definitions

* `Disk.locate`: where a path leads. All components but the last have to be directories.
* `Disk.read`, `Disk.readText`, `Disk.present`: look without changing anything.
* `Disk.write`: puts a file in place.
* `Disk.makeDirectories`: makes a directory and all that are missing above it.
* `Disk.files`: the ordinary files below the home directory.

## Implementation notes

A location is the list of names from the top; there are no links, so two dots lead to the
location without its last name. A zip file is kept as its archive together with its bytes.

Names and paths are bounded in their bytes. A name is measured when it is looked up in a
directory, so a fault of what stands before it comes first; a path is measured as a whole, before
anything is looked up.
-/

namespace SimMetadata

/-- The names that lead from the top of the disk to a file or directory. -/
abbrev Location := List String

/-- What an ordinary file holds. -/
inductive Content where
  | plain (bytes : Bytes)
  | archive (file : ZipFile)
  deriving DecidableEq, Inhabited, Repr

/-- The bytes of a file. -/
def Content.bytes : Content → Bytes
  | plain b => b
  | archive file => file.bytes

/-- How many bytes a file has. -/
def Content.size (c : Content) : Nat := c.bytes.length

/-- What stands at a location. -/
inductive Node where
  | directory
  | file (content : Content)
  deriving DecidableEq, Inhabited, Repr

/-- A file system and the directory that relative paths start from. -/
structure Disk where
  /-- Where relative paths start. It and all above it are directories. -/
  home : Location
  /-- The other files and directories. -/
  nodes : List (Location × Node)
  deriving DecidableEq, Inhabited, Repr

namespace Disk

/-- The disk that holds the home directory and nothing else. -/
def blank (home : Location) : Disk := ⟨home, []⟩

/-- What stands at a location, if anything does. -/
def node? (d : Disk) (loc : Location) : Option Node :=
  if loc.isPrefixOf d.home then some .directory else d.nodes.lookup loc

/-- A list of located nodes with one put in place of what was at its location. -/
def putNode (loc : Location) (n : Node) : List (Location × Node) → List (Location × Node)
  | [] => [(loc, n)]
  | (l, m) :: rest => if l = loc then (l, n) :: rest else (l, m) :: putNode loc n rest

/-- The disk with a node put at a location. -/
def put (d : Disk) (loc : Location) (n : Node) : Disk := { d with nodes := putNode loc n d.nodes }

/-- The disk with nothing at a location. -/
def remove (d : Disk) (loc : Location) : Disk :=
  { d with nodes := d.nodes.filter (·.1 ≠ loc) }

theorem lookup_putNode (a b : Location) (n : Node) (l : List (Location × Node)) :
    (putNode a n l).lookup b = if b = a then some n else l.lookup b := by
  induction l with
  | nil => by_cases h : b = a <;> simp [putNode, List.lookup_cons, h, beq_false_of_ne]
  | cons p rest ih =>
    obtain ⟨c, m⟩ := p
    by_cases hc : c = a
    · subst hc
      by_cases h : b = c <;> simp [putNode, List.lookup_cons, h, beq_false_of_ne]
    · by_cases h : b = c
      · subst h; simp [putNode, hc]
      · simp [putNode, hc, List.lookup_cons, ih, beq_false_of_ne h]

/-- Only the location that is written to changes. -/
theorem node?_put (d : Disk) (a b : Location) (n : Node) :
    (d.put a n).node? b =
      if b.isPrefixOf d.home then some .directory else if b = a then some n else d.node? b := by
  simp only [node?, put, lookup_putNode]
  split <;> rfl

/-! ### Following paths -/

/-- The number of bytes that a name may have. -/
def nameLimit : Nat := 255

/-- The number of bytes that the text of a path may have. -/
def pathLimit : Nat := 4095

/-- Whether a text can be followed as a path at all. The empty path leads nowhere. -/
def acceptPath (p : Path) : Except IoFault Unit :=
  if p.text = "" then .error .notFound
  else if p.text.toList.contains '\x00' then .error .zeroInPath
  else if pathLimit < p.text.utf8ByteSize then .error .nameTooLong
  else .ok ()

/-- The location that the components lead to from a location. A component can be followed only
in a directory, and a name only if it is not too long; whether anything stands at the end is not
asked. -/
def walk (d : Disk) : Location → List Path.Component → Except IoFault Location
  | here, [] => .ok here
  | _, .root :: rest => d.walk [] rest
  | here, c :: rest =>
    match d.node? here with
    | none => .error .notFound
    | some (.file _) => .error .notADirectory
    | some .directory =>
      match c with
      | .name n =>
        if nameLimit < n.utf8ByteSize then .error .nameTooLong else d.walk (here ++ [n]) rest
      | .up => d.walk here.dropLast rest
      | _ => d.walk here rest

/-- The location that a path leads to. -/
def locate (d : Disk) (p : Path) : Except IoFault Location := do
  acceptPath p
  d.walk d.home p.components

/-- The directory in which the last component of a path would be looked up. -/
def locateAbove (d : Disk) (p : Path) : Except IoFault Location := do
  acceptPath p
  d.walk d.home (p.components.dropLast ++ [.here])

/-- What stands where a path leads. A path that demands a directory does not accept a file. -/
def find (d : Disk) (p : Path) : Except IoFault Node := do
  match d.node? (← d.locate p) with
  | none => .error .notFound
  | some .directory => .ok .directory
  | some (.file c) => if p.demandsDirectory then .error .notADirectory else .ok (.file c)

/-- Whether anything stands where a path leads. -/
def present (d : Disk) (p : Path) : Bool := (d.find p).isOk

/-- The bytes of the file that a path leads to. -/
def read (d : Disk) (p : Path) : Except IoFault Bytes := do
  match ← d.find p with
  | .directory => .error .isADirectory
  | .file c => .ok c.bytes

/-- The text of the file that a path leads to. -/
def readText (d : Disk) (p : Path) : Except IoFault String := do
  match Text.ofUtf8? (← d.read p) with
  | none => .error .notText
  | some s => .ok s

/-! ### Writing -/

/-- The disk with the file that a path leads to made or replaced. A slash at the end asks for a
directory, which a file cannot be, so the name before it is not looked up; a dot at the end is
followed first. -/
def write (d : Disk) (p : Path) (c : Content) : Except IoFault Disk := do
  if p.ending = .slash then
    let _ ← d.locateAbove p
    .error .isADirectory
  else
    let here ← d.locate p
    match d.node? here with
    | some .directory => .error .isADirectory
    | none => if p.ending = .dot then .error .notFound else .ok (d.put here (.file c))
    | some (.file _) =>
      if p.ending = .dot then .error .notADirectory else .ok (d.put here (.file c))

/-- The disk with a directory made where some components lead. -/
def makeDirectory (d : Disk) (components : List Path.Component) : Except IoFault Disk := do
  let here ← d.walk d.home components
  match d.node? here with
  | some _ => .error .alreadyExists
  | none => .ok (d.put here .directory)

/-- Whether some components lead to a directory. -/
def isDirectory (d : Disk) (components : List Path.Component) : Bool :=
  match d.walk d.home components with
  | .ok here => d.node? here = some .directory
  | .error _ => false

/-- Makes the directory that some components, innermost first, lead to. If one is missing above
it, that is made first; if the directory is there already, nothing is done. -/
def makeAll (d : Disk) : List Path.Component → Except IoFault Unit × Disk
  | [] => (.ok (), d)
  | c :: above =>
    let components := (c :: above).reverse
    let settle (d : Disk) (fault : IoFault) : Except IoFault Unit × Disk :=
      (if d.isDirectory components then .ok () else .error fault, d)
    match d.makeDirectory components with
    | .ok made => (.ok (), made)
    | .error .notFound =>
      match d.makeAll above with
      | (.error fault, made) => (.error fault, made)
      | (.ok (), made) =>
        match made.makeDirectory components with
        | .ok done => (.ok (), done)
        | .error fault => settle made fault
    | .error fault => settle d fault

/-- Makes a directory and all that are missing above it. The empty path asks for none. -/
def makeDirectories (d : Disk) (p : Path) : Except IoFault Unit × Disk :=
  if p.text = "" then (.ok (), d)
  else match acceptPath p with
    | .error fault => (.error fault, d)
    | .ok () => d.makeAll p.components.reverse

/-- Writes a file into a directory that is made if need be. A failure names the path that it is
about: the directory if that cannot be made, else the file. -/
def save (d : Disk) (p : Path) (c : Content) : Except Failure Unit × Disk :=
  match p.parent? with
  | none => finish d
  | some dir =>
    match d.makeDirectories dir with
    | (.error fault, made) => (.error (.io dir fault), made)
    | (.ok (), made) => finish made
where
  /-- Writes the file itself. -/
  finish (d : Disk) : Except Failure Unit × Disk :=
    match d.write p c with
    | .ok done => (.ok (), done)
    | .error fault => (.error (.io p fault), d)

/-! ### Listing -/

/-- The location below the home directory, as a path is written. -/
def relativeText (d : Disk) (loc : Location) : String :=
  String.intercalate "/" (loc.drop d.home.length)

/-- The ordinary files below the home directory with their relative paths, by path. -/
def files (d : Disk) : NameMap Content :=
  NameMap.ofList <| d.nodes.filterMap fun
    | (l, .file c) => if d.home.isPrefixOf l then some (d.relativeText l, c) else none
    | _ => none

/-- A disk on which the given files, and directories where there is no content, stand below the
home directory. A file that cannot be put in place is left out. -/
def ofFiles (home : Location) (files : List (String × Option Content)) : Disk :=
  files.foldl
    (fun d f =>
      match f.2 with
      | some c => (d.save ⟨f.1⟩ c).2
      | none => (d.makeDirectories ⟨f.1⟩).2)
    (blank home)

end Disk

end SimMetadata
