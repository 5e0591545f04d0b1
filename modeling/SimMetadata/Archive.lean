import SimMetadata.Digest.Crc32
import SimMetadata.LittleEndian

/-!
# Archives

The compiled scripting sources are bundled into one zip archive. What the archive *means* is a
list of named members in a fixed order; every member is deflated and carries the same time and
access mode, so equal members give equal archives.

How a member is deflated is up to whoever writes the file, and with it how many bytes the file has.
So the writer is a parameter of all that makes a bundle. `Archive.toBytes` is one writer, and the one
that is used where no other is given; it deflates each member as stored blocks.

## Main definitions

* `Archive`, `Archive.add?`: members in order; a name that is there already is refused.
* `ZipFile`, `Archive.pack`: an archive with the bytes that a writer makes of it.
* `Archive.toBytes`: a writer of zip files.
-/

namespace SimMetadata

/-- A file in an archive. -/
structure Member where
  /-- The name under which the file is found. -/
  name : String
  /-- The bytes of the file before compression. -/
  data : Bytes
  deriving DecidableEq, Inhabited, Repr

/-- A bundle of named files. -/
structure Archive where
  /-- The files, in the order in which they were added. -/
  members : List Member
  deriving DecidableEq, Inhabited, Repr

namespace Archive

/-- The compression method of every member. -/
def compression : String := "Deflated"

/-- The modification time of every member: the first day that the format can express. Year, month,
day, hour, minute and second. -/
def timestamp : List Nat := [1980, 1, 1, 0, 0, 0]

/-- The mode of every member: an ordinary file that its owner may write and all may read. -/
def mode : Nat := 0o100644

/-- The archive without members. -/
def empty : Archive := ⟨[]⟩

/-- The archive with one more member, unless the name is taken. -/
def add? (a : Archive) (m : Member) : Option Archive :=
  if m.name ∈ a.members.map Member.name then none else some ⟨a.members ++ [m]⟩

end Archive

/-- An archive as a file: what it holds, and the bytes that a writer has made of it. -/
structure ZipFile where
  archive : Archive
  bytes : Bytes
  deriving DecidableEq, Inhabited, Repr

/-- What a zip file says is what its archive says. -/
instance : Coe ZipFile Archive := ⟨ZipFile.archive⟩

namespace Archive

/-- The file that a writer makes of the archive. -/
def pack (zip : Archive → Bytes) (a : Archive) : ZipFile := ⟨a, zip a⟩

/-! ### The zip format -/

/-- The number that the format has for a compression method. -/
def methodNumber (method : String) : Nat := if method = "Deflated" then 8 else 0

/-- The number that the format has for the time of day, which it counts in units of two seconds. -/
def timeNumber : List Nat → Nat
  | [_, _, _, hour, minute, second] => (hour * 64 + minute) * 32 + second / 2
  | _ => 0

/-- The number that the format has for the date, which it counts from the year 1980 on. -/
def dateNumber : List Nat → Nat
  | year :: month :: day :: _ => ((year - 1980) * 16 + month) * 32 + day
  | _ => 0

/-- The bytes as deflate blocks that are stored as they are, each of at most 65535 bytes. The
number bounds how many blocks there are. -/
def storedBlocks : Nat → Bytes → Bytes
  | 0, _ => []
  | n + 1, b =>
    let block := b.take 65535
    let rest := b.drop 65535
    (if rest = [] then 1 else 0) :: littleEndian 2 block.length
      ++ littleEndian 2 (65535 - block.length) ++ block
      ++ (if rest = [] then [] else storedBlocks n rest)

/-- The compressed form of some bytes. -/
def deflate (b : Bytes) : Bytes := storedBlocks (b.length / 65535 + 1) b

/-- The fields that a member's own header and its directory entry share. -/
def sharedHeader (m : Member) : Bytes :=
  let name := Text.utf8 m.name
  littleEndian 2 20 ++ littleEndian 2 (if name.all (· < 0x80) then 0 else 0x800)
    ++ littleEndian 2 (methodNumber compression)
    ++ littleEndian 2 (timeNumber timestamp) ++ littleEndian 2 (dateNumber timestamp)
    ++ littleEndian 4 (Digest.Crc32.checksum m.data).toNat
    ++ littleEndian 4 (deflate m.data).length ++ littleEndian 4 m.data.length
    ++ littleEndian 2 name.length ++ littleEndian 2 0

/-- A member with its own header. -/
def localRecord (m : Member) : Bytes :=
  littleEndian 4 0x04034b50 ++ sharedHeader m ++ Text.utf8 m.name ++ deflate m.data

/-- The entry of a member in the directory, given where the member begins. -/
def directoryRecord (m : Member) (offset : Nat) : Bytes :=
  littleEndian 4 0x02014b50 ++ littleEndian 2 (3 * 256 + 20) ++ sharedHeader m
    ++ littleEndian 2 0 ++ littleEndian 2 0 ++ littleEndian 2 0 ++ littleEndian 4 (mode <<< 16)
    ++ littleEndian 4 offset ++ Text.utf8 m.name

/-- The directory of members that follow each other from an offset on. -/
def directory : Nat → List Member → Bytes
  | _, [] => []
  | offset, m :: ms =>
    directoryRecord m offset ++ directory (offset + (localRecord m).length) ms

/-- The bytes of the archive as a zip file. -/
def toBytes (a : Archive) : Bytes :=
  let records := a.members.flatMap localRecord
  let entries := directory 0 a.members
  records ++ entries ++ littleEndian 4 0x06054b50 ++ littleEndian 2 0 ++ littleEndian 2 0
    ++ littleEndian 2 a.members.length ++ littleEndian 2 a.members.length
    ++ littleEndian 4 entries.length ++ littleEndian 4 records.length ++ littleEndian 2 0

end Archive

end SimMetadata
