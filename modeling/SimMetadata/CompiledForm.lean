import SimMetadata.Digest.Sha256
import SimMetadata.Disk
import SimMetadata.LittleEndian
import SimMetadata.Text.LineEnding

/-!
# The compiled form of a scripting source

A scripting source is compiled into a form that can be checked without knowing the source. The
form is a header and then the payload, which is the source with unix line endings. The header
holds, in this order,

* four bytes that mark the form,
* the version of the layout in two bytes,
* the length of the payload in eight bytes,
* the SHA-256 digest of the payload in thirty-two bytes.

## Main definitions

* `CompiledForm.ofPayload`: the form with a payload.
* `CompiledForm.payload?`: the payload of a form; it refuses bytes that are no form.
* `CompiledForm.ofSource?`: the form of a source, which has to be text.
* `CompiledForm.compileFile`: compiles a file.
-/

namespace SimMetadata.CompiledForm

/-- The bytes with which every form begins. -/
def mark : Bytes := Text.utf8 "SGPC"

/-- The version of the layout. -/
def version : Nat := 1

/-- The header in front of a payload. -/
def header (payload : Bytes) : Bytes :=
  mark ++ littleEndian 2 version ++ littleEndian 8 payload.length ++ Digest.Sha256.digest payload

/-- The form with a payload. -/
def ofPayload (payload : Bytes) : Bytes := header payload ++ payload

/-! ### Reading a form -/

/-- The first bytes, so many of them, and the rest. -/
def splitBytes? (count : Nat) (b : Bytes) : Option (Bytes × Bytes) :=
  if count ≤ b.length then some (b.take count, b.drop count) else none

/-- The payload of a form. The header is read field by field, and every field has to be right; the
length is compared as far as eight bytes can hold it. -/
def payload? (b : Bytes) : Option Bytes := do
  let (foundMark, b) ← splitBytes? 4 b
  let (foundVersion, b) ← splitBytes? 2 b
  let (foundLength, b) ← splitBytes? 8 b
  let (foundDigest, payload) ← splitBytes? 32 b
  if foundMark = mark ∧ ofLittleEndian foundVersion = version
      ∧ ofLittleEndian foundLength = payload.length % Nat.pow 256 8
      ∧ foundDigest = Digest.Sha256.digest payload then
    return payload
  else none

/-! ### Compiling -/

/-- The payload of a source that is text. -/
def payloadOfText (source : String) : Bytes :=
  Text.utf8 (String.ofList (Text.unixLines source.toList))

/-- The form of a source. A source that is not text is reported under the given path. -/
def ofSource? (reported : Path) (source : Bytes) : Except Failure Bytes :=
  match Text.ofUtf8? source with
  | none => .error (.invalidSource reported)
  | some text => .ok (ofPayload (payloadOfText text))

/-- Compiles the file at one path to another, and gives the length of the form. The directory of
the form is made if need be, but not before the source has been read and compiled. -/
def compileFile (d : Disk) (source target : Path) : Except Failure Nat × Disk :=
  match d.read source with
  | .error fault => (.error (.io source fault), d)
  | .ok bytes =>
    match ofSource? source bytes with
    | .error failure => (.error failure, d)
    | .ok form =>
      match d.save target (.plain form) with
      | (.error failure, d) => (.error failure, d)
      | (.ok (), d) => (.ok form.length, d)

end SimMetadata.CompiledForm
