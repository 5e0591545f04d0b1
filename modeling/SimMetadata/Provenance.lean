import SimMetadata.Disk
import SimMetadata.Text.Layout
import SimMetadata.Text.NativeLiteral

/-!
# Provenance

A build is stamped with the revision of its source tree and the date of that revision. The stamp
never makes a build fail: a tree that is under no version control, or about which nothing can be
found out, has an unknown revision of an unknown date.

## Main definitions

* `Provenance`, `Provenance.text`: the stamp and the native source that holds it.
* `Provenance.probe`: the stamp of a tree.
-/

namespace SimMetadata

/-- The revision and date of a source tree. -/
structure Provenance where
  revision : String
  date : String
  deriving DecidableEq, Inhabited, Repr

namespace Provenance

/-- The stamp of a tree about which nothing is known. -/
def unknown : Provenance := ⟨"Unknown", "Unknown"⟩

/-- What version control says about a tree, if it says anything. -/
abbrev Lookup := Path → Option Provenance

/-- The stamp of a tree. Version control is asked only if the tree has its directory. -/
def probe (lookup : Lookup) (d : Disk) (dir : Path) : Provenance :=
  if d.present (dir.join ⟨".git"⟩) then (lookup dir).getD unknown else unknown

/-- The native source that holds the stamp. -/
def text (p : Provenance) : String :=
  Text.unlines
    ["const char *scmRev = " ++ Text.NativeLiteral.quote p.revision ++ ";",
      "const char *scmDate = " ++ Text.NativeLiteral.quote p.date ++ ";"]

end Provenance

end SimMetadata
