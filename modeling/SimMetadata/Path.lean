/-!
# Paths

A path is kept as it is written, because texts and error messages show it that way; nothing is
normalised in the text. Two paths *denote* alike when their components agree: repeated slashes,
a slash at the end and `.` anywhere but at the beginning make no component.

## Main definitions

* `Path`, `Path.join`, `Path.parent?`: texts.
* `Path.components`: what a path is compared by.
* `Path.fileName?`, `Path.extension?`: read from the last component.
* `Path.ending`: whether the text insists that its last component is a directory.
-/

namespace SimMetadata

/-- A path as it is written. -/
structure Path where
  text : String
  deriving DecidableEq, Inhabited, Repr

namespace Path

/-- A step of a path. -/
inductive Component where
  /-- The slash in front of an absolute path. -/
  | root
  /-- The dot that begins a path. -/
  | here
  /-- Two dots. -/
  | up
  /-- A name. -/
  | name (n : String)
  deriving DecidableEq, Repr

namespace Component

/-- The order of the kinds of components. -/
def rank : Component → Nat
  | root => 0
  | here => 1
  | up => 2
  | name _ => 3

/-- The name, if the component is one. -/
def name? : Component → Option String
  | name n => some n
  | _ => none

/-- Components are ordered by kind and names by their characters. -/
def compare : Component → Component → Ordering
  | name m, name n => compareOfLessAndEq m n
  | c, d => compareOfLessAndEq c.rank d.rank

end Component

/-! ### Segments -/

/-- The texts between the slashes. There is always at least one. -/
def segments : List Char → List (List Char)
  | [] => [[]]
  | c :: cs =>
    if c = '/' then [] :: segments cs
    else match segments cs with
      | [] => [[c]]
      | s :: rest => (c :: s) :: rest

/-- The texts with a slash between neighbours. -/
def joinSegments : List (List Char) → List Char
  | [] => []
  | [s] => s
  | s :: t :: rest => s ++ '/' :: joinSegments (t :: rest)

theorem segments_ne_nil (cs : List Char) : segments cs ≠ [] := by
  cases cs with
  | nil => simp [segments]
  | cons c cs =>
    rw [segments]
    split
    · simp
    · split <;> simp

/-- Joining the segments gives the text back. -/
theorem joinSegments_segments (cs : List Char) : joinSegments (segments cs) = cs := by
  induction cs with
  | nil => rfl
  | cons c cs ih =>
    rw [segments]
    split
    · next h =>
      subst h
      cases hs : segments cs with
      | nil => exact absurd hs (segments_ne_nil cs)
      | cons s rest => rw [hs] at ih; simp [joinSegments, ih]
    · cases hs : segments cs with
      | nil => exact absurd hs (segments_ne_nil cs)
      | cons s rest =>
        rw [hs] at ih
        cases rest with
        | nil => simpa [joinSegments] using ih
        | cons t rest => simpa [joinSegments] using ih

/-- The component that a segment stands for when it does not begin the path. -/
def component? (s : List Char) : Option Component :=
  if s = [] ∨ s = ['.'] then none
  else if s = ['.', '.'] then some .up
  else some (.name (String.ofList s))

/-- Whether a segment that does not begin the path leaves no component. -/
def isIdle (s : List Char) : Bool := (component? s).isNone

/-- Whether the path begins with a slash. -/
def isAbsolute (p : Path) : Bool := p.text.toList.head? = some '/'

/-- The components, by which paths are compared. -/
def components (p : Path) : List Component :=
  match segments p.text.toList with
  | [] => []
  | first :: rest =>
    (if p.isAbsolute then [.root]
      else if first = ['.'] then [.here]
      else (component? first).toList) ++ rest.filterMap component?

/-- Whether two paths have the same components. -/
def denotesSame (p q : Path) : Bool := p.components = q.components

/-- Component lists in lexicographic order. -/
def compareComponents : List Component → List Component → Ordering
  | [], [] => .eq
  | [], _ :: _ => .lt
  | _ :: _, [] => .gt
  | c :: cs, d :: ds => (c.compare d).then (compareComponents cs ds)

/-! ### Operations on the text -/

/-- The path `q` seen from `p`. An absolute `q` stands alone; else a slash is put between the two
if `p` is not empty and has none at its end. -/
def join (p q : Path) : Path :=
  if q.isAbsolute then q
  else if p.text = "" ∨ p.text.toList.getLast? = some '/' then ⟨p.text ++ q.text⟩
  else ⟨p.text ++ "/" ++ q.text⟩

/-- The list without the members at its end that satisfy the test. -/
def dropEndWhile (test : List Char → Bool) (l : List (List Char)) : List (List Char) :=
  (l.reverse.dropWhile test).reverse

/-- The path without its last component. The empty path and the root have no parent. -/
def parent? (p : Path) : Option Path :=
  match segments p.text.toList with
  | [] => none
  | first :: rest =>
    match dropEndWhile isIdle rest with
    | [] => if p.isAbsolute ∨ first = [] then none else some ⟨""⟩
    | last :: others =>
      let above := dropEndWhile isIdle (last :: others).dropLast
      if p.isAbsolute ∧ above = [] then some ⟨"/"⟩
      else some ⟨String.ofList (joinSegments (first :: above))⟩

/-- The last component, if it is a name. -/
def fileName? (p : Path) : Option String := p.components.getLast? >>= Component.name?

/-- What follows the last dot of the file name. A name without a dot, or whose only dot is its
first character, has no extension; a name that ends in a dot has the empty one. -/
def extension? (p : Path) : Option String := do
  let reversed := (← p.fileName?).toList.reverse
  match reversed.dropWhile (· ≠ '.') with
  | [] | [_] => none
  | _ => some (String.ofList (reversed.takeWhile (· ≠ '.')).reverse)

/-- How the text of a path ends. -/
inductive Ending where
  /-- In a name, or the text is empty. -/
  | plain
  /-- In a name and a slash. -/
  | slash
  /-- In a segment that is a single dot, with or without a slash. -/
  | dot
  deriving DecidableEq, Repr

/-- How the text of the path ends. -/
def ending (p : Path) : Ending :=
  let reversed := (segments p.text.toList).reverse
  match reversed.dropWhile (· = []) with
  | ['.'] :: _ => .dot
  | _ => if reversed.head? = some [] ∧ p.text ≠ "" then .slash else .plain

/-- Whether the text can only stand for a directory. -/
def demandsDirectory (p : Path) : Bool := p.ending ≠ .plain

@[simp] theorem components_empty : components ⟨""⟩ = [] := by decide

/-! ### Instances -/

example : (⟨"a//b/./c/"⟩ : Path).components = [.name "a", .name "b", .name "c"] := by decide
example : (⟨"./a/../b"⟩ : Path).components = [.here, .name "a", .up, .name "b"] := by decide
example : (⟨"/./a"⟩ : Path).components = [.root, .name "a"] := by decide
example : (⟨"./a"⟩ : Path).parent? = some ⟨"."⟩ := by decide
example : (⟨"a/./b"⟩ : Path).parent? = some ⟨"a"⟩ := by decide
example : (⟨"a"⟩ : Path).parent? = some ⟨""⟩ ∧ (⟨"/a"⟩ : Path).parent? = some ⟨"/"⟩ := by decide
example : (⟨""⟩ : Path).parent? = none ∧ (⟨"//"⟩ : Path).parent? = none := by decide
example : (⟨"a/x.tar.gz/."⟩ : Path).extension? = some "gz" := by decide
example : (⟨".rc"⟩ : Path).extension? = none ∧ (⟨"..."⟩ : Path).extension? = some "" := by decide

end Path

end SimMetadata
