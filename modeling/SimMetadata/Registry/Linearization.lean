import SimMetadata.ConfigClass
import SimMetadata.Failure
import SimMetadata.NameMap

/-!
# Parents before children

Generated code declares a class after all classes that it derives from, and once only. A
linearization lists some classes and their ancestors in such an order: for each name in turn it
climbs from the class towards the root, up to a class that is listed already, and lists what it
passed on the way from the top down.

## Main definitions

* `Linearization.climb`: the classes from one name up to one that is listed or to the root.
* `linearize`: the order of some names and all their ancestors.

## Implementation notes

A climb ends at a class that it has passed before, because it would go round for ever. It passes
each registered class at most once, so the number of registered classes bounds it: when as many
classes have been passed as are registered, a class that is found once more has been passed.
-/

namespace SimMetadata

namespace Linearization

/-- The classes passed on the way up from a name, the topmost first, put in front of those passed
before. The number says how many classes may still be passed. -/
def climb (classes : NameMap ConfigClass) (listed : List String) :
    Nat → List ConfigClass → String → Except Failure (List ConfigClass)
  | 0, passed, name =>
    if name ∈ listed then .ok passed
    else match classes.get? name with
      | none => .error (.unknownClass name)
      | some _ => .error (.inheritanceCycle name)
  | budget + 1, passed, name =>
    if name ∈ listed then .ok passed
    else match classes.get? name with
      | none => .error (.unknownClass name)
      | some c =>
        if c.name ∈ passed.map ConfigClass.name then .error (.inheritanceCycle name)
        else match c.parent with
          | none => .ok (c :: passed)
          | some parent => climb classes listed budget (c :: passed) parent

/-- The classes listed after some more names. -/
def extend (classes : NameMap ConfigClass) :
    List ConfigClass → List String → Except Failure (List ConfigClass)
  | listed, [] => .ok listed
  | listed, name :: names => do
    let chain ← climb classes (listed.map ConfigClass.name) classes.size [] name
    extend classes (listed ++ chain) names

end Linearization

/-- The named classes and all their ancestors, every class after its parent. -/
def linearize (classes : NameMap ConfigClass) (names : List String) :
    Except Failure (List ConfigClass) :=
  Linearization.extend classes [] names

end SimMetadata
