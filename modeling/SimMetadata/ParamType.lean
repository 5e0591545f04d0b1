import SimMetadata.NameMap
import SimMetadata.ParamType.Scalar
import SimMetadata.Text.Blank
import SimMetadata.Text.Identifier
import SimMetadata.Text.Layout

/-!
# Parameter types

A manifest writes the type of a parameter as a name, `Tick`, or as a vector of one,
`Vector<BaseCPU>`. A name is a built-in scalar, else an enumeration, else a class; a vector cannot
hold vectors. White space around the type and around the element of a vector does not count, and
the normalised name of a type leaves it out.

## Main definitions

* `ElementType`, `ParamType`: the types. That vectors are not nested is part of the type.
* `ParamType.ofText?`: the type that a text describes; it depends on which names are enumerations.
* `ParamType.name`: the normalised name.
* `ParamType.nativeType`: the native type of a field, given how class names are spelled.
* `ParamType.predecls`, `ParamType.includes`: what has to come before a use of the type.
* `ParamType.bindingDecl`: the declaration that a vector needs in a binding module.
-/

namespace SimMetadata

/-- A type that a vector can hold. -/
inductive ElementType where
  | scalar (s : Scalar)
  /-- The enumeration with a name. -/
  | enum (name : String)
  /-- References to objects of the class with a name. -/
  | object (name : String)
  deriving DecidableEq, Inhabited, Repr

/-- The type of a parameter. -/
inductive ParamType where
  | plain (e : ElementType)
  | vector (e : ElementType)
  deriving DecidableEq, Inhabited, Repr

namespace ElementType

/-- The element type that a text names: an identifier that is looked up among the scalars and then
among the enumerations, and otherwise is taken for a class. -/
def ofChars? (isEnum : String → Bool) (cs : List Char) : Option ElementType :=
  if Text.isIdentifier cs then
    let name := String.ofList cs
    match Scalar.ofName? name with
    | some s => some (scalar s)
    | none => some (if isEnum name then enum name else object name)
  else none

/-- The name in manifests. -/
def name : ElementType → String
  | scalar s => s.name
  | enum n => n
  | object n => n

/-- The enumeration that the type refers to. -/
def enumName? : ElementType → Option String
  | enum n => some n
  | _ => none

/-- The class that the type refers to. -/
def objectName? : ElementType → Option String
  | object n => some n
  | _ => none

/-- The native type, where `qualify` spells the native name of a class. -/
def nativeType (qualify : String → String) : ElementType → String
  | scalar s => s.nativeType
  | enum n => "Enums::" ++ n
  | object n => qualify n ++ " *"

/-- The lines that a binding module needs before it can use the type. -/
def predecls : ElementType → List String
  | scalar s => s.predecls
  | enum _ => []
  | object n => ["class " ++ n ++ ";"]

/-- The headers that an interface needs before it can use the type. -/
def includes : ElementType → List Include
  | scalar s => s.includes
  | enum n => [.local ("enums/" ++ n ++ ".hh")]
  | object _ => []

end ElementType

namespace ParamType

/-- The characters between the brackets, if the text is a vector of something. -/
def vectorElement? (cs : List Char) : Option (List Char) :=
  match cs with
  | 'V' :: 'e' :: 'c' :: 't' :: 'o' :: 'r' :: '<' :: rest =>
    match rest.reverse with
    | '>' :: inner => some inner.reverse
    | _ => none
  | _ => none

/-- The type that some characters describe, where `isEnum` knows the enumerations. -/
def ofChars? (isEnum : String → Bool) (cs : List Char) : Option ParamType :=
  let trimmed := Text.trim cs
  match vectorElement? trimmed with
  | some inner => (ElementType.ofChars? isEnum (Text.trim inner)).map vector
  | none => (ElementType.ofChars? isEnum trimmed).map plain

/-- The type that a text describes, where `isEnum` knows the enumerations. -/
def ofText? (isEnum : String → Bool) (text : String) : Option ParamType :=
  ofChars? isEnum text.toList

/-- What the type is made of. -/
def element : ParamType → ElementType
  | plain e => e
  | vector e => e

/-- The normalised name. -/
def name : ParamType → String
  | plain e => e.name
  | vector e => "Vector<" ++ e.name ++ ">"

/-- Whether the type needs a declaration of its own in a binding module. -/
def needsBinding : ParamType → Bool
  | plain _ => false
  | vector _ => true

/-- The enumeration that the type refers to, also as the element of a vector. -/
def enumName? (t : ParamType) : Option String := t.element.enumName?

/-- The class that the type refers to, also as the element of a vector. -/
def objectName? (t : ParamType) : Option String := t.element.objectName?

/-- The native type of a field, where `qualify` spells the native name of a class. -/
def nativeType (qualify : String → String) : ParamType → String
  | plain e => e.nativeType qualify
  | vector e => "std::vector< " ++ e.nativeType qualify ++ " >"

/-- The native type with every class spelled by its name. -/
def simpleNativeType (t : ParamType) : String := t.nativeType id

/-- The line that gives binding modules the vectors of the standard library. -/
def stdVector : String := "%include \"std_vector.i\""

/-- The lines that a binding module needs before it can use the type. -/
def predecls : ParamType → List String
  | plain e => e.predecls
  | vector e => e.predecls ++ [stdVector]

/-- The headers that an interface needs before it can use the type. -/
def includes : ParamType → List Include
  | plain e => e.includes
  | vector e => .system "vector" :: e.includes

/-- The type as a part of identifiers and file names. It keeps what is between the brackets of the
name, so that types with one native type have different tags. -/
def tag (t : ParamType) : String :=
  match vectorElement? t.name.toList with
  | some inner => "vector_" ++ String.ofList inner
  | none => t.name

@[simp] theorem tag_vector (e : ElementType) : (vector e).tag = "vector_" ++ e.name := by
  have hinner : vectorElement? (vector e).name.toList = some e.name.toList := by
    simp [name, vectorElement?]
  rw [tag, hinner]
  simp

/-- The lines that declare the type in a binding module. -/
def bindingDecl (t : ParamType) : List String :=
  if t.needsBinding then
    [stdVector, "%template(" ++ t.tag ++ ") " ++ t.simpleNativeType ++ ";"]
  else []

end ParamType

/-- A parameter of a class. -/
structure Param where
  name : String
  type : ParamType
  /-- What the parameter is for. -/
  desc : String
  /-- The default value as text. -/
  default : Option String
  deriving DecidableEq, Inhabited, Repr

end SimMetadata
