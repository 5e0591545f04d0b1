import SimMetadata.Registry
import SimMetadata.Text.Layout

/-!
# Interface headers

For every class a native header declares the structure that holds its parameters. It derives from
the structure of the parent, has a field for each parameter that the class declares itself, and
unless the class is abstract, a factory for the native object.

## Main definitions

* `Interface`: what a header declares and what it needs for that.
* `Interface.ofClass?`: the header of a registered class.
* `Interface.lines`, `Interface.text`: the header as it is written.

## Implementation notes

Includes and forward declarations are each written once, in the order of their texts; to the text of
a forward declaration belongs the end of its line.
-/

namespace SimMetadata

/-- The path of a class's header, as it is included. -/
def interfacePath (className : String) : String := "params/" ++ className ++ ".hh"

/-- The announcement of a native class. -/
structure ForwardDecl where
  «namespace» : Option String
  nativeName : String
  deriving DecidableEq, Inhabited, Repr

namespace ForwardDecl

/-- The announcement of a class. -/
def ofClass (c : ConfigClass) : ForwardDecl := ⟨c.namespace, c.nativeName⟩

/-- The line that announces the class. -/
def text (f : ForwardDecl) : String :=
  match f.namespace with
  | some ns => "namespace " ++ ns ++ " \x7b class " ++ f.nativeName ++ "; \x7d"
  | none => "class " ++ f.nativeName ++ ";"

end ForwardDecl

/-- A field of a structure. -/
structure Field where
  nativeType : String
  name : String
  deriving DecidableEq, Inhabited, Repr

/-- The line that declares the field. -/
def Field.text (f : Field) : String := "    " ++ f.nativeType ++ " " ++ f.name ++ ";"

/-- The header of a class. -/
structure Interface where
  className : String
  structName : String
  /-- The class whose structure this one derives from; only the root has none. -/
  parent : Option String
  /-- Headers other than the parent's. -/
  includes : List Include
  forwards : List ForwardDecl
  /-- The native class that the factory makes. -/
  factory : Option String
  fields : List Field
  deriving DecidableEq, Inhabited, Repr

namespace Interface

/-- The field of a parameter. A class is spelled by its native name with the namespace. -/
def fieldOf? (r : Registry) (p : Param) : Except Failure (Field × Option ForwardDecl) :=
  match p.type.objectName? with
  | none => .ok (⟨p.type.simpleNativeType, p.name⟩, none)
  | some className => do
    let target ← r.class? className
    return (⟨p.type.nativeType fun _ => target.qualifiedName, p.name⟩, some (.ofClass target))

/-- The header of a registered class. -/
def ofClass? (r : Registry) (name : String) : Except Failure Interface := do
  let c ← r.class? name
  let members ← c.params.mapM (fieldOf? r)
  let includes := c.params.flatMap (fun p => p.type.includes)
    ++ if c.parent.isNone then [Include.system "string"] else []
  let forwards := members.filterMap (·.2)
    ++ if c.isAbstract then [] else [ForwardDecl.ofClass c]
  return {
    className := c.name
    structName := c.paramsStruct
    parent := c.parent
    includes := (NameMap.ofList (includes.map fun i => (i.text, i))).values
    forwards := (NameMap.ofList (forwards.map fun f => (f.text ++ "\n", f))).values
    factory := if c.isAbstract then none else some c.qualifiedName
    fields := members.map (·.1) }

/-- The macro that guards the header against being included twice. -/
def guardMacro (i : Interface) : String := "__PARAMS__" ++ i.className ++ "__"

/-- The include directives. -/
def includeLines (i : Interface) : List String :=
  i.parent.toList.map (fun p => "#include \"" ++ interfacePath p ++ "\"")
    ++ i.includes.map fun inc => "#include " ++ inc.text

/-- Some lines and an empty one after them, unless there are none. -/
def paragraph (lines : List String) : List String := if lines = [] then [] else lines ++ [""]

/-- The lines from the name of the structure to its first member of its own. -/
def structHead (i : Interface) : List String :=
  ("struct " ++ i.structName) ::
    match i.parent with
    | some p => ["    : public " ++ p ++ "Params", "\x7b"]
    | none =>
      ["\x7b", "    virtual ~" ++ i.structName ++ "() \x7b\x7d", "", "    std::string name;"]

/-- The lines of the header. -/
def lines (i : Interface) : List String :=
  ["#ifndef " ++ i.guardMacro, "#define " ++ i.guardMacro, ""]
    ++ paragraph i.includeLines
    ++ paragraph (i.forwards.map ForwardDecl.text)
    ++ i.structHead
    ++ i.factory.toList.map (fun made => "    " ++ made ++ " *create();")
    ++ i.fields.map Field.text
    ++ ["\x7d;", "", "#endif // " ++ i.guardMacro]

/-- The header as it is written. -/
def text (i : Interface) : String := Text.unlines i.lines

end Interface

end SimMetadata
