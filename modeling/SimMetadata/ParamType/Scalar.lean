/-!
# Scalar parameter types

The parameter types that are built in. For each, this module says which native type it has and
what the generated headers and binding modules need before they can use it.
-/

namespace SimMetadata

/-- A header that a generated header includes. -/
inductive Include where
  /-- A header of the system, in angle brackets. -/
  | system (name : String)
  /-- A header of the build, in quotes. -/
  | «local» (path : String)
  deriving DecidableEq, Inhabited, Repr

/-- The operand of the include directive. -/
def Include.text : Include → String
  | system name => "<" ++ name ++ ">"
  | «local» path => "\"" ++ path ++ "\""

/-- A built-in parameter type. -/
inductive Scalar where
  | bool
  | int
  | unsigned
  | int64
  | uint64
  | float
  | string
  | tick
  | counter
  | addr
  | latency
  | frequency
  | memorySize
  | percent
  | cycles
  deriving DecidableEq, Inhabited, Repr

namespace Scalar

/-- All of them. -/
def all : List Scalar :=
  [bool, int, unsigned, int64, uint64, float, string, tick, counter, addr, latency, frequency,
    memorySize, percent, cycles]

/-- The name in manifests. -/
def name : Scalar → String
  | bool => "Bool"
  | int => "Int"
  | unsigned => "Unsigned"
  | int64 => "Int64"
  | uint64 => "UInt64"
  | float => "Float"
  | string => "String"
  | tick => "Tick"
  | counter => "Counter"
  | addr => "Addr"
  | latency => "Latency"
  | frequency => "Frequency"
  | memorySize => "MemorySize"
  | percent => "Percent"
  | cycles => "Cycles"

/-- The type with a name. -/
def ofName? (n : String) : Option Scalar := all.find? (·.name = n)

/-- The native type. -/
def nativeType : Scalar → String
  | bool => "bool"
  | int | percent => "int"
  | unsigned => "unsigned"
  | int64 => "int64_t"
  | uint64 | memorySize => "uint64_t"
  | float => "double"
  | string => "std::string"
  | tick | latency | frequency => "Tick"
  | counter => "Counter"
  | addr => "Addr"
  | cycles => "Cycles"

/-- What a scalar needs before it can be used. -/
inductive Support where
  /-- Nothing: the type is part of the language. -/
  | none
  /-- The integers of fixed width. -/
  | fixedWidth
  /-- The types of the simulator, which build on the integers of fixed width. -/
  | baseTypes
  /-- The texts of the standard library. -/
  | stdString
  deriving DecidableEq, Inhabited, Repr

/-- What the type needs before it can be used. -/
def support : Scalar → Support
  | bool | int | unsigned | float | percent => .none
  | int64 | uint64 | memorySize => .fixedWidth
  | tick | counter | addr | latency | frequency | cycles => .baseTypes
  | string => .stdString

/-- The lines that a binding module needs before it can use the type. -/
def predecls (s : Scalar) : List String :=
  match s.support with
  | .none => []
  | .fixedWidth => ["%import \"stdint.i\""]
  | .baseTypes => ["%import \"stdint.i\"", "%import \"base/types.hh\""]
  | .stdString => ["%include \"std_string.i\""]

/-- The headers that an interface needs before it can use the type. -/
def includes (s : Scalar) : List Include :=
  match s.support with
  | .none => []
  | .fixedWidth => [.system "stdint.h"]
  | .baseTypes => [.local "base/types.hh"]
  | .stdString => [.system "string"]

/-- Each type is found under its name. -/
@[simp] theorem ofName?_name (s : Scalar) : ofName? s.name = some s := by cases s <;> decide

/-- A name is that of the type found under it. -/
theorem name_of_ofName? {n : String} {s : Scalar} (h : ofName? n = some s) : s.name = n := by
  simpa using List.find?_some h

end Scalar

end SimMetadata
