import SimMetadata.Text.Layout
import SimMetadata.Text.ScriptLiteral

/-!
# JSON

A class can be described in JSON, for tools to read. The text is laid out over several lines, two
spaces deeper at each level, and an object lists its members in the order in which they are given.
-/

namespace SimMetadata.Text

/-- A JSON value of the kinds that descriptions need. -/
inductive Json where
  | null
  | bool (b : Bool)
  | string (s : String)
  | array (items : List Json)
  | object (members : List (String × Json))

namespace Json

/-- A text, or nothing. -/
def ofOption : Option String → Json
  | none => null
  | some s => string s

/-- Spaces in front of a line at a level. -/
def indentation (level : Nat) : String := String.ofList (List.replicate (2 * level) ' ')

/-- Parts between brackets, each on a line of its own. -/
def block (level : Nat) (opening closing : String) (parts : List String) : String :=
  if parts = [] then opening ++ closing
  else opening ++ "\n" ++ joinWith ",\n" (parts.map (indentation (level + 1) ++ ·)) ++ "\n"
    ++ indentation level ++ closing

mutual

/-- The value as text, at a level. -/
def textAt (level : Nat) : Json → String
  | null => "null"
  | bool b => if b then "true" else "false"
  | string s => ScriptLiteral.quote s
  | array items => block level "[" "]" (itemTexts (level + 1) items)
  | object members => block level "\x7b" "\x7d" (memberTexts (level + 1) members)

/-- The items of an array as texts. -/
def itemTexts (level : Nat) : List Json → List String
  | [] => []
  | item :: rest => item.textAt level :: itemTexts level rest

/-- The members of an object as texts. -/
def memberTexts (level : Nat) : List (String × Json) → List String
  | [] => []
  | (name, value) :: rest =>
    (ScriptLiteral.quote name ++ ": " ++ value.textAt level) :: memberTexts level rest

end

/-- The value as text. -/
def text (j : Json) : String := j.textAt 0

end Json

end SimMetadata.Text
