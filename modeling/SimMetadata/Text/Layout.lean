/-!
# Laying out text

Generated files are lists of lines, each ended by a line feed; reports pad their columns with
spaces. A width counts characters, that is, Unicode scalar values.
-/

namespace SimMetadata.Text

/-- The lines, each ended by a line feed. -/
def unlines (lines : List String) : String := String.join (lines.map (· ++ "\n"))

/-- The texts with a separator between neighbours. -/
def joinWith (separator : String) : List String → String
  | [] => ""
  | [s] => s
  | s :: t :: rest => s ++ separator ++ joinWith separator (t :: rest)

/-- The text with spaces added on the right up to a width. A longer text is not cut. -/
def padRight (width : Nat) (s : String) : String :=
  s ++ String.ofList (List.replicate (width - s.length) ' ')

/-- The text with a character added on the left up to a width. A longer text is not cut. -/
def padLeft (fill : Char) (width : Nat) (s : String) : String :=
  String.ofList (List.replicate (width - s.length) fill) ++ s

end SimMetadata.Text
