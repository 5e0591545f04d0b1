/-!
# Line endings

A scripting source is compiled with each carriage return that stands before a line feed removed.
A carriage return anywhere else is kept.
-/

namespace SimMetadata.Text

/-- The text with every pair of carriage return and line feed turned into a line feed. -/
def unixLines : List Char → List Char
  | '\r' :: '\n' :: cs => '\n' :: unixLines cs
  | c :: cs => c :: unixLines cs
  | [] => []

@[simp] theorem unixLines_nil : unixLines [] = [] := rfl

@[simp] theorem unixLines_crlf (cs : List Char) :
    unixLines ('\r' :: '\n' :: cs) = '\n' :: unixLines cs := by rw [unixLines]

end SimMetadata.Text
