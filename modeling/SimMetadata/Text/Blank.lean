/-!
# Blank characters

The white space around a parameter type is insignificant. White space is what the Unicode
property `White_Space` says it is: twenty-five code points, of which six are ASCII.
-/

namespace SimMetadata.Text

/-- The code points with the property `White_Space`, as closed ranges. -/
def blankRanges : List (Nat × Nat) :=
  [(0x9, 0xD), (0x20, 0x20), (0x85, 0x85), (0xA0, 0xA0), (0x1680, 0x1680), (0x2000, 0x200A),
    (0x2028, 0x2029), (0x202F, 0x202F), (0x205F, 0x205F), (0x3000, 0x3000)]

/-- Whether a character is white space. -/
def isBlank (c : Char) : Bool := blankRanges.any fun r => r.1 ≤ c.toNat && c.toNat ≤ r.2

/-- The text without the white space at its beginning. -/
def trimStart (cs : List Char) : List Char := cs.dropWhile isBlank

/-- The text without the white space at its end. -/
def trimEnd (cs : List Char) : List Char := (trimStart cs.reverse).reverse

/-- The text without the white space at both ends. -/
def trim (cs : List Char) : List Char := trimEnd (trimStart cs)

/-- The ranges hold twenty-five code points. -/
example : (blankRanges.map fun r => r.2 + 1 - r.1).sum = 25 := by decide

/-- A text that neither begins nor ends with white space is left alone. -/
theorem trim_eq_self {cs : List Char} (hs : ∀ c ∈ cs.head?, isBlank c = false)
    (he : ∀ c ∈ cs.getLast?, isBlank c = false) : trim cs = cs := by
  have hd : ∀ l : List Char, (∀ c ∈ l.head?, isBlank c = false) → trimStart l = l := by
    intro l hl
    cases l with
    | nil => rfl
    | cons c l => exact List.dropWhile_cons_of_neg (by simp [hl c rfl])
  rw [trim, hd cs hs, trimEnd, hd cs.reverse (by simpa using he), List.reverse_reverse]

end SimMetadata.Text
