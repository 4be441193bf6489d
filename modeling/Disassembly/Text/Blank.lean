/-!
# Blank characters

The characters of the property White_Space: twenty-five of them, of which core's
`Char.isWhitespace` knows four. `isBlank_of_isWhitespace` says that the table
covers those.
-/

namespace Disassembly

/-- The code points with the property White_Space, as inclusive ranges. -/
def blankRanges : List (Nat × Nat) :=
  [(0x9, 0xD), (0x20, 0x20), (0x85, 0x85), (0xA0, 0xA0), (0x1680, 0x1680), (0x2000, 0x200A),
   (0x2028, 0x2029), (0x202F, 0x202F), (0x205F, 0x205F), (0x3000, 0x3000)]

def isBlank (c : Char) : Bool :=
  blankRanges.any fun r => r.1 ≤ c.toNat && c.toNat ≤ r.2

/-- Every character that core takes for white space is blank. -/
theorem isBlank_of_isWhitespace (c : Char) (h : c.isWhitespace = true) : isBlank c = true := by
  simp only [Char.isWhitespace, Bool.or_eq_true, decide_eq_true_eq] at h
  rcases h with ((rfl | rfl) | rfl) | rfl <;> rfl

def dropBlanks (cs : List Char) : List Char :=
  cs.dropWhile isBlank

/-- The text without the blanks at both ends. -/
def trimBlanks (cs : List Char) : List Char :=
  (dropBlanks (dropBlanks cs).reverse).reverse

end Disassembly
