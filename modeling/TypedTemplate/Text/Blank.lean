/-!
# Blank characters and trimming

A character is *blank* when it has the Unicode property `White_Space`. Texts are trimmed of blanks
at either end; scanning happens on lists of characters, so trimming does too.

* `isBlank`: the property, as ranges of code points.
* `trimStart`, `trimEnd`, `trim`: drop the blanks at the front, at the back, at both.
* `eq_append_trimStart`, `eq_trimEnd_append`: what is dropped is blank, and nothing else is.
-/

namespace TypedTemplate.Text

/-! ## Ranges of code points -/

/-- `n` lies in one of the inclusive ranges of the table. -/
def inRanges (table : List (Nat × Nat)) (n : Nat) : Bool :=
  table.any fun r => r.1 ≤ n && n ≤ r.2

/-- The code points with the property `White_Space`. -/
def blankRanges : List (Nat × Nat) :=
  [(0x0009, 0x000D), (0x0020, 0x0020), (0x0085, 0x0085), (0x00A0, 0x00A0), (0x1680, 0x1680),
    (0x2000, 0x200A), (0x2028, 0x2029), (0x202F, 0x202F), (0x205F, 0x205F), (0x3000, 0x3000)]

/-- The character is white space in the sense of Unicode. -/
def isBlank (c : Char) : Bool := inRanges blankRanges c.toNat

/-! ## Trimming -/

/-- The text without the blanks it starts with. -/
def trimStart (cs : List Char) : List Char := cs.dropWhile isBlank

/-- The text without the blanks it ends with. -/
def trimEnd (cs : List Char) : List Char := (trimStart cs.reverse).reverse

/-- The text without the blanks at either end. -/
def trim (cs : List Char) : List Char := trimEnd (trimStart cs)

/-- `trim` on strings. -/
def trimmed (s : String) : String := String.ofList (trim s.toList)

/-- Trimming at the front splits off a run of blanks. -/
theorem eq_append_trimStart (cs : List Char) :
    cs = cs.takeWhile isBlank ++ trimStart cs :=
  (List.takeWhile_append_dropWhile).symm

/-- Trimming at the back splits off a run of blanks. -/
theorem eq_trimEnd_append (cs : List Char) :
    cs = trimEnd cs ++ (cs.reverse.takeWhile isBlank).reverse := by
  have h := congrArg List.reverse (eq_append_trimStart cs.reverse)
  simpa [trimEnd] using h

/-- A trimmed text is no longer than the text. -/
theorem length_trimStart_le (cs : List Char) : (trimStart cs).length ≤ cs.length := by
  conv => rhs; rw [eq_append_trimStart cs]
  simp

end TypedTemplate.Text
