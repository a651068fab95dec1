/-
# White space

A character is blank when it has the Unicode property `White_Space`.  Blank characters
separate the words of a query, and a line is read without those at its two ends.
-/

namespace FlatQuery

/-- The first and the last code point of every run of white space in Unicode. -/
def blankRanges : List (Nat × Nat) :=
  [(0x09, 0x0D), (0x20, 0x20), (0x85, 0x85), (0xA0, 0xA0), (0x1680, 0x1680),
    (0x2000, 0x200A), (0x2028, 0x2029), (0x202F, 0x202F), (0x205F, 0x205F), (0x3000, 0x3000)]

/-- A character is blank when its code point lies in one of the ranges of white space. -/
def isBlank (c : Char) : Bool :=
  blankRanges.any fun range => range.1 ≤ c.toNat && c.toNat ≤ range.2

/-- A text without the blanks at its start. -/
def trimStart (cs : List Char) : List Char :=
  cs.dropWhile isBlank

/-- A text without the blanks at its end. -/
def trimEnd (cs : List Char) : List Char :=
  (cs.reverse.dropWhile isBlank).reverse

/-- A text without the blanks at its two ends. -/
def trim (cs : List Char) : List Char :=
  trimEnd (trimStart cs)

/-- Nothing is left of a text at its start exactly when it is blank throughout. -/
theorem trimStart_eq_nil_iff {cs : List Char} : trimStart cs = [] ↔ cs.all isBlank := by
  induction cs with
  | nil => simp [trimStart]
  | cons c cs ih => by_cases hc : isBlank c <;> simp_all [trimStart, List.dropWhile]

end FlatQuery
