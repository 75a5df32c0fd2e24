/-!
# Blank characters

A property of characters is given by the runs of code points that have it, each as its first and
its last, in order; `Ranges.contains` looks a character up. `isBlank` is the `White_Space` property
of Unicode. `trim` drops the blank characters at both ends of a text and `trimEnd` those at its
end; both work on the list of characters.
-/

namespace SchemaPlan.Text

/-- First and last code point of each run of characters that have a property. -/
abbrev Ranges := List (Nat × Nat)

/-- Whether a character is in one of the runs. -/
def Ranges.contains (ranges : Ranges) (c : Char) : Bool :=
  ranges.any fun r => r.1 ≤ c.toNat && c.toNat ≤ r.2

/-- The code points with the property `White_Space`. -/
def blankRanges : Ranges :=
  [(0x09, 0x0D), (0x20, 0x20), (0x85, 0x85), (0xA0, 0xA0), (0x1680, 0x1680), (0x2000, 0x200A),
    (0x2028, 0x2029), (0x202F, 0x202F), (0x205F, 0x205F), (0x3000, 0x3000)]

/-- Whether a character is white space. -/
def isBlank (c : Char) : Bool :=
  blankRanges.contains c

/-- Whether a character is a control character, general category `Cc`. -/
def isControl (c : Char) : Bool :=
  c.toNat < 0x20 || (0x7F ≤ c.toNat && c.toNat ≤ 0x9F)

/-- The list without the longest final run of elements that satisfy `p`. -/
def dropEndWhile {α : Type} (p : α → Bool) (l : List α) : List α :=
  (l.reverse.dropWhile p).reverse

/-- The list without the longest runs at its two ends whose elements satisfy `p`. -/
def dropEnds {α : Type} (p : α → Bool) (l : List α) : List α :=
  dropEndWhile p (l.dropWhile p)

/-- The text without the blank characters at its two ends. -/
def trim (s : String) : String :=
  .ofList (dropEnds isBlank s.toList)

/-- The text without the blank characters at its end. -/
def trimEnd (s : String) : String :=
  .ofList (dropEndWhile isBlank s.toList)

end SchemaPlan.Text
