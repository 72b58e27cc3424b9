import PrimalSimplex.Text.Ranges

/-!
# White space, trimming and lines

White space is Unicode's property of that name: it includes the no-break space and the ideographic
space, and it excludes the zero width space and the byte order mark. A line ends at a line feed; one
carriage return before it belongs to the line break, any other is an ordinary blank.
-/

namespace PrimalSimplex.Text

/-- The white space characters. -/
def blankRanges : Ranges := [
  (0x9, 0xd), (0x20, 0x20), (0x85, 0x85), (0xa0, 0xa0), (0x1680, 0x1680), (0x2000, 0x200a),
  (0x2028, 0x2029), (0x202f, 0x202f), (0x205f, 0x205f), (0x3000, 0x3000)]

/-- Whether a character is white space. -/
def isBlank (c : Char) : Bool := blankRanges.contains c

/-- Removes the white space in front of a text. -/
def trimStart (cs : List Char) : List Char := cs.dropWhile isBlank

/-- Removes the white space after a text. -/
def trimEnd (cs : List Char) : List Char := (cs.reverse.dropWhile isBlank).reverse

/-- Removes the white space around a text. -/
def trim (cs : List Char) : List Char := trimEnd (trimStart cs)

/-- Removes one carriage return from the end of a line. -/
def dropReturn (line : List Char) : List Char :=
  if line.getLast? = some '\r' then line.dropLast else line

/-- Splits a text at every occurrence of a separator; there is always at least one part. -/
def splitAll (separator : Char) : List Char → List (List Char)
  | [] => [[]]
  | c :: rest =>
    if c = separator then [] :: splitAll separator rest
    else match splitAll separator rest with
      | [] => [[c]]
      | part :: parts => (c :: part) :: parts

/-- There is always a part. -/
theorem splitAll_ne_nil (separator : Char) (cs : List Char) : splitAll separator cs ≠ [] := by
  cases cs with
  | nil => simp [splitAll]
  | cons c rest =>
    unfold splitAll
    split
    · simp
    · split <;> simp

/-- The lines of a text. A line feed ends a line, so a text that ends with one has no empty line
after it. Only a line that was ended loses its carriage return. -/
def lines (cs : List Char) : List (List Char) :=
  let parts := splitAll '\n' cs
  let last := parts.getLastD []
  parts.dropLast.map dropReturn ++ (if last.isEmpty then [] else [last])

end PrimalSimplex.Text
