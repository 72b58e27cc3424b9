/-!
# Looking for a text in another

Two questions on lists of characters: does one occur in the other, and what follows it if the other
starts with it.
-/

namespace PrimalSimplex.Text

/-- Whether a text occurs somewhere in another. -/
def occursIn (needle : List Char) : List Char → Bool
  | [] => needle.isEmpty
  | c :: rest => needle.isPrefixOf (c :: rest) || occursIn needle rest

/-- Removes one occurrence of a character from the front of a text, if it is there. -/
def dropLeading (c : Char) : List Char → List Char
  | [] => []
  | d :: rest => if d = c then rest else d :: rest

end PrimalSimplex.Text
