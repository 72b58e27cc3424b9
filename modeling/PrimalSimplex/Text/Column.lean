/-!
# Aligning text in columns

A column is as wide as its widest text. The width of a text is counted in bytes when the width of a
column is determined and in characters when a text is filled up to it; for texts of ASCII
characters, which all names and numbers made here are, the two agree.
-/

namespace PrimalSimplex.Text

/-- The largest size of some texts, in bytes. -/
def widest (texts : List String) : Nat :=
  (texts.map String.utf8ByteSize).foldl max 0

/-- Blanks that fill a text up to a width. -/
def filling (width : Nat) (text : String) : String :=
  String.ofList (List.replicate (width - text.length) ' ')

/-- Fills a text up with blanks on its left. -/
def alignRight (width : Nat) (text : String) : String := filling width text ++ text

/-- Fills a text up with blanks on its right. -/
def alignLeft (width : Nat) (text : String) : String := text ++ filling width text

/-- A rule made of one character. -/
def rule (width : Nat) (c : Char) : String := String.ofList (List.replicate width c)

end PrimalSimplex.Text
