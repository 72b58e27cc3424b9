import PrimalSimplex.Names
import PrimalSimplex.Text.Column

/-!
# Tableaus as tables

A tableau is shown as a table with a header, a rule and one line per row. Each line starts with a
label, the name of the row's basic variable or that of the objective row, aligned to the left; the
values follow, with four decimals and aligned to the right.
-/

namespace PrimalSimplex

namespace Table

/-- The header of the column of labels. -/
def labelHeader : String := "Basis"

/-- The number of decimals of a value. -/
def places : Nat := 4

/-- The text of a value. A value that rounds to zero is shown without a sign. -/
def cell {F : Type} [Numeral F] (value : F) : String :=
  match (Numeral.fixed places value).toList with
  | '-' :: rest =>
    if rest.all fun c => c == '0' || c == '.' then String.ofList rest
    else Numeral.fixed places value
  | text => String.ofList text

/-- A line of texts, filled up to the widths of their columns. -/
def line (labelWidth : Nat) (widths : List Nat) (label : String) (texts : List String) : String :=
  Text.alignLeft labelWidth label ++
    String.join
      (List.zipWith (fun text width => " | " ++ Text.alignRight width text) texts widths) ++
    "\n"

/-- The rule between the header and the rows. -/
def ruleLine (labelWidth : Nat) (widths : List Nat) : String :=
  Text.rule labelWidth '-' ++ String.join (widths.map fun width => "-+-" ++ Text.rule width '-') ++
    "\n"

/-- The labels of the rows: the basic variables, then the objective row. -/
def labels (names : Names) (basis : List Nat) : List String :=
  basis.map names.column ++ [Names.objectiveName]

/-- The width of each column: that of the header or of the widest cell. -/
def columnWidths (headers : List String) (cells : List (List String)) : List Nat :=
  headers.mapIdx fun j header => Text.widest (cells.map (·.getD j "") ++ [header])

/-- Writes the rows of a tableau as a table. -/
def render {F : Type} [Numeral F] (names : Names) (rows : List (List F)) (basis : List Nat) :
    String :=
  let headers := names.headers
  let rowLabels := labels names basis
  let cells := rows.map (·.map cell)
  let labelWidth := Text.widest (rowLabels ++ [labelHeader])
  let widths := columnWidths headers cells
  line labelWidth widths labelHeader headers ++ ruleLine labelWidth widths ++
    String.join (List.zipWith (line labelWidth widths) rowLabels cells)

end Table

end PrimalSimplex
