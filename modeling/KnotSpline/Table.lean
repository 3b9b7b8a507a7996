import KnotSpline.NumArray

/-! Tables as lists of rows, and their columns. -/

namespace KnotSpline.Table

variable {α : Type} [Zero α]

/-- Entries beyond the end of a row count as zero. -/
def column (rows : List (List α)) (j : Nat) : List α :=
  rows.map fun row => row.getD j 0

def columns (n : Nat) (rows : List (List α)) : List (List α) :=
  (List.range n).map (column rows)

end KnotSpline.Table
