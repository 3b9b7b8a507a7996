import KnotSpline.NumArray.Text
import KnotSpline.Problem

/-! Problems as text. -/

namespace KnotSpline.Problem

variable {α : Type} [Scalar α]

def text (p : Problem α) : String :=
  "SplineProblem(" ++ (NumArray.vector p.times).text ++ ", " ++ toString p.coefficientCount ++
    ", " ++ toString p.outputCount ++ ", rows=" ++ toString p.rowIndex ++ "/" ++
    toString p.dimension ++ ", fitted=" ++ (if p.isFitted then "True" else "False") ++ ")"

end KnotSpline.Problem
