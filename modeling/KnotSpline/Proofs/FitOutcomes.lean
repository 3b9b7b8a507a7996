import KnotSpline.Proofs.ExactSteps
import KnotSpline.Proofs.FirstFault
import KnotSpline.Proofs.Lifecycle

/-! What comes of a fit: the fault of the first check that is not passed, or the problem with a
solution. Arithmetic is exact on finite entries; constraint values and tolerances may be infinite or
no numbers. -/

namespace KnotSpline

namespace Problem

section Exits

variable {α : Type} [Scalar α] (p : Problem α)

def factorSteps : List (Step α) :=
  Step.factor p.dimension
    (Table.columns p.dimension ((p.phase.system?.getD []).map Equation.left))

def tolerance : Except (Fault α) α :=
  match p.rankTolerance with
  | .null => .ok (p.defaultTolerance p.factorSteps)
  | v => v.toNumber

variable {p}

end Exits

end Problem

namespace Store

variable {α : Type}

end Store

namespace Problem

end Problem

end KnotSpline
