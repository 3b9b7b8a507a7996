import KnotSpline.Polynomial
import KnotSpline.Problem

/-! The segments of a fitted curve as polynomials of their own. -/

namespace KnotSpline.Problem

variable {α : Type} [Scalar α]

def segmentPolynomial (p : Problem α) (segment : List (List α)) : Polynomial α :=
  ⟨.int p.coefficientCount, .powers p.coefficientCount [p.outputCount] segment, .real 0⟩

def segmentPolynomials (p : Problem α) (relative : Bool) :
    Except (Fault α) (List (Polynomial α)) := do
  let solution ← p.solution
  (List.zip p.times solution).mapM fun (start, segment) =>
    let f := p.segmentPolynomial segment
    if relative then f.shift (.real start) else pure f

end KnotSpline.Problem
