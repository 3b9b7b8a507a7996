import KnotSpline.NumArray.Text
import KnotSpline.Polynomial

/-! Polynomials as text. -/

namespace KnotSpline.Polynomial

variable {α : Type} [Scalar α]

def text (f : Polynomial α) : Text :=
  "Polynomial(" ++ f.order.display ++ ", " ++ f.coefficients.toArray.text ++ ", " ++
    f.center.display ++ ")"

end KnotSpline.Polynomial
