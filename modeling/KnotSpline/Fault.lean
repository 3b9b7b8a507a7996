import KnotSpline.Value

/-! The reasons for which an operation is refused. -/

namespace KnotSpline

inductive InvalidInput (α : Type) where
  | timesNotFlat
  | tooFewTimes
  | timesNotFinite
  | timesNotIncreasing
  | coefficientCount
  | outputCount
  | knotOutside (knot : Value α) (knots : Nat)
  | orderOutside (order : Value α) (coefficients : Nat)
  | valueShape (shape : List Nat) (outputs : Nat)
  | endKnot (knot : Value α)
  | orderNotNatural (order : Value α)
  | sampleShape (shape : List Nat)
  | nanTime
  | notASpline (file : Text)

inductive Fault (α : Type) where
  | invalidInput (cause : InvalidInput α)
  | alreadyFitted
  | noSystem
  | underdetermined (rows : Int) (unknowns : Nat)
  | overdetermined (rows : Int) (unknowns : Nat)
  | notFitted
  | notFittedToWrite
  | singular (rank unknowns : Nat)
  | zeroPivot
  | orderNotPositive
  | coefficientsNotOrder
  | negativeCount
  /-- A value of a kind that the operation does not take. -/
  | wrongKind
  /-- A value of the right kind with unusable content. -/
  | unusable
  | incomparable
  | outOfRange
  | noRoom
  | indexOutside
  | missingField (name : String)
  | circular
  | noSuchProblem (id : Nat)
  | noSuchFile
  | isDirectory
  | notDirectory
  | nameTooLong
  | notEncodable
  | notUtf8
  | notJson
  | notARecord
  | tooDeep

end KnotSpline
