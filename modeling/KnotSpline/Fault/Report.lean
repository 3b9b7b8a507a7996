import KnotSpline.Fault
import KnotSpline.Value.Text

/-! Faults as callers see them: a class of errors, the message, and the numbers that go with it. -/

namespace KnotSpline

inductive ErrorClass
  | spline
  | invalidInput
  | lifecycle
  | underdetermined
  | overdetermined
  | notFitted
  | singular
  | badValue
  | badState
  | linearAlgebra
  deriving DecidableEq, Repr

namespace ErrorClass

def all : List ErrorClass :=
  [spline, invalidInput, lifecycle, underdetermined, overdetermined, notFitted, singular, badValue,
    badState, linearAlgebra]

def lineage : ErrorClass → List ErrorClass
  | spline => [spline]
  | invalidInput => [invalidInput, spline, badValue]
  | lifecycle => [lifecycle, spline, badState]
  | underdetermined => [underdetermined, lifecycle, spline, badState]
  | overdetermined => [overdetermined, lifecycle, spline, badState]
  | notFitted => [notFitted, lifecycle, spline, badState]
  | singular => [singular, spline, linearAlgebra, badValue]
  | badValue => [badValue]
  | badState => [badState]
  | linearAlgebra => [linearAlgebra, badValue]

def own : List ErrorClass :=
  all.filter fun c => c.lineage.contains spline

def isA (c d : ErrorClass) : Bool :=
  c.lineage.contains d

end ErrorClass

structure Report (α : Type) where
  errorClass : ErrorClass
  message : Value α
  rows : Option (Value α)
  unknowns : Option (Value α)
  rank : Option (Value α)

namespace Report

variable {α : Type} [Scalar α]

def plain (c : ErrorClass) (message : Value α) : Report α :=
  ⟨c, message, none, none, none⟩

def ofRows (c : ErrorClass) (rows unknowns lead : Value α) : Report α :=
  let message :=
    lead.display ++ ": " ++ rows.display ++ " rows for " ++ unknowns.display ++ " unknowns"
  ⟨c, .text message, some rows, some unknowns, none⟩

def ofRank (rank unknowns lead : Value α) : Report α :=
  let message :=
    lead.display ++ ": rank " ++ rank.display ++ " for " ++ unknowns.display ++ " unknowns"
  ⟨.singular, .text message, none, some unknowns, some rank⟩

def defaultLead : ErrorClass → String
  | .underdetermined => "Not enough constraints to fit the spline"
  | .overdetermined => "Too many constraints for the spline"
  | .notFitted => "Spline problem has not been fit"
  | .singular => "Constraint system is singular"
  | _ => ""

def ofArguments? (c : ErrorClass) (arguments : List (Value α)) : Option (Report α) :=
  let lead : Value α := .text (defaultLead c)
  match c, arguments with
  | .underdetermined, [rows, unknowns] => some (ofRows c rows unknowns lead)
  | .underdetermined, [rows, unknowns, lead] => some (ofRows c rows unknowns lead)
  | .overdetermined, [rows, unknowns] => some (ofRows c rows unknowns lead)
  | .overdetermined, [rows, unknowns, lead] => some (ofRows c rows unknowns lead)
  | .notFitted, [] => some (plain c lead)
  | .notFitted, [message] => some (plain c message)
  | .singular, [rank, unknowns] => some (ofRank rank unknowns lead)
  | .singular, [rank, unknowns, lead] => some (ofRank rank unknowns lead)
  | .spline, [message] => some (plain c message)
  | .invalidInput, [message] => some (plain c message)
  | .lifecycle, [message] => some (plain c message)
  | _, _ => none

end Report

namespace InvalidInput

variable {α : Type} [Scalar α]

def message : InvalidInput α → Text
  | timesNotFlat => "Times must be a one-dimensional sequence"
  | tooFewTimes => "There must be at least 2 knot times"
  | timesNotFinite => "Times must be finite"
  | timesNotIncreasing => "Times are not monotonically increasing"
  | coefficientCount => "nCoef < 1"
  | outputCount => "nDep < 0"
  | knotOutside knot knots =>
    "Knot index " ++ knot.display ++ " outside [0, " ++ toString knots ++ ")"
  | orderOutside order n =>
    "Derivative order " ++ order.display ++ " outside [0, " ++ toString n ++ ")"
  | valueShape shape outputs =>
    "Constraint value has shape " ++ shapeText shape ++ ", expected " ++ shapeText [outputs]
  | endKnot knot => "Continuity constraint requires an interior knot, got " ++ knot.display
  | orderNotNatural order =>
    "Derivative order " ++ order.display ++ " must be a non-negative integer"
  | sampleShape shape =>
    "Sample times must be one-dimensional, got shape " ++ shapeText shape
  | nanTime => "Can't locate the segment of a NaN time"
  | notASpline file => file ++ " doesn't contain a SplineProblem"

end InvalidInput

namespace Fault

variable {α : Type} [Scalar α]

def report? : Fault α → Option (Report α)
  | invalidInput cause => some (.plain .invalidInput (.text cause.message))
  | alreadyFitted =>
    some (.plain .lifecycle (.text "Can't add constraints to a spline problem that has been fit"))
  | noSystem =>
    some (.plain .lifecycle
      (.text "Spline problem was loaded without a linear system and can't be refit"))
  | underdetermined rows unknowns => Report.ofArguments? .underdetermined [.int rows, .int unknowns]
  | overdetermined rows unknowns => Report.ofArguments? .overdetermined [.int rows, .int unknowns]
  | notFitted => Report.ofArguments? .notFitted []
  | notFittedToWrite =>
    Report.ofArguments? .notFitted [.text "Can't serialize a spline problem that hasn't been fit"]
  | singular rank unknowns => Report.ofArguments? .singular [.int rank, .int unknowns]
  | _ => none

def message? : Fault α → Option Text
  | orderNotPositive => some "order <= 0"
  | coefficientsNotOrder => some "len(c) != order"
  | negativeCount => some "n < 0"
  | missingField name => some name
  | fault => fault.report?.map fun r => r.message.display

end Fault

end KnotSpline
