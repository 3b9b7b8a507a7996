import KnotSpline.Double
import KnotSpline.Fault.Report
import KnotSpline.Polynomial.Text
import KnotSpline.Problem.Curve
import KnotSpline.Problem.Segments
import KnotSpline.Problem.Text
import KnotSpline.Proofs.CompleteSplines
import KnotSpline.Proofs.ConstraintOrder
import KnotSpline.Proofs.Deficiency
import KnotSpline.Proofs.FiniteParts
import KnotSpline.Proofs.FailedSaves
import KnotSpline.Proofs.Segments
import KnotSpline.Proofs.Smoothness
import KnotSpline.Proofs.TimeAxis
import KnotSpline.Store.File
import KnotSpline.Proofs.WrittenOnce
import KnotSpline.Proofs.Evaluation
import KnotSpline.Proofs.Sampling
import KnotSpline.Proofs.Insertion
import KnotSpline.Proofs.KnotInsertion
import KnotSpline.Proofs.OwningSegment
import KnotSpline.Proofs.ConstraintCalls
import KnotSpline.Proofs.FitOutcomes
import KnotSpline.Proofs.IndependentOutputs
import KnotSpline.Proofs.HermiteData
import KnotSpline.Proofs.Superposition
import KnotSpline.Proofs.SizedPolynomials
import KnotSpline.Proofs.Differentiation
import KnotSpline.Proofs.Recentering
import KnotSpline.Proofs.NestedSaves
