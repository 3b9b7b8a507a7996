import KnotSpline.Problem.Record
import KnotSpline.Proofs.Arrays
import KnotSpline.Proofs.Registration

/-! The smallest problem whose system has more than one row: a straight line over one segment, given
by its value and its slope at the first knot. -/

namespace KnotSpline.Problem

noncomputable def line (a b : ℝ) : Problem ℝ where
  times := [a, b]
  coefficientCount := 2
  outputCount := 1
  rowIndex := 0
  phase := .building (emptySystem 2 1)
  rankTolerance := .null
  metadata := []

lemma create_line {a b : ℝ} (h : a < b) :
    create (.list [.real a, .real b]) (.int 2) (.int 1) (.record []) = .ok (line a b) := by
  have hk : knotTimes (.list [.real a, .real b]) = .ok [a, b] := by
    have harray : (Value.list [.real a, .real b]).toArray = .ok (.vector [a, b]) :=
      Value.toArray_reals [a, b]
    simp [knotTimes, harray, NumArray.vector, differences, h, bind, Except.bind, pure, Except.pure]
  have hc : count 1 .coefficientCount (.int 2 : Value ℝ) = .ok 2 :=
    (count_eq_ok_iff (by omega)).2 ⟨rfl, by omega⟩
  have ho : count 0 .outputCount (.int 1 : Value ℝ) = .ok 1 :=
    (count_eq_ok_iff (by omega)).2 ⟨rfl, by omega⟩
  have hx : checkExtents 2 (([a, b].length - 1) * 2) 1 = (.ok () : Except (Fault ℝ) Unit) := rfl
  simp only [create, hk, hc, ho, hx, bind, Except.bind]
  rfl

def lineRequests (y v : ℝ) : List (Request ℝ) :=
  [.constant (.int 0) (.int 0) (.real y), .continuity (.int 0) (.int 0),
    .constant (.int 0) (.int 1) (.real v)]

def lineConstraints (y v : ℝ) : List (Constraint ℝ) :=
  [.constant 0 0 [y], .constant 0 1 [v]]

lemma equations_line {a b : ℝ} (d : ℕ) (y : ℝ) : (line a b).equations (.constant 0 d [y]) =
    [⟨derivativeVector 2 a d, [y]⟩] := by
  simp [equations, adjoining, line, knotCount, constantLeft, blocks, segmentCount, knotRow]

lemma resolve_line {p : Problem ℝ} {a b : ℝ} {d : ℕ} (hb : p.isFitted = false)
    (ht : p.times = [a, b]) (hn : p.coefficientCount = 2) (hm : p.outputCount = 1)
    (hr : p.rowIndex < 2) (hd : d < 2) (y : ℝ) :
    p.resolve (.constant (.int 0) (.int d) (.real y)) = .ok (.constant 0 d [y]) := by
  have harray : (Value.real y).toArray = .ok (.scalar y) := rfl
  simp [resolve, checkBuilding, hb, checkKnot, checkOrder, checkRows, checkSelection, adjoining,
    Value.int?, knotCount, ht, hn, hm, dimension, segmentCount, harray, NumArray.scalar,
    NumArray.atLeastVector, bind, Except.bind, pure, Except.pure, Nat.le_of_lt_succ hd, not_le.2 hr]

lemma accepted_line (a b y v : ℝ) :
    (line a b).accepted (lineRequests y v) = lineConstraints y v := by
  have hr1 : ((line a b).registering []).resolve (.constant (.int 0) (.int 0) (.real y)) =
      .ok (.constant 0 0 [y]) :=
    resolve_line rfl rfl rfl rfl (show (0 : ℤ) < 2 by decide) (by decide) y
  obtain ⟨h1, hs1⟩ := (Fresh.registrable_nil (line a b)).step hr1
  rw [List.nil_append] at h1 hs1
  have hc : ((line a b).registering [.constant 0 0 [y]]).resolve
      (.continuity (.int 0) (.int 0)) = .error (.invalidInput (.endKnot (.int 0))) := rfl
  have hl : ((line a b).registering [.constant 0 0 [y]]).rowIndex = 1 := by
    rw [registering, List.flatMap_singleton, equations_line]
    rfl
  have hr2 : ((line a b).registering [.constant 0 0 [y]]).resolve
      (.constant (.int 0) (.int 1) (.real v)) = .ok (.constant 0 1 [v]) :=
    resolve_line rfl rfl rfl rfl (by rw [hl]; decide) (by decide) v
  obtain ⟨-, hs2⟩ := h1.step hr2
  change ((line a b).registering []).accepted _ = _
  rw [lineRequests, accepted, hr1, hs1]
  dsimp only
  rw [accepted, hc, accepted, hr2, hs2]
  rfl

lemma fills_line (a b y v : ℝ) : (line a b).Fills (lineConstraints y v) where
  toRegistrable := by
    have hr := ((Fresh.registrable_nil (line a b)).run (lineRequests y v)).1
    have hn : (line a b).registering [] = line a b := rfl
    rwa [hn, List.nil_append, accepted_line] at hr
  length_eq := by
    rw [lineConstraints, List.flatMap_cons, List.flatMap_singleton, equations_line,
      equations_line]
    rfl

lemma attemptAll_line {a b : ℝ} (h : a < b) (y v : ℝ) :
    (line a b).attemptAll (lineRequests y v) = (line a b).registering (lineConstraints y v) := by
  rw [(create_spec (create_line h)).attemptAll_eq, accepted_line]

lemma rowIndex_attemptAll_line {a b : ℝ} (h : a < b) (y v : ℝ) :
    ((line a b).attemptAll (lineRequests y v)).rowIndex = (line a b).dimension := by
  rw [attemptAll_line h]
  exact (fills_line a b y v).rowIndex_eq

def lineRecord {α : Type} (a b y v : α) : Record α :=
  [(.text "times", .list [.real a, .real b]), (.text "nCoef", .int 2), (.text "nDep", .int 1),
    (.text "solution", .list [.list [.list [.real y, .real v]]])]

lemma ofRecord_line {a b : ℝ} (h : a < b) (y v : ℝ) : ofRecord (lineRecord a b y v) =
    .ok { line a b with rowIndex := 2, phase := .loaded [[[y, v]]] } := by
  have ho : openRecord (lineRecord a b y v) = .ok (line a b) := create_line h
  rw [ofRecord, ho]
  rfl

end KnotSpline.Problem
