import KnotSpline.Proofs.Factorization
import KnotSpline.Proofs.Splines
import KnotSpline.Proofs.Checks

/-! Fitting in exact arithmetic: the outcome of a fit of a full system, and the spline that it
finds. -/

open scoped Polynomial

namespace KnotSpline.Problem

open Matrix

noncomputable def triangular (n : ℕ) (system : List (Equation ℝ)) : List (Step ℝ) :=
  Step.factor n (Table.columns n (system.map Equation.left))

noncomputable def solve (n : ℕ) (system : List (Equation ℝ)) (r : ℕ) : List ℝ :=
  Step.substitute (triangular n system)
    (Step.reflect (triangular n system) (Table.column (system.map Equation.right) r))

@[simp] lemma length_solve (n : ℕ) (system : List (Equation ℝ)) (r : ℕ) :
    (solve n system r).length = n := by
  simp [solve, triangular]

lemma reflectInRange_eq (steps : List (Step ℝ)) (b : List ℝ) :
    Step.reflectInRange steps b = Step.reflect steps b := by
  simp [Step.reflectInRange]

lemma fit_eq (p : Problem ℝ) {system : List (Equation ℝ)} (hs : p.phase.system? = some system)
    (hr : p.rowIndex = p.dimension) :
    p.fit = p.rank (triangular p.dimension system) >>= fun k =>
      if k < p.dimension then .error (.singular k p.dimension)
      else if 0 < p.outputCount ∧ ∃ s ∈ triangular p.dimension system, s.diagonal = 0 then
        .error .zeroPivot
      else .ok { p with
        phase := .fitted system (p.segmentBlocks
          ((List.range p.outputCount).map (solve p.dimension system))) } := by
  have hleft : (system.all fun e => e.left.all Scalar.isFinite) = true := by simp
  have hright : (system.all fun e => e.right.all Scalar.isFinite) = true := by simp
  have hsteps : ∀ steps : List (Step ℝ), Step.isFinite steps = true := by simp [Step.isFinite]
  have himages : ∀ images : List (List ℝ),
      (images.all fun b => b.all Scalar.isFinite) = true := by simp
  have hzero : ∀ steps : List (Step ℝ), (steps.any fun s => Scalar.isZero s.diagonal) = true ↔
      ∃ s ∈ steps, s.diagonal = 0 := by simp
  have hmap : (((Table.columns p.outputCount (system.map Equation.right)).map
      (Step.reflectInRange (triangular p.dimension system))).map
        (Step.substitute (triangular p.dimension system))) =
      (List.range p.outputCount).map (solve p.dimension system) := by
    rw [Table.columns, List.map_map, List.map_map]
    refine List.map_congr_left fun r _ => ?_
    simp only [Function.comp_apply, reflectInRange_eq, solve]
  rw [fit, hs]
  change _ = p.rank (Step.factor _ _) >>= _
  dsimp only
  simp only [hr, lt_irrefl, if_false, hleft, hright, hsteps, himages, hzero, Bool.not_true,
    Bool.false_eq_true, Bool.or_self]
  congr 1
  funext k
  split
  · rfl
  · split
    · next h0 =>
      split
      · next hz =>
        rw [if_pos ⟨h0, hz⟩]
        rfl
      · next hz =>
        rw [if_neg fun h => hz h.2, ← hmap]
        rfl
    · next h0 =>
      rw [if_neg fun h => h0 h.1, ← hmap]
      rfl

variable {p : Problem ℝ} {cs : List (Constraint ℝ)}

noncomputable def steps (p : Problem ℝ) (cs : List (Constraint ℝ)) : List (Step ℝ) :=
  triangular p.dimension (cs.flatMap p.equations)

noncomputable def fittedSpline (p : Problem ℝ) (cs : List (Constraint ℝ)) (r : ℕ) : p.Spline :=
  p.splineOf (solve p.dimension (cs.flatMap p.equations) r)

lemma length_steps (p : Problem ℝ) (cs : List (Constraint ℝ)) :
    (p.steps cs).length = p.dimension :=
  Step.length_factor _ _

lemma columnMatrix_constraints (p : Problem ℝ) (cs : List (Constraint ℝ)) :
    columnMatrix p.dimension (Table.columns p.dimension
      ((cs.flatMap p.equations).map Equation.left)) = p.constraintMatrix cs :=
  columnMatrix_columns _ _

namespace Fills

lemma squareColumns (h : p.Fills cs) : SquareColumns p.dimension
    (Table.columns p.dimension ((cs.flatMap p.equations).map Equation.left)) :=
  squareColumns_columns (by rw [List.length_map, h.length_eq])

theorem forall_holds_iff (h : p.Fills cs) (hz : ∀ s ∈ p.steps cs, s.diagonal ≠ 0) (r : ℕ)
    (f : p.Spline) : (∀ c ∈ cs, p.Holds (c.value r) f c) ↔ f = p.fittedSpline cs r := by
  have hb : (p.targets cs r).length = p.dimension := by
    rw [targets, Table.column, List.length_map, List.length_map, h.length_eq]
  have hiff := h.mulVec_eq_iff (length_unknowns f) r
  rw [splineOf_unknowns] at hiff
  rw [← hiff, ← columnMatrix_constraints, Step.mulVec_eq_iff_substitute h.squareColumns hz hb,
    fittedSpline, eq_splineOf_iff (length_solve _ _ _)]
  rfl

lemma fit_eq (h : p.Fills cs) (tolerance : Value ℝ) :
    fit { p.registering cs with rankTolerance := tolerance } =
      rank { p with rankTolerance := tolerance } (p.steps cs) >>= fun k =>
        if k < p.dimension then .error (.singular k p.dimension)
        else if 0 < p.outputCount ∧ ∃ s ∈ p.steps cs, s.diagonal = 0 then .error .zeroPivot
        else .ok { p.registering cs with
          rankTolerance := tolerance
          phase := .fitted (cs.flatMap p.equations)
            (p.coefficients fun r => p.fittedSpline cs r) } := by
  have hf := Problem.fit_eq { p.registering cs with rankTolerance := tolerance } h.system_eq
    h.rowIndex_eq
  have hb := segmentBlocks_eq (p := p) (x := solve p.dimension (cs.flatMap p.equations))
    fun r => length_solve _ _ r
  exact hb ▸ hf

end Fills

end KnotSpline.Problem

namespace KnotSpline

lemma diagonal_singleton (c : ℝ) : (Step.factor 1 [[c]]).map Step.diagonal = [c] := by
  have h0 : norm ([] : List ℝ) = 0 := by simp [norm_eq]
  simp [Step.factor, Step.ofColumns, firstLargest, firstLargest.go, Reflection.ofColumn, h0]

lemma ofColumns_line {a : ℝ} (ha : 0 < a) :
    (Step.ofColumns [[1, 0], [a, 1]]).1.diagonal = -√(a ^ 2 + 1) ∧
      (Step.ofColumns [[1, 0], [a, 1]]).2 = [[-(1 / √(a ^ 2 + 1))]] := by
  have h1 : norm [(1 : ℝ), 0] = 1 := by simp [norm_eq]
  have h1' : norm [(1 : ℝ)] = 1 := by simp [norm_eq]
  have hl : norm [a, 1] = √(a ^ 2 + 1) := by simp [norm_eq, sq]
  have hgt : 1 < √(a ^ 2 + 1) := by
    rw [Real.lt_sqrt zero_le_one]
    linarith [pow_pos ha 2]
  generalize √(a ^ 2 + 1) = l at *
  have hpos : 0 < l := zero_lt_one.trans hgt
  have hk : firstLargest [norm [(1 : ℝ), 0], norm [a, 1]] = 1 := by
    simp [firstLargest, firstLargest.go, h1, hl, hgt]
  have hc : Reflection.ofColumn [a, 1] = (⟨[1, 1 / (a + l)], (l + a) / l⟩, -l) := by
    simp only [Reflection.ofColumn, h1', hl, Reals.isZero_iff, one_ne_zero, if_false, ha.not_gt,
      List.map_cons, List.map_nil, sub_neg_eq_add, Prod.mk.injEq, Reflection.mk.injEq, true_and,
      and_true]
    rw [← neg_add', neg_div_neg_eq]
  have hr : Reflection.apply ⟨[1, 1 / (a + l)], (l + a) / l⟩ [1, 0] = [-(a / l), -(1 / l)] := by
    simp only [Reflection.apply, dot_cons, dot_nil, List.zipWith_cons_cons, List.zipWith_nil_left,
      List.cons.injEq, and_true]
    constructor
    · field_simp
      ring
    · field_simp
      ring
  simp only [Step.ofColumns, List.map_cons, List.map_nil, hk, List.getElem?_cons_succ,
    List.getElem?_cons_zero, Option.getD_some, hc, takeOut, one_ne_zero, if_false, Nat.sub_self,
    List.set_cons_zero, hr, List.tail_cons, true_and]

lemma diagonal_line {a : ℝ} (ha : 0 < a) :
    (Step.factor 2 [[1, 0], [a, 1]]).map Step.diagonal =
      [-√(a ^ 2 + 1), -(1 / √(a ^ 2 + 1))] := by
  obtain ⟨hd, hr⟩ := ofColumns_line ha
  rw [Step.factor_succ, List.map_cons, hd, hr, diagonal_singleton]

lemma Problem.flatMap_equations_line (a b y v : ℝ) :
    (lineConstraints y v).flatMap (line a b).equations = [⟨[1, a], [y]⟩, ⟨[0, 1], [v]⟩] := by
  have hv : derivativeVector 2 a 0 = [1, a] := by
    simp [derivativeVector, derivativeRow, fallingFactor, List.range_succ]
  have hs : derivativeVector 2 a 1 = [0, 1] := by
    simp [derivativeVector, derivativeRow, fallingFactor, List.range_succ]
  rw [lineConstraints, List.flatMap_cons, List.flatMap_singleton, equations_line, equations_line,
    hv, hs]
  rfl

lemma Problem.diagonal_steps_line {a : ℝ} (ha : 0 < a) (b y v : ℝ) :
    ((line a b).steps (lineConstraints y v)).map Step.diagonal =
      [-√(a ^ 2 + 1), -(1 / √(a ^ 2 + 1))] := by
  rw [steps, flatMap_equations_line]
  exact diagonal_line ha

end KnotSpline
