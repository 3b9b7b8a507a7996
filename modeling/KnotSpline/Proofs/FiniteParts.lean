import KnotSpline.Proofs.FitOutcomes
import KnotSpline.Proofs.Fitting
import KnotSpline.Proofs.Solvability
import KnotSpline.Proofs.Tolerance

/-! Problems with finite times and with any values, finite or not. The left sides do not depend on
the values, so they are those of a problem over the reals, and so is the triangular factor that the
rank is read off. -/

namespace KnotSpline

open Extended

namespace Extended

/-- Zero stands for what is no real number. -/
def finitePart : Extended → ℝ
  | finite x => x
  | _ => 0

lemma finite_finitePart {x : Extended} (h : Scalar.isFinite x = true) :
    finite x.finitePart = x := by
  obtain ⟨a, rfl⟩ := isFinite_iff.1 h
  rfl

lemma zero_le_iff {x : Extended} :
    0 ≤ x ↔ (∃ a : ℝ, 0 ≤ a ∧ x = finite a) ∨ x = infinite false := by
  cases x with
  | finite a => simp [zero_eq]
  | infinite s => exact (show _ ↔ s = false from Iff.rfl).trans (by simp)
  | notANumber => exact iff_of_false id (by simp)

lemma fallingFactor_finite (d j : ℕ) :
    (fallingFactor d j : Extended) = finite (fallingFactor d j) := by
  induction d with
  | zero => rfl
  | succ d ih =>
    rw [fallingFactor, fallingFactor, ih]
    split <;> rfl

lemma derivativeVector_finite (n : ℕ) (t : ℝ) (d : ℕ) :
    derivativeVector n (finite t) d = (derivativeVector n t d).map finite := by
  rw [derivativeVector, derivativeVector]
  split
  · rw [List.map_replicate]
    rfl
  · rw [derivativeRow, derivativeRow, List.map_zipWith, List.zipWith_map, List.zipWith_map]
    congr 1
    funext j k
    rw [fallingFactor_finite]
    split
    · rfl
    · split <;> rfl

lemma columns_finite (n : ℕ) (rows : List (List ℝ)) :
    Table.columns n (rows.map (List.map finite)) =
      (Table.columns n rows).map (List.map finite) := by
  have hentry : ∀ (row : List ℝ) (j : ℕ), (row.map finite).getD j 0 = finite (row.getD j 0) := by
    intro row j
    rw [List.getD_eq_getElem?_getD, List.getD_eq_getElem?_getD, List.getElem?_map]
    cases row[j]? <;> rfl
  rw [Table.columns, Table.columns, List.map_map]
  refine List.map_congr_left fun j _ => ?_
  exact map_map_comm (fun row => hentry row j) rows

end Extended

namespace Step

lemma rank_finite (bound : ℝ) (steps : List (Step ℝ)) :
    rank (Extended.finite bound) (steps.map finite) = rank bound steps := by
  rw [rank, rank, List.countP_map]
  rfl

lemma rank_infinite (steps : List (Step ℝ)) : rank (infinite false) (steps.map finite) = 0 := by
  rw [rank, List.countP_map, List.countP_eq_zero]
  intro s _ h
  exact absurd (of_decide_eq_true h) id

lemma rank_le_rank_zero {bound : ℝ} (h : 0 ≤ bound) (steps : List (Step ℝ)) :
    rank bound steps ≤ rank 0 steps := by
  apply List.countP_mono_left
  intro s _ hs
  simp only [decide_eq_true_eq] at hs ⊢
  exact h.trans_lt hs

end Step

def Constraint.finitePart : Constraint Extended → Constraint ℝ
  | constant knot order target => constant knot order (target.map Extended.finitePart)
  | continuity knot order => continuity knot order

namespace Problem

noncomputable def finitePart (p : Problem Extended) : Problem ℝ where
  times := p.times.map Extended.finitePart
  coefficientCount := p.coefficientCount
  outputCount := p.outputCount
  rowIndex := 0
  phase := .building []
  rankTolerance := .null
  metadata := []

variable {p : Problem Extended}

@[simp] lemma knotCount_finitePart (p : Problem Extended) :
    p.finitePart.knotCount = p.knotCount :=
  List.length_map _

@[simp] lemma segmentCount_finitePart (p : Problem Extended) :
    p.finitePart.segmentCount = p.segmentCount := by
  rw [segmentCount, knotCount_finitePart, segmentCount]

@[simp] lemma dimension_finitePart (p : Problem Extended) :
    p.finitePart.dimension = p.dimension := by
  rw [dimension, segmentCount_finitePart, dimension]
  rfl

section Rows

variable (hfin : ∀ t ∈ p.times, Scalar.isFinite t = true)

include hfin

lemma knotRow_finitePart (knot order : ℕ) :
    p.knotRow knot order = (p.finitePart.knotRow knot order).map finite := by
  have ht : p.times.getD knot 0 = finite (p.finitePart.times.getD knot 0) := by
    rw [finitePart, List.getD_eq_getElem?_getD, List.getD_eq_getElem?_getD, List.getElem?_map]
    cases hk : p.times[knot]? with
    | none => rfl
    | some t => exact (finite_finitePart (hfin t (List.mem_of_getElem? hk))).symm
  rw [knotRow, ht, derivativeVector_finite]
  rfl

omit hfin in
lemma zeroBlock_finitePart : p.zeroBlock = p.finitePart.zeroBlock.map finite := by
  rw [zeroBlock, zeroBlock, List.map_replicate]
  rfl

lemma constantLeft_finitePart (knot order s : ℕ) :
    p.constantLeft knot order s = (p.finitePart.constantLeft knot order s).map finite := by
  rw [constantLeft, constantLeft, blocks, blocks, List.map_flatMap, segmentCount_finitePart]
  refine List.flatMap_congr fun i _ => ?_
  split
  · exact knotRow_finitePart hfin knot order
  · exact zeroBlock_finitePart

lemma continuityLeft_finitePart (knot order : ℕ) :
    p.continuityLeft knot order = (p.finitePart.continuityLeft knot order).map finite := by
  rw [continuityLeft, continuityLeft, blocks, blocks, List.map_flatMap, segmentCount_finitePart]
  refine List.flatMap_congr fun i _ => ?_
  split
  · exact knotRow_finitePart hfin knot order
  · split
    · rw [knotRow_finitePart hfin]
      exact map_map_comm (fun x => neg_finite x) _
    · exact zeroBlock_finitePart

lemma map_left_finitePart (c : Constraint Extended) : (p.equations c).map Equation.left =
    ((p.finitePart.equations c.finitePart).map Equation.left).map (List.map finite) := by
  cases c with
  | constant knot order target =>
    have hadj : p.finitePart.adjoining knot = p.adjoining knot := by
      rw [adjoining, adjoining, knotCount_finitePart]
    simp only [equations, Constraint.finitePart, hadj, List.map_map]
    exact List.map_congr_left fun s _ => constantLeft_finitePart hfin knot order s
  | continuity knot order =>
    simp only [equations, Constraint.finitePart, List.map_singleton]
    rw [continuityLeft_finitePart hfin]

lemma map_left_flatMap_finitePart (cs : List (Constraint Extended)) :
    (cs.flatMap p.equations).map Equation.left =
      (((cs.map Constraint.finitePart).flatMap p.finitePart.equations).map Equation.left).map
        (List.map finite) := by
  simp only [List.map_flatMap, List.flatMap_map, map_left_finitePart hfin]

lemma Fills.finitePart {cs : List (Constraint Extended)} (h : p.Fills cs) :
    p.finitePart.Fills (cs.map Constraint.finitePart) := by
  have hl := congrArg List.length (map_left_flatMap_finitePart hfin cs)
  simp only [List.length_map] at hl
  have hdim := h.length_eq
  rw [hl] at hdim
  refine ⟨⟨List.forall_mem_map.2 fun c hc => ?_, ?_⟩, ?_⟩
  · have hadmits := h.admits c hc
    cases c with
    | constant knot order target => exact ⟨by simpa using hadmits.1, hadmits.2⟩
    | continuity knot order => exact ⟨hadmits.1, by simpa using hadmits.2.1, hadmits.2.2⟩
  · rw [hdim, dimension_finitePart]
  · rw [hdim, dimension_finitePart]

lemma factor_finitePart (cs : List (Constraint Extended)) :
    Step.factor p.dimension
        (Table.columns p.dimension ((cs.flatMap p.equations).map Equation.left)) =
      (p.finitePart.steps (cs.map Constraint.finitePart)).map Step.finite := by
  rw [map_left_flatMap_finitePart hfin, columns_finite, Step.factor_finite, steps, triangular,
    dimension_finitePart]

lemma isFinite_of_mem_left {cs : List (Constraint Extended)} :
    ∀ e ∈ cs.flatMap p.equations, ∀ x ∈ e.left, Scalar.isFinite x = true := by
  intro e he x hx
  have hrow := List.mem_map_of_mem (f := Equation.left) he
  rw [map_left_flatMap_finitePart hfin] at hrow
  obtain ⟨row, -, hrow⟩ := List.mem_map.1 hrow
  rw [← hrow] at hx
  obtain ⟨a, -, rfl⟩ := List.mem_map.1 hx
  rfl

end Rows

section Fit

variable {α : Type} [Scalar α]

lemma fit_of_rank_lt {p : Problem α} {system : List (Equation α)}
    (hs : p.phase.system? = some system) (hr : p.rowIndex = p.dimension)
    (hfin : ∀ e ∈ system, ∀ x ∈ e.left, Scalar.isFinite x = true) {k : ℕ}
    (hk : p.rank (Step.factor p.dimension
      (Table.columns p.dimension (system.map Equation.left))) = .ok k) (hlt : k < p.dimension) :
    p.fit = .error (.singular k p.dimension) := by
  have hall : (system.all fun e => e.left.all Scalar.isFinite) = true := by
    simpa using hfin
  rw [fit, hs]
  dsimp only
  rw [if_neg hr.ge.not_gt, if_neg hr.le.not_gt, hall, hk]
  exact if_pos hlt

end Fit

def IsTolerant {α : Type} [Scalar α] (tolerance : Value α) : Prop :=
  tolerance = .null ∨ ∃ bound, tolerance.toNumber = .ok bound ∧ 0 ≤ bound

lemma IsTolerant.exists_rank (ht : IsTolerant p.rankTolerance) (steps : List (Step ℝ)) :
    ∃ k ≤ Step.rank 0 steps, p.rank (steps.map Step.finite) = .ok k := by
  rcases ht with ht | ⟨bound, hb, h0⟩
  · have hd : p.defaultTolerance (steps.map Step.finite) =
        finite (p.finitePart.defaultTolerance steps) := by
      rw [defaultTolerance, defaultTolerance, dimension_finitePart]
      cases steps <;> rfl
    rw [rank_of_null ht, hd, Step.rank_finite]
    exact ⟨_, Step.rank_le_rank_zero (defaultTolerance_nonneg _ _) steps, rfl⟩
  · rw [rank_of_toNumber hb]
    rcases zero_le_iff.1 h0 with ⟨a, ha, rfl⟩ | rfl
    · rw [Step.rank_finite]
      exact ⟨_, Step.rank_le_rank_zero ha steps, rfl⟩
    · rw [Step.rank_infinite]
      exact ⟨0, Nat.zero_le _, rfl⟩

end Problem

end KnotSpline
