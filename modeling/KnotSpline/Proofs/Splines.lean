import KnotSpline.Problem.Fit
import KnotSpline.Proofs.System
import KnotSpline.Proofs.Triangular

/-! Splines over the knots of a problem, what constraints demand of them, and the matrix equation
that says the same of their coefficients. -/

open Polynomial (derivative degreeLT)
open scoped Polynomial

namespace KnotSpline

open Matrix

lemma toPolynomial_mem_degreeLT (n : ℕ) (cs : List ℝ) : toPolynomial n cs ∈ degreeLT ℝ n :=
  Polynomial.mem_degreeLT.2 (Polynomial.ofFn_degree_lt _)

lemma coeff_toPolynomial {n : ℕ} (cs : List ℝ) (j : Fin n) :
    (toPolynomial n cs).coeff j = vec n cs j :=
  Polynomial.ofFn_coeff_eq_val_of_lt _ j.isLt

def coefficientList {n : ℕ} (f : degreeLT ℝ n) : List ℝ :=
  List.ofFn fun j : Fin n => (f : ℝ[X]).coeff j

@[simp] lemma length_coefficientList {n : ℕ} (f : degreeLT ℝ n) : (coefficientList f).length = n :=
  List.length_ofFn

lemma toPolynomial_coefficientList {n : ℕ} (f : degreeLT ℝ n) :
    toPolynomial n (coefficientList f) = f := by
  rw [toPolynomial, coefficientList, vec_ofFn]
  ext i
  rcases lt_or_ge i n with hi | hi
  · exact Polynomial.ofFn_coeff_eq_val_of_lt _ hi
  · rw [Polynomial.ofFn_coeff_eq_zero_of_ge _ hi, Polynomial.coeff_eq_zero_of_degree_lt]
    exact (Polynomial.mem_degreeLT.1 f.2).trans_le (by exact_mod_cast hi)

lemma coefficientList_toPolynomial {n : ℕ} {cs : List ℝ} (h : cs.length = n) :
    coefficientList ⟨toPolynomial n cs, toPolynomial_mem_degreeLT n cs⟩ = cs := by
  refine eq_of_vec_eq (length_coefficientList _) h ?_
  rw [coefficientList, vec_ofFn]
  funext j
  exact coeff_toPolynomial cs j

def Constraint.value (r : ℕ) : Constraint ℝ → ℝ
  | .constant _ _ target => target.getD r 0
  | .continuity _ _ => 0

namespace Problem

/-- For one output a polynomial for each segment, of as many coefficients as a segment has. -/
abbrev Spline (p : Problem ℝ) := Fin p.segmentCount → degreeLT ℝ p.coefficientCount

variable (p : Problem ℝ)

/-- What a constraint demands of a spline; `y` is the value if one is set. -/
def Holds (y : ℝ) (f : p.Spline) : Constraint ℝ → Prop
  | .constant knot order _ => ∀ s : Fin p.segmentCount, (s : ℕ) + 1 = knot ∨ (s : ℕ) = knot →
      (derivative^[order] (f s : ℝ[X])).eval (p.times.getD knot 0) = y
  | .continuity knot order => ∀ s s' : Fin p.segmentCount, (s : ℕ) + 1 = knot → (s' : ℕ) = knot →
      (derivative^[order] (f s : ℝ[X])).eval (p.times.getD knot 0) =
        (derivative^[order] (f s' : ℝ[X])).eval (p.times.getD knot 0)

noncomputable def splineOf (x : List ℝ) : p.Spline := fun s =>
  ⟨toPolynomial p.coefficientCount ((x.drop (s * p.coefficientCount)).take p.coefficientCount),
    toPolynomial_mem_degreeLT _ _⟩

def unknowns (f : p.Spline) : List ℝ :=
  blocks p.segmentCount fun s =>
    if h : s < p.segmentCount then coefficientList (f ⟨s, h⟩) else []

variable {p}

lemma splineOf_apply (x : List ℝ) (s : Fin p.segmentCount) : (p.splineOf x s : ℝ[X]) =
    toPolynomial p.coefficientCount
      ((x.drop (s * p.coefficientCount)).take p.coefficientCount) := rfl

lemma length_block_unknowns (f : p.Spline) {s : ℕ} (hs : s < p.segmentCount) :
    (if h : s < p.segmentCount then coefficientList (f ⟨s, h⟩) else []).length =
      p.coefficientCount := by
  rw [dif_pos hs, length_coefficientList]

lemma length_unknowns (f : p.Spline) : (p.unknowns f).length = p.dimension :=
  length_blocks fun _ => length_block_unknowns f

lemma splineOf_unknowns (f : p.Spline) : p.splineOf (p.unknowns f) = f := by
  funext s
  apply Subtype.ext
  rw [splineOf_apply, unknowns, take_drop_blocks (fun _ => length_block_unknowns f) s.isLt,
    dif_pos s.isLt]
  exact toPolynomial_coefficientList (f s)

lemma unknowns_splineOf {x : List ℝ} (hx : x.length = p.dimension) :
    p.unknowns (p.splineOf x) = x := by
  have hb := blocks_take_drop hx
  refine Eq.trans (blocks_congr fun s hs => ?_) hb
  rw [dif_pos hs]
  exact coefficientList_toPolynomial (length_take_drop hx hs)

lemma eq_splineOf_iff {x : List ℝ} (hx : x.length = p.dimension) (f : p.Spline) :
    f = p.splineOf x ↔ vec p.dimension (p.unknowns f) = vec p.dimension x := by
  constructor
  · rintro rfl
    rw [unknowns_splineOf hx]
  · intro h
    rw [← eq_of_vec_eq (length_unknowns f) hx h, splineOf_unknowns]

def coefficients (f : Fin p.outputCount → p.Spline) : Solution ℝ :=
  List.ofFn fun s => List.ofFn fun r => coefficientList (f r s)

lemma segmentBlocks_eq {x : ℕ → List ℝ} (hx : ∀ r, (x r).length = p.dimension) :
    p.segmentBlocks ((List.range p.outputCount).map x) =
      p.coefficients fun r => p.splineOf (x r) := by
  rw [segmentBlocks, coefficients, List.ofFn_eq_map,
    ← List.map_coe_finRange_eq_range (n := p.segmentCount), List.map_map]
  refine List.map_congr_left fun s _ => ?_
  rw [Function.comp_apply, List.ofFn_eq_map, ← List.map_coe_finRange_eq_range, List.map_map,
    List.map_map]
  refine List.map_congr_left fun r _ => ?_
  exact (coefficientList_toPolynomial (length_take_drop (hx r) s.isLt)).symm

lemma forall_dot_equations_iff {x : List ℝ} (hx : x.length = p.dimension) {c : Constraint ℝ}
    (hc : p.Admits c) (r : ℕ) :
    (∀ e ∈ p.equations c, dot e.left x = e.right.getD r 0) ↔
      p.Holds (c.value r) (p.splineOf x) c := by
  have hl : ∀ s < p.segmentCount, ((x.drop (s * p.coefficientCount)).take
      p.coefficientCount).length = p.coefficientCount := fun s hs => length_take_drop hx hs
  have hb := blocks_take_drop hx
  cases c with
  | constant knot order target =>
    simp only [equations, List.forall_mem_map, Holds, Constraint.value]
    constructor
    · intro h s hs
      have hd := h s ((mem_adjoining hc.1).2 ⟨s.isLt, hs⟩)
      rwa [← hb, dot_constantLeft hl knot order s.isLt] at hd
    · intro h s hs
      obtain ⟨hlt, hs⟩ := (mem_adjoining hc.1).1 hs
      rw [← hb, dot_constantLeft hl knot order hlt]
      exact h ⟨s, hlt⟩ hs
  | continuity knot order =>
    obtain ⟨h0, hk, -⟩ := hc
    have hlt := lt_segmentCount hk
    have hz : (List.replicate p.outputCount (0 : ℝ)).getD r 0 = 0 := by simp
    simp only [equations, List.forall_mem_singleton, Holds, hz]
    rw [← hb, dot_continuityLeft hl order h0 hlt, sub_eq_zero, hb]
    constructor
    · intro h s s' hs hs'
      rw [splineOf_apply, splineOf_apply, hs', Nat.eq_sub_of_add_eq hs]
      exact h
    · intro h
      exact h ⟨knot - 1, by omega⟩ ⟨knot, hlt⟩ (Nat.sub_add_cancel h0) rfl

end Problem

def rowMatrix (n : ℕ) (rows : List (List ℝ)) : Matrix (Fin n) (Fin n) ℝ :=
  of fun i j => vec n (rows.getD i []) j

lemma columnMatrix_columns (n : ℕ) (rows : List (List ℝ)) :
    columnMatrix n (Table.columns n rows) = rowMatrix n rows := by
  ext i j
  simp only [columnMatrix, rowMatrix, Table.columns, Table.column, vec, of_apply,
    List.getD_eq_getElem?_getD, List.getElem?_map, List.getElem?_range j.isLt, Option.map_some,
    Option.getD_some]
  cases rows[(i : ℕ)]? <;> simp

lemma squareColumns_columns {n : ℕ} {rows : List (List ℝ)} (h : rows.length = n) :
    SquareColumns n (Table.columns n rows) where
  length_eq := by simp [Table.columns]
  length_column := by
    intro c hc
    obtain ⟨j, -, rfl⟩ := List.mem_map.1 hc
    rw [Table.column, List.length_map, h]

lemma rowMatrix_mulVec_eq_iff {n : ℕ} {system : List (Equation ℝ)} (hn : system.length = n)
    (hl : ∀ e ∈ system, e.left.length = n) {x : List ℝ} (hx : x.length = n) (r : ℕ) :
    rowMatrix n (system.map Equation.left) *ᵥ vec n x =
        vec n (Table.column (system.map Equation.right) r) ↔
      ∀ e ∈ system, dot e.left x = e.right.getD r 0 := by
  have hrow : ∀ i (hi : i < system.length), (rowMatrix n (system.map Equation.left) *ᵥ vec n x)
      ⟨i, hn ▸ hi⟩ = dot system[i].left x ∧ vec n (Table.column (system.map Equation.right) r)
      ⟨i, hn ▸ hi⟩ = system[i].right.getD r 0 := by
    intro i hi
    refine ⟨?_, by simp [vec, Table.column, hi]⟩
    rw [dot_eq (hl _ (List.getElem_mem hi)) hx]
    simp [mulVec, rowMatrix, dotProduct, hi]
  rw [List.forall_mem_iff_forall_getElem, funext_iff]
  constructor
  · intro h i hi
    rw [← (hrow i hi).1, ← (hrow i hi).2]
    exact h _
  · intro h i
    have hi : (i : ℕ) < system.length := hn ▸ i.isLt
    rw [(hrow i hi).1, (hrow i hi).2]
    exact h i hi

namespace Problem

variable {p : Problem ℝ}

lemma length_left {c : Constraint ℝ} {e : Equation ℝ} (h : e ∈ p.equations c) :
    e.left.length = p.dimension := by
  cases c with
  | constant knot order target =>
    obtain ⟨s, -, rfl⟩ := List.mem_map.1 h
    refine length_blocks fun i _ => ?_
    split <;> simp
  | continuity knot order =>
    obtain rfl := List.mem_singleton.1 h
    refine length_blocks fun i _ => ?_
    split
    · simp
    · split <;> simp

noncomputable def constraintMatrix (p : Problem ℝ) (cs : List (Constraint ℝ)) :
    Matrix (Fin p.dimension) (Fin p.dimension) ℝ :=
  rowMatrix p.dimension ((cs.flatMap p.equations).map Equation.left)

noncomputable def targets (p : Problem ℝ) (cs : List (Constraint ℝ)) (r : ℕ) : List ℝ :=
  Table.column ((cs.flatMap p.equations).map Equation.right) r

theorem Fills.mulVec_eq_iff {cs : List (Constraint ℝ)} (h : p.Fills cs) {x : List ℝ}
    (hx : x.length = p.dimension) (r : ℕ) :
    p.constraintMatrix cs *ᵥ vec p.dimension x = vec p.dimension (p.targets cs r) ↔
      ∀ c ∈ cs, p.Holds (c.value r) (p.splineOf x) c := by
  rw [constraintMatrix, targets, rowMatrix_mulVec_eq_iff h.length_eq _ hx]
  · simp only [List.forall_mem_flatMap]
    exact forall₂_congr fun c hc => forall_dot_equations_iff hx (h.admits c hc) r
  · intro e he
    obtain ⟨c, -, he⟩ := List.mem_flatMap.1 he
    exact length_left he

end Problem

end KnotSpline
