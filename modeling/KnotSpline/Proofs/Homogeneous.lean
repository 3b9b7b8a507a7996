import KnotSpline.Proofs.Solvability

/-! The splines that meet all constraints with zero values, as a linear space. Its dimension and the
rank of the rows add up to the number of unknowns. -/

open Polynomial (derivative degreeLT)
open scoped Polynomial

namespace KnotSpline.Problem

open Matrix

variable {p : Problem ℝ} {cs : List (Constraint ℝ)}

lemma Holds.add {y z : ℝ} {f g : p.Spline} {c : Constraint ℝ} (hf : p.Holds y f c)
    (hg : p.Holds z g c) : p.Holds (y + z) (f + g) c := by
  cases c with
  | constant knot order target =>
    intro s hs
    rw [Pi.add_apply, Submodule.coe_add, iterate_map_add, Polynomial.eval_add, hf s hs, hg s hs]
  | continuity knot order =>
    intro s s' hs hs'
    simp only [Pi.add_apply, Submodule.coe_add, iterate_map_add, Polynomial.eval_add]
    rw [hf s s' hs hs', hg s s' hs hs']

lemma Holds.smul {y : ℝ} {f : p.Spline} {c : Constraint ℝ} (hf : p.Holds y f c) (a : ℝ) :
    p.Holds (a * y) (a • f) c := by
  cases c with
  | constant knot order target =>
    intro s hs
    rw [Pi.smul_apply, Submodule.coe_smul, Polynomial.iterate_derivative_smul, Polynomial.eval_smul,
      hf s hs, smul_eq_mul]
  | continuity knot order =>
    intro s s' hs hs'
    simp only [Pi.smul_apply, Submodule.coe_smul, Polynomial.iterate_derivative_smul,
      Polynomial.eval_smul]
    rw [hf s s' hs hs']

lemma holds_zero (c : Constraint ℝ) : p.Holds 0 (0 : p.Spline) c := by
  cases c <;> simp [Holds]

def homogeneous (p : Problem ℝ) (cs : List (Constraint ℝ)) : Submodule ℝ p.Spline where
  carrier := {f | ∀ c ∈ cs, p.Holds 0 f c}
  add_mem' hf hg c hc := by simpa using (hf c hc).add (hg c hc)
  zero_mem' c _ := holds_zero c
  smul_mem' a _ hf c hc := by simpa using (hf c hc).smul a

lemma mem_homogeneous {f : p.Spline} : f ∈ p.homogeneous cs ↔ ∀ c ∈ cs, p.Holds 0 f c :=
  Iff.rfl

lemma block_lt (s : Fin p.segmentCount) (j : Fin p.coefficientCount) :
    (s : ℕ) * p.coefficientCount + j < p.dimension := by
  have hs : ((s : ℕ) + 1) * p.coefficientCount ≤ p.dimension := Nat.mul_le_mul_right _ s.isLt
  have hj := j.isLt
  rw [Nat.succ_mul] at hs
  omega

lemma vec_block (v : Fin p.dimension → ℝ) (s : Fin p.segmentCount) :
    vec p.coefficientCount (((List.ofFn v).drop (s * p.coefficientCount)).take
      p.coefficientCount) =
        fun j : Fin p.coefficientCount => v ⟨s * p.coefficientCount + j, block_lt s j⟩ := by
  funext j
  have hj := j.isLt
  simp [vec, List.getElem?_drop, hj, block_lt s j]

lemma ofFn_vec {n : ℕ} {xs : List ℝ} (h : xs.length = n) : List.ofFn (vec n xs) = xs :=
  eq_of_vec_eq List.length_ofFn h (vec_ofFn _)

noncomputable def splineEquiv (p : Problem ℝ) : (Fin p.dimension → ℝ) ≃ₗ[ℝ] p.Spline where
  toFun v := p.splineOf (List.ofFn v)
  invFun f := vec p.dimension (p.unknowns f)
  map_add' v w := by
    funext s
    apply Subtype.ext
    simp only [splineOf_apply, toPolynomial, Pi.add_apply, Submodule.coe_add, ← map_add]
    rw [vec_block, vec_block, vec_block]
    rfl
  map_smul' a v := by
    funext s
    apply Subtype.ext
    simp only [splineOf_apply, toPolynomial, Pi.smul_apply, Submodule.coe_smul, ← map_smul]
    rw [vec_block, vec_block]
    rfl
  left_inv v := by
    have hl : (List.ofFn v).length = p.dimension := List.length_ofFn
    dsimp only
    rw [unknowns_splineOf hl, vec_ofFn]
  right_inv f := by
    dsimp only
    rw [ofFn_vec (length_unknowns f), splineOf_unknowns]

lemma Fills.map_ker (h : p.Fills cs) :
    (LinearMap.ker (p.constraintMatrix cs).mulVecLin).map
      (p.splineEquiv : (Fin p.dimension → ℝ) →ₗ[ℝ] p.Spline) = p.homogeneous cs := by
  have hmem : ∀ v, v ∈ LinearMap.ker (p.constraintMatrix cs).mulVecLin ↔
      p.splineEquiv v ∈ p.homogeneous cs := by
    intro v
    have hiff := h.mulVec_eq_zero_iff (x := List.ofFn v) List.length_ofFn
    rwa [vec_ofFn] at hiff
  ext f
  constructor
  · rintro ⟨v, hv, rfl⟩
    exact (hmem v).1 hv
  · intro hf
    refine ⟨p.splineEquiv.symm f, (hmem _).2 ?_, p.splineEquiv.apply_symm_apply f⟩
    rwa [LinearEquiv.apply_symm_apply]

theorem Fills.rank_add_finrank (h : p.Fills cs) :
    (p.constraintMatrix cs).rank + Module.finrank ℝ (p.homogeneous cs) = p.dimension := by
  rw [← h.map_ker, LinearEquiv.finrank_map_eq, rank_add_finrank_ker]

end KnotSpline.Problem
