import KnotSpline.Basis
import KnotSpline.Proofs.Checks
import KnotSpline.Proofs.Vectors

/-! The row of a derivative at a time: its product with a list of coefficients is the formal
derivative of the polynomial with these coefficients, evaluated at that time. -/

open Polynomial (C X derivative)
open scoped Polynomial

namespace KnotSpline

section Row

variable {α : Type} [Scalar α]

def derivativeVector (n : ℕ) (t : α) (d : ℕ) : List α :=
  if n ≤ d then List.replicate n 0
  else List.zipWith (· * ·) (derivativeRow n d) ((List.range n).map fun j =>
    if j < d then 0 else if j = d then 1 else Scalar.pow t (j - d))

@[simp] lemma length_derivativeVector (n : ℕ) (t : α) (d : ℕ) :
    (derivativeVector n t d).length = n := by
  unfold derivativeVector
  split <;> simp [derivativeRow]

lemma evaluationVector_eq {t : Time α} {x : α} {n d : ℕ}
    (h : ∀ k, 0 < k → k + d < n → t.power k = .ok (Scalar.pow x k)) :
    evaluationVector n t d = .ok (derivativeVector n x d) := by
  have ht : timeVector n t d = .ok ((List.range n).map fun j =>
      if j < d then 0 else if j = d then 1 else Scalar.pow x (j - d)) := by
    rw [timeVector, mapM_eq_ok_iff, List.forall₂_map_right_iff, List.forall₂_same]
    intro j hj
    have hn := List.mem_range.1 hj
    split
    · rfl
    · split
      · rfl
      · exact h (j - d) (by omega) (by omega)
  rw [evaluationVector, derivativeVector]
  split
  · rfl
  · rw [ht]
    rfl

lemma evaluationVector_stored (n : ℕ) (t : α) (d : ℕ) :
    evaluationVector n (.stored t) d = .ok (derivativeVector n t d) :=
  evaluationVector_eq fun _ _ _ => rfl

end Row

def Time.real? : Time ℝ → Option ℝ
  | whole z => some z
  | given x => some x
  | stored x => some x
  | other => none

lemma evaluationVector_of_real? {t : Time ℝ} {x : ℝ} (h : t.real? = some x) (n d : ℕ) :
    evaluationVector n t d = .ok (derivativeVector n x d) := by
  refine evaluationVector_eq fun k _ _ => ?_
  cases t with
  | whole z =>
    obtain rfl := Option.some_inj.1 h
    exact congrArg Except.ok (Int.cast_pow z k)
  | given y =>
    obtain rfl := Option.some_inj.1 h
    simp [Time.power, pure, Except.pure]
  | stored y =>
    obtain rfl := Option.some_inj.1 h
    rfl
  | other => cases h

lemma Time.real?_of_toScalar {t : Time ℝ} {x : ℝ} (h : t.toScalar = .ok x) :
    t.real? = some x := by
  cases t with
  | whole z =>
    rw [toScalar] at h
    split at h
    · exact congrArg some (Except.ok.inj h)
    · cases h
  | given y => exact congrArg some (Except.ok.inj h)
  | stored y => exact congrArg some (Except.ok.inj h)
  | other => cases h

lemma evaluationVector_of_toScalar {t : Time ℝ} {x : ℝ} (h : t.toScalar = .ok x) (n d : ℕ) :
    evaluationVector n t d = .ok (derivativeVector n x d) :=
  evaluationVector_of_real? (Time.real?_of_toScalar h) n d

lemma fallingFactor_eq (d j : ℕ) : (fallingFactor d j : ℝ) = (j.descFactorial d : ℝ) := by
  induction d with
  | zero => simp [fallingFactor]
  | succ d ih =>
    rw [fallingFactor, Nat.descFactorial_succ]
    split
    · next h => simp [Nat.sub_eq_zero_of_le h]
    · next h => rw [ih, Reals.natCast_eq, Nat.cast_mul]

lemma vec_derivativeVector (n : ℕ) (t : ℝ) (d : ℕ) (j : Fin n) :
    vec n (derivativeVector n t d) j = ((j : ℕ).descFactorial d : ℝ) * t ^ ((j : ℕ) - d) := by
  have hj : (j : ℕ) < n := j.isLt
  unfold derivativeVector
  split
  · next h =>
    rw [Nat.descFactorial_of_lt (by omega)]
    simp [vec]
  · next h =>
    simp only [vec, derivativeRow, List.getD_eq_getElem?_getD, List.getElem?_zipWith,
      List.getElem?_map, List.getElem?_range hj, Option.map_some, Option.getD_some,
      fallingFactor_eq, Reals.pow_eq]
    split
    · next hd => rw [Nat.descFactorial_of_lt hd]; simp
    · split
      · next hd => simp [hd]
      · rfl

noncomputable def toPolynomial (n : ℕ) (cs : List ℝ) : ℝ[X] :=
  Polynomial.ofFn n (vec n cs)

lemma toPolynomial_eq_sum (n : ℕ) (cs : List ℝ) :
    toPolynomial n cs = ∑ j ∈ Finset.range n, C (cs.getD j 0) * X ^ j := by
  rw [toPolynomial, Polynomial.ofFn_eq_sum_monomial, ← Fin.sum_univ_eq_sum_range
    fun j => C (cs.getD j 0) * X ^ j]
  exact Finset.sum_congr rfl fun j _ => Polynomial.C_mul_X_pow_eq_monomial.symm

lemma eval_iterate_derivative (n : ℕ) (c : Fin n → ℝ) (t : ℝ) (d : ℕ) :
    (derivative^[d] (Polynomial.ofFn n c)).eval t =
      ∑ j : Fin n, ((j : ℕ).descFactorial d : ℝ) * t ^ ((j : ℕ) - d) * c j := by
  rw [Polynomial.ofFn_eq_sum_monomial, Polynomial.iterate_derivative_sum, Polynomial.eval_finsetSum]
  refine Finset.sum_congr rfl fun j _ => ?_
  rw [← Polynomial.C_mul_X_pow_eq_monomial, Polynomial.iterate_derivative_C_mul,
    Polynomial.iterate_derivative_X_pow_eq_natCast_mul, Polynomial.eval_C_mul,
    Polynomial.eval_natCast_mul, Polynomial.eval_X_pow]
  ring

theorem dot_derivativeVector {n : ℕ} {cs : List ℝ} (h : cs.length = n) (t : ℝ) (d : ℕ) :
    dot (derivativeVector n t d) cs = (derivative^[d] (toPolynomial n cs)).eval t := by
  rw [dot_eq (length_derivativeVector n t d) h, toPolynomial, eval_iterate_derivative]
  exact Finset.sum_congr rfl fun j _ => by rw [vec_derivativeVector]

end KnotSpline
