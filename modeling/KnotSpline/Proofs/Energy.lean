import KnotSpline.Proofs.Reals

/-! The energy of a polynomial: a primitive of the square of one of its derivatives, made of
products of lower and higher derivatives alone. Where it does not grow, that derivative
vanishes. -/

open Polynomial (derivative)
open scoped Polynomial

namespace KnotSpline

noncomputable def energy (q : ℕ) (f : ℝ[X]) : ℝ[X] :=
  ∑ j ∈ Finset.range q, (-1) ^ j * (derivative^[q - 1 - j] f * derivative^[q + j] f)

lemma derivative_energy (q : ℕ) (f : ℝ[X]) : derivative (energy q f) =
    derivative^[q] f ^ 2 - (-1) ^ q * (f * derivative^[2 * q] f) := by
  -- integration by parts, one order after another: the sum telescopes
  let u : ℕ → ℝ[X] := fun j => (-1) ^ j * (derivative^[q - j] f * derivative^[q + j] f)
  have hterm : ∀ j ∈ Finset.range q,
      derivative ((-1) ^ j * (derivative^[q - 1 - j] f * derivative^[q + j] f)) =
        u j - u (j + 1) := by
    intro j hj
    have hlow : derivative (derivative^[q - 1 - j] f) = derivative^[q - j] f := by
      rw [← Function.iterate_succ_apply' (f := derivative)]
      congr 2
      have := Finset.mem_range.1 hj
      omega
    have hhigh : derivative (derivative^[q + j] f) = derivative^[q + (j + 1)] f :=
      (Function.iterate_succ_apply' _ _ _).symm
    have hsign : derivative ((-1 : ℝ[X]) ^ j) = 0 := by
      simp [Polynomial.derivative_pow]
    have hsub : q - (j + 1) = q - 1 - j := by omega
    simp only [u]
    rw [Polynomial.derivative_mul, hsign, Polynomial.derivative_mul, hlow, hhigh, hsub, pow_succ]
    ring
  rw [energy, Polynomial.derivative_sum, Finset.sum_congr rfl hterm, Finset.sum_range_sub']
  simp only [u, pow_zero, one_mul, Nat.sub_zero, Nat.add_zero, Nat.sub_self,
    Function.iterate_zero_apply, ← two_mul, sq]

section Growth

variable {q : ℕ} {f : ℝ[X]} (hf : f.degree < (2 * q : ℕ))

include hf

lemma derivative_energy_of_degree_lt : derivative (energy q f) = derivative^[q] f ^ 2 := by
  have hz : derivative^[2 * q] f = 0 := Polynomial.iterate_derivative_eq_zero_of_degree_lt hf
  rw [derivative_energy, hz, mul_zero, mul_zero, sub_zero]

lemma monotone_energy : Monotone fun t => (energy q f).eval t := by
  refine monotone_of_deriv_nonneg (Polynomial.differentiable _) fun t => ?_
  rw [Polynomial.deriv, derivative_energy_of_degree_lt hf, Polynomial.eval_pow]
  exact sq_nonneg _

lemma iterate_derivative_eq_zero_of_energy {a b : ℝ} (hab : a < b)
    (h : (energy q f).eval b ≤ (energy q f).eval a) : derivative^[q] f = 0 := by
  have hm := monotone_energy hf
  have hconst : ∀ t ∈ Set.Icc a b,
      (energy q f).eval t = (Polynomial.C ((energy q f).eval a)).eval t := by
    intro t ht
    rw [Polynomial.eval_C]
    exact le_antisymm ((hm ht.2).trans h) (hm ht.1)
  -- constant between the two times, hence a constant polynomial
  have heq := Polynomial.eq_of_infinite_eval_eq _ _
    ((Set.Icc_infinite hab).mono fun t ht => hconst t ht)
  have hsq := derivative_energy_of_degree_lt hf
  rw [heq, Polynomial.derivative_C] at hsq
  exact pow_eq_zero_iff two_ne_zero |>.1 hsq.symm

end Growth

lemma eq_zero_of_iterate_derivative {f : ℝ[X]} {t : ℝ}
    (h : ∀ d, (derivative^[d] f).eval t = 0) : f = 0 := by
  refine Polynomial.eq_zero_of_hasseDeriv_eq_zero f t fun k => ?_
  have hk := h k
  rw [← Polynomial.factorial_smul_hasseDeriv, LinearMap.smul_apply, Polynomial.eval_smul,
    nsmul_eq_mul] at hk
  exact (mul_eq_zero.1 hk).resolve_left (Nat.cast_ne_zero.2 k.factorial_ne_zero)

end KnotSpline
