import KnotSpline.Polynomial
import KnotSpline.Proofs.Splines

/-! Lists of coefficients as polynomials: evaluation, derivatives and a new center do to the lists
what evaluation, differentiation and composition do to the polynomials. -/

open Polynomial (C X derivative)
open scoped Polynomial

namespace KnotSpline

open Taylor (horner raise recenter differentiate)

section Lists

variable {α : Type} [Scalar α]

@[simp] lemma length_raise (δ c : α) (cs : List α) : (raise δ c cs).length = cs.length + 1 := by
  induction cs generalizing c with
  | nil => rfl
  | cons b cs ih => rw [raise, List.length_cons, ih, List.length_cons]

@[simp] lemma length_recenter (δ : α) (cs : List α) : (recenter δ cs).length = cs.length := by
  induction cs with
  | nil => rfl
  | cons c cs ih =>
    rw [recenter, List.foldr_cons, length_raise, List.length_cons]
    exact congrArg (· + 1) ih

lemma length_differentiate (cs : List α) :
    (differentiate cs).length = if cs.length ≤ 1 then cs.length else cs.length - 1 := by
  cases cs with
  | nil => rfl
  | cons c cs =>
    cases cs with
    | nil => rfl
    | cons b cs => simp [differentiate]

lemma differentiate_iterate_length (cs : List α) :
    differentiate (differentiate^[cs.length] cs) = differentiate^[cs.length] cs := by
  generalize hn : cs.length = n
  induction n generalizing cs with
  | zero =>
    obtain rfl := List.length_eq_zero_iff.1 hn
    rfl
  | succ n ih =>
    rw [Function.iterate_succ_apply]
    rcases Nat.eq_zero_or_pos n with rfl | hpos
    · obtain ⟨c, rfl⟩ := List.length_eq_one_iff.1 hn
      rfl
    · exact ih _ (by rw [length_differentiate, if_neg (by omega)]; omega)

lemma derivative_eq_iterate (d : ℕ) (cs : List α) :
    Taylor.derivative d cs = differentiate^[d] cs := by
  have hfold : ∀ k, (List.range k).foldl (fun cs _ => differentiate cs) cs =
      differentiate^[k] cs := by
    intro k
    induction k with
    | zero => rfl
    | succ k ih =>
      rw [List.range_succ, List.foldl_append, ih, Function.iterate_succ_apply']
      rfl
  rw [Taylor.derivative, hfold]
  rcases le_total d cs.length with h | h
  · rw [min_eq_left h]
  · obtain ⟨k, rfl⟩ := Nat.exists_eq_add_of_le' h
    rw [min_eq_right h, Function.iterate_add_apply,
      Function.iterate_fixed (differentiate_iterate_length cs)]

lemma derivative_derivative (d e : ℕ) (cs : List α) :
    Taylor.derivative e (Taylor.derivative d cs) = Taylor.derivative (d + e) cs := by
  rw [derivative_eq_iterate, derivative_eq_iterate, derivative_eq_iterate, Nat.add_comm d e,
    Function.iterate_add_apply]

lemma length_derivative {n : ℕ} (hn : 1 ≤ n) (d : ℕ) {cs : List α} (h : cs.length = n) :
    (Taylor.derivative d cs).length = max (n - d) 1 := by
  rw [derivative_eq_iterate]
  induction d with
  | zero =>
    rw [Function.iterate_zero, id_eq, h]
    omega
  | succ d ih =>
    rw [Function.iterate_succ_apply', length_differentiate, ih]
    split <;> omega

end Lists

noncomputable def series : List ℝ → ℝ[X]
  | [] => 0
  | c :: cs => C c + X * series cs

lemma coeff_series (cs : List ℝ) (j : ℕ) : (series cs).coeff j = cs.getD j 0 := by
  induction cs generalizing j with
  | nil => simp [series]
  | cons c cs ih =>
    cases j with
    | zero => simp [series]
    | succ j => simp [series, Polynomial.coeff_C_succ, ih j]

lemma series_eq_toPolynomial {n : ℕ} {cs : List ℝ} (h : cs.length = n) :
    series cs = toPolynomial n cs := by
  ext j
  rw [coeff_series]
  rcases lt_or_ge j n with hj | hj
  · exact (coeff_toPolynomial cs ⟨j, hj⟩).symm
  · rw [toPolynomial, Polynomial.ofFn_coeff_eq_zero_of_ge _ hj]
    simp [h, hj]

lemma horner_eq (t : ℝ) (cs : List ℝ) : horner t cs = (series cs).eval t := by
  induction cs with
  | nil => simp [horner, series]
  | cons c cs ih =>
    cases cs with
    | nil => simp [horner, series]
    | cons b cs =>
      rw [horner, ih, series.eq_2 c]
      · simp only [Polynomial.eval_add, Polynomial.eval_C, Polynomial.eval_mul, Polynomial.eval_X]
        ring
      · simp

lemma series_raise (δ c : ℝ) (cs : List ℝ) :
    series (raise δ c cs) = C c + (X + C δ) * series cs := by
  induction cs generalizing c with
  | nil => simp [raise, series]
  | cons b cs ih =>
    rw [raise, series, ih, series, C.map_add, C.map_mul]
    ring

lemma series_recenter (δ : ℝ) (cs : List ℝ) :
    series (recenter δ cs) = (series cs).comp (X + C δ) := by
  induction cs with
  | nil => simp [recenter, series]
  | cons c cs ih =>
    rw [recenter, List.foldr_cons, series_raise, series]
    change _ + _ * series (recenter δ cs) = _
    rw [ih, Polynomial.add_comp, Polynomial.C_comp, Polynomial.mul_comp, Polynomial.X_comp]

lemma series_mapIdx (m : ℕ) (cs : List ℝ) :
    series (cs.mapIdx fun k c => c * ((k + m + 1 : ℕ) : ℝ)) =
      C ((m + 1 : ℕ) : ℝ) * series cs + X * derivative (series cs) := by
  induction cs generalizing m with
  | nil => simp [series]
  | cons c cs ih =>
    have hs : (fun k c => c * ((k + 1 + m + 1 : ℕ) : ℝ)) =
        fun k c => c * ((k + (m + 1) + 1 : ℕ) : ℝ) := by
      funext k c
      rw [Nat.add_right_comm k 1 m, Nat.add_assoc k m 1]
    rw [List.mapIdx_cons, series, hs, ih (m + 1), series]
    simp only [Polynomial.derivative_add, Polynomial.derivative_C, Polynomial.derivative_mul,
      Polynomial.derivative_X, C.map_mul, Nat.cast_add, Nat.cast_one, C.map_add, C.map_one,
      Nat.zero_add]
    ring

lemma series_differentiate (cs : List ℝ) :
    series (differentiate cs) = derivative (series cs) := by
  cases cs with
  | nil => simp [differentiate, series]
  | cons c cs =>
    cases cs with
    | nil => simp [differentiate, series]
    | cons b cs =>
      rw [differentiate, series]
      · exact (series_mapIdx 0 (b :: cs)).trans (by simp)
      · simp

lemma series_iterate_differentiate (d : ℕ) (cs : List ℝ) :
    series (differentiate^[d] cs) = derivative^[d] (series cs) := by
  induction d generalizing cs with
  | zero => rfl
  | succ d ih =>
    rw [Function.iterate_succ_apply, ih, series_differentiate, Function.iterate_succ_apply]

lemma series_derivative (d : ℕ) (cs : List ℝ) :
    series (Taylor.derivative d cs) = derivative^[d] (series cs) := by
  rw [derivative_eq_iterate, series_iterate_differentiate]

lemma factorial_mul_getD (cs : List ℝ) (k : ℕ) :
    (k.factorial : ℝ) * cs.getD k 0 = (derivative^[k] (series cs)).eval 0 := by
  rw [← Polynomial.coeff_zero_eq_eval_zero, Polynomial.coeff_iterate_derivative, Nat.zero_add,
    Nat.descFactorial_self, coeff_series, nsmul_eq_mul]

lemma iterate_derivative_comp (f : ℝ[X]) (δ : ℝ) (d : ℕ) :
    derivative^[d] (f.comp (X + C δ)) = (derivative^[d] f).comp (X + C δ) := by
  induction d generalizing f with
  | zero => rfl
  | succ d ih =>
    have h1 : derivative (f.comp (X + C δ)) = (derivative f).comp (X + C δ) := by
      simp [Polynomial.derivative_comp]
    rw [Function.iterate_succ_apply, h1, ih, Function.iterate_succ_apply]

lemma eval_recenter (δ t : ℝ) (cs : List ℝ) (d : ℕ) :
    (derivative^[d] (series (recenter δ cs))).eval (t - δ) =
      (derivative^[d] (series cs)).eval t := by
  rw [series_recenter, iterate_derivative_comp, Polynomial.eval_comp]
  simp

end KnotSpline
