import KnotSpline.Proofs.TaylorShift

/-! Derivatives of polynomials: their coefficients and values, how they compose, also past the
degree, and that it does not matter whether the center is moved before or after. -/

open Polynomial (C X derivative)
open scoped Polynomial

namespace KnotSpline

open Taylor (recenter)

lemma eval_iterate_derivative_series {n : ℕ} {cs : List ℝ} (h : cs.length = n) (m : ℕ) (u : ℝ) :
    (derivative^[m] (series cs)).eval u = ∑ i ∈ Finset.Ico m n,
      ((i.factorial / (i - m).factorial : ℕ) : ℝ) * cs.getD i 0 * u ^ (i - m) := by
  rw [series_eq_toPolynomial h, toPolynomial, eval_iterate_derivative]
  change ∑ i : Fin n, (((i : ℕ).descFactorial m : ℝ) * u ^ ((i : ℕ) - m) * cs.getD i 0) = _
  rw [Fin.sum_univ_eq_sum_range
      fun i => (i.descFactorial m : ℝ) * u ^ (i - m) * cs.getD i 0,
    sum_range_eq_sum_Ico (k := m) fun i hi => by rw [Nat.descFactorial_of_lt hi]; simp]
  refine Finset.sum_congr rfl fun i hi => ?_
  rw [Nat.descFactorial_eq_div (Finset.mem_Ico.1 hi).1]
  ring

lemma derivative_recenter {n : ℕ} (hn : 1 ≤ n) (m : ℕ) (δ : ℝ) {cs : List ℝ}
    (h : cs.length = n) :
    Taylor.derivative m (recenter δ cs) = recenter δ (Taylor.derivative m cs) := by
  apply eq_of_series_eq
  · rw [length_recenter, length_derivative hn m h, length_derivative hn m (by
      rw [length_recenter, h])]
  · rw [series_derivative, series_recenter, series_recenter, series_derivative,
      iterate_derivative_comp]

lemma derivative_shifted {n : ℕ} (hn : 1 ≤ n) (m : ℕ) (δ : ℝ) {cs : List ℝ}
    (h : cs.length = n) :
    Taylor.derivative m (Taylor.shifted δ cs) = Taylor.shifted δ (Taylor.derivative m cs) := by
  by_cases hfar : 2⁻¹ ^ 52 < |δ|
  · rw [Taylor.shifted_of_far hfar]
    exact derivative_recenter hn m δ h
  · rw [Taylor.shifted_of_near hfar]
    rfl

namespace Polynomial

lemma derivative_bind_derivative {α : Type} [Scalar α] {f : Polynomial α} {n : ℕ}
    {axes : List ℕ} {outputs : List (List α)} (hf : f.Sized n axes outputs) {u v w : Value α}
    {k m : ℕ} (hu : u.int? = some (k : ℤ)) (hv : v.int? = some (m : ℤ))
    (hw : w.int? = some ((k + m : ℕ) : ℤ)) :
    (f.derivative u >>= (·.derivative v)) = f.derivative w := by
  have horder : max (max (n - k) 1 - m) 1 = max (n - (k + m)) 1 := by
    have := hf.one_le
    omega
  have hlists : Taylor.derivative m ∘ Taylor.derivative (α := α) k = Taylor.derivative (k + m) :=
    funext fun cs => derivative_derivative k m cs
  rw [derivative_eq hf.coefficients_eq hu, derivative_eq hf.coefficients_eq hw]
  refine (derivative_eq (hf.derivative k).coefficients_eq hv).trans ?_
  rw [horder, List.map_map, hlists]

variable {f : Polynomial ℝ} {n : ℕ} {axes : List ℕ} {outputs : List (List ℝ)} {a : ℝ}

lemma evaluate_derivative_eq (hf : f.Sized n axes outputs) (ha : f.center.toNumber = .ok a)
    {u x : Value ℝ} {k : ℕ} (hu : u.int? = some (k : ℤ)) {t : ℝ} (hx : x.toNumber = .ok t) :
    (f.derivative u >>= (·.evaluate x)) = .ok (.shaped axes (outputs.map fun cs =>
      ∑ i ∈ Finset.Ico k n,
        ((i.factorial / (i - k).factorial : ℕ) : ℝ) * cs.getD i 0 * (t - a) ^ (i - k))) := by
  rw [evaluate_iterate_derivative hf.one_le hf.coefficients_eq hf.length_eq ha hu hx]
  congr 2
  exact List.map_congr_left fun cs hcs =>
    eval_iterate_derivative_series (hf.length_eq cs hcs) k (t - a)

/-- Sizes, and that derivatives taken one after the other are those taken at once, hold in any
arithmetic, rounded or not. In exact arithmetic the values are those of the formal derivative. -/
theorem derivative_is_differentiation :
    (∀ {α : Type} [Scalar α] {f : Polynomial α} {n : ℕ} {axes : List ℕ} {outputs : List (List α)},
      f.Sized n axes outputs → ∀ {u : Value α} {k : ℕ}, u.int? = some (k : ℤ) →
      (∃ g derived, f.derivative u = .ok g ∧ g.order = .int (max (n - k) 1 : ℕ) ∧
        g.center = f.center ∧ g.Sized (max (n - k) 1) axes derived) ∧
      ∀ {v w : Value α} {m : ℕ}, v.int? = some (m : ℤ) → w.int? = some ((k + m : ℕ) : ℤ) →
        (f.derivative u >>= (·.derivative v)) = f.derivative w) ∧
    ∀ {f : Polynomial ℝ} {n : ℕ} {axes : List ℕ} {outputs : List (List ℝ)} {a : ℝ},
      f.Sized n axes outputs → f.center.toNumber = .ok a →
      ∀ {u x : Value ℝ} {k : ℕ} {t : ℝ}, u.int? = some (k : ℤ) → x.toNumber = .ok t →
        (f.derivative u >>= (·.evaluate x)) = .ok (.shaped axes (outputs.map fun cs =>
          ∑ i ∈ Finset.Ico k n,
            ((i.factorial / (i - k).factorial : ℕ) : ℝ) * cs.getD i 0 * (t - a) ^ (i - k))) ∧
        (k = 0 → (f.derivative u >>= (·.evaluate x)) = f.evaluate x) ∧
        (n ≤ k → (f.derivative u >>= (·.evaluate x)) =
          .ok ⟨axes, List.replicate (NumArray.size axes) 0, List.length_replicate⟩) := by
  constructor
  · intro α _ f n axes outputs hf u k hu
    exact ⟨⟨_, _, derivative_eq hf.coefficients_eq hu, rfl, rfl, hf.derivative k⟩,
      fun hv hw => derivative_bind_derivative hf hu hv hw⟩
  · intro f n axes outputs a hf ha u x k t hu hx
    have hvalue := evaluate_derivative_eq hf ha hu hx
    refine ⟨hvalue, ?_, ?_⟩
    · rintro rfl
      rw [evaluate_iterate_derivative hf.one_le hf.coefficients_eq hf.length_eq ha hu hx,
        evaluate_eq hf.order_eq hf.coefficients_eq hf.length_eq ha hx]
      rfl
    · intro hnk
      have hzero : (outputs.map fun cs => ∑ i ∈ (∅ : Finset ℕ),
          ((i.factorial / (i - k).factorial : ℕ) : ℝ) * cs.getD i 0 * (t - a) ^ (i - k)) =
          List.replicate (NumArray.size axes) 0 := by
        rw [← hf.length_outputs]
        simp
      rw [hvalue, Finset.Ico_eq_empty_of_le hnk, hzero, NumArray.shaped_eq]

theorem derivative_of_parabolas : ∃ f g : Polynomial ℝ,
    create (.int 3) (.list [.list [.real 1, .real 0], .list [.real 0, .real (-1)],
      .list [.real 1, .real 1]]) (.int 1) = .ok f ∧
    f.derivative (.int 2) = .ok g ∧ g.order = .int 1 ∧ g.center = .int 1 ∧
    (f.derivative (.int 2) >>= (·.derivative (.int 3))) = f.derivative (.int 5) ∧
    (f.derivative (.int 1) >>= (·.evaluate (.real 3))) = .ok (.vector [4, 3]) := by
  obtain ⟨⟨g, derived, hg, horder, hcenter, -⟩, hcompose⟩ :=
    derivative_is_differentiation.1 sized_parabolas (u := .int 2) (k := 2) rfl
  obtain ⟨hvalue, -, -⟩ := derivative_is_differentiation.2 sized_parabolas center_parabolas
    (u := .int 1) (x := .real 3) (k := 1) rfl rfl
  refine ⟨_, g, create_parabolas, hg, horder, hcenter, hcompose (m := 3) rfl rfl, ?_⟩
  rw [hvalue, NumArray.shaped_eq_vector (n := 2) (List.length_map _)]
  norm_num [Finset.sum_Ico_succ_top, Nat.factorial]

/-- It does not matter whether the center is moved before or after differentiating, be it far or by
a step that is too small to count. -/
theorem derivative_and_center_commute {f : Polynomial ℝ} {n : ℕ} {axes : List ℕ}
    {outputs : List (List ℝ)} (hf : f.Sized n axes outputs) {a b : ℝ}
    (ha : f.center.toNumber = .ok a) {v : Value ℝ} (hv : v.toNumber = .ok b) {u : Value ℝ} {k : ℕ}
    (hu : u.int? = some (k : ℤ)) :
    ∃ g, (f.shift v >>= (·.derivative u)) = .ok g ∧ (f.derivative u >>= (·.shift v)) = .ok g ∧
      g.order = .int (max (n - k) 1 : ℕ) ∧ g.center = v := by
  have hshift := hf.shift (b - a) v
  have hderivative := hf.derivative k
  have hlists : outputs.map (Taylor.shifted (b - a) ∘ Taylor.derivative k) =
      outputs.map (Taylor.derivative k ∘ Taylor.shifted (b - a)) :=
    List.map_congr_left fun cs hcs =>
      (derivative_shifted hf.one_le k (b - a) (hf.length_eq cs hcs)).symm
  have hg : (f.shift v >>= (·.derivative u)) = .ok ⟨.int (max (n - k) 1 : ℕ),
      .powers (max (n - k) 1) axes
        ((outputs.map (Taylor.shifted (b - a))).map (Taylor.derivative k)), v⟩ := by
    rw [shift_eq hf.order_eq hf.coefficients_eq ha hv]
    exact derivative_eq hshift.coefficients_eq hu
  refine ⟨_, hg, ?_, rfl, rfl⟩
  rw [derivative_eq hf.coefficients_eq hu]
  refine (shift_eq hderivative.order_eq hderivative.coefficients_eq ha hv).trans ?_
  rw [List.map_map, List.map_map, hlists]

theorem derivative_and_center_of_parabolas : ∃ f g : Polynomial ℝ,
    create (.int 3) (.list [.list [.real 1, .real 0], .list [.real 0, .real (-1)],
      .list [.real 1, .real 1]]) (.int 1) = .ok f ∧
    (f.shift (.real 3) >>= (·.derivative (.int 1))) = .ok g ∧
    (f.derivative (.int 1) >>= (·.shift (.real 3))) = .ok g ∧ g.order = .int 2 := by
  obtain ⟨n, axes, outputs, hn, hsized, -, -⟩ := create_sized create_parabolas rfl (by simp)
  obtain rfl : n = 3 := by exact_mod_cast hn.symm
  obtain ⟨g, hshift, hderivative, horder, -⟩ := derivative_and_center_commute hsized
    center_parabolas (v := .real 3) rfl (u := .int 1) (k := 1) rfl
  exact ⟨_, g, create_parabolas, hshift, hderivative, horder⟩

end Polynomial

end KnotSpline
