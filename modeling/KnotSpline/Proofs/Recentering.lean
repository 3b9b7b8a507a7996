import KnotSpline.Proofs.SizedPolynomials

/-! One center after another. Steps that are far enough leave the curve where it is; a step that is
too small to count moves the center alone, and the curve along with it. -/

namespace KnotSpline

open Taylor (shifted)

lemma eval_shifted (δ u : ℝ) (cs : List ℝ) :
    (series (shifted δ cs)).eval (u - δ) =
      (series cs).eval (u - if 2⁻¹ ^ 52 < |δ| then 0 else δ) := by
  split
  · next h =>
    rw [Taylor.shifted_of_far h, sub_zero]
    exact eval_recenter δ u cs 0
  · next h =>
    rw [Taylor.shifted_of_near h]
    rfl

namespace Polynomial

/-- The sum of the steps that are too small to count. -/
noncomputable def drift : ℝ → List ℝ → ℝ
  | _, [] => 0
  | a, b :: bs => (if Scalar.epsilon < |b - a| then 0 else b - a) + drift b bs

lemma drift_cons (a b : ℝ) (bs : List ℝ) :
    drift a (b :: bs) = (if 2⁻¹ ^ 52 < |b - a| then 0 else b - a) + drift b bs := rfl

lemma abs_drift_le (a : ℝ) (bs : List ℝ) : |drift a bs| ≤ bs.length * 2⁻¹ ^ 52 := by
  induction bs generalizing a with
  | nil => simp [drift]
  | cons b bs ih =>
    have hstep : |if 2⁻¹ ^ 52 < |b - a| then 0 else b - a| ≤ (2⁻¹ ^ 52 : ℝ) := by
      split
      · rw [abs_zero]
        positivity
      · next h => exact not_lt.1 h
    rw [drift_cons]
    calc |(if 2⁻¹ ^ 52 < |b - a| then 0 else b - a) + drift b bs|
        ≤ |if 2⁻¹ ^ 52 < |b - a| then 0 else b - a| + |drift b bs| := abs_add_le _ _
      _ ≤ 2⁻¹ ^ 52 + bs.length * 2⁻¹ ^ 52 := add_le_add hstep (ih b)
      _ = (b :: bs).length * 2⁻¹ ^ 52 := by
        rw [List.length_cons, Nat.cast_succ]
        ring

lemma drift_eq_zero {a : ℝ} {bs : List ℝ}
    (h : (a :: bs).IsChain fun b c => c = b ∨ 2⁻¹ ^ 52 < |c - b|) : drift a bs = 0 := by
  induction bs generalizing a with
  | nil => rfl
  | cons b bs ih =>
    obtain ⟨hb, hbs⟩ := List.isChain_cons_cons.1 h
    rw [drift_cons, ih hbs, add_zero]
    rcases hb with rfl | hfar
    · rw [sub_self]
      exact ite_self 0
    · exact if_pos hfar

variable {f : Polynomial ℝ} {n : ℕ} {axes : List ℕ} {outputs : List (List ℝ)} {a : ℝ}

lemma foldlM_shift (hf : f.Sized n axes outputs) (ha : f.center.toNumber = .ok a)
    {vs : List (Value ℝ)} {bs : List ℝ}
    (hv : List.Forall₂ (fun v b => v.toNumber = .ok b) vs bs) :
    ∃ g moved, vs.foldlM shift f = .ok g ∧ g.Sized n axes moved ∧ g.order = f.order ∧
      g.center = vs.getLastD f.center ∧ g.center.toNumber = .ok (bs.getLastD a) ∧
      ∀ t, moved.map (fun cs => (series cs).eval (t - bs.getLastD a)) =
        outputs.map fun cs => (series cs).eval (t - drift a bs - a) := by
  induction hv generalizing f outputs a with
  | nil =>
    refine ⟨f, outputs, rfl, hf, rfl, rfl, ha, fun t => ?_⟩
    rw [drift, sub_zero]
    rfl
  | @cons v b vs bs hb hbs ih =>
    obtain ⟨g, moved, hg, hsized, horder, hcenter, hnumber, hvalues⟩ :=
      ih (hf.shift (b - a) v) hb
    refine ⟨g, moved, ?_, hsized, horder, ?_, ?_, fun t => ?_⟩
    · rw [List.foldlM_cons, shift_eq hf.order_eq hf.coefficients_eq ha hb]
      exact hg
    · rw [hcenter, List.getLastD_cons]
    · rw [hnumber, List.getLastD_cons]
    · -- later steps have moved the time back already; the first one adds its own part
      rw [List.getLastD_cons, hvalues t, List.map_map]
      refine List.map_congr_left fun cs _ => ?_
      have hstep := eval_shifted (b - a) (t - drift b bs - a) cs
      rw [Function.comp_apply, drift_cons]
      convert hstep using 2 <;> ring

/-- Along any run of centers the last one given is that of the polynomial, and its values are those
that it had before, at times moved back by the drift. Without small steps nothing drifts. -/
theorem curve_moves_by_drift (hf : f.Sized n axes outputs)
    (ha : f.center.toNumber = .ok a) {vs : List (Value ℝ)} {bs : List ℝ}
    (hv : List.Forall₂ (fun v b => v.toNumber = .ok b) vs bs) :
    ∃ g, vs.foldlM shift f = .ok g ∧ g.order = f.order ∧ g.center = vs.getLastD f.center ∧
      (∀ x t, x.toNumber = .ok t → ∃ ys,
        f.evaluate (.real (t - drift a bs)) = .ok ys ∧ g.evaluate x = .ok ys) ∧
      |drift a bs| ≤ bs.length * 2⁻¹ ^ 52 ∧
      ((a :: bs).IsChain (fun b c => c = b ∨ 2⁻¹ ^ 52 < |c - b|) →
        ∀ x t, x.toNumber = .ok t → g.evaluate x = f.evaluate x) := by
  obtain ⟨g, moved, hg, hsized, horder, hcenter, hnumber, hvalues⟩ := foldlM_shift hf ha hv
  have hold : ∀ {x : Value ℝ} {t : ℝ}, x.toNumber = .ok t →
      f.evaluate x = .ok (.shaped axes (outputs.map fun cs => (series cs).eval (t - a))) :=
    fun hx => evaluate_eq hf.order_eq hf.coefficients_eq hf.length_eq ha hx
  have hnew : ∀ {x : Value ℝ} {t : ℝ}, x.toNumber = .ok t → g.evaluate x =
      .ok (.shaped axes (outputs.map fun cs => (series cs).eval (t - drift a bs - a))) :=
      fun {x t} hx => by
    rw [← hvalues t]
    exact evaluate_eq hsized.order_eq hsized.coefficients_eq hsized.length_eq hnumber hx
  refine ⟨g, hg, horder, hcenter, fun x t hx => ⟨_, hold rfl, hnew hx⟩, abs_drift_le a bs,
    fun hchain x t hx => ?_⟩
  rw [hnew hx, hold hx, drift_eq_zero hchain, sub_zero]

theorem parabolas_move_by_drift : ∃ f g : Polynomial ℝ,
    create (.int 3) (.list [.list [.real 1, .real 0], .list [.real 0, .real (-1)],
      .list [.real 1, .real 1]]) (.int 1) = .ok f ∧
    [.real (1 + 2⁻¹ ^ 53), .real 3].foldlM shift f = .ok g ∧ g.center = .real 3 ∧
    g.evaluate (.real (1 + 2⁻¹ ^ 53)) = f.evaluate (.real 1) := by
  have hv : List.Forall₂ (fun (v : Value ℝ) b => v.toNumber = .ok b)
      [.real (1 + 2⁻¹ ^ 53), .real 3] [1 + 2⁻¹ ^ 53, 3] := .cons rfl (.cons rfl .nil)
  obtain ⟨g, hg, -, hcenter, hvalues, -, -⟩ :=
    curve_moves_by_drift sized_parabolas center_parabolas hv
  have hdrift : drift 1 [1 + 2⁻¹ ^ 53, 3] = 2⁻¹ ^ 53 := by
    have hnear : ¬(2⁻¹ ^ 52 : ℝ) < |1 + 2⁻¹ ^ 53 - 1| := by norm_num
    have hfar : (2⁻¹ ^ 52 : ℝ) < |3 - (1 + 2⁻¹ ^ 53)| := by norm_num [abs_of_pos]
    rw [drift_cons, drift_cons, drift, if_neg hnear, if_pos hfar]
    ring
  obtain ⟨ys, hf, hgx⟩ := hvalues (.real (1 + 2⁻¹ ^ 53)) _ rfl
  rw [hdrift, add_sub_cancel_right] at hf
  exact ⟨_, g, create_parabolas, hg, hcenter, hgx.trans hf.symm⟩

/-- A center that is moved by half of the smallest step that counts takes a steep line with it. -/
theorem small_step_moves_the_curve : ∃ f g : Polynomial ℝ,
    create (.int 2) (.list [.real 0, .real (2 ^ 53)]) (.real 0) = .ok f ∧
    f.shift (.real (2⁻¹ ^ 53)) = .ok g ∧
    f.evaluate (.real 0) = .ok (.scalar 0) ∧ g.evaluate (.real 0) = .ok (.scalar (-1)) := by
  have hnear : ¬(2⁻¹ ^ 52 : ℝ) < |2⁻¹ ^ 53 - 0| := by norm_num
  have hl : ∀ cs ∈ [[0, (2 ^ 53 : ℝ)]], cs.length = 2 := by simp
  refine ⟨⟨.int 2, .powers 2 [] [[0, 2 ^ 53]], .real 0⟩, _, rfl, shift_eq rfl rfl rfl rfl, ?_, ?_⟩
  · rw [evaluate_eq rfl rfl hl rfl rfl, NumArray.shaped_eq rfl]
    simp [series, NumArray.scalar]
  · rw [Taylor.shifted_of_near hnear, List.map_id, evaluate_eq rfl rfl hl rfl rfl,
      NumArray.shaped_eq rfl]
    norm_num [series, NumArray.scalar]

end Polynomial

end KnotSpline
