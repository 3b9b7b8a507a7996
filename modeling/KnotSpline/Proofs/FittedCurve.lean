import KnotSpline.Proofs.Lookup
import KnotSpline.Proofs.Solvability

/-! Curves that have been fit: their derivatives are those of the owning segment, and they meet all
constraints that were accepted. -/

open Polynomial (derivative)
open scoped Polynomial

namespace KnotSpline.Problem

lemma rowIndex_eq_of_fit {α : Type} [Scalar α] {p q : Problem α} (h : p.fit = .ok q) :
    p.rowIndex = p.dimension := by
  rw [fit] at h
  split at h
  · cases h
  · simp only [check_eq_ok_iff] at h
    omega

lemma naturalOrder_eq_ok_iff {α : Type} {order : Value α} {d : ℕ} :
    naturalOrder order = .ok d ↔ order.int? = some (d : ℤ) := by
  rw [naturalOrder]
  refine (index_eq_ok_iff (0 ≤ ·) fun z hz => hz).trans ?_
  exact and_iff_left (by omega)

lemma evaluationVector_of_int? {α : Type} [Scalar α] (p : Problem α) (t : Time α)
    {order : Value α} {d : ℕ} (ho : order.int? = some (d : ℤ)) :
    p.evaluationVector t order = KnotSpline.evaluationVector p.coefficientCount t d := by
  rw [Problem.evaluationVector, naturalOrder_eq_ok_iff.2 ho]
  rfl

lemma dot_coefficientList {n : ℕ} (f : Polynomial.degreeLT ℝ n) (t : ℝ) (d : ℕ) :
    dot (derivativeVector n t d) (coefficientList f) = (derivative^[d] (f : ℝ[X])).eval t := by
  rw [dot_derivativeVector (length_coefficientList f), toPolynomial_coefficientList]

lemma getD_coefficients {p : Problem ℝ} (f : Fin p.outputCount → p.Spline)
    (s : Fin p.segmentCount) :
    (p.coefficients f).getD s [] = List.ofFn fun r => coefficientList (f r s) := by
  simp [coefficients]

theorem interpolate_eq {q : Problem ℝ} {f : Fin q.outputCount → q.Spline}
    (hq : q.phase.solution? = some (q.coefficients f)) {t : Time ℝ} {x : ℝ}
    (ht : t.toScalar = .ok x) {order : Value ℝ} {d : ℕ} (ho : order.int? = some (d : ℤ))
    {s : Fin q.segmentCount} (hs : q.segmentOf x = s) :
    q.interpolate t order =
      .ok (List.ofFn fun r => (derivative^[d] (f r s : ℝ[X])).eval x) := by
  have hv : q.evaluationVector t order = .ok (derivativeVector q.coefficientCount x d) :=
    (q.evaluationVector_of_int? t ho).trans (evaluationVector_of_toScalar ht q.coefficientCount d)
  have hi : q.segmentIndex t = .ok s := by
    rw [segmentIndex, ht, ← hs]
    rfl
  rw [interpolate, solution, hq, hv, hi]
  change Except.ok (((q.coefficients f).getD s []).map _) = _
  rw [getD_coefficients, List.map_ofFn]
  exact congrArg Except.ok (congrArg List.ofFn (funext fun r => dot_coefficientList _ x d))

lemma Fills.fit_spec {p q : Problem ℝ} {cs : List (Constraint ℝ)} (h : p.Fills cs)
    {tolerance : Value ℝ}
    (hq : fit { p.registering cs with rankTolerance := tolerance } = .ok q) :
    q = { p.registering cs with
      rankTolerance := tolerance
      phase := .fitted (cs.flatMap p.equations)
        (p.coefficients fun r => p.fittedSpline cs r) } ∧
    ∀ (r : Fin p.outputCount) (f : p.Spline),
      (∀ c ∈ cs, p.Holds (c.value r) f c) ↔ f = p.fittedSpline cs r := by
  rw [h.fit_eq, bind_eq_ok_iff] at hq
  obtain ⟨k, -, hk⟩ := hq
  split at hk
  · cases hk
  · split at hk
    · cases hk
    · next hz =>
      refine ⟨(Except.ok.inj hk).symm, fun r => h.forall_holds_iff (fun s hs h0 => ?_) r⟩
      exact hz ⟨Nat.zero_lt_of_lt r.isLt, s, hs, h0⟩

lemma Fills.interpolate_eq {p q : Problem ℝ} {cs : List (Constraint ℝ)} (h : p.Fills cs)
    {tolerance : Value ℝ} (hq : fit { p.registering cs with rankTolerance := tolerance } = .ok q)
    {t : Time ℝ} {x : ℝ} (ht : t.toScalar = .ok x) {order : Value ℝ} {d : ℕ}
    (ho : order.int? = some (d : ℤ)) {s : Fin p.segmentCount} (hs : p.segmentOf x = s) :
    q.interpolate t order = .ok (List.ofFn fun r : Fin p.outputCount =>
      (derivative^[d] (p.fittedSpline cs r s : ℝ[X])).eval x) := by
  obtain ⟨rfl, -⟩ := h.fit_spec hq
  exact Problem.interpolate_eq (q := { p.registering cs with
    rankTolerance := tolerance
    phase := _ }) rfl ht ho hs

/-- A fit that returns yields the only spline that meets all accepted constraints in all outputs:
each adjoining segment has the derivative that a constant sets, interpolation at the knot yields it,
and at knots of continuity the derivatives of both sides agree. -/
theorem fit_meets_constraints {times coefficientCount outputCount metadata : Value ℝ}
    {p q : Problem ℝ} (hp : create times coefficientCount outputCount metadata = .ok p)
    (rs : List (Request ℝ)) (tolerance : Value ℝ)
    (hq : fit { p.attemptAll rs with rankTolerance := tolerance } = .ok q) :
    ∃ f : Fin p.outputCount → p.Spline, q.phase.solution? = some (p.coefficients f) ∧
      (∀ c ∈ p.accepted rs, ∀ r : Fin p.outputCount, p.Holds (c.value r) (f r) c) ∧
      (∀ (knot order : ℕ) (target : List ℝ), .constant knot order target ∈ p.accepted rs →
        ∀ (t : Time ℝ) (o : Value ℝ), t.toScalar = .ok (p.times.getD knot 0) →
          o.int? = some (order : ℤ) →
          q.interpolate t o = .ok (List.ofFn fun r : Fin p.outputCount => target.getD r 0)) ∧
      ∀ (r : Fin p.outputCount) (g : p.Spline),
        (∀ c ∈ p.accepted rs, p.Holds (c.value r) g c) → g = f r := by
  have hf := create_spec hp
  have hr : p.Fills (p.accepted rs) := by
    have hrow := rowIndex_eq_of_fit hq
    rw [hf.attemptAll_eq rs] at hrow
    exact hf.fills_accepted (by rw [hf.attemptAll_eq rs]; exact hrow)
  rw [hf.attemptAll_eq rs] at hq
  obtain ⟨hx, hiff⟩ := hr.fit_spec hq
  have hholds : ∀ c ∈ p.accepted rs, ∀ r : Fin p.outputCount,
      p.Holds (c.value r) (p.fittedSpline (p.accepted rs) r) c := fun c hc r =>
    (hiff r _).2 rfl c hc
  refine ⟨fun r => p.fittedSpline (p.accepted rs) r, by rw [hx]; rfl, hholds, ?_,
    fun r g => (hiff r g).1⟩
  intro knot order target hc t o ht ho
  have hk : knot < p.knotCount := (hr.admits _ hc).1
  have h2 := hf.two_le_knotCount
  have hl := segmentCount_add_one h2
  have hs := segmentOf_knot (pairwise_of_differences hf.increasing) h2 hk
  have hlt : min knot (p.segmentCount - 1) < p.segmentCount := by omega
  rw [hr.interpolate_eq hq ht ho (s := ⟨_, hlt⟩) hs]
  congr 2
  funext r
  exact hholds _ hc r ⟨_, hlt⟩ (by simp only; omega)

theorem fit_line_meets_constraints : ∃ q,
    create (.list [.real 1, .real 2]) (.int 2) (.int 1) (.record []) = .ok (line 1 2) ∧
    fit { (line 1 2).attemptAll (lineRequests 3 4) with rankTolerance := .real 0 } = .ok q ∧
    q.interpolate (.given 1) (.int 1) = .ok [4] := by
  have hc := create_line (one_lt_two : (1 : ℝ) < 2)
  have ht : (Value.real 0 : Value ℝ).toNumber = .ok 0 := rfl
  obtain ⟨q, hq⟩ := exists_fit_line one_pos one_lt_two 3 4 ht
  obtain ⟨f, -, -, hi, -⟩ := fit_meets_constraints hc (lineRequests 3 4) (.real 0) hq
  refine ⟨q, hc, hq, (hi 0 1 [4] ?_ (.given 1) (.int 1) rfl rfl).trans ?_⟩
  · rw [accepted_line]
    simp [lineConstraints]
  · rfl

end KnotSpline.Problem
