import KnotSpline.Proofs.CompleteSplines
import KnotSpline.Proofs.FittedCurve

/-! Derivatives given at both ends of every segment, as many as a segment has coefficients. Such
data can always be fitted, and each segment follows from the data at its own ends. -/

open Polynomial (derivative degreeLT X C)
open scoped Polynomial

namespace KnotSpline

section TwoPoints

variable {f : ℝ[X]}

lemma pow_dvd_of_iterate_derivative {m : ℕ} {t : ℝ}
    (h : ∀ d < m, (derivative^[d] f).eval t = 0) : (X - C t) ^ m ∣ f := by
  by_cases h0 : f = 0
  · rw [h0]
    exact dvd_zero _
  · cases m with
    | zero => exact one_dvd f
    | succ m =>
      apply (Polynomial.le_rootMultiplicity_iff h0).1
      apply (Polynomial.lt_rootMultiplicity_iff_isRoot_iterate_derivative h0).2
      intro d hd
      exact h d (Nat.lt_succ_of_le hd)

lemma eq_zero_of_two_points {k l : ℕ} {a b : ℝ} (hab : a ≠ b) (hf : f.degree < (k + l : ℕ))
    (ha : ∀ d < k, (derivative^[d] f).eval a = 0) (hb : ∀ d < l, (derivative^[d] f).eval b = 0) :
    f = 0 := by
  have hcop : IsCoprime ((X - C a) ^ k) ((X - C b) ^ l) :=
    (Polynomial.isCoprime_X_sub_C_of_isUnit_sub (sub_ne_zero.2 hab).isUnit).pow
  have hdvd := hcop.mul_dvd (pow_dvd_of_iterate_derivative ha) (pow_dvd_of_iterate_derivative hb)
  apply Polynomial.eq_zero_of_dvd_of_degree_lt hdvd
  simpa using hf

end TwoPoints

namespace Problem

section Demands

variable {α : Type} {p : Problem α} {m : ℕ → ℕ}

/-- At each knot the derivatives of the orders below `m`. -/
def hermiteDemands (p : Problem α) (m : ℕ → ℕ) : List (Constraint α) :=
  (List.range p.knotCount).flatMap fun k => (List.range (m k)).map fun d => .constant k d []

lemma mem_hermiteDemands {k d : ℕ} (hk : k < p.knotCount) (hd : d < m k) :
    .constant k d [] ∈ p.hermiteDemands m := by
  simp [hermiteDemands, hk, hd]

lemma sum_equationCount_hermite (h : 2 ≤ p.knotCount)
    (hm : ∀ k, k + 1 < p.knotCount → m k + m (k + 1) = p.coefficientCount) :
    ((p.hermiteDemands m).map p.equationCount).sum = p.dimension := by
  have hs := segmentCount_add_one h
  have hknot : ∀ k < p.knotCount, (((List.range (m k)).map fun d =>
      Constraint.constant k d []).map p.equationCount).sum =
        (if 0 < k then m k else 0) + if k < p.segmentCount then m k else 0 := by
    intro k hk
    rw [List.map_map, Function.comp_def]
    simp only [equationCount_constant h hk, List.map_const', List.sum_replicate, List.length_range,
      smul_eq_mul, mul_add, mul_ite, mul_one, mul_zero]
  have hsum : ((p.hermiteDemands m).map p.equationCount).sum =
      ∑ k ∈ Finset.range (p.segmentCount + 1),
        ((if 0 < k then m k else 0) + if k < p.segmentCount then m k else 0) := by
    rw [hermiteDemands, List.map_flatMap, List.flatMap_def, List.sum_flatten, List.map_map, hs]
    exact Finset.sum_congr rfl fun k hk => hknot k (Finset.mem_range.1 hk)
  rw [hsum, Finset.sum_add_distrib, Finset.sum_range_succ', Finset.sum_range_succ]
  simp only [Nat.succ_pos, if_true, lt_irrefl, if_false, add_zero]
  rw [Finset.sum_congr rfl fun k hk => if_pos (Finset.mem_range.1 hk), ← Finset.sum_add_distrib,
    Finset.sum_congr rfl fun k hk => (add_comm _ _).trans (hm k ?_)]
  · simp [dimension]
  · have := Finset.mem_range.1 hk
    omega

end Demands

variable {p : Problem ℝ} {m : ℕ → ℕ} {cs : List (Constraint ℝ)}

def Meets (p : Problem ℝ) (cs : List (Constraint ℝ)) (r s : ℕ) (g : ℝ[X]) : Prop :=
  ∀ knot order target, .constant knot order target ∈ cs → s + 1 = knot ∨ s = knot →
    (derivative^[order] g).eval (p.times.getD knot 0) = target.getD r 0

section Segments

variable (hp : p.Fresh) (hm : ∀ k, k + 1 < p.knotCount → m k + m (k + 1) = p.coefficientCount)

include hp hm

lemma eq_of_derivatives (s : Fin p.segmentCount) {f g : degreeLT ℝ p.coefficientCount}
    (h : ∀ k < p.knotCount, (s : ℕ) + 1 = k ∨ (s : ℕ) = k → ∀ d < m k,
      (derivative^[d] (f : ℝ[X])).eval (p.times.getD k 0) =
        (derivative^[d] (g : ℝ[X])).eval (p.times.getD k 0)) : f = g := by
  have hk := hp.two_le_knotCount
  have hl := segmentCount_add_one hk
  have hs := s.isLt
  have hlt := CompleteZero.lt_times (pairwise_of_differences hp.increasing) hk hs
  have hdeg : ((f - g : degreeLT ℝ p.coefficientCount) : ℝ[X]).degree <
      (m s + m (s + 1) : ℕ) := by
    rw [hm s (by omega)]
    exact Polynomial.mem_degreeLT.1 (f - g).2
  have hzero : ∀ k, (s : ℕ) + 1 = k ∨ (s : ℕ) = k → ∀ d < m k,
      (derivative^[d] ((f - g : degreeLT ℝ p.coefficientCount) : ℝ[X])).eval
        (p.times.getD k 0) = 0 := by
    intro k hk d hd
    rw [Submodule.coe_sub, iterate_map_sub, Polynomial.eval_sub, sub_eq_zero]
    exact h k (by omega) hk d hd
  rw [← sub_eq_zero]
  exact Subtype.ext (eq_zero_of_two_points hlt.ne hdeg (hzero s (.inr rfl)) (hzero _ (.inl rfl)))

variable (hcs : (cs.map Constraint.demand).Perm (p.hermiteDemands m))

include hcs

omit hp hm in
lemma exists_target {k d : ℕ} (hk : k < p.knotCount) (hd : d < m k) :
    ∃ target, .constant k d target ∈ cs := by
  obtain ⟨c, hc, heq⟩ := List.mem_map.1 (hcs.mem_iff.2 (mem_hermiteDemands hk hd))
  cases c with
  | constant knot order target =>
    cases heq
    exact ⟨target, hc⟩
  | continuity knot order => cases heq

lemma Meets.unique {r : ℕ} {s : Fin p.segmentCount} {f g : degreeLT ℝ p.coefficientCount}
    (hf : p.Meets cs r s f) (hg : p.Meets cs r s g) : f = g := by
  apply eq_of_derivatives hp hm s
  intro k hk hs d hd
  obtain ⟨target, hc⟩ := exists_target hcs hk hd
  rw [hf k d target hc hs, hg k d target hc hs]

lemma determines_hermite : p.Determines cs := by
  intro f hf
  funext s
  apply eq_of_derivatives hp hm s
  intro k hk hs d hd
  obtain ⟨target, hc⟩ := exists_target hcs hk hd
  rw [hf _ hc s hs]
  simp

lemma fills_hermite {rs : List (Request ℝ)} (hrs : List.Forall₂ p.Asks rs cs) :
    p.Fills cs ∧ p.constrainAll rs = .ok (p.registering cs) := by
  apply hp.fills_of_asks hrs
  rw [← sum_equationCount_hermite hp.two_le_knotCount hm, ← (hcs.map _).sum_eq, List.map_map]
  exact congrArg List.sum (List.map_congr_left fun c _ => (equationCount_demand c).symm)

end Segments

lemma Fills.meets_fittedSpline (h : p.Fills cs) (hdet : p.Determines cs) (r : ℕ)
    (s : Fin p.segmentCount) : p.Meets cs r s (p.fittedSpline cs r s) := by
  intro knot order target hc hs
  exact (h.forall_holds_iff (h.diagonal_ne_zero_iff.2 hdet) r _).2 rfl _ hc s hs

/-- Derivatives at both ends of all segments can be fitted whatever the times and the values are,
and in any order. Each segment is the only polynomial with the derivatives at its ends, so no other
run with the same data there yields another one. -/
theorem hermite_data_is_fitted {times coefficientCount outputCount metadata : Value ℝ}
    {p : Problem ℝ} (hp : create times coefficientCount outputCount metadata = .ok p) {m : ℕ → ℕ}
    (hm : ∀ k, k + 1 < p.knotCount → m k + m (k + 1) = p.coefficientCount)
    {rs : List (Request ℝ)} {cs : List (Constraint ℝ)} (hrs : List.Forall₂ p.Asks rs cs)
    (hcs : (cs.map Constraint.demand).Perm (p.hermiteDemands m)) {tolerance : Value ℝ}
    (ht : tolerance.toNumber = .ok 0) :
    ∃ full fitted, ∃ f : Fin p.outputCount → p.Spline,
      p.constrainAll rs = .ok full ∧ full.rowIndex = p.dimension ∧
      fit { full with rankTolerance := tolerance } = .ok fitted ∧
      fitted.phase.solution? = some (p.coefficients f) ∧
      (∀ (r : Fin p.outputCount) (s : Fin p.segmentCount) (g : degreeLT ℝ p.coefficientCount),
        p.Meets cs r s g ↔ g = f r s) ∧
      ∀ rs' cs' full' fitted' x', List.Forall₂ p.Asks rs' cs' →
        (cs'.map Constraint.demand).Perm (p.hermiteDemands m) → p.constrainAll rs' = .ok full' →
        fit { full' with rankTolerance := tolerance } = .ok fitted' →
        fitted'.phase.solution? = some x' → ∀ s : Fin p.segmentCount,
        (∀ knot order target, (s : ℕ) + 1 = knot ∨ (s : ℕ) = knot →
          .constant knot order target ∈ cs' → .constant knot order target ∈ cs) →
        x'[(s : ℕ)]? = (p.coefficients f)[(s : ℕ)]? := by
  have hf := create_spec hp
  obtain ⟨hfills, hrun⟩ := fills_hermite hf hm hcs hrs
  have hdet := determines_hermite hf hm hcs
  obtain ⟨fitted, hfit⟩ := (hfills.exists_fit_iff ht).2 hdet
  obtain ⟨hx, -⟩ := hfills.fit_spec hfit
  refine ⟨_, fitted, fun r => p.fittedSpline cs r, hrun, hfills.rowIndex_eq, hfit, by rw [hx]; rfl,
    fun r s g => ?_, ?_⟩
  · constructor
    · intro hg
      exact hg.unique hf hm hcs (hfills.meets_fittedSpline hdet r s)
    · rintro rfl
      exact hfills.meets_fittedSpline hdet r s
  · intro rs' cs' full' fitted' x' hrs' hcs' hrun' hfit' hx' s hsame
    obtain ⟨hfills', hreg⟩ := fills_hermite hf hm hcs' hrs'
    obtain rfl := Except.ok.inj (hrun'.symm.trans hreg)
    obtain ⟨rfl, -⟩ := hfills'.fit_spec hfit'
    obtain rfl := Option.some.inj hx'
    have heq : ∀ r, p.fittedSpline cs' r s = p.fittedSpline cs r s := by
      intro r
      have hmeets := hfills.meets_fittedSpline hdet r s
      exact (hfills'.meets_fittedSpline (determines_hermite hf hm hcs') r s).unique hf hm hcs'
        fun knot order target hc hs => hmeets knot order target (hsame knot order target hs hc) hs
    simp [coefficients, heq]

def outerCounts (k : ℕ) : ℕ :=
  if k = 1 then 1 else 3

def outerData : List (Constraint ℝ) :=
  [.constant 2 1 [-1, 0], .constant 0 0 [1, 0], .constant 1 0 [0, 1], .constant 0 2 [0, -1],
    .constant 2 0 [1, 1], .constant 0 1 [0, 1], .constant 2 2 [0, 0]]

theorem outerData_is_fitted : ∃ full fitted, ∃ f : Fin cubic.outputCount → cubic.Spline,
    create (.list [.real (-1), .real 0, .real 1]) (.int 4) (.int 2) (.record []) = .ok cubic ∧
    (∀ k, k + 1 < cubic.knotCount →
      outerCounts k + outerCounts (k + 1) = cubic.coefficientCount) ∧
    List.Forall₂ cubic.Asks (outerData.map Constraint.request) outerData ∧
    (outerData.map Constraint.demand).Perm (cubic.hermiteDemands outerCounts) ∧
    (Value.real 0 : Value ℝ).toNumber = .ok 0 ∧
    cubic.constrainAll (outerData.map Constraint.request) = .ok full ∧
    fit { full with rankTolerance := .real 0 } = .ok fitted ∧
    fitted.phase.solution? = some (cubic.coefficients f) ∧
    cubic.Meets outerData 0 1 (f ⟨0, Nat.two_pos⟩ ⟨1, Nat.one_lt_two⟩) := by
  have hm : ∀ k, k + 1 < cubic.knotCount →
      outerCounts k + outerCounts (k + 1) = cubic.coefficientCount := by
    intro k hk
    have hlt : k < 2 := Nat.lt_of_succ_lt_succ hk
    exact (by decide : ∀ k < 2, outerCounts k + outerCounts (k + 1) = 4) k hlt
  have hasks : List.Forall₂ cubic.Asks (outerData.map Constraint.request) outerData := by
    apply asks_requests
    · simp [outerData, Admits, cubic, knotCount]
    · simp [outerData, Constraint.HasTargets, cubic]
  have hperm : (outerData.map Constraint.demand).Perm (cubic.hermiteDemands outerCounts) :=
    (by decide : [5, 0, 3, 2, 4, 1, 6].Perm (List.range 7)).map fun i =>
      (cubic.hermiteDemands outerCounts).getD i (.continuity 0 0)
  have ht : (Value.real 0 : Value ℝ).toNumber = .ok 0 := rfl
  obtain ⟨full, fitted, f, hrun, -, hfit, hx, hiff, -⟩ :=
    hermite_data_is_fitted create_cubic hm hasks hperm ht
  exact ⟨full, fitted, f, create_cubic, hm, hasks, hperm, ht, hrun, hfit, hx,
    (hiff ⟨0, Nat.two_pos⟩ ⟨1, Nat.one_lt_two⟩ _).2 rfl⟩

end Problem

end KnotSpline
