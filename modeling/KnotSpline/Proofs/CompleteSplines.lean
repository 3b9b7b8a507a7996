import KnotSpline.Proofs.Acceptance
import KnotSpline.Proofs.Energy
import KnotSpline.Proofs.Smoothness

/-! Complete splines: the value at every knot, derivatives at both ends and as much continuity as is
left. They are determined for all times: without values the energy grows along the segments, does
not jump at the knots and vanishes at both ends. -/

open Polynomial (derivative)
open scoped Polynomial

namespace KnotSpline

def Constraint.demand {α : Type} : Constraint α → Constraint α
  | constant knot order _ => constant knot order []
  | continuity knot order => continuity knot order

namespace Problem

/-- The values at all knots, the derivatives of orders below `q` at both ends, and continuity of
orders up to `2 q - 2` at the knots between them. -/
def completeDemands {α : Type} (p : Problem α) (q : ℕ) : List (Constraint α) :=
  (List.range p.knotCount).map (fun k => .constant k 0 []) ++
  (List.Ico 1 q).flatMap (fun d => [.constant 0 d [], .constant p.segmentCount d []]) ++
  (List.Ico 1 p.segmentCount).flatMap fun k => (List.Ico 1 (2 * q - 1)).map (.continuity k)

section Counting

variable {α : Type} {p : Problem α}

lemma equationCount_demand (c : Constraint α) : p.equationCount c.demand = p.equationCount c := by
  cases c <;> rfl

variable (h : 2 ≤ p.knotCount)

include h

lemma equationCount_constant {k : ℕ} (hk : k < p.knotCount) (d : ℕ) (target : List α) :
    p.equationCount (.constant k d target) =
      (if 0 < k then 1 else 0) + if k < p.segmentCount then 1 else 0 := by
  have hm := segmentCount_add_one h
  rw [equationCount]
  split <;> split <;> split <;> omega

lemma sum_equationCount_values : (((List.range p.knotCount).map fun k =>
    Constraint.constant k 0 []).map p.equationCount).sum = 2 * p.segmentCount := by
  have hm := segmentCount_add_one h
  have hafter : ∑ k ∈ Finset.range (p.segmentCount + 1), (if 0 < k then 1 else 0) =
      p.segmentCount := by
    rw [Finset.sum_range_succ']
    simp
  have hbefore : ∑ k ∈ Finset.range (p.segmentCount + 1),
      (if k < p.segmentCount then 1 else 0) = p.segmentCount := by
    rw [Finset.sum_range_succ,
      Finset.sum_congr rfl fun k hk => if_pos (Finset.mem_range.1 hk)]
    simp
  rw [List.map_map]
  change ∑ k ∈ Finset.range p.knotCount, p.equationCount (.constant k 0 []) = _
  rw [Finset.sum_congr rfl fun k hk => equationCount_constant h (Finset.mem_range.1 hk) 0 [],
    Finset.sum_add_distrib, ← hm, hafter, hbefore, two_mul]

lemma sum_equationCount_ends (q : ℕ) : (((List.Ico 1 q).flatMap fun d =>
    [Constraint.constant 0 d [], .constant p.segmentCount d []]).map p.equationCount).sum =
      2 * (q - 1) := by
  have hm := segmentCount_add_one h
  rw [List.map_flatMap, List.flatMap_def, List.sum_flatten, List.map_map]
  simp [Function.comp_def, equationCount, hm, ← two_mul, mul_comm]

omit h in
lemma sum_equationCount_joins (q : ℕ) : (((List.Ico 1 p.segmentCount).flatMap fun k =>
    (List.Ico 1 (2 * q - 1)).map (Constraint.continuity k)).map p.equationCount).sum =
      (p.segmentCount - 1) * (2 * q - 2) := by
  rw [List.map_flatMap, List.flatMap_def, List.sum_flatten, List.map_map]
  simp [equationCount, Function.comp_def, Nat.sub_sub]

lemma sum_equationCount_complete {q : ℕ} (hq : 1 ≤ q) (hn : p.coefficientCount = 2 * q) :
    ((p.completeDemands q).map p.equationCount).sum = p.dimension := by
  have hm := segmentCount_add_one h
  obtain ⟨m, hm'⟩ := Nat.exists_eq_add_of_le (show 1 ≤ p.segmentCount by omega)
  obtain ⟨r, rfl⟩ := Nat.exists_eq_add_of_le hq
  rw [completeDemands, List.map_append, List.map_append, List.sum_append, List.sum_append,
    sum_equationCount_values h, sum_equationCount_ends h, sum_equationCount_joins, dimension, hn,
    hm']
  have h1 : 1 + r - 1 = r := by omega
  have h2 : 1 + m - 1 = m := by omega
  have h3 : 2 * (1 + r) - 2 = 2 * r := by omega
  rw [h1, h2, h3]
  ring

end Counting

section Energies

variable {p : Problem ℝ} {P : ℕ → ℝ[X]} {q : ℕ}

structure CompleteZero (p : Problem ℝ) (q : ℕ) (P : ℕ → ℝ[X]) : Prop where
  degree_lt : ∀ s < p.segmentCount, (P s).degree < (2 * q : ℕ)
  eval_start : ∀ s < p.segmentCount, (P s).eval (p.times.getD s 0) = 0
  eval_end : ∀ s < p.segmentCount, (P s).eval (p.times.getD (s + 1) 0) = 0
  first : ∀ d < q, (derivative^[d] (P 0)).eval (p.times.getD 0 0) = 0
  last : ∀ d < q,
    (derivative^[d] (P (p.segmentCount - 1))).eval (p.times.getD p.segmentCount 0) = 0
  joins : p.Joins P (2 * q - 2)

lemma eval_energy (f : ℝ[X]) (t : ℝ) : (energy q f).eval t = ∑ j ∈ Finset.range q,
    (-1) ^ j * ((derivative^[q - 1 - j] f).eval t * (derivative^[q + j] f).eval t) := by
  simp [energy, Polynomial.eval_finsetSum]

lemma eval_energy_eq_zero {f : ℝ[X]} {t : ℝ} (h : ∀ d < q, (derivative^[d] f).eval t = 0) :
    (energy q f).eval t = 0 := by
  rw [eval_energy]
  refine Finset.sum_eq_zero fun j hj => ?_
  have := Finset.mem_range.1 hj
  rw [h (q - 1 - j) (by omega), zero_mul, mul_zero]

namespace CompleteZero

lemma energy_join (h : p.CompleteZero q P) {s : ℕ} (hs : s + 1 < p.segmentCount) :
    (energy q (P s)).eval (p.times.getD (s + 1) 0) =
      (energy q (P (s + 1))).eval (p.times.getD (s + 1) 0) := by
  rw [eval_energy, eval_energy]
  refine Finset.sum_congr rfl fun j hj => ?_
  have hjq := Finset.mem_range.1 hj
  -- in the last product the higher derivative may jump, but the value is zero
  rcases Nat.eq_or_lt_of_le (Nat.le_sub_one_of_lt hjq) with rfl | hlt
  · simp only [Nat.sub_self, Function.iterate_zero_apply]
    rw [h.eval_end s (by omega), h.eval_start (s + 1) hs, zero_mul, zero_mul]
  · rw [h.joins s hs (q - 1 - j) (by omega), h.joins s hs (q + j) (by omega)]

variable (hinc : p.times.Pairwise (· < ·))

include hinc

lemma lt_times (hk : 2 ≤ p.knotCount) {s : ℕ} (hs : s < p.segmentCount) :
    p.times.getD s 0 < p.times.getD (s + 1) 0 := by
  have hl : p.times.length = p.segmentCount + 1 := (segmentCount_add_one hk).symm
  exact getD_lt_getD hinc (Nat.lt_succ_self s) (by omega)

variable (hk : 2 ≤ p.knotCount) (h : p.CompleteZero q P)

include hk h

lemma energy_start_nonneg {s : ℕ} (hs : s < p.segmentCount) :
    0 ≤ (energy q (P s)).eval (p.times.getD s 0) := by
  induction s with
  | zero => exact (eval_energy_eq_zero h.first).ge
  | succ s ih =>
    have hs' : s < p.segmentCount := by omega
    rw [← h.energy_join hs]
    exact (ih hs').trans (monotone_energy (h.degree_lt s hs') (lt_times hinc hk hs').le)

lemma energy_end_nonpos {s : ℕ} (hs : s < p.segmentCount) :
    (energy q (P s)).eval (p.times.getD (s + 1) 0) ≤ 0 := by
  obtain ⟨k, hsk⟩ := Nat.exists_eq_add_of_lt hs
  induction k generalizing s with
  | zero =>
    have hlast := eval_energy_eq_zero h.last
    rw [hsk] at hlast
    exact hlast.le
  | succ k ih =>
    have hs' : s + 1 < p.segmentCount := by omega
    rw [h.energy_join hs']
    exact (monotone_energy (h.degree_lt _ hs') (lt_times hinc hk hs').le).trans
      (ih hs' (by omega))

lemma iterate_derivative_eq_zero {s : ℕ} (hs : s < p.segmentCount) :
    derivative^[q] (P s) = 0 :=
  iterate_derivative_eq_zero_of_energy (h.degree_lt s hs) (lt_times hinc hk hs)
    ((energy_end_nonpos hinc hk h hs).trans (energy_start_nonneg hinc hk h hs))

lemma eq_zero_of_start {s : ℕ} (hs : s < p.segmentCount)
    (hlow : ∀ d < q, (derivative^[d] (P s)).eval (p.times.getD s 0) = 0) : P s = 0 := by
  refine eq_zero_of_iterate_derivative (t := p.times.getD s 0) fun d => ?_
  rcases lt_or_ge d q with hd | hd
  · exact hlow d hd
  · obtain ⟨e, rfl⟩ := Nat.exists_eq_add_of_le' hd
    rw [Function.iterate_add_apply, iterate_derivative_eq_zero hinc hk h hs,
      Polynomial.iterate_derivative_zero, Polynomial.eval_zero]

theorem eq_zero {s : ℕ} (hs : s < p.segmentCount) : P s = 0 := by
  induction s with
  | zero => exact eq_zero_of_start hinc hk h hs h.first
  | succ s ih =>
    -- the segment before is zero, so this one starts with zero derivatives
    refine eq_zero_of_start hinc hk h hs fun d hd => ?_
    rw [← h.joins s hs d (by omega), ih (by omega), Polynomial.iterate_derivative_zero,
      Polynomial.eval_zero]

end CompleteZero

lemma holds_demand {y : ℝ} {f : p.Spline} (c : Constraint ℝ) :
    p.Holds y f c.demand ↔ p.Holds y f c := by
  cases c <;> rfl

section Demands

variable {α : Type} {p : Problem α} {q d : ℕ}

lemma value_mem_completeDemands (q : ℕ) {k : ℕ} (hk : k < p.knotCount) :
    .constant k 0 [] ∈ p.completeDemands q := by
  simp [completeDemands, hk]

lemma ends_mem_completeDemands (hk : 2 ≤ p.knotCount) (hd : d < q) :
    .constant 0 d [] ∈ p.completeDemands q ∧
      .constant p.segmentCount d [] ∈ p.completeDemands q := by
  have hm := segmentCount_add_one hk
  rcases Nat.eq_zero_or_pos d with rfl | h0
  · exact ⟨value_mem_completeDemands q (by omega), value_mem_completeDemands q (by omega)⟩
  · have hmem : d ∈ List.Ico 1 q := List.Ico.mem.2 ⟨h0, hd⟩
    simp only [completeDemands, List.mem_append, List.mem_flatMap]
    exact ⟨.inl (.inr ⟨d, hmem, by simp⟩), .inl (.inr ⟨d, hmem, by simp⟩)⟩

lemma joins_mem_completeDemands {k : ℕ} (h0 : 0 < k) (hk : k + 1 < p.knotCount)
    (hd : d ≤ 2 * q - 2) : (∃ target, .constant k d target ∈ p.completeDemands q) ∨
      .continuity k d ∈ p.completeDemands q := by
  rcases Nat.eq_zero_or_pos d with rfl | hd0
  · exact .inl ⟨[], value_mem_completeDemands q (Nat.lt_of_succ_lt hk)⟩
  · have hlt := lt_segmentCount hk
    refine .inr (List.mem_append_right _ (List.mem_flatMap.2 ⟨k, List.Ico.mem.2 ⟨h0, hlt⟩, ?_⟩))
    exact List.mem_map.2 ⟨d, List.Ico.mem.2 ⟨hd0, by omega⟩, rfl⟩

end Demands

lemma completeZero_of_holds (hk : 2 ≤ p.knotCount) (hn : p.coefficientCount = 2 * q)
    {f : p.Spline} (hf : ∀ c ∈ p.completeDemands q, p.Holds 0 f c) :
    p.CompleteZero q (pieces f) := by
  have hm := segmentCount_add_one hk
  have hpiece : ∀ s (hs : s < p.segmentCount), pieces f s = f ⟨s, hs⟩ := fun s hs =>
    pieces_apply f ⟨s, hs⟩
  refine ⟨fun s hs => ?_, fun s hs => ?_, fun s hs => ?_, fun d hd => ?_, fun d hd => ?_, ?_⟩
  · rw [hpiece s hs, ← hn]
    exact Polynomial.mem_degreeLT.1 (f ⟨s, hs⟩).2
  · rw [hpiece s hs]
    exact hf _ (value_mem_completeDemands q (by omega)) ⟨s, hs⟩ (.inr rfl)
  · rw [hpiece s hs]
    exact hf _ (value_mem_completeDemands q (by omega)) ⟨s, hs⟩ (.inl rfl)
  · rw [hpiece 0 (by omega)]
    exact hf _ (ends_mem_completeDemands hk hd).1 ⟨0, by omega⟩ (.inr rfl)
  · rw [hpiece (p.segmentCount - 1) (by omega)]
    exact hf _ (ends_mem_completeDemands hk hd).2 ⟨p.segmentCount - 1, by omega⟩
      (.inl (by simp only; omega))
  · exact joins_of_holds (y := fun _ => 0) hf fun k h0 hlt d hd =>
      joins_mem_completeDemands h0 hlt hd

end Energies

variable {p : Problem ℝ} {q : ℕ} {cs : List (Constraint ℝ)}

theorem determines_complete (hp : p.Fresh) (hn : p.coefficientCount = 2 * q)
    (hcs : (cs.map Constraint.demand).Perm (p.completeDemands q)) : p.Determines cs := by
  intro f hf
  have hdemand : ∀ c ∈ p.completeDemands q, p.Holds 0 f c := by
    intro c hc
    obtain ⟨b, hb, rfl⟩ := List.mem_map.1 (hcs.mem_iff.2 hc)
    exact (holds_demand b).2 (hf b hb)
  have hzero := completeZero_of_holds hp.two_le_knotCount hn hdemand
  funext s
  apply Subtype.ext
  rw [← pieces_apply]
  exact hzero.eq_zero (pairwise_of_differences hp.increasing) hp.two_le_knotCount s.isLt

/-- A complete spline can be fitted whatever the times and the values are: in any order all its
constraints are accepted, they fill the system, and a fit without a tolerance returns. -/
theorem complete_spline_is_fitted {times coefficientCount outputCount metadata : Value ℝ}
    {p : Problem ℝ} (hp : create times coefficientCount outputCount metadata = .ok p) {q : ℕ}
    (hn : p.coefficientCount = 2 * q) {rs : List (Request ℝ)} {cs : List (Constraint ℝ)}
    (hrs : List.Forall₂ p.Asks rs cs)
    (hcs : (cs.map Constraint.demand).Perm (p.completeDemands q)) {tolerance : Value ℝ}
    (ht : tolerance.toNumber = .ok 0) :
    ∃ full fitted, p.constrainAll rs = .ok full ∧ full.rowIndex = p.dimension ∧
      fit { full with rankTolerance := tolerance } = .ok fitted := by
  have hf := create_spec hp
  have hq : 1 ≤ q := by
    have := hf.one_le_coefficientCount
    omega
  have hrows : (cs.map p.equationCount).sum = p.dimension := by
    rw [← sum_equationCount_complete hf.two_le_knotCount hq hn, ← (hcs.map _).sum_eq, List.map_map]
    exact congrArg List.sum (List.map_congr_left fun c _ => (equationCount_demand c).symm)
  obtain ⟨hfills, hrun⟩ := hf.fills_of_asks hrs hrows
  obtain ⟨fitted, hfit⟩ := (hfills.exists_fit_iff ht).2 (determines_complete hf hn hcs)
  exact ⟨_, fitted, hrun, hfills.rowIndex_eq, hfit⟩

noncomputable def cubic : Problem ℝ where
  times := [-1, 0, 1]
  coefficientCount := 4
  outputCount := 2
  rowIndex := 0
  phase := .building (emptySystem 8 2)
  rankTolerance := .null
  metadata := []

def cubicConstraints : List (Constraint ℝ) :=
  [.constant 0 1 [0, 0], .constant 0 0 [1, 0], .constant 1 0 [0, 1], .continuity 1 1,
    .continuity 1 2, .constant 2 0 [1, -1], .constant 2 1 [0, 1]]

lemma create_cubic : create (.list [.real (-1), .real 0, .real 1]) (.int 4) (.int 2) (.record []) =
    .ok cubic := by
  have hs : cubic.Sized := by
    refine ⟨by decide, fun t _ => rfl, ?_, by decide, rfl, fun x hx => by cases hx⟩
    norm_num [cubic, differences]
  exact create_again hs

theorem cubic_is_fitted : ∃ full fitted,
    create (.list [.real (-1), .real 0, .real 1]) (.int 4) (.int 2) (.record []) = .ok cubic ∧
    cubic.coefficientCount = 2 * 2 ∧
    List.Forall₂ cubic.Asks (cubicConstraints.map Constraint.request) cubicConstraints ∧
    (cubicConstraints.map Constraint.demand).Perm (cubic.completeDemands 2) ∧
    (Value.real 0 : Value ℝ).toNumber = .ok 0 ∧
    cubic.constrainAll (cubicConstraints.map Constraint.request) = .ok full ∧
    fit { full with rankTolerance := .real 0 } = .ok fitted := by
  have hasks : List.Forall₂ cubic.Asks (cubicConstraints.map Constraint.request)
      cubicConstraints := by
    apply asks_requests
    · simp [cubicConstraints, Admits, cubic, knotCount]
    · simp [cubicConstraints, Constraint.HasTargets, cubic]
  have hperm : (cubicConstraints.map Constraint.demand).Perm (cubic.completeDemands 2) :=
    (by decide : [3, 0, 1, 5, 6, 2, 4].Perm (List.range 7)).map fun i =>
      (cubic.completeDemands 2).getD i (.continuity 0 0)
  have ht : (Value.real 0 : Value ℝ).toNumber = .ok 0 := rfl
  obtain ⟨full, fitted, hrun, -, hfit⟩ :=
    complete_spline_is_fitted create_cubic rfl hasks hperm ht
  exact ⟨full, fitted, create_cubic, rfl, hasks, hperm, ht, hrun, hfit⟩

end Problem

end KnotSpline
