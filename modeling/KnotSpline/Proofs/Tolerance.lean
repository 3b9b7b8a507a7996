import KnotSpline.Proofs.Solvability

/-! The default tolerance of the rank test: it refuses every system that determines no spline, and
besides only systems that are close to such a one. -/

open scoped Polynomial

namespace KnotSpline

open Matrix

lemma Step.exists_longest {n : ℕ} {columns : List (List ℝ)} (h : SquareColumns n columns)
    (hn : 0 < n) : ∃ k : Fin n,
      (∀ j, columnLengthSq (columnMatrix n columns) j ≤
        columnLengthSq (columnMatrix n columns) k) ∧
      columnLengthSq (columnMatrix n columns) k =
        (((factor n columns).head?.map Step.diagonal).getD 0) ^ 2 := by
  obtain ⟨n, rfl⟩ := Nat.exists_eq_add_of_lt hn
  rw [Nat.zero_add] at h ⊢
  have hr := ofColumns_reduces h
  refine ⟨⟨_, hr.pivot_lt⟩, fun j => ?_, ?_⟩
  · rw [hr.length_pivot]
    exact hr.length_le j
  · rw [hr.length_pivot, factor_succ]
    rfl

namespace Problem

lemma defaultTolerance_eq (p : Problem ℝ) (steps : List (Step ℝ)) :
    p.defaultTolerance steps =
      p.dimension * 2⁻¹ ^ 52 * |(steps.head?.map Step.diagonal).getD 0| := rfl

lemma defaultTolerance_nonneg (p : Problem ℝ) (steps : List (Step ℝ)) :
    0 ≤ p.defaultTolerance steps := by
  rw [defaultTolerance_eq]
  positivity

lemma rank_of_null {α : Type} [Scalar α] {p : Problem α} (h : p.rankTolerance = .null)
    (steps : List (Step α)) : p.rank steps = .ok (Step.rank (p.defaultTolerance steps) steps) := by
  rw [rank, h]
  rfl

variable {p : Problem ℝ} {cs : List (Constraint ℝ)}

namespace Fills

variable (h : p.Fills cs)

include h

lemma exists_rank_eq (hp : 0 < p.dimension) : ∃ (k : Fin p.dimension)
    (E : Matrix (Fin p.dimension) (Fin p.dimension) ℝ),
    (∀ j, columnLengthSq (p.constraintMatrix cs) j ≤
      columnLengthSq (p.constraintMatrix cs) k) ∧
    (∀ j, columnLengthSq E j ≤
      (p.dimension * 2⁻¹ ^ 52) ^ 2 * columnLengthSq (p.constraintMatrix cs) k) ∧
    (p.constraintMatrix cs - E).rank =
      Step.rank (p.defaultTolerance (p.steps cs)) (p.steps cs) := by
  obtain ⟨k, hmax, hk⟩ := Step.exists_longest h.squareColumns hp
  obtain ⟨E, hE, hrank⟩ := Step.exists_rank_eq h.squareColumns
    (p.defaultTolerance_nonneg (p.steps cs))
  rw [columnMatrix_constraints] at hmax hk hrank
  refine ⟨k, E, hmax, fun j => (hE j).trans_eq ?_, hrank⟩
  rw [hk, defaultTolerance_eq, mul_pow, sq_abs]
  rfl

lemma fit_of_null (hn : p.rankTolerance = .null) : fit (p.registering cs) =
    if ∃ s ∈ p.steps cs, |s.diagonal| ≤ p.defaultTolerance (p.steps cs) then
      .error (.singular (Step.rank (p.defaultTolerance (p.steps cs)) (p.steps cs)) p.dimension)
    else .ok { p.registering cs with
      phase := .fitted (cs.flatMap p.equations)
        (p.coefficients fun r => p.fittedSpline cs r) } :=
  h.fit_of_rank (p.defaultTolerance_nonneg _) (rank_of_null hn _)

end Fills

lemma Fresh.dimension_pos {α : Type} [Scalar α] {p : Problem α} (h : p.Fresh) :
    0 < p.dimension :=
  Nat.mul_pos (Nat.sub_pos_of_lt h.two_le_knotCount) h.one_le_coefficientCount

lemma fit_line_of_far {a : ℝ} (ha : 2 ^ 26 ≤ a) (b y v : ℝ) :
    fit ((line a b).registering (lineConstraints y v)) = .error (.singular 1 2) := by
  have hpos : 0 < a := lt_of_lt_of_le (by positivity) ha
  have hm := diagonal_steps_line hpos b y v
  have hd : (line a b).dimension = 2 := rfl
  have hsq : √(a ^ 2 + 1) ^ 2 = a ^ 2 + 1 := Real.sq_sqrt (by positivity)
  have hl : 0 < √(a ^ 2 + 1) := Real.sqrt_pos.2 (by positivity)
  rw [(fills_line a b y v).fit_of_null rfl, hd]
  generalize (line a b).steps (lineConstraints y v) = steps at *
  generalize √(a ^ 2 + 1) = l at *
  have ht : (line a b).defaultTolerance steps = 2 * 2⁻¹ ^ 52 * l := by
    rw [defaultTolerance_eq, ← List.head?_map, hm, List.head?_cons, Option.getD_some, abs_neg,
      abs_of_pos hl, hd, Nat.cast_ofNat]
  have h1 : 2 * 2⁻¹ ^ 52 * l < |-l| := by
    rw [abs_neg, abs_of_pos hl]
    nlinarith
  have h2 : |-(1 / l)| ≤ 2 * 2⁻¹ ^ 52 * l := by
    rw [abs_neg, abs_of_pos (by positivity), div_le_iff₀ hl]
    nlinarith
  have hrank : Step.rank (2 * 2⁻¹ ^ 52 * l) steps = 1 := by
    have hc : Step.rank (2 * 2⁻¹ ^ 52 * l) steps =
        (steps.map Step.diagonal).countP fun d => decide (2 * 2⁻¹ ^ 52 * l < |d|) := by
      rw [Step.rank, List.countP_map]
      rfl
    rw [hc, hm, List.countP_cons_of_pos (by simpa using h1),
      List.countP_cons_of_neg (by simpa using h2), List.countP_nil]
  have hs : ∃ s ∈ steps, |s.diagonal| ≤ 2 * 2⁻¹ ^ 52 * l := by
    rw [← Step.rank_lt_iff, hrank, ← List.length_map (f := Step.diagonal), hm]
    simp
  rw [ht, if_pos hs, hrank]

/-- With the default tolerance, a fit of a full system returns or reports that the system is
singular. It returns only if the constraints determine a spline. A rank that it reports is that of a
matrix whose columns differ from those of the system by no more than the tolerance times the length
of the longest column. -/
theorem fit_default_tolerance {times coefficientCount outputCount metadata : Value ℝ}
    {p : Problem ℝ} (hp : create times coefficientCount outputCount metadata = .ok p)
    (rs : List (Request ℝ)) (hfull : (p.attemptAll rs).rowIndex = p.dimension) :
    ((∃ q, (p.attemptAll rs).fit = .ok q) ∨
      ∃ k < p.dimension, (p.attemptAll rs).fit = .error (.singular k p.dimension)) ∧
    ((∃ q, (p.attemptAll rs).fit = .ok q) →
      ∀ y : ℕ → ℝ, ∃! f : p.Spline, ∀ i c, (p.accepted rs)[i]? = some c → p.Holds (y i) f c) ∧
    ∃ rows, (p.attemptAll rs).leftRows? = some rows ∧
      ∀ k u, (p.attemptAll rs).fit = .error (.singular k u) →
        ∃ (longest : Fin p.dimension) (E : Matrix (Fin p.dimension) (Fin p.dimension) ℝ),
          (∀ j, columnLengthSq (rowMatrix p.dimension rows) j ≤
            columnLengthSq (rowMatrix p.dimension rows) longest) ∧
          (∀ j, columnLengthSq E j ≤ (p.dimension * 2⁻¹ ^ 52) ^ 2 *
            columnLengthSq (rowMatrix p.dimension rows) longest) ∧
          (rowMatrix p.dimension rows - E).rank = k := by
  have hf := create_spec hp
  have hr := hf.fills_accepted hfull
  obtain ⟨longest, E, hmax, hE, hrank⟩ := hr.exists_rank_eq hf.dimension_pos
  have hlt := Step.rank_lt_iff (p.defaultTolerance (p.steps (p.accepted rs)))
    (p.steps (p.accepted rs))
  have h0 := p.defaultTolerance_nonneg (p.steps (p.accepted rs))
  rw [length_steps] at hlt
  rw [hf.attemptAll_eq rs, hr.fit_of_null hf.rankTolerance_eq]
  refine ⟨?_, fun hq => hr.determines_iff.1 ?_, _, hr.leftRows_eq, fun k u hk => ?_⟩
  · split
    · next hs => exact .inr ⟨_, hlt.2 hs, rfl⟩
    · exact .inl ⟨_, rfl⟩
  · split at hq
    · obtain ⟨q, hq⟩ := hq
      cases hq
    · next hs =>
      refine hr.diagonal_ne_zero_iff.1 fun s hm hz => hs ⟨s, hm, ?_⟩
      rwa [hz, abs_zero]
  · split at hk
    · obtain ⟨rfl, -⟩ := Fault.singular.inj (Except.error.inj hk)
      exact ⟨longest, E, hmax, hE, hrank⟩
    · cases hk

theorem far_line_is_nearly_singular :
    create (.list [.real 1700000000, .real 1700000001]) (.int 2) (.int 1) (.record []) =
      .ok (line 1700000000 1700000001) ∧
    ((line 1700000000 1700000001).attemptAll (lineRequests 0 1)).rowIndex =
      (line 1700000000 1700000001).dimension ∧
    ((line 1700000000 1700000001).attemptAll (lineRequests 0 1)).leftRows? =
      some [[1, 1700000000], [0, 1]] ∧
    ∃ (longest : Fin 2) (E : Matrix (Fin 2) (Fin 2) ℝ),
      (∀ j, columnLengthSq E j ≤ (2 * 2⁻¹ ^ 52) ^ 2 *
        columnLengthSq (rowMatrix 2 [[1, 1700000000], [0, 1]]) longest) ∧
      (rowMatrix 2 [[1, 1700000000], [0, 1]] - E).rank = 1 := by
  have hlt : (1700000000 : ℝ) < 1700000001 := by norm_num
  have hc := create_line hlt
  have hr := rowIndex_attemptAll_line hlt 0 1
  have hfit := fit_line_of_far (by norm_num : (2 : ℝ) ^ 26 ≤ 1700000000) 1700000001 0 1
  have hleft := (fills_line 1700000000 1700000001 0 1).leftRows_eq
  rw [flatMap_equations_line] at hleft
  rw [← attemptAll_line hlt] at hfit hleft
  obtain ⟨-, -, rows, hrows, hnear⟩ := fit_default_tolerance hc (lineRequests 0 1) hr
  obtain rfl := Option.some_inj.1 (hrows.symm.trans hleft)
  obtain ⟨longest, E, -, hE, hrank⟩ := hnear 1 2 hfit
  have hd : (line 1700000000 1700000001).dimension = 2 := rfl
  have h2 : ((line 1700000000 1700000001).dimension : ℝ) = 2 := by rw [hd, Nat.cast_ofNat]
  rw [h2] at hE
  exact ⟨hc, hr, hleft, longest, E, hE, hrank⟩

/-- A system can be refused although its constraints determine a spline. -/
theorem far_line_is_refused :
    create (.list [.real 1700000000, .real 1700000001]) (.int 2) (.int 1) (.record []) =
      .ok (line 1700000000 1700000001) ∧
    ((line 1700000000 1700000001).attemptAll (lineRequests 0 1)).rowIndex =
      (line 1700000000 1700000001).dimension ∧
    (∀ y : ℕ → ℝ, ∃! f : (line 1700000000 1700000001).Spline, ∀ i c,
      ((line 1700000000 1700000001).accepted (lineRequests 0 1))[i]? = some c →
        (line 1700000000 1700000001).Holds (y i) f c) ∧
    ((line 1700000000 1700000001).attemptAll (lineRequests 0 1)).fit = .error (.singular 1 2) := by
  have hc := create_line (by norm_num : (1700000000 : ℝ) < 1700000001)
  have hr := fills_line 1700000000 1700000001 0 1
  have hdet := determines_line (by norm_num : (0 : ℝ) < 1700000000) 1700000001 0 1
  rw [(create_spec hc).attemptAll_eq, accepted_line]
  refine ⟨hc, hr.rowIndex_eq, hr.determines_iff.1 hdet, ?_⟩
  exact fit_line_of_far (by norm_num) _ _ _

end Problem

end KnotSpline
