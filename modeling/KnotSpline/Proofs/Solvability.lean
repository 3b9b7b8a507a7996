import KnotSpline.Proofs.Fitting

/-! When constraints determine a spline, and what a fit without a tolerance makes of it. -/

open Polynomial (derivative)
open scoped Polynomial

namespace KnotSpline

open Matrix

lemma rank_eq_iff {n : ℕ} (M : Matrix (Fin n) (Fin n) ℝ) :
    M.rank = n ↔ ∀ v, M *ᵥ v = 0 → v = 0 := by
  have hm := rank_add_finrank_ker M
  have hk : Module.finrank ℝ (LinearMap.ker M.mulVecLin) = 0 ↔ ∀ v, M *ᵥ v = 0 → v = 0 := by
    rw [Submodule.finrank_eq_zero, LinearMap.ker_eq_bot']
    rfl
  rw [← hk]
  omega

namespace Step

lemma rank_zero_eq {n : ℕ} {columns : List (List ℝ)} (h : SquareColumns n columns) :
    rank 0 (factor n columns) = (columnMatrix n columns).rank := by
  obtain ⟨E, hE, hrank⟩ := exists_rank_eq h le_rfl
  have h0 : E = 0 := by
    ext i j
    have hle : columnLengthSq E j ≤ 0 := by simpa using hE j
    have hge : 0 ≤ columnLengthSq E j := by
      rw [columnLengthSq, dotProduct]
      exact Finset.sum_nonneg fun i _ => mul_self_nonneg (E.col j i)
    exact congrFun (dotProduct_self_eq_zero.1 (le_antisymm hle hge)) i
  rw [← hrank, h0, sub_zero]

lemma rank_lt_iff (tolerance : ℝ) (steps : List (Step ℝ)) :
    rank tolerance steps < steps.length ↔ ∃ s ∈ steps, |s.diagonal| ≤ tolerance := by
  rw [rank, List.countP_lt_length_iff]
  simp

end Step

def Constraint.withValue (y : ℝ) : Constraint ℝ → Constraint ℝ
  | constant knot order _ => constant knot order [y]
  | continuity knot order => continuity knot order

namespace Problem

variable {p : Problem ℝ} {cs : List (Constraint ℝ)}

section Values

lemma map_left_withValue (y : ℝ) (c : Constraint ℝ) :
    (p.equations (c.withValue y)).map Equation.left = (p.equations c).map Equation.left := by
  cases c with
  | constant knot order target => simp [Constraint.withValue, equations]
  | continuity knot order => rfl

lemma admits_withValue (y : ℝ) (c : Constraint ℝ) : p.Admits (c.withValue y) ↔ p.Admits c := by
  cases c <;> rfl

lemma holds_withValue (y : ℝ) (f : p.Spline) (c : Constraint ℝ) :
    p.Holds ((c.withValue y).value 0) f (c.withValue y) ↔ p.Holds y f c := by
  cases c <;> rfl

def withValues (y : ℕ → ℝ) (cs : List (Constraint ℝ)) : List (Constraint ℝ) :=
  cs.mapIdx fun i c => c.withValue (y i)

lemma map_left_withValues (y : ℕ → ℝ) (cs : List (Constraint ℝ)) :
    ((withValues y cs).flatMap p.equations).map Equation.left =
      (cs.flatMap p.equations).map Equation.left := by
  induction cs generalizing y with
  | nil => rfl
  | cons c cs ih =>
    rw [withValues, List.mapIdx_cons, List.flatMap_cons, List.map_append, map_left_withValue,
      List.flatMap_cons, List.map_append]
    exact congrArg _ (ih fun i => y (i + 1))

lemma length_withValues (y : ℕ → ℝ) (cs : List (Constraint ℝ)) :
    ((withValues y cs).flatMap p.equations).length = (cs.flatMap p.equations).length := by
  have hl := congrArg List.length (map_left_withValues (p := p) y cs)
  rwa [List.length_map, List.length_map] at hl

lemma constraintMatrix_withValues (y : ℕ → ℝ) (cs : List (Constraint ℝ)) :
    p.constraintMatrix (withValues y cs) = p.constraintMatrix cs := by
  rw [constraintMatrix, map_left_withValues, constraintMatrix]

lemma steps_withValues (y : ℕ → ℝ) (cs : List (Constraint ℝ)) :
    p.steps (withValues y cs) = p.steps cs := by
  rw [steps, triangular, map_left_withValues, steps, triangular]

lemma Fills.withValues (h : p.Fills cs) (y : ℕ → ℝ) : p.Fills (withValues y cs) where
  admits := by
    intro c hc
    obtain ⟨i, hi, rfl⟩ := List.mem_mapIdx.1 hc
    exact (admits_withValue _ _).2 (h.admits _ (List.getElem_mem hi))
  length_le := (length_withValues y cs).trans_le h.length_le
  length_eq := (length_withValues y cs).trans h.length_eq

lemma forall_holds_withValues (y : ℕ → ℝ) (cs : List (Constraint ℝ)) (f : p.Spline) :
    (∀ c ∈ withValues y cs, p.Holds (c.value 0) f c) ↔
      ∀ i c, cs[i]? = some c → p.Holds (y i) f c := by
  rw [List.forall_mem_iff_forall_getElem]
  constructor
  · intro h i c hc
    obtain ⟨hi, rfl⟩ := List.getElem?_eq_some_iff.1 hc
    have hh := h i (by simpa [withValues] using hi)
    simpa [withValues, holds_withValue] using hh
  · intro h i hi
    have hi' : i < cs.length := by simpa [withValues] using hi
    have hh := h i cs[i] (List.getElem?_eq_getElem hi')
    simpa [withValues, holds_withValue] using hh

lemma vec_replicate_zero (n m : ℕ) : vec n (List.replicate m 0) = 0 := by
  funext i
  simp [vec]

lemma vec_targets_zero (n : ℕ) (cs : List (Constraint ℝ)) :
    vec n (p.targets (withValues (fun _ => 0) cs) 0) = 0 := by
  have hz : ∀ row ∈ ((withValues (fun _ => 0) cs).flatMap p.equations).map Equation.right,
      row.getD 0 0 = 0 := by
    intro row hrow
    simp only [List.mem_map, List.mem_flatMap, withValues, List.mem_mapIdx] at hrow
    obtain ⟨e, ⟨c, ⟨i, hi, rfl⟩, he⟩, rfl⟩ := hrow
    cases hc : cs[i] with
    | constant knot order target =>
      simp only [hc, Constraint.withValue, equations, List.mem_map] at he
      obtain ⟨s, -, rfl⟩ := he
      rfl
    | continuity knot order =>
      simp only [hc, Constraint.withValue, equations, List.mem_singleton] at he
      simp [he]
  rw [targets, Table.column, List.map_congr_left hz, List.map_const', vec_replicate_zero]

end Values

/-- With all values zero, no spline but the zero spline satisfies the constraints. -/
def Determines (p : Problem ℝ) (cs : List (Constraint ℝ)) : Prop :=
  ∀ f : p.Spline, (∀ c ∈ cs, p.Holds 0 f c) → f = 0

lemma splineOf_replicate_zero : p.splineOf (List.replicate p.dimension 0) = 0 := by
  funext s
  apply Subtype.ext
  rw [splineOf_apply, List.drop_replicate, List.take_replicate, toPolynomial, vec_replicate_zero,
    Polynomial.ofFn_zero]
  rfl

lemma eq_zero_iff (f : p.Spline) : f = 0 ↔ vec p.dimension (p.unknowns f) = 0 := by
  rw [← splineOf_replicate_zero, eq_splineOf_iff List.length_replicate, vec_replicate_zero]

namespace Fills

variable (h : p.Fills cs)

include h

lemma mulVec_eq_zero_iff {x : List ℝ} (hx : x.length = p.dimension) :
    p.constraintMatrix cs *ᵥ vec p.dimension x = 0 ↔ ∀ c ∈ cs, p.Holds 0 (p.splineOf x) c := by
  have hiff := (h.withValues fun _ => 0).mulVec_eq_iff hx 0
  rw [vec_targets_zero, constraintMatrix_withValues, forall_holds_withValues] at hiff
  rw [hiff]
  constructor
  · intro hc c hm
    obtain ⟨i, hi⟩ := List.mem_iff_getElem?.1 hm
    exact hc i c hi
  · intro hc i c hi
    exact hc c (List.mem_of_getElem? hi)

theorem rank_eq_iff : (p.constraintMatrix cs).rank = p.dimension ↔ p.Determines cs := by
  rw [KnotSpline.rank_eq_iff]
  constructor
  · intro hv f hf
    rw [eq_zero_iff]
    apply hv
    rwa [h.mulVec_eq_zero_iff (length_unknowns f), splineOf_unknowns]
  · intro hdet v hv
    have hx : (List.ofFn v).length = p.dimension := List.length_ofFn
    rw [← vec_ofFn v, h.mulVec_eq_zero_iff hx] at hv
    have h0 := (eq_zero_iff _).1 (hdet _ hv)
    rwa [unknowns_splineOf hx, vec_ofFn] at h0

lemma rank_steps : Step.rank 0 (p.steps cs) = (p.constraintMatrix cs).rank := by
  rw [steps, triangular, Step.rank_zero_eq h.squareColumns, columnMatrix_constraints]

lemma diagonal_ne_zero_iff : (∀ s ∈ p.steps cs, s.diagonal ≠ 0) ↔ p.Determines cs := by
  have hlt := Step.rank_lt_iff 0 (p.steps cs)
  have hle := (p.constraintMatrix cs).rank_le_width
  rw [length_steps, h.rank_steps] at hlt
  rw [← h.rank_eq_iff, ← hle.not_lt_iff_eq, hlt]
  simp

theorem determines_iff : p.Determines cs ↔
    ∀ y : ℕ → ℝ, ∃! f : p.Spline, ∀ i c, cs[i]? = some c → p.Holds (y i) f c := by
  constructor
  · intro hdet y
    have hz : ∀ s ∈ p.steps (Problem.withValues y cs), s.diagonal ≠ 0 := by
      rw [steps_withValues]
      exact h.diagonal_ne_zero_iff.2 hdet
    have hiff := (h.withValues y).forall_holds_iff hz 0
    simp only [forall_holds_withValues] at hiff
    exact ⟨_, (hiff _).2 rfl, fun g hg => (hiff g).1 hg⟩
  · intro hu f hf
    refine (hu fun _ => 0).unique (fun i c hc => hf c (List.mem_of_getElem? hc)) fun i c _ => ?_
    cases c <;> simp [Holds]

lemma fit_of_rank {tolerance : Value ℝ} {bound : ℝ} (h0 : 0 ≤ bound)
    (hrank : rank { p with rankTolerance := tolerance } (p.steps cs) =
      .ok (Step.rank bound (p.steps cs))) :
    fit { p.registering cs with rankTolerance := tolerance } =
      if ∃ s ∈ p.steps cs, |s.diagonal| ≤ bound then
        .error (.singular (Step.rank bound (p.steps cs)) p.dimension)
      else .ok { p.registering cs with
        rankTolerance := tolerance
        phase := .fitted (cs.flatMap p.equations)
          (p.coefficients fun r => p.fittedSpline cs r) } := by
  have hlt := Step.rank_lt_iff bound (p.steps cs)
  rw [length_steps] at hlt
  rw [h.fit_eq, hrank]
  dsimp only [bind, Except.bind]
  rw [if_congr hlt rfl rfl]
  split
  · rfl
  · next hb =>
    refine if_neg fun hz => hb ?_
    obtain ⟨-, s, hs, hz⟩ := hz
    exact ⟨s, hs, by rwa [hz, abs_zero]⟩

end Fills

lemma rank_of_toNumber {α : Type} [Scalar α] {p : Problem α} {bound : α}
    (h : p.rankTolerance.toNumber = .ok bound) (steps : List (Step α)) :
    p.rank steps = .ok (Step.rank bound steps) := by
  have hv : p.rank steps = p.rankTolerance.toNumber >>= fun b => pure (Step.rank b steps) := by
    rw [rank]
    cases ht : p.rankTolerance <;> rw [ht] at h <;> first | rfl | cases h
  rw [hv, h]
  rfl

namespace Fills

variable {tolerance : Value ℝ} (h : p.Fills cs) (ht : tolerance.toNumber = .ok 0)

include h ht

lemma fit_without_tolerance : fit { p.registering cs with rankTolerance := tolerance } =
    if ∃ s ∈ p.steps cs, |s.diagonal| ≤ 0 then
      .error (.singular (p.constraintMatrix cs).rank p.dimension)
    else .ok { p.registering cs with
      rankTolerance := tolerance
      phase := .fitted (cs.flatMap p.equations)
        (p.coefficients fun r => p.fittedSpline cs r) } := by
  rw [← h.rank_steps]
  exact h.fit_of_rank le_rfl (rank_of_toNumber ht _)

lemma exists_fit_iff :
    (∃ q, fit { p.registering cs with rankTolerance := tolerance } = .ok q) ↔
      p.Determines cs := by
  rw [h.fit_without_tolerance ht, ← h.diagonal_ne_zero_iff]
  split
  · next hz =>
    obtain ⟨s, hs, hz⟩ := hz
    exact iff_of_false (by simp) fun h => h s hs (abs_nonpos_iff.1 hz)
  · next hz =>
    exact iff_of_true ⟨_, rfl⟩ fun s hs h0 => hz ⟨s, hs, by rw [h0, abs_zero]⟩

lemma fit_eq_singular
    (hno : ¬∃ q, fit { p.registering cs with rankTolerance := tolerance } = .ok q) :
    fit { p.registering cs with rankTolerance := tolerance } =
      .error (.singular (p.constraintMatrix cs).rank p.dimension) := by
  rw [h.fit_without_tolerance ht] at hno ⊢
  split at hno
  · next hz => exact if_pos hz
  · exact absurd ⟨_, rfl⟩ hno

end Fills

/-- Without a tolerance, a fit of a full system returns exactly if its constraints determine a
spline, that is, if there is one and only one spline for any values. Otherwise it reports the rank
of the rows. -/
theorem fit_returns_iff {times coefficientCount outputCount metadata : Value ℝ} {p : Problem ℝ}
    (hp : create times coefficientCount outputCount metadata = .ok p) (rs : List (Request ℝ))
    {tolerance : Value ℝ} (ht : tolerance.toNumber = .ok 0)
    (hfull : (p.attemptAll rs).rowIndex = p.dimension) :
    ((∃ q, fit { p.attemptAll rs with rankTolerance := tolerance } = .ok q) ↔
      ∀ y : ℕ → ℝ, ∃! f : p.Spline, ∀ i c, (p.accepted rs)[i]? = some c → p.Holds (y i) f c) ∧
    ((∃ q, fit { p.attemptAll rs with rankTolerance := tolerance } = .ok q) ↔
      ∀ f : p.Spline, (∀ c ∈ p.accepted rs, p.Holds 0 f c) → f = 0) ∧
    ((¬∃ q, fit { p.attemptAll rs with rankTolerance := tolerance } = .ok q) →
      ∃ rows, (p.attemptAll rs).leftRows? = some rows ∧
        fit { p.attemptAll rs with rankTolerance := tolerance } =
          .error (.singular (rowMatrix p.dimension rows).rank p.dimension)) := by
  have hf := create_spec hp
  have hr := hf.fills_accepted hfull
  rw [hf.attemptAll_eq rs]
  have hok := hr.exists_fit_iff ht
  exact ⟨hok.trans hr.determines_iff, hok, fun hno =>
    ⟨_, hr.leftRows_eq, hr.fit_eq_singular ht hno⟩⟩

lemma determines_line {a : ℝ} (ha : 0 < a) (b y v : ℝ) :
    (line a b).Determines (lineConstraints y v) := by
  refine (fills_line a b y v).diagonal_ne_zero_iff.1 fun s hs h0 => ?_
  have hm := List.mem_map_of_mem (f := Step.diagonal) hs
  have hl : 0 < √(a ^ 2 + 1) := Real.sqrt_pos.2 (by positivity)
  rw [diagonal_steps_line ha, h0] at hm
  exact hl.ne (by simpa [eq_comm] using hm)

lemma exists_fit_line {a b : ℝ} (ha : 0 < a) (h : a < b) (y v : ℝ) {tolerance : Value ℝ}
    (ht : tolerance.toNumber = .ok 0) :
    ∃ q, fit { (line a b).attemptAll (lineRequests y v) with rankTolerance := tolerance } =
      .ok q := by
  rw [attemptAll_line h]
  exact ((fills_line a b y v).exists_fit_iff ht).2 (determines_line ha b y v)

theorem fit_line_returns : create (.list [.real 1, .real 2]) (.int 2) (.int 1) (.record []) =
      .ok (line 1 2) ∧
    (Value.real 0 : Value ℝ).toNumber = .ok 0 ∧
    ((line 1 2).attemptAll (lineRequests 3 4)).rowIndex = (line 1 2).dimension ∧
    ∃ q, fit { (line 1 2).attemptAll (lineRequests 3 4) with rankTolerance := .real 0 } =
      .ok q := by
  have hc := create_line (one_lt_two : (1 : ℝ) < 2)
  have hr := rowIndex_attemptAll_line (one_lt_two : (1 : ℝ) < 2) 3 4
  refine ⟨hc, rfl, hr, (fit_returns_iff hc (lineRequests 3 4) rfl hr).2.1.2 ?_⟩
  rw [accepted_line]
  exact determines_line one_pos 2 3 4

end Problem

end KnotSpline
