import KnotSpline.Proofs.FittedCurve

/-! A curve whose segments have the same derivatives at all interior knots up to some order is as
often differentiable, and its derivatives are those of the owning segments. -/

open Polynomial (derivative)
open scoped Polynomial Topology

namespace KnotSpline.Problem

variable {p : Problem ℝ}

noncomputable def piecewise (p : Problem ℝ) (P : ℕ → ℝ[X]) (d : ℕ) (t : ℝ) : ℝ :=
  (derivative^[d] (P (p.segmentOf t))).eval t

def Joins (p : Problem ℝ) (P : ℕ → ℝ[X]) (r : ℕ) : Prop :=
  ∀ s, s + 1 < p.segmentCount → ∀ d ≤ r, (derivative^[d] (P s)).eval (p.times.getD (s + 1) 0) =
    (derivative^[d] (P (s + 1))).eval (p.times.getD (s + 1) 0)

section Neighbourhoods

variable (hs : p.times.Pairwise (· < ·)) (hk : 2 ≤ p.knotCount)

include hs hk

lemma segmentOf_eventually_ge (t : ℝ) : ∀ᶠ u in 𝓝[≥] t, p.segmentOf u = p.segmentOf t := by
  have ht := segmentOf_owns hs hk t
  generalize p.segmentOf t = s at ht
  have hend : ∀ᶠ u in 𝓝[≥] t, s + 1 < p.segmentCount → u < p.times.getD (s + 1) 0 := by
    by_cases h1 : s + 1 < p.segmentCount
    · filter_upwards [mem_nhdsWithin_of_mem_nhds (Iio_mem_nhds (ht.lt_end h1))] with u hu _
      exact hu
    · exact Filter.Eventually.of_forall fun u h => absurd h h1
  filter_upwards [hend, self_mem_nhdsWithin] with u hu htu
  exact (segmentOf_owns hs hk u).unique hs ⟨ht.lt, fun h0 => (ht.start_le h0).trans htu, hu⟩

lemma segmentOf_eventually_lt (t : ℝ) : ∃ s, (∀ᶠ u in 𝓝[<] t, p.segmentOf u = s) ∧
    (s = p.segmentOf t ∨ s + 1 = p.segmentOf t ∧ p.times.getD (s + 1) 0 = t) := by
  have ht := segmentOf_owns hs hk t
  generalize p.segmentOf t = s at ht
  by_cases h0 : 0 < s ∧ p.times.getD s 0 = t
  · obtain ⟨hpos, hst⟩ := h0
    obtain ⟨s, rfl⟩ := Nat.exists_eq_succ_of_ne_zero hpos.ne'
    have hlt : p.times.getD s 0 < t :=
      hst ▸ getD_lt_getD hs (Nat.lt_succ_self s) (ht.lt.trans_le (Nat.sub_le _ _))
    refine ⟨s, ?_, .inr ⟨rfl, hst⟩⟩
    filter_upwards [mem_nhdsWithin_of_mem_nhds (Ioi_mem_nhds hlt), self_mem_nhdsWithin]
      with u hsu hut
    exact (segmentOf_owns hs hk u).unique hs
      ⟨Nat.lt_of_succ_lt ht.lt, fun _ => le_of_lt hsu, fun _ => hst ▸ hut⟩
  · have hlt : 0 < s → p.times.getD s 0 < t := fun hpos =>
      lt_of_le_of_ne (ht.start_le hpos) fun h => h0 ⟨hpos, h⟩
    have hstart : ∀ᶠ u in 𝓝[<] t, 0 < s → p.times.getD s 0 ≤ u := by
      by_cases hpos : 0 < s
      · filter_upwards [mem_nhdsWithin_of_mem_nhds (Ioi_mem_nhds (hlt hpos))] with u hu _
        exact le_of_lt hu
      · exact Filter.Eventually.of_forall fun u h => absurd h hpos
    refine ⟨s, ?_, .inl rfl⟩
    filter_upwards [hstart, self_mem_nhdsWithin] with u hu hut
    exact (segmentOf_owns hs hk u).unique hs
      ⟨ht.lt, hu, fun h1 => lt_trans hut (ht.lt_end h1)⟩

variable {P : ℕ → ℝ[X]} {r : ℕ}

lemma Joins.eventuallyEq_le (hP : p.Joins P r) (t : ℝ) : ∃ s,
    (∀ d ≤ r, p.piecewise P d t = (derivative^[d] (P s)).eval t) ∧
    ∀ d ≤ r, p.piecewise P d =ᶠ[𝓝[≤] t] fun u => (derivative^[d] (P s)).eval u := by
  obtain ⟨s, hlt, hcase⟩ := segmentOf_eventually_lt hs hk t
  have hat : ∀ d ≤ r, p.piecewise P d t = (derivative^[d] (P s)).eval t := by
    intro d hd
    rcases hcase with rfl | ⟨hst, rfl⟩
    · rfl
    · rw [piecewise, ← hst]
      exact (hP s (hst ▸ (segmentOf_owns hs hk _).lt) d hd).symm
  refine ⟨s, hat, fun d hd => ?_⟩
  rw [← Set.Iio_insert, Filter.EventuallyEq, Filter.Eventually, nhdsWithin_insert,
    Filter.mem_sup, Filter.mem_pure]
  refine ⟨hat d hd, ?_⟩
  filter_upwards [hlt] with u hu
  rw [piecewise, hu]

lemma piecewise_eventuallyEq_ge (t : ℝ) (d : ℕ) : p.piecewise P d =ᶠ[𝓝[≥] t]
    fun u => (derivative^[d] (P (p.segmentOf t))).eval u := by
  filter_upwards [segmentOf_eventually_ge hs hk t] with u hu
  rw [piecewise, hu]

lemma Joins.continuous (hP : p.Joins P r) {d : ℕ} (hd : d ≤ r) :
    Continuous (p.piecewise P d) := by
  refine continuous_iff_continuousAt.2 fun t => continuousAt_iff_continuous_left_right.2 ?_
  obtain ⟨s, hat, heq⟩ := hP.eventuallyEq_le hs hk t
  constructor
  · exact (Polynomial.continuous _).continuousWithinAt.congr_of_eventuallyEq (heq d hd) (hat d hd)
  · exact (Polynomial.continuous _).continuousWithinAt.congr_of_eventuallyEq
      (piecewise_eventuallyEq_ge hs hk t d) rfl

lemma Joins.hasDerivAt (hP : p.Joins P r) {d : ℕ} (hd : d + 1 ≤ r) (t : ℝ) :
    HasDerivAt (p.piecewise P d) (p.piecewise P (d + 1) t) t := by
  have hpoly : ∀ f : ℝ[X], HasDerivAt (fun u => (derivative^[d] f).eval u)
      ((derivative^[d + 1] f).eval t) t := by
    intro f
    rw [Function.iterate_succ_apply']
    exact Polynomial.hasDerivAt _ t
  obtain ⟨s, hat, heq⟩ := hP.eventuallyEq_le hs hk t
  have hleft : HasDerivWithinAt (p.piecewise P d) (p.piecewise P (d + 1) t) (Set.Iic t) t := by
    rw [hat (d + 1) hd]
    exact (hpoly (P s)).hasDerivWithinAt.congr_of_eventuallyEq (heq d (Nat.le_of_succ_le hd))
      (hat d (Nat.le_of_succ_le hd))
  have hright : HasDerivWithinAt (p.piecewise P d) (p.piecewise P (d + 1) t) (Set.Ici t) t :=
    (hpoly (P (p.segmentOf t))).hasDerivWithinAt.congr_of_eventuallyEq
      (piecewise_eventuallyEq_ge hs hk t d) rfl
  have := hleft.union hright
  rwa [Set.Iic_union_Ici, hasDerivWithinAt_univ] at this

lemma Joins.iteratedDeriv_eq (hP : p.Joins P r) {d : ℕ} (hd : d ≤ r) :
    iteratedDeriv d (p.piecewise P 0) = p.piecewise P d := by
  induction d with
  | zero => exact iteratedDeriv_zero
  | succ d ih =>
    rw [iteratedDeriv_succ, ih (Nat.le_of_succ_le hd)]
    exact funext fun t => (hP.hasDerivAt hs hk hd t).deriv

theorem Joins.contDiff (hP : p.Joins P r) : ContDiff ℝ r (p.piecewise P 0) := by
  refine contDiff_nat_iff_iteratedDeriv.2 ⟨fun d hd => ?_, fun d hd => ?_⟩
  · rw [hP.iteratedDeriv_eq hs hk hd]
    exact hP.continuous hs hk hd
  · rw [hP.iteratedDeriv_eq hs hk hd.le]
    exact fun t => (hP.hasDerivAt hs hk hd t).differentiableAt

end Neighbourhoods

noncomputable def pieces (f : p.Spline) (s : ℕ) : ℝ[X] :=
  if h : s < p.segmentCount then f ⟨s, h⟩ else 0

lemma pieces_apply (f : p.Spline) (s : Fin p.segmentCount) : pieces f s = f s :=
  dif_pos s.isLt

lemma joins_of_holds {f : p.Spline} {y : Constraint ℝ → ℝ} {cs : List (Constraint ℝ)}
    (hf : ∀ c ∈ cs, p.Holds (y c) f c) {r : ℕ}
    (hr : ∀ knot, 0 < knot → knot + 1 < p.knotCount → ∀ d ≤ r,
      (∃ target, .constant knot d target ∈ cs) ∨ .continuity knot d ∈ cs) :
    p.Joins (pieces f) r := by
  intro s hs d hd
  have hbefore := pieces_apply f ⟨s, Nat.lt_of_succ_lt hs⟩
  have hafter := pieces_apply f ⟨s + 1, hs⟩
  rw [hbefore, hafter]
  rcases hr (s + 1) (Nat.succ_pos s) (Nat.add_lt_of_lt_sub hs) d hd with ⟨target, hc⟩ | hc
  · have h := hf _ hc
    exact (h ⟨s, _⟩ (.inl rfl)).trans (h ⟨s + 1, hs⟩ (.inr rfl)).symm
  · exact hf _ hc ⟨s, _⟩ ⟨s + 1, hs⟩ rfl rfl

lemma fills_of_fit (hp : p.Fresh) {rs : List (Request ℝ)} {tolerance : Value ℝ} {q : Problem ℝ}
    (hq : fit { p.attemptAll rs with rankTolerance := tolerance } = .ok q) :
    p.Fills (p.accepted rs) := by
  have hr := rowIndex_eq_of_fit hq
  rw [hp.attemptAll_eq rs] at hr
  exact hp.fills_accepted (by rw [hp.attemptAll_eq rs]; exact hr)

/-- A curve that has been fitted is as often continuously differentiable on the whole line as
constraints of all orders have been accepted at all interior knots, and interpolation yields its
derivatives. -/
theorem interpolate_contDiff {times coefficientCount outputCount metadata : Value ℝ}
    {p q : Problem ℝ} (hp : create times coefficientCount outputCount metadata = .ok p)
    (rs : List (Request ℝ)) (tolerance : Value ℝ)
    (hq : fit { p.attemptAll rs with rankTolerance := tolerance } = .ok q) {r : ℕ}
    (hr : ∀ knot, 0 < knot → knot + 1 < p.knotCount → ∀ d ≤ r,
      (∃ target, .constant knot d target ∈ p.accepted rs) ∨
        .continuity knot d ∈ p.accepted rs) :
    ∃ y : ℕ → ℝ → Fin p.outputCount → ℝ,
      (∀ (d : ℕ) (t : ℝ) (time : Time ℝ) (order : Value ℝ), time.toScalar = .ok t →
        order.int? = some (d : ℤ) → q.interpolate time order = .ok (List.ofFn (y d t))) ∧
      ∀ i, ContDiff ℝ r (fun t => y 0 t i) ∧
        ∀ d ≤ r, ∀ t, iteratedDeriv d (fun t => y 0 t i) t = y d t i := by
  have hf := create_spec hp
  have hfills := fills_of_fit hf hq
  have hinc := pairwise_of_differences hf.increasing
  have h2 := hf.two_le_knotCount
  rw [hf.attemptAll_eq rs] at hq
  obtain ⟨-, hiff⟩ := hfills.fit_spec hq
  have hjoins : ∀ i : Fin p.outputCount,
      p.Joins (pieces (p.fittedSpline (p.accepted rs) i)) r := fun i =>
    joins_of_holds ((hiff i _).2 rfl) hr
  refine ⟨fun d t i => p.piecewise (pieces (p.fittedSpline (p.accepted rs) i)) d t, ?_, fun i =>
    ⟨(hjoins i).contDiff hinc h2, fun d hd t =>
      congrFun ((hjoins i).iteratedDeriv_eq hinc h2 hd) t⟩⟩
  intro d t time order ht ho
  have hs := (segmentOf_owns hinc h2 t).lt
  rw [hfills.interpolate_eq hq ht ho (s := ⟨_, hs⟩) rfl]
  congr 2
  funext i
  exact congrArg (fun f => (derivative^[d] f).eval t) (pieces_apply _ _).symm

noncomputable def stairs : Problem ℝ where
  times := [-1, 0, 1]
  coefficientCount := 1
  outputCount := 1
  rowIndex := 0
  phase := .building (emptySystem 2 1)
  rankTolerance := .null
  metadata := []

def stairsRequests : List (Request ℝ) :=
  [.constant (.int 0) (.int 0) (.real 3), .continuity (.int 1) (.int 0)]

def stairsConstraints : List (Constraint ℝ) :=
  [.constant 0 0 [3], .continuity 1 0]

lemma create_stairs : create (.list [.real (-1), .real 0, .real 1]) (.int 1) (.int 1) (.record []) =
    .ok stairs := by
  have hk : knotTimes (.list [.real (-1), .real 0, .real 1]) = .ok [(-1 : ℝ), 0, 1] := by
    have harray : (Value.list [.real (-1), .real 0, .real 1]).toArray =
        .ok (.vector [(-1 : ℝ), 0, 1]) :=
      Value.toArray_reals [-1, 0, 1]
    simp [knotTimes, harray, NumArray.vector, differences, bind, Except.bind, pure, Except.pure]
  have hc : count 1 .coefficientCount (.int 1 : Value ℝ) = .ok 1 :=
    (count_eq_ok_iff (by omega)).2 ⟨rfl, by omega⟩
  have ho : count 0 .outputCount (.int 1 : Value ℝ) = .ok 1 :=
    (count_eq_ok_iff (by omega)).2 ⟨rfl, by omega⟩
  have hx : checkExtents 1 (([(-1 : ℝ), 0, 1].length - 1) * 1) 1 =
      (.ok () : Except (Fault ℝ) Unit) := rfl
  simp only [create, hk, hc, ho, hx, bind, Except.bind]
  rfl

lemma registrable_stairs : stairs.Registrable stairsConstraints ∧
    stairs.accepted stairsRequests = stairsConstraints := by
  have hr1 : (stairs.registering []).resolve (.constant (.int 0) (.int 0) (.real 3)) =
      .ok (.constant 0 0 [3]) := rfl
  obtain ⟨h1, hs1⟩ := (Fresh.registrable_nil stairs).step hr1
  rw [List.nil_append] at h1 hs1
  have hr2 : (stairs.registering [.constant 0 0 [3]]).resolve (.continuity (.int 1) (.int 0)) =
      .ok (.continuity 1 0) := rfl
  obtain ⟨h2, hs2⟩ := h1.step hr2
  refine ⟨h2, ?_⟩
  change (stairs.registering []).accepted _ = _
  rw [stairsRequests, accepted, hr1, hs1]
  dsimp only
  rw [accepted, hr2, hs2]
  rfl

lemma fills_stairs : stairs.Fills stairsConstraints :=
  ⟨registrable_stairs.1, rfl⟩

lemma determines_stairs : stairs.Determines stairsConstraints := by
  have hconst : ∀ (f : Polynomial.degreeLT ℝ 1) (t : ℝ), (f : ℝ[X]).eval t = 0 → f = 0 := by
    intro f t h
    refine Subtype.ext (Polynomial.eq_zero_of_degree_lt_of_eval_finset_eq_zero {t} ?_ (by simpa))
    simpa using Polynomial.mem_degreeLT.1 f.2
  intro f hf
  have h0 := hf (.constant 0 0 [3]) List.mem_cons_self ⟨0, Nat.two_pos⟩ (.inr rfl)
  have h1 := hf (.continuity 1 0) (by simp [stairsConstraints]) ⟨0, Nat.two_pos⟩
    ⟨1, Nat.one_lt_two⟩ rfl rfl
  have hf0 : f ⟨0, Nat.two_pos⟩ = 0 := hconst _ _ h0
  rw [hf0] at h1
  have hf1 : f ⟨1, Nat.one_lt_two⟩ = 0 := hconst _ _ (h1.symm.trans Polynomial.eval_zero)
  funext s
  match s with
  | ⟨0, _⟩ => exact hf0
  | ⟨1, _⟩ => exact hf1

theorem interpolate_stairs_contDiff : ∃ (q : Problem ℝ) (y : ℝ → ℝ),
    create (.list [.real (-1), .real 0, .real 1]) (.int 1) (.int 1) (.record []) = .ok stairs ∧
    fit { stairs.attemptAll stairsRequests with rankTolerance := .real 0 } = .ok q ∧
    (∀ t, q.interpolate (.given t) (.int 0) = .ok [y t]) ∧ ContDiff ℝ 0 y := by
  obtain ⟨q, hq⟩ : ∃ q, fit { stairs.attemptAll stairsRequests with
      rankTolerance := .real 0 } = .ok q := by
    rw [(create_spec create_stairs).attemptAll_eq, registrable_stairs.2]
    exact (fills_stairs.exists_fit_iff rfl).2 determines_stairs
  obtain ⟨y, hy, hc⟩ := interpolate_contDiff create_stairs stairsRequests (.real 0) hq (r := 0) (by
    intro knot h0 hk d hd
    have hk' : knot + 1 < 3 := hk
    obtain rfl : knot = 1 := by omega
    obtain rfl : d = 0 := by omega
    rw [registrable_stairs.2]
    exact .inr (by simp [stairsConstraints]))
  exact ⟨q, fun t => y 0 t ⟨0, Nat.one_pos⟩, create_stairs, hq,
    fun t => hy 0 t (.given t) (.int 0) rfl rfl, (hc ⟨0, Nat.one_pos⟩).1⟩

end KnotSpline.Problem
