import KnotSpline.Proofs.Acceptance
import KnotSpline.Proofs.Gram
import KnotSpline.Proofs.Tolerance

/-! The order in which constraints are registered makes no difference: neither to what is accepted,
nor to whether a fit returns, nor to its rank and its curve. -/

open scoped Polynomial

namespace KnotSpline

open Matrix

lemma gram_rowMatrix {n : ℕ} {rows : List (List ℝ)} (h : rows.length = n) (i j : Fin n) :
    gram (rowMatrix n rows) i j = (rows.map fun row => vec n row i * vec n row j).sum := by
  subst h
  rw [← Fin.sum_univ_fun_getElem, gram_apply, dotProduct]
  refine Finset.sum_congr rfl fun k _ => ?_
  simp [rowMatrix]

lemma gram_rowMatrix_perm {n : ℕ} {rows rows' : List (List ℝ)} (h : rows.length = n)
    (hp : rows.Perm rows') : gram (rowMatrix n rows) = gram (rowMatrix n rows') := by
  ext i j
  rw [gram_rowMatrix h, gram_rowMatrix (hp.length_eq.symm.trans h)]
  exact (hp.map _).sum_eq

lemma Step.rank_congr {steps steps' : List (Step ℝ)}
    (h : steps.map (fun s => |s.diagonal|) = steps'.map fun s => |s.diagonal|) (tolerance : ℝ) :
    rank tolerance steps = rank tolerance steps' := by
  have hr : ∀ steps : List (Step ℝ), rank tolerance steps =
      (steps.map fun s => |s.diagonal|).countP fun d => decide (tolerance < d) := by
    intro steps
    rw [List.countP_map]
    rfl
  rw [hr, h, ← hr]

namespace Problem

variable {p : Problem ℝ} {cs cs' : List (Constraint ℝ)}

lemma defaultTolerance_congr {steps steps' : List (Step ℝ)}
    (h : steps.map (fun s => |s.diagonal|) = steps'.map fun s => |s.diagonal|) :
    p.defaultTolerance steps = p.defaultTolerance steps' := by
  have hd : ∀ steps : List (Step ℝ), |(steps.head?.map Step.diagonal).getD 0| =
      (steps.map fun s => |s.diagonal|).headD 0 := by
    intro steps
    cases steps <;> simp
  rw [defaultTolerance_eq, defaultTolerance_eq, hd, h, ← hd]

def IsTolerance (tolerance : Value ℝ) : Prop :=
  tolerance = .null ∨ ∃ bound, tolerance.toNumber = .ok bound ∧ 0 ≤ bound

lemma IsTolerance.exists_bound {tolerance : Value ℝ} (ht : IsTolerance tolerance) (p : Problem ℝ)
    {steps steps' : List (Step ℝ)}
    (h : steps.map (fun s => |s.diagonal|) = steps'.map fun s => |s.diagonal|) :
    ∃ bound, 0 ≤ bound ∧
      rank { p with rankTolerance := tolerance } steps = .ok (Step.rank bound steps) ∧
      rank { p with rankTolerance := tolerance } steps' = .ok (Step.rank bound steps') := by
  rcases ht with rfl | ⟨bound, hb, h0⟩
  · refine ⟨_, p.defaultTolerance_nonneg steps, rank_of_null rfl steps, ?_⟩
    rw [defaultTolerance_congr h]
    exact rank_of_null rfl steps'
  · exact ⟨bound, h0, rank_of_toNumber hb steps, rank_of_toNumber hb steps'⟩

namespace Fills

lemma perm (h : p.Fills cs) (hp : cs.Perm cs') : p.Fills cs' := by
  have hl := (hp.flatMap_right p.equations).length_eq
  exact ⟨⟨fun c hc => h.admits c (hp.mem_iff.2 hc), hl.ge.trans h.length_le⟩,
    hl.symm.trans h.length_eq⟩

lemma diagonal_steps_perm (h : p.Fills cs) (hp : cs.Perm cs') :
    (p.steps cs).map (fun s => |s.diagonal|) = (p.steps cs').map fun s => |s.diagonal| := by
  refine Step.factor_congr h.squareColumns (h.perm hp).squareColumns ?_
  rw [columnMatrix_constraints, columnMatrix_constraints]
  refine gram_rowMatrix_perm (by rw [List.length_map, h.length_eq]) ?_
  exact (hp.flatMap_right p.equations).map Equation.left

lemma fittedSpline_perm (h : p.Fills cs) (hp : cs.Perm cs')
    (hz : ∀ s ∈ p.steps cs, s.diagonal ≠ 0) (hz' : ∀ s ∈ p.steps cs', s.diagonal ≠ 0) (r : ℕ) :
    p.fittedSpline cs r = p.fittedSpline cs' r := by
  refine ((h.perm hp).forall_holds_iff hz' r _).1 fun c hc => ?_
  exact (h.forall_holds_iff hz r _).2 rfl c (hp.mem_iff.2 hc)

theorem fit_perm (h : p.Fills cs) (hp : cs.Perm cs') {tolerance : Value ℝ}
    (ht : IsTolerance tolerance) :
    (∃ q q' x, fit { p.registering cs with rankTolerance := tolerance } = .ok q ∧
      fit { p.registering cs' with rankTolerance := tolerance } = .ok q' ∧
      q.phase.solution? = some x ∧ q'.phase.solution? = some x ∧
      ∀ t order, q.interpolate t order = q'.interpolate t order) ∨
    ∃ k < p.dimension,
      fit { p.registering cs with rankTolerance := tolerance } =
        .error (.singular k p.dimension) ∧
      fit { p.registering cs' with rankTolerance := tolerance } =
        .error (.singular k p.dimension) := by
  have hd := h.diagonal_steps_perm hp
  obtain ⟨bound, h0, hr, hr'⟩ := ht.exists_bound p hd
  have hlt := Step.rank_lt_iff bound (p.steps cs)
  have hlt' := Step.rank_lt_iff bound (p.steps cs')
  rw [length_steps] at hlt hlt'
  rw [← Step.rank_congr hd] at hlt'
  rw [h.fit_of_rank h0 hr, (h.perm hp).fit_of_rank h0 hr', ← Step.rank_congr hd]
  by_cases hk : Step.rank bound (p.steps cs) < p.dimension
  · right
    exact ⟨_, hk, if_pos (hlt.1 hk), if_pos (hlt'.1 hk)⟩
  · have hne : ∀ steps : List (Step ℝ), (¬∃ s ∈ steps, |s.diagonal| ≤ bound) →
        ∀ s ∈ steps, s.diagonal ≠ 0 := by
      intro steps hs s hm hz
      exact hs ⟨s, hm, by rwa [hz, abs_zero]⟩
    have hs := mt hlt.2 hk
    have hs' := mt hlt'.2 hk
    have hx : (p.coefficients fun r => p.fittedSpline cs r) =
        p.coefficients fun r => p.fittedSpline cs' r :=
      congrArg p.coefficients (funext fun r => h.fittedSpline_perm hp (hne _ hs) (hne _ hs') r)
    left
    exact ⟨_, _, _, if_neg hs, if_neg hs', rfl, congrArg some hx.symm, fun t order => by
      rw [interpolate, interpolate, solution, solution]
      simp only [Phase.solution?, hx]
      rfl⟩

end Fills

/-- Requests in range that fill the system are accepted in every order, and all orders have the same
outcome: the same coefficients and the same curve, or the same rank. -/
theorem registration_order {times coefficientCount outputCount metadata : Value ℝ}
    {p : Problem ℝ} (hp : create times coefficientCount outputCount metadata = .ok p)
    {rs rs' : List (Request ℝ)} (hperm : rs'.Perm rs) {cs : List (Constraint ℝ)}
    (hrs : List.Forall₂ p.Asks rs cs) (hrows : (cs.map p.equationCount).sum = p.dimension)
    {tolerance : Value ℝ} (ht : IsTolerance tolerance) :
    ∃ full full', p.constrainAll rs = .ok full ∧ p.constrainAll rs' = .ok full' ∧
      ((∃ q q' x, fit { full with rankTolerance := tolerance } = .ok q ∧
        fit { full' with rankTolerance := tolerance } = .ok q' ∧
        q.phase.solution? = some x ∧ q'.phase.solution? = some x ∧
        ∀ t order, q.interpolate t order = q'.interpolate t order) ∨
      ∃ k < p.dimension,
        fit { full with rankTolerance := tolerance } = .error (.singular k p.dimension) ∧
        fit { full' with rankTolerance := tolerance } =
          .error (.singular k p.dimension)) := by
  have hf := create_spec hp
  obtain ⟨cs', hrs', hcs⟩ := List.perm_comp_forall₂ hperm hrs
  obtain ⟨hfills, hrun⟩ := hf.fills_of_asks hrs hrows
  obtain ⟨-, hrun'⟩ := hf.fills_of_asks hrs' (((hcs.map _).sum_eq).trans hrows)
  exact ⟨_, _, hrun, hrun', hfills.fit_perm hcs.symm ht⟩

theorem registration_order_of_line : ∃ full full' q q' x,
    create (.list [.real 1, .real 2]) (.int 2) (.int 1) (.record []) = .ok (line 1 2) ∧
    ((lineConstraints 3 4).map Constraint.request).reverse.Perm
      ((lineConstraints 3 4).map Constraint.request) ∧
    List.Forall₂ (line 1 2).Asks ((lineConstraints 3 4).map Constraint.request)
      (lineConstraints 3 4) ∧
    ((lineConstraints 3 4).map (line 1 2).equationCount).sum = (line 1 2).dimension ∧
    IsTolerance (.real 0) ∧
    (line 1 2).constrainAll ((lineConstraints 3 4).map Constraint.request) = .ok full ∧
    (line 1 2).constrainAll ((lineConstraints 3 4).map Constraint.request).reverse = .ok full' ∧
    fit { full with rankTolerance := .real 0 } = .ok q ∧
    fit { full' with rankTolerance := .real 0 } = .ok q' ∧
    q.phase.solution? = some x ∧ q'.phase.solution? = some x := by
  have hc := create_line (one_lt_two : (1 : ℝ) < 2)
  have hperm := List.reverse_perm ((lineConstraints 3 4).map Constraint.request)
  have hasks : List.Forall₂ (line 1 2).Asks ((lineConstraints 3 4).map Constraint.request)
      (lineConstraints 3 4) :=
    asks_requests (fills_line 1 2 3 4).admits
      (by simp [lineConstraints, Constraint.HasTargets, line])
  have hrows : ((lineConstraints 3 4).map (line 1 2).equationCount).sum = (line 1 2).dimension :=
    rfl
  have ht : IsTolerance (.real 0) := .inr ⟨0, rfl, le_rfl⟩
  obtain ⟨full, full', hrun, hrun', h⟩ := registration_order hc hperm hasks hrows ht
  obtain ⟨hfills, hfull⟩ := (create_spec hc).fills_of_asks hasks hrows
  obtain rfl := Except.ok.inj (hrun.symm.trans hfull)
  have h0 : (Value.real 0 : Value ℝ).toNumber = .ok 0 := rfl
  obtain ⟨q, hq⟩ := (hfills.exists_fit_iff h0).2 (determines_line one_pos 2 3 4)
  rcases h with ⟨q, q', x, hq, hq', hx, hx', -⟩ | ⟨k, -, hk, -⟩
  · exact ⟨_, full', q, q', x, hc, hperm, hasks, hrows, ht, hrun, hrun', hq, hq', hx, hx'⟩
  · cases hk.symm.trans hq

end Problem

end KnotSpline
