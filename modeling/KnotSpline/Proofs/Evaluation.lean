import KnotSpline.Proofs.Segments

/-! Evaluation is exact differentiation. The row for a time and an order maps the coefficients of a
polynomial to its formal derivative at that time, and interpolation applies it to the segment that
owns the time. -/

open Polynomial (C X derivative)
open scoped Polynomial

namespace KnotSpline

namespace Problem

variable {p : Problem ℝ} {x : Solution ℝ}

lemma evaluationVector_of_real? (p : Problem ℝ) {t : Time ℝ} {u : ℝ} (h : t.real? = some u)
    (d : ℕ) :
    p.evaluationVector t (.int d) = .ok (derivativeVector p.coefficientCount u d) :=
  (p.evaluationVector_of_int? t rfl).trans
    (KnotSpline.evaluationVector_of_real? h p.coefficientCount d)

lemma HasSolution.exists_block (h : p.HasSolution x) {s : ℕ} (hs : s < p.segmentCount) :
    ∃ block, x[s]? = some block ∧ block.length = p.outputCount ∧
      ∀ row ∈ block, row.length = p.coefficientCount := by
  have hlt : s < x.length := h.1.symm ▸ hs
  exact ⟨x[s], List.getElem?_eq_getElem hlt, h.2 _ (List.getElem_mem hlt)⟩

/-- Interpolation yields, for each output, the formal derivative of the polynomial that the segment
owning the time has for that output, evaluated at the time: for all orders, also from the number of
coefficients on, and wherever the time is. The row that it is computed with does so for all
coefficients, of segments or not. -/
theorem interpolation_is_differentiation :
    (∀ {ops : List (Operation ℝ)} {id : ℕ} {p : Problem ℝ} {x : Solution ℝ},
      (Store.empty.run ops).problems[id]? = some p → p.phase.solution? = some x →
      ∀ (t : Time ℝ) (u : ℝ), t.toScalar = .ok u → ∀ d : ℕ, ∃ s block,
        p.segmentIndex t = .ok s ∧ x[s]? = some block ∧ block.length = p.outputCount ∧
        (∀ row ∈ block, row.length = p.coefficientCount) ∧
        p.interpolate t (.int d) = .ok (block.map fun row =>
          (derivative^[d] (∑ j ∈ Finset.range p.coefficientCount,
            C (row.getD j 0) * X ^ j)).eval u)) ∧
    ∀ (p : Problem ℝ) (cs : List ℝ), cs.length = p.coefficientCount →
      ∀ (t : Time ℝ) (u : ℝ), t.real? = some u → ∀ d : ℕ, ∃ v,
        p.evaluationVector t (.int d) = .ok v ∧
        dot v cs = (derivative^[d] (∑ j ∈ Finset.range p.coefficientCount,
          C (cs.getD j 0) * X ^ j)).eval u := by
  constructor
  · intro ops id p x hp hx t u ht d
    have hz := sized_of_mem_run (List.mem_of_getElem? hp)
    have hs := hz.hasSolution x hx
    have howns := segmentOf_owns (pairwise_of_differences hz.increasing) hz.two_le_knotCount u
    obtain ⟨block, hb, hm, hn⟩ := hs.exists_block howns.lt
    refine ⟨p.segmentOf u, block, segmentIndex_eq_ok_iff.2 ⟨u, ht, rfl⟩, hb, hm, hn, ?_⟩
    rw [interpolate_of_solution hx hs ht rfl, segmentDerivative, List.getD_eq_getElem?_getD, hb]
    refine congrArg Except.ok (List.map_congr_left fun row hr => ?_)
    rw [series_eq_toPolynomial (hn row hr), toPolynomial_eq_sum]
  · intro p cs hl t u ht d
    refine ⟨_, p.evaluationVector_of_real? ht d, ?_⟩
    rw [dot_derivativeVector hl, toPolynomial_eq_sum]

theorem interpolation_of_line_is_differentiation : ∃ (p : Problem ℝ) (x : Solution ℝ) (v : List ℝ),
    (Store.empty.run [.load (lineRecord (1 : ℝ) 2 3 4)]).problems[0]? = some p ∧
    p.phase.solution? = some x ∧ p.interpolate (.given (-5)) (.int 1) = .ok [4] ∧
    p.evaluationVector (.whole (2 ^ 70)) (.int 0) = .ok v ∧ dot v [3, 4] = 3 + 4 * 2 ^ 70 := by
  have hp := problem_run_line one_lt_two 3 4
  obtain ⟨s, block, hs, hb, -, -, hi⟩ := interpolation_is_differentiation.1 hp rfl
    (.given (-5)) (-5) rfl 1
  obtain ⟨v, hv, hdot⟩ := interpolation_is_differentiation.2
    { line 1 2 with rowIndex := 2, phase := .loaded [[[3, 4]]] } [3, 4] rfl
    (.whole (2 ^ 70)) _ rfl 0
  have hblock : block = [[3, 4]] := by
    obtain rfl : s = 0 := Nat.lt_one_iff.1 (List.getElem?_eq_some_iff.1 hb).1
    exact (Option.some_inj.1 hb).symm
  refine ⟨_, _, v, hp, rfl, ?_, hv, ?_⟩
  · rw [Nat.cast_one] at hi
    rw [hi, hblock]
    simp [line, Finset.sum_range_succ]
  · rw [hdot]
    norm_num [line, Finset.sum_range_succ]

end Problem

end KnotSpline
