import KnotSpline.Proofs.StraightLine

/-! The linear system after any run of constraint requests: which rows it holds, and what the
product of a row with the coefficients of all segments is. -/

open Polynomial (derivative)
open scoped Polynomial

namespace KnotSpline

lemma dot_blocks {m n : ℕ} {f g : ℕ → List ℝ} (hf : ∀ i < m, (f i).length = n)
    (hg : ∀ i < m, (g i).length = n) :
    dot (blocks m f) (blocks m g) = ∑ i ∈ Finset.range m, dot (f i) (g i) := by
  induction m with
  | zero => rfl
  | succ m ih =>
    have hf' : ∀ i < m, (f i).length = n := fun i hi => hf i (by omega)
    have hg' : ∀ i < m, (g i).length = n := fun i hi => hg i (by omega)
    rw [blocks_succ, blocks_succ, dot_append (by rw [length_blocks hf', length_blocks hg']),
      ih hf' hg', Finset.sum_range_succ]

namespace Problem

section Products

variable {p : Problem ℝ} {c : ℕ → List ℝ}
  (hc : ∀ s < p.segmentCount, (c s).length = p.coefficientCount)

include hc

lemma dot_constantLeft (knot order : ℕ) {s : ℕ} (hs : s < p.segmentCount) :
    dot (p.constantLeft knot order s) (blocks p.segmentCount c) =
      (derivative^[order] (toPolynomial p.coefficientCount (c s))).eval (p.times.getD knot 0) := by
  have hl : ∀ i < p.segmentCount, (if i = s then p.knotRow knot order else p.zeroBlock).length =
      p.coefficientCount := by
    intro i _
    split <;> simp
  rw [constantLeft, dot_blocks hl hc, Finset.sum_eq_single_of_mem s (Finset.mem_range.2 hs)]
  · rw [if_pos rfl, knotRow, dot_derivativeVector (hc s hs)]
  · intro i _ hi
    rw [if_neg hi, zeroBlock, dot_replicate_zero]

lemma dot_continuityLeft {knot : ℕ} (order : ℕ) (h0 : 0 < knot) (hk : knot < p.segmentCount) :
    dot (p.continuityLeft knot order) (blocks p.segmentCount c) =
      (derivative^[order] (toPolynomial p.coefficientCount (c (knot - 1)))).eval
          (p.times.getD knot 0) -
        (derivative^[order] (toPolynomial p.coefficientCount (c knot))).eval
          (p.times.getD knot 0) := by
  have hl : ∀ i < p.segmentCount, (if i + 1 = knot then p.knotRow knot order
      else if i = knot then (p.knotRow knot order).map (- ·) else p.zeroBlock).length =
      p.coefficientCount := by
    intro i _
    split
    · simp
    · split <;> simp
  rw [continuityLeft, dot_blocks hl hc, Finset.sum_eq_add (knot - 1) knot (by omega)]
  · rw [if_pos (by omega), if_neg (by omega), if_pos rfl, knotRow, dot_map_neg,
      dot_derivativeVector (hc _ (by omega)), dot_derivativeVector (hc _ hk), sub_eq_add_neg]
  · rintro i - ⟨hb, ha⟩
    rw [if_neg (by omega), if_neg ha, zeroBlock, dot_replicate_zero]
  · intro h
    exact absurd (Finset.mem_range.2 (by omega)) h
  · intro h
    exact absurd (Finset.mem_range.2 hk) h

end Products

lemma Registrable.length_eq_sum {α : Type} [Scalar α] {p : Problem α} {cs : List (Constraint α)}
    (h : p.Registrable cs) (hk : 2 ≤ p.knotCount) :
    (cs.flatMap p.equations).length = (cs.map p.equationCount).sum := by
  rw [List.length_flatMap]
  exact congrArg List.sum (List.map_congr_left fun c hc => length_equations hk (h.admits c hc))

lemma accepted_append {α : Type} [Scalar α] (p : Problem α) (rs rs' : List (Request α)) :
    p.accepted (rs ++ rs') = p.accepted rs ++ (p.attemptAll rs).accepted rs' := by
  induction rs generalizing p with
  | nil => rfl
  | cons r rs ih =>
    rw [List.cons_append, accepted, accepted, attemptAll, List.foldl_cons, attempt]
    cases hr : p.resolve r with
    | ok c =>
      cases hc : p.constrain r with
      | ok q => exact congrArg (c :: ·) (ih q)
      | error e => exact ih p
    | error e =>
      rw [constrain_of_resolve_error hr]
      exact ih p

/-- The rows of the system are the equations of the accepted constraints in order, followed by empty
ones; no later request changes them, and no request fails after its checks. In exact arithmetic a
row yields the derivative, or the jump of the derivative, that it stands for. -/
theorem system_of_accepted :
    (∀ {α : Type} [Scalar α] {times coefficientCount outputCount metadata : Value α}
      {p : Problem α}, create times coefficientCount outputCount metadata = .ok p →
      ∀ rs : List (Request α),
        (p.attemptAll rs).rowIndex = ((p.accepted rs).map p.equationCount).sum ∧
        (p.attemptAll rs).rowIndex ≤ p.dimension ∧
        (p.attemptAll rs).phase.system? = some ((p.accepted rs).flatMap p.equations ++
          List.replicate (p.dimension - ((p.accepted rs).map p.equationCount).sum)
            p.emptyEquation) ∧
        (∀ rs', p.accepted rs <+: p.accepted (rs ++ rs')) ∧
        (∀ r c, (p.attemptAll rs).resolve r = .ok c →
          p.accepted (rs ++ [r]) = p.accepted rs ++ [c])) ∧
    (∀ (p : Problem ℝ) (c : ℕ → List ℝ),
      (∀ s < p.segmentCount, (c s).length = p.coefficientCount) → ∀ knot order,
        (∀ s < p.segmentCount, dot (p.constantLeft knot order s) (blocks p.segmentCount c) =
          (derivative^[order] (toPolynomial p.coefficientCount (c s))).eval
            (p.times.getD knot 0)) ∧
        (0 < knot → knot < p.segmentCount →
          dot (p.continuityLeft knot order) (blocks p.segmentCount c) =
            (derivative^[order] (toPolynomial p.coefficientCount (c (knot - 1)))).eval
                (p.times.getD knot 0) -
              (derivative^[order] (toPolynomial p.coefficientCount (c knot))).eval
                (p.times.getD knot 0))) := by
  constructor
  · intro α _ times coefficientCount outputCount metadata p hp rs
    have hf := create_spec hp
    have hr := hf.registrable_accepted rs
    have hl := hr.length_eq_sum hf.two_le_knotCount
    have hq := hf.attemptAll_eq rs
    refine ⟨?_, ?_, ?_, ?_, ?_⟩
    · rw [hq, registering, hl]
    · rw [hq]
      exact Int.ofNat_le.2 hr.length_le
    · rw [hq, ← hl]
      rfl
    · intro rs'
      rw [accepted_append]
      exact List.prefix_append _ _
    · intro r c hc
      rw [accepted_append]
      rw [hq] at hc ⊢
      rw [accepted, hc, (hr.step hc).2]
      rfl
  · intro p c hc knot order
    exact ⟨fun s hs => dot_constantLeft hc knot order hs, dot_continuityLeft hc order⟩

theorem system_of_line : create (.list [.real 0, .real 1]) (.int 2) (.int 1) (.record []) =
      .ok (line 0 1) ∧
    ((line 0 1).attemptAll (lineRequests 3 4)).rowIndex = 2 ∧
    ((line 0 1).attemptAll (lineRequests 3 4)).phase.system? =
      some [⟨derivativeVector 2 0 0, [3]⟩, ⟨derivativeVector 2 0 1, [4]⟩] ∧
    dot ((line 0 1).constantLeft 0 1 0) (blocks 1 fun _ => [3, 4]) =
      (derivative^[1] (toPolynomial 2 [3, 4])).eval 0 := by
  have hc := create_line (zero_lt_one : (0 : ℝ) < 1)
  obtain ⟨hr, -, hs, -⟩ := system_of_accepted.1 hc (lineRequests 3 4)
  rw [accepted_line] at hr hs
  refine ⟨hc, hr, ?_, ?_⟩
  · rw [hs, lineConstraints, List.flatMap_cons, List.flatMap_singleton, equations_line,
      equations_line]
    rfl
  · exact (system_of_accepted.2 (line 0 1) (fun _ => [3, 4]) (fun _ _ => rfl) 0 1).1 0
      (by decide)

end Problem

end KnotSpline
