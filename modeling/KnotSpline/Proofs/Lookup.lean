import KnotSpline.Problem.Curve
import KnotSpline.Proofs.Comparison
import KnotSpline.Proofs.Increasing
import KnotSpline.Proofs.Rows

/-! The segment that owns a time, found by halving a range of knots. -/

namespace KnotSpline.Problem

section Bisection

variable {α : Type} [Scalar α] {xs : List α} {t : α}

/-- No entry before `lo` is after `t`, and all entries from `hi` on are. -/
structure Split (xs : List α) (t : α) (lo hi : ℕ) : Prop where
  le : lo ≤ hi
  le_length : hi ≤ xs.length
  below : ∀ i < lo, ¬t < xs.getD i 0
  above : ∀ i, hi ≤ i → i < xs.length → t < xs.getD i 0

def Sorted (xs : List α) (t : α) : Prop :=
  ∀ i j, i ≤ j → j < xs.length → t < xs.getD i 0 → t < xs.getD j 0

lemma Split.bisect (hs : Sorted xs t) {fuel lo hi : ℕ} (h : Split xs t lo hi)
    (hf : hi - lo ≤ fuel) :
    Split xs t (bisect xs t fuel lo hi) (bisect xs t fuel lo hi) := by
  have hle := h.le
  have hlen := h.le_length
  induction fuel generalizing lo hi with
  | zero =>
    obtain rfl : lo = hi := by omega
    exact h
  | succ fuel ih =>
    rw [Problem.bisect]
    split
    · dsimp only
      split
      · next ht =>
        refine ih ⟨by omega, by omega, h.below, fun i hi hl => hs _ i hi hl ht⟩
          (by omega) (by omega) (by omega)
      · next ht =>
        refine ih ⟨by omega, h.le_length, fun i hi hc => ht ?_, h.above⟩
          (by omega) (by omega) (by omega)
        exact hs i _ (by omega) (by omega) hc
    · obtain rfl : lo = hi := by omega
      exact h

lemma countUpTo_split (hs : Sorted xs t) : Split xs t (countUpTo xs t) (countUpTo xs t) :=
  Split.bisect hs ⟨Nat.zero_le _, le_rfl, by omega, by omega⟩ (by omega)

end Bisection

section Knots

variable {α : Type} [Scalar α]

lemma pairwise_of_differences [OrderedScalar α] [OrderedDifferences α] {xs : List α}
    (h : (differences xs).all fun d => decide (0 < d)) : xs.Pairwise (· < ·) :=
  List.isChain_iff_pairwise.1 (isChain_of_differences h)

variable {xs : List α} (h : xs.Pairwise (· < ·))

include h

lemma getD_lt_getD {i j : ℕ} (hij : i < j) (hj : j < xs.length) : xs.getD i 0 < xs.getD j 0 := by
  have hlt := List.pairwise_iff_getElem.1 h i j (hij.trans hj) hj hij
  simpa [hj, hij.trans hj] using hlt

lemma sorted_of_pairwise [OrderedScalar α] (t : α) : Sorted xs t := by
  intro i j hij hj ht
  rcases Nat.eq_or_lt_of_le hij with rfl | hij
  · exact ht
  · exact OrderedScalar.lt_trans ht (getD_lt_getD h hij hj)

end Knots

/-- The segment is the first one or starts at or before the time, and is the last one or ends after
it. -/
structure Encloses {α : Type} [Scalar α] (p : Problem α) (t : α) (i : ℕ) : Prop where
  lt : i < p.segmentCount
  start_le : i = 0 ∨ p.times.getD i 0 ≤ t
  lt_end : i = p.segmentCount - 1 ∨ t < p.times.getD (i + 1) 0

section Enclosing

variable {α : Type} [Scalar α] {p : Problem α} {t : α}

lemma headD_times : p.times.headD 0 = p.times.getD 0 0 := by
  cases p.times <;> rfl

lemma getLastD_times : p.times.getLastD 0 = p.times.getD p.segmentCount 0 := by
  rw [List.getLastD_eq_getLast?, List.getLast?_eq_getElem?, List.getD_eq_getElem?_getD]
  rfl

variable [OrderedScalar α] (hs : p.times.Pairwise (· < ·)) (hk : 2 ≤ p.knotCount)

include hs

lemma Encloses.le {t u : α} {i j : ℕ} (hi : p.Encloses t i) (hj : p.Encloses u j) (h : t ≤ u) :
    i ≤ j := by
  by_contra hlt
  have hend := hj.lt_end.resolve_left (by have := hi.lt; omega)
  have hstart := hi.start_le.resolve_left (by omega)
  -- the later segment starts where the earlier one ends, or after that
  have hle : u < p.times.getD i 0 := by
    rcases Nat.eq_or_lt_of_le (Nat.succ_le_of_lt (not_le.1 hlt)) with heq | hlt'
    · exact heq ▸ hend
    · have hlen : i < p.times.length := hi.lt.trans_le (Nat.sub_le _ _)
      exact OrderedScalar.lt_trans hend (getD_lt_getD hs hlt' hlen)
  exact OrderedScalar.not_lt_of_le h (OrderedScalar.lt_of_lt_of_le hle hstart)

include hk

lemma segmentOf_encloses (hn : ∀ x ∈ p.times, Scalar.isNaN x = false)
    (ht : Scalar.isNaN t = false) : p.Encloses t (p.segmentOf t) := by
  have hl : p.times.length = p.segmentCount + 1 := (segmentCount_add_one hk).symm
  have h2 : 2 ≤ p.times.length := hk
  have hnum : ∀ i < p.times.length, Scalar.isNaN (p.times.getD i 0) = false := by
    intro i hi
    rw [List.getD_eq_getElem _ _ hi]
    exact hn _ (List.getElem_mem hi)
  rw [segmentOf, headD_times, getLastD_times]
  split
  · next h0 =>
    refine ⟨by omega, .inl rfl, .inr ?_⟩
    exact OrderedScalar.lt_of_le_of_lt h0 (getD_lt_getD hs (by omega) (by omega))
  · next h0 =>
    split
    · next hm =>
      refine ⟨by omega, .inr ?_, .inl rfl⟩
      exact OrderedScalar.le_of_lt
        (OrderedScalar.lt_of_lt_of_le (getD_lt_getD hs (by omega) (by omega)) hm)
    · next hm =>
      have hsplit := countUpTo_split (sorted_of_pairwise hs t)
      generalize countUpTo p.times t = c at *
      have hpos : 0 < c := by
        by_contra hc
        exact h0 (OrderedScalar.le_of_lt (hsplit.above 0 (by omega) (by omega)))
      have hlt : c ≤ p.segmentCount := by
        by_contra hc
        exact hm (OrderedScalar.le_of_not_lt ht (hnum _ (by omega))
          (hsplit.below p.segmentCount (by omega)))
      refine ⟨by omega, .inr ?_, .inr ?_⟩
      · exact OrderedScalar.le_of_not_lt ht (hnum _ (by omega)) (hsplit.below _ (by omega))
      · rw [Nat.sub_add_cancel hpos]
        exact hsplit.above c le_rfl (by omega)

end Enclosing

lemma getD_le_getD {xs : List ℝ} (h : xs.Pairwise (· < ·)) {i j : ℕ} (hij : i ≤ j)
    (hj : j < xs.length) : xs.getD i 0 ≤ xs.getD j 0 := by
  rcases Nat.eq_or_lt_of_le hij with rfl | hij
  · exact le_rfl
  · exact (getD_lt_getD h hij hj).le

structure Owns (p : Problem ℝ) (t : ℝ) (i : ℕ) : Prop where
  lt : i < p.segmentCount
  start_le : 0 < i → p.times.getD i 0 ≤ t
  lt_end : i + 1 < p.segmentCount → t < p.times.getD (i + 1) 0

variable {p : Problem ℝ} (hs : p.times.Pairwise (· < ·)) (hk : 2 ≤ p.knotCount) {t : ℝ}

lemma owns_iff_encloses {i : ℕ} : p.Owns t i ↔ p.Encloses t i := by
  constructor
  · intro h
    refine ⟨h.lt, ?_, ?_⟩
    · rcases Nat.eq_zero_or_pos i with h0 | h0
      · exact .inl h0
      · exact .inr (h.start_le h0)
    · rcases Nat.lt_or_ge (i + 1) p.segmentCount with h1 | h1
      · exact .inr (h.lt_end h1)
      · exact .inl (by have := h.lt; omega)
  · intro h
    exact ⟨h.lt, fun h0 => h.start_le.resolve_left h0.ne',
      fun h1 => h.lt_end.resolve_left (by omega)⟩

include hs

lemma Owns.unique {i j : ℕ} (hi : p.Owns t i) (hj : p.Owns t j) : i = j :=
  le_antisymm ((owns_iff_encloses.1 hi).le hs (owns_iff_encloses.1 hj) le_rfl)
    ((owns_iff_encloses.1 hj).le hs (owns_iff_encloses.1 hi) le_rfl)

include hk

lemma segmentOf_owns (t : ℝ) : p.Owns t (p.segmentOf t) :=
  owns_iff_encloses.2 (segmentOf_encloses hs hk (fun _ _ => rfl) rfl)

lemma segmentOf_knot {k : ℕ} (hlt : k < p.knotCount) :
    p.segmentOf (p.times.getD k 0) = min k (p.segmentCount - 1) := by
  have hl : p.times.length = p.segmentCount + 1 := (segmentCount_add_one hk).symm
  have h2 : 2 ≤ p.times.length := hk
  replace hlt : k < p.times.length := hlt
  refine (segmentOf_owns hs hk _).unique hs ⟨by omega, fun h0 => ?_, fun h1 => ?_⟩
  · exact getD_le_getD hs (by omega) hlt
  · exact getD_lt_getD hs (by omega) (by omega)

end KnotSpline.Problem
