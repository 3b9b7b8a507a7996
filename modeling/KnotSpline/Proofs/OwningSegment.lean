import KnotSpline.Proofs.Lifecycle
import KnotSpline.Proofs.WholeNumbers

/-! The segment that owns a time. Times are doubles, infinities included, or whole numbers that fit
a machine word; whole numbers count as the nearest doubles. -/

namespace KnotSpline

namespace Time

def IsNumber : Time Float → Prop
  | whole z => -2 ^ 63 ≤ z ∧ z < 2 ^ 64
  | given x | stored x => x.isNaN = false
  | other => False

instance : DecidablePred IsNumber
  | whole z => inferInstanceAs (Decidable (-2 ^ 63 ≤ z ∧ z < 2 ^ 64))
  | given x | stored x => inferInstanceAs (Decidable (x.isNaN = false))
  | other => inferInstanceAs (Decidable False)

noncomputable def value : Time Float → EReal
  | whole z => (z : ℝ)
  | given x | stored x => Double.extended x.toModel.unpack
  | other => 0

/-- A double counts as itself, and a whole number as a double that no other is nearer to. -/
def CountsAs : Time Float → Float → Prop
  | whole z, x => Double.Nearest x.toModel.unpack z
  | given y, x | stored y, x => x = y
  | other, _ => False

def double : Time Float → Float
  | whole z => Float.ofInt z
  | given x | stored x => x
  | other => 0

variable {t u : Time Float}

lemma IsNumber.countsAs (h : t.IsNumber) : t.CountsAs t.double := by
  cases t with
  | whole z => exact Double.nearest_ofInt h.1 h.2
  | given x => rfl
  | stored x => rfl
  | other => exact h.elim

lemma IsNumber.isNaN_double (h : t.IsNumber) : Scalar.isNaN t.double = false := by
  cases t with
  | whole z => exact OrderedScalar.isNaN_of_isFinite h.countsAs.isFinite
  | given x => exact h
  | stored x => exact h
  | other => exact h.elim

lemma IsNumber.toScalar_eq (h : t.IsNumber) : t.toScalar = .ok t.double := by
  cases t with
  | whole z =>
    have hfin : (Float.ofInt z).isFinite = true := h.countsAs.isFinite
    have hof : (Scalar.ofInt? z : Option Float) = some (Float.ofInt z) := if_pos hfin
    rw [toScalar, if_pos ⟨h.1, h.2⟩, Value.ofInt, hof]
    rfl
  | given x => rfl
  | stored x => rfl
  | other => exact h.elim

open Double in
lemma extended_le_of_nearest {x : Float} {z : ℤ} (h : (whole z).value ≤ u.value)
    (hx : Nearest x.toModel.unpack z) (hu : u.value = extended u.double.toModel.unpack)
    (hn : u.IsNumber) : extended x.toModel.unpack ≤ extended u.double.toModel.unpack := by
  rw [hu] at h
  rw [extended_eq_real hx.isFinite]
  cases hf : u.double.toModel.unpack.isFinite with
  | false =>
    rcases eq_infinity (isNaN_eq_false_iff.1 hn.isNaN_double) hf with hy | hy <;> rw [hy] at h ⊢
    · exact absurd (le_bot_iff.1 h) (EReal.coe_ne_bot _)
    · exact le_top
  | true =>
    rw [extended_eq_real hf] at h ⊢
    rcases (EReal.coe_le_coe_iff.1 h).lt_or_eq with hlt | heq
    · exact EReal.coe_le_coe_iff.2
        (hx.real_le (isCanonical _) (isCanonical _) (nearest_real hf) hlt)
    · rw [heq] at hx
      exact (congrArg Real.toEReal (hx.real_eq (isCanonical _) hf)).le

open Double in
lemma le_extended_of_nearest {y : Float} {w : ℤ} (h : t.value ≤ (whole w).value)
    (hy : Nearest y.toModel.unpack w) (ht : t.value = extended t.double.toModel.unpack)
    (hn : t.IsNumber) : extended t.double.toModel.unpack ≤ extended y.toModel.unpack := by
  rw [ht] at h
  rw [extended_eq_real hy.isFinite]
  cases hf : t.double.toModel.unpack.isFinite with
  | false =>
    rcases eq_infinity (isNaN_eq_false_iff.1 hn.isNaN_double) hf with hx | hx <;> rw [hx] at h ⊢
    · exact bot_le
    · exact absurd (top_le_iff.1 h) (EReal.coe_ne_top _)
  | true =>
    rw [extended_eq_real hf] at h ⊢
    rcases (EReal.coe_le_coe_iff.1 h).lt_or_eq with hlt | heq
    · exact EReal.coe_le_coe_iff.2
        ((nearest_real hf).real_le (isCanonical _) (isCanonical _) hy hlt)
    · rw [← heq] at hy
      exact (congrArg Real.toEReal (hy.real_eq (isCanonical _) hf)).ge

lemma IsNumber.value_eq (h : t.IsNumber) :
    t.value = Double.extended t.double.toModel.unpack ∨ ∃ z, t = whole z := by
  cases t with
  | whole z => exact .inr ⟨z, rfl⟩
  | given x => exact .inl rfl
  | stored x => exact .inl rfl
  | other => exact h.elim

theorem double_le (ht : t.IsNumber) (hu : u.IsNumber) (h : t.value ≤ u.value) :
    t.double ≤ u.double := by
  refine Double.le_of_extended_le ht.isNaN_double hu.isNaN_double ?_
  rcases ht.value_eq with ht' | ⟨z, rfl⟩
  · rcases hu.value_eq with hu' | ⟨w, rfl⟩
    · rwa [← ht', ← hu']
    · exact le_extended_of_nearest h hu.countsAs ht' ht
  · rcases hu.value_eq with hu' | ⟨w, rfl⟩
    · exact extended_le_of_nearest h ht.countsAs hu' hu
    · have hz : Double.Nearest (Float.ofInt z).toModel.unpack z := ht.countsAs
      have hw : Double.Nearest (Float.ofInt w).toModel.unpack w := hu.countsAs
      rcases (EReal.coe_le_coe_iff.1 h).lt_or_eq with hlt | heq
      · change Double.extended (Float.ofInt z).toModel.unpack ≤
          Double.extended (Float.ofInt w).toModel.unpack
        rw [Double.extended_eq_real hz.isFinite, Double.extended_eq_real hw.isFinite]
        exact EReal.coe_le_coe_iff.2
          (hz.real_le (Double.isCanonical _) (Double.isCanonical _) hw hlt)
      · rw [Int.cast_inj.1 heq]

end Time

namespace Problem

variable {p : Problem Float}

lemma segmentIndex_eq {t : Time Float} (h : t.IsNumber) :
    p.segmentIndex t = .ok (p.segmentOf t.double) := by
  rw [segmentIndex, h.toScalar_eq]
  change (if Scalar.isNaN t.double = true then _ else _) = _
  rw [if_neg (by rw [h.isNaN_double]; decide)]
  rfl

lemma segmentIndex_whole {z : ℤ} (h : z < -2 ^ 63 ∨ 2 ^ 64 ≤ z) :
    p.segmentIndex (.whole z) = .error .wrongKind := by
  have hscalar : (Time.whole z : Time Float).toScalar = .error .wrongKind := if_neg (by omega)
  rw [segmentIndex, hscalar]
  rfl

structure HasTimes (p : Problem Float) : Prop where
  two_le_knotCount : 2 ≤ p.times.length
  isFinite : ∀ x ∈ p.times, Scalar.isFinite x = true
  increasing : p.times.IsChain (· < ·)

namespace HasTimes

variable (h : p.HasTimes)

include h

lemma pairwise : p.times.Pairwise (· < ·) :=
  List.isChain_iff_pairwise.1 h.increasing

lemma isNaN_of_mem {x : Float} (hx : x ∈ p.times) : Scalar.isNaN x = false :=
  OrderedScalar.isNaN_of_isFinite (h.isFinite x hx)

lemma encloses {t : Time Float} (ht : t.IsNumber) : p.Encloses t.double (p.segmentOf t.double) :=
  segmentOf_encloses h.pairwise h.two_le_knotCount (fun _ => h.isNaN_of_mem) ht.isNaN_double

lemma segmentOf_le {t u : Time Float} (ht : t.IsNumber) (hu : u.IsNumber)
    (htu : t.value ≤ u.value) : p.segmentOf t.double ≤ p.segmentOf u.double :=
  (h.encloses ht).le h.pairwise (h.encloses hu) (Time.double_le ht hu htu)

lemma isNumber_of_mem {x : Float} (hx : x ∈ p.times) : (Time.stored x).IsNumber :=
  h.isNaN_of_mem hx

lemma encloses_iff {t : Time Float} (ht : t.IsNumber) {j : ℕ} :
    p.Encloses t.double j ↔ j = p.segmentOf t.double := by
  have hnum : t.double ≤ t.double := OrderedScalar.le_refl ht.isNaN_double
  constructor
  · intro hj
    exact le_antisymm (hj.le h.pairwise (h.encloses ht) hnum)
      ((h.encloses ht).le h.pairwise hj hnum)
  · rintro rfl
    exact h.encloses ht

lemma segmentOf_knot {k : ℕ} {x : Float} (hx : p.times[k]? = some x) :
    p.segmentOf (Time.stored x).double = min k (p.segmentCount - 1) := by
  obtain ⟨hk, rfl⟩ := List.getElem?_eq_some_iff.1 hx
  have hseg : p.segmentCount + 1 = p.times.length := segmentCount_add_one h.two_le_knotCount
  have h2 := h.two_le_knotCount
  have hn := h.isNumber_of_mem (List.getElem_mem hk)
  have hget : p.times.getD k 0 = p.times[k] := List.getD_eq_getElem _ _ hk
  refine ((h.encloses_iff hn).1 ⟨by omega, .inr ?_, ?_⟩).symm
  · rcases Nat.lt_or_ge k p.segmentCount with hlt | hge
    · rw [min_eq_left (by omega), hget]
      exact OrderedScalar.le_refl hn.isNaN_double
    · rw [min_eq_right (by omega)]
      change _ ≤ p.times[k]
      rw [← hget]
      exact OrderedScalar.le_of_lt (getD_lt_getD h.pairwise (by omega) hk)
  · rcases Nat.lt_or_ge k (p.segmentCount - 1) with hlt | hge
    · right
      rw [min_eq_left hlt.le]
      change p.times[k] < _
      rw [← hget]
      exact getD_lt_getD h.pairwise (Nat.lt_succ_self k) (by omega)
    · exact .inl (min_eq_right hge)

end HasTimes

/-- Every time that is a number has one segment, and the lookup finds it: the one that starts at or
before the double that the time counts as and ends after it, where the first and the last segment
reach beyond the knots. Later times are not in earlier segments; a time at an inner knot is in the
segment that starts there, and one outside of the knots in the first or the last segment. Whole
numbers that do not fit a machine word are refused. -/
theorem owning_segment (h : p.HasTimes) :
    (∀ t : Time Float, t.IsNumber → ∃ x i, t.CountsAs x ∧ p.segmentIndex t = .ok i ∧
      ∀ j, p.Encloses x j ↔ j = i) ∧
    (∀ t u : Time Float, t.IsNumber → u.IsNumber → t.value ≤ u.value →
      ∃ i j, p.segmentIndex t = .ok i ∧ p.segmentIndex u = .ok j ∧ i ≤ j) ∧
    (∀ (t : Time Float) (k : ℕ) (x : Float), t.IsNumber → 0 < k → k + 1 < p.knotCount →
      p.times[k]? = some x → t.value = (Time.stored x).value → p.segmentIndex t = .ok k) ∧
    (∀ (t : Time Float) (x : Float), t.IsNumber → p.times.head? = some x →
      t.value ≤ (Time.stored x).value → p.segmentIndex t = .ok 0) ∧
    (∀ (t : Time Float) (x : Float), t.IsNumber → p.times.getLast? = some x →
      (Time.stored x).value ≤ t.value → p.segmentIndex t = .ok (p.segmentCount - 1)) ∧
    ∀ z : ℤ, z < -2 ^ 63 ∨ 2 ^ 64 ≤ z → p.segmentIndex (.whole z) = .error .wrongKind := by
  have hseg : p.segmentCount + 1 = p.times.length := segmentCount_add_one h.two_le_knotCount
  have h2 := h.two_le_knotCount
  refine ⟨fun t ht => ?_, fun t u ht hu htu => ?_, fun t k x ht hk hk' hx hv => ?_,
    fun t x ht hx hv => ?_, fun t x ht hx hv => ?_, fun z hz => segmentIndex_whole hz⟩
  · exact ⟨_, _, ht.countsAs, segmentIndex_eq ht, fun _ => h.encloses_iff ht⟩
  · exact ⟨_, _, segmentIndex_eq ht, segmentIndex_eq hu, h.segmentOf_le ht hu htu⟩
  · have hn := h.isNumber_of_mem (List.mem_of_getElem? hx)
    have hknot := h.segmentOf_knot hx
    have hle := h.segmentOf_le ht hn hv.le
    have hge := h.segmentOf_le hn ht hv.ge
    change k + 1 < p.times.length at hk'
    rw [segmentIndex_eq ht]
    exact congrArg Except.ok (by omega)
  · rw [List.head?_eq_getElem?] at hx
    have hn := h.isNumber_of_mem (List.mem_of_getElem? hx)
    have hknot := h.segmentOf_knot hx
    have hle := h.segmentOf_le ht hn hv
    rw [segmentIndex_eq ht]
    exact congrArg Except.ok (by omega)
  · rw [List.getLast?_eq_getElem?] at hx
    have hn := h.isNumber_of_mem (List.mem_of_getElem? hx)
    have hknot := h.segmentOf_knot hx
    have hge := h.segmentOf_le hn ht hv
    have hlt := (h.encloses ht).lt
    rw [segmentIndex_eq ht]
    exact congrArg Except.ok (by omega)

theorem hasTimes_of_mem_run {ops : List (Operation Float)}
    (hp : p ∈ (Store.empty.run ops).problems) : p.HasTimes where
  two_le_knotCount := (sized_of_mem_run hp).two_le_knotCount
  isFinite := (sized_of_mem_run hp).finite
  increasing := isChain_of_differences (sized_of_mem_run hp).increasing

def ofTimes (times : List Float) : Problem Float :=
  ⟨times, 1, 1, 0, .building (emptySystem (times.length - 1) 1), .null, []⟩

lemma hasTimes_ofTimes {times : List Float} (h2 : 2 ≤ times.length)
    (hf : times.all Scalar.isFinite = true)
    (hinc : (differences times).all fun d => decide (0 < d)) : (ofTimes times).HasTimes where
  two_le_knotCount := h2
  isFinite := List.all_eq_true.1 hf
  increasing := isChain_of_differences hinc

theorem owning_segment_of_three_knots : (ofTimes [0, 1, 2]).HasTimes ∧
    (ofTimes [0, 1, 2]).segmentIndex (.given (1 / 0)) = .ok 1 ∧
    (ofTimes [0, 1, 2]).segmentIndex (.stored 1) = .ok 1 ∧
    (ofTimes [0, 1, 2]).segmentIndex (.given (-1 / 0)) = .ok 0 := by
  have h : (ofTimes [0, 1, 2]).HasTimes :=
    hasTimes_ofTimes (by decide) (by decide +kernel) (by decide +kernel)
  obtain ⟨-, -, hknot, hfirst, hlast, -⟩ := owning_segment h
  refine ⟨h, ?_, ?_, ?_⟩
  · exact hlast _ 2 (by decide +kernel) rfl le_top
  · exact hknot (.stored 1) 1 1 (by decide +kernel) (by decide) (by decide) rfl rfl
  · exact hfirst _ 0 (by decide +kernel) rfl bot_le

/-- Whole numbers that do not fit a machine word are not looked up. Those that are no doubles are
looked up where their nearest double is, even if that is another segment. -/
theorem whole_times_have_limits :
    (ofTimes [0, 1]).HasTimes ∧
    (ofTimes [0, 1]).segmentIndex (.whole (2 ^ 64)) = .error .wrongKind ∧
    (ofTimes [0, 18014398509481984, 36028797018963968]).HasTimes ∧
    (Time.whole (2 ^ 54 - 1)).value < (Time.stored 18014398509481984).value ∧
    (ofTimes [0, 18014398509481984, 36028797018963968]).segmentIndex (.whole (2 ^ 54 - 1)) =
      .ok 1 := by
  refine ⟨hasTimes_ofTimes (by decide) (by decide +kernel) (by decide +kernel), rfl,
    hasTimes_ofTimes (by decide) (by decide +kernel) (by decide +kernel), ?_, ?_⟩
  · have hu : (18014398509481984 : Float).toModel.unpack =
        .finite .positive (2 ^ 52) 2 (by decide) := rfl
    have hv : (Time.stored 18014398509481984).value = ((2 ^ 54 : ℝ) : EReal) := by
      change Double.extended (18014398509481984 : Float).toModel.unpack = _
      rw [hu]
      norm_num [Double.extended, Double.real, Float.Model.UnpackedFloat.Sign.apply]
    rw [hv]
    exact EReal.coe_lt_coe_iff.2 (by norm_num)
  · rw [segmentIndex_eq (by decide)]
    exact congrArg Except.ok (by decide +kernel)

end Problem

end KnotSpline
