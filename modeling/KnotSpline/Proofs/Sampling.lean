import KnotSpline.Proofs.Derivative
import KnotSpline.Proofs.FittedCurve
import KnotSpline.Proofs.Lifecycle
import KnotSpline.Proofs.Records

/-! Sampling a curve against interpolating it at one time after another. Times within an array have
infinite powers where they leave the range, a single time is refused there. In all else both
agree. -/

namespace KnotSpline

section Powers

variable {α : Type} [Scalar α] {n d : ℕ} {t : α}

/-- A finite time has a power out of range among those that are left of the first `n` powers after
`d` derivatives. -/
def Overflows (n d : ℕ) (t : α) : Prop :=
  Scalar.isFinite t = true ∧
    ∃ k, 0 < k ∧ k + d < n ∧ Scalar.isFinite (Scalar.pow t k) = false

lemma power_given_of_overflow {k : ℕ} (ht : Scalar.isFinite t = true)
    (hk : Scalar.isFinite (Scalar.pow t k) = false) :
    (Time.given t).power k = .error .outOfRange := by
  exact if_pos (by rw [ht, hk]; rfl)

lemma power_given_of_not_overflows (h : ¬Overflows n d t) {k : ℕ} (h0 : 0 < k) (hk : k + d < n) :
    (Time.given t).power k = .ok (Scalar.pow t k) := by
  refine if_neg fun hc => h ?_
  simp only [Bool.and_eq_true, Bool.not_eq_true'] at hc
  exact ⟨hc.1, k, h0, hk, hc.2⟩

lemma eq_outOfRange_of_power_given {k : ℕ} {e : Fault α}
    (h : (Time.given t).power k = .error e) : e = .outOfRange := by
  rw [Time.power] at h
  split at h
  · cases h
    rfl
  · cases h

lemma evaluationVector_given_of_overflows (h : Overflows n d t) :
    evaluationVector n (.given t) d = .error .outOfRange := by
  obtain ⟨ht, k, h0, hk, hpow⟩ := h
  have hv : timeVector n (.given t) d = .error .outOfRange := by
    cases hv : timeVector n (.given t) d with
    | ok v =>
      -- the entry that needs the power out of range
      obtain ⟨y, hy⟩ := exists_mapM_eq_ok_iff.1 ⟨v, hv⟩ (k + d) (List.mem_range.2 hk)
      rw [if_neg (by omega), if_neg (by omega), Nat.add_sub_cancel,
        power_given_of_overflow ht hpow] at hy
      cases hy
    | error e =>
      obtain ⟨done, j, rest, -, -, hj⟩ := exists_of_mapM_eq_error hv
      split at hj
      · cases hj
      · split at hj
        · cases hj
        · rw [eq_outOfRange_of_power_given hj]
  rw [evaluationVector, if_neg (by omega), hv]
  rfl

end Powers

namespace Problem

variable {α : Type} [Scalar α] {p : Problem α} {x : Solution α}

section Single

variable (hx : p.phase.solution? = some x) (t : α) (d : ℕ)

include hx

lemma interpolate_stored : p.interpolate (.stored t) (.int d) =
    if Scalar.isNaN t then .error (.invalidInput .nanTime)
    else .ok ((x.getD (p.segmentOf t) []).map (dot (derivativeVector p.coefficientCount t d))) := by
  rw [interpolate, solution, hx, evaluationVector_of_int? _ _ rfl, evaluationVector_stored]
  cases hn : Scalar.isNaN t with
  | true => simp [segmentIndex, Time.toScalar, hn, bind, Except.bind, pure, Except.pure, throw,
      throwThe, MonadExceptOf.throw]
  | false => simp [segmentIndex, Time.toScalar, hn, bind, Except.bind, pure, Except.pure]

omit hx in
lemma interpolate_given_of_not_overflows (h : ¬Overflows p.coefficientCount d t) :
    p.interpolate (.given t) (.int d) = p.interpolate (.stored t) (.int d) := by
  have hv : p.evaluationVector (.given t) (.int d) = p.evaluationVector (.stored t) (.int d) := by
    rw [evaluationVector_of_int? _ _ rfl, evaluationVector_of_int? _ _ rfl,
      evaluationVector_stored]
    exact evaluationVector_eq fun k h0 hk => power_given_of_not_overflows h h0 hk
  rw [interpolate, hv]
  rfl

lemma interpolate_given_of_overflows (h : Overflows p.coefficientCount d t) :
    p.interpolate (.given t) (.int d) = .error .outOfRange := by
  rw [interpolate, solution, hx, evaluationVector_of_int? _ _ rfl,
    evaluationVector_given_of_overflows h]
  rfl

end Single

lemma sample_eq (hx : p.phase.solution? = some x) {times : Value α} {ts : List α}
    (hts : times.toArray = .ok (.vector ts)) (d : ℕ) :
    p.sample times (.int d) = ts.mapM fun t => p.interpolate (.stored t) (.int d) := by
  have ho : naturalOrder (.int d : Value α) = .ok d := naturalOrder_eq_ok_iff.2 rfl
  rw [sample, solution, hx, ho, hts]
  rfl

end Problem

lemma Double.isFinite_eq_false_of_isNaN {t : Float} (h : t.isNaN = true) : t.isFinite = false := by
  change t.toModel.unpack.isNaN = true at h
  change t.toModel.unpack.isFinite = false
  cases hu : t.toModel.unpack with
  | notANumber => rfl
  | infinity | zero | finite =>
    rw [hu] at h
    cases h

namespace Problem

section Doubles

variable {p : Problem Float} {x : Solution Float} (hx : p.phase.solution? = some x) (t : Float)
  (d : ℕ)

include hx

lemma interpolate_given_cases :
    (Overflows p.coefficientCount d t ∧ t.isNaN = false ∧
      p.interpolate (.given t) (.int d) = .error .outOfRange) ∨
    (¬Overflows p.coefficientCount d t ∧
      p.interpolate (.given t) (.int d) = p.interpolate (.stored t) (.int d)) := by
  by_cases h : Overflows p.coefficientCount d t
  · refine .inl ⟨h, ?_, interpolate_given_of_overflows hx t d h⟩
    by_contra hn
    have hf := Double.isFinite_eq_false_of_isNaN (Bool.eq_true_of_not_eq_false hn)
    exact Bool.false_ne_true (hf.symm.trans h.1)
  · exact .inr ⟨h, interpolate_given_of_not_overflows t d h⟩

lemma interpolate_stored_eq_error {e : Fault Float}
    (h : p.interpolate (.stored t) (.int d) = .error e) :
    t.isNaN = true ∧ e = .invalidInput .nanTime := by
  rw [interpolate_stored hx] at h
  split at h
  · next hn => exact ⟨hn, (Except.error.inj h).symm⟩
  · cases h

lemma exists_interpolate_stored :
    (∃ row, p.interpolate (.stored t) (.int d) = .ok row) ↔
      (∃ row, p.interpolate (.given t) (.int d) = .ok row) ∨
        Overflows p.coefficientCount d t := by
  obtain ⟨h, hn, he⟩ | ⟨h, he⟩ := interpolate_given_cases hx t d
  · refine iff_of_true ?_ (.inr h)
    rw [interpolate_stored hx]
    exact ⟨_, if_neg (Bool.eq_false_iff.1 hn)⟩
  · rw [he, or_iff_left h]

end Doubles

/-- Sampling returns if at every time a single interpolation returns or is out of range, and then
each row is that of its time. Where a finite time has a power out of range, interpolating there
raises, while sampling goes on with infinite powers. Sampling fails at the first time at which
interpolating raises for any other reason, and for the same one. -/
theorem sampling_is_interpolation {p : Problem Float} (hf : p.isFitted = true) (ts : List Float)
    (d : ℕ) :
    (∀ t, p.interpolate (.given t) (.int d) = .error .outOfRange ↔
      Overflows p.coefficientCount d t) ∧
    ((∃ rows, p.sample (.list (ts.map .real)) (.int d) = .ok rows) ↔
      ∀ t ∈ ts, (∃ row, p.interpolate (.given t) (.int d) = .ok row) ∨
        Overflows p.coefficientCount d t) ∧
    (∀ rows, p.sample (.list (ts.map .real)) (.int d) = .ok rows →
      List.Forall₂ (fun t row => p.interpolate (.stored t) (.int d) = .ok row ∧
        (p.interpolate (.given t) (.int d) = .ok row ∨ Overflows p.coefficientCount d t)) ts rows) ∧
    ∀ e, p.sample (.list (ts.map .real)) (.int d) = .error e →
      ∃ done t rest, ts = done ++ t :: rest ∧ p.interpolate (.given t) (.int d) = .error e ∧
        t.isNaN = true ∧ e = .invalidInput .nanTime ∧
        ∀ u ∈ done, (∃ row, p.interpolate (.given u) (.int d) = .ok row) ∨
          Overflows p.coefficientCount d u := by
  obtain ⟨x, hx⟩ := isFitted_eq_true_iff.1 hf
  rw [sample_eq hx (Value.toArray_reals ts)]
  refine ⟨fun t => ⟨fun h => ?_, interpolate_given_of_overflows hx t d⟩, ?_, fun rows h => ?_,
    fun e h => ?_⟩
  · by_contra ho
    rw [interpolate_given_of_not_overflows t d ho] at h
    cases (interpolate_stored_eq_error hx t d h).2
  · rw [exists_mapM_eq_ok_iff]
    exact forall₂_congr fun t _ => exists_interpolate_stored hx t d
  · refine (mapM_eq_ok_iff.1 h).imp fun t row hrow => ⟨hrow, ?_⟩
    obtain ⟨ho, -, -⟩ | ⟨-, he⟩ := interpolate_given_cases hx t d
    · exact .inr ho
    · exact .inl (he.trans hrow)
  · obtain ⟨done, t, rest, hts, hdone, ht⟩ := exists_of_mapM_eq_error h
    obtain ⟨hn, he⟩ := interpolate_stored_eq_error hx t d ht
    have hg : p.interpolate (.given t) (.int d) = p.interpolate (.stored t) (.int d) := by
      obtain ⟨-, hn', -⟩ | ⟨-, hg⟩ := interpolate_given_cases hx t d
      · exact absurd (hn'.symm.trans hn) Bool.false_ne_true
      · exact hg
    exact ⟨done, t, rest, hts, hg.trans ht, hn, he,
      fun u hu => (exists_interpolate_stored hx u d).1 (hdone u hu)⟩

def squareRecord : Record Float :=
  [(.text "times", .list [.real 1, .real 2]), (.text "nCoef", .int 3), (.text "nDep", .int 1),
    (.text "solution", .list [.list [.list [.real 0, .real 0, .real 1]]])]

lemma exists_square : ∃ p : Problem Float,
    (Store.empty.run [.load squareRecord]).problems[0]? = some p ∧ p.isFitted = true ∧
      p.coefficientCount = 3 := by
  have h : (Store.empty.run [.load squareRecord]).problems[0]?.any
      (fun p => p.isFitted && p.coefficientCount == 3) = true := by
    decide +kernel
  obtain ⟨p, hp, h⟩ := (Option.any_eq_true _ _).1 h
  obtain ⟨hf, hn⟩ := Bool.and_eq_true_iff.1 h
  exact ⟨p, hp, hf, beq_iff_eq.1 hn⟩

lemma overflows_square : Overflows 3 0 (1e200 : Float) :=
  ⟨by decide +kernel, 2, by decide, by decide, by decide +kernel⟩

/-- The square of a great time is infinite in an array, and out of range by itself. -/
theorem sampling_goes_beyond_interpolation : ∃ (p : Problem Float) (rows : List (List Float)),
    (Store.empty.run [.load squareRecord]).problems[0]? = some p ∧
    p.sample (.list [.real 1e200]) (.int 0) = .ok rows ∧
    p.interpolate (.given 1e200) (.int 0) = .error .outOfRange := by
  obtain ⟨p, hp, hf, hn⟩ := exists_square
  obtain ⟨x, hx⟩ := isFitted_eq_true_iff.1 hf
  have ho : Overflows p.coefficientCount 0 (1e200 : Float) := hn ▸ overflows_square
  have hs := sample_eq hx (Value.toArray_reals [(1e200 : Float)]) 0
  obtain ⟨rows, hrows⟩ := exists_mapM_eq_ok_iff.2 fun t ht =>
    (exists_interpolate_stored hx t 0).2 (.inr (List.mem_singleton.1 ht ▸ ho))
  exact ⟨p, rows, hp, hs.trans hrows, interpolate_given_of_overflows hx 1e200 0 ho⟩

theorem sampling_of_square_is_interpolation : ∃ (p : Problem Float) (row : List Float),
    (Store.empty.run [.load squareRecord]).problems[0]? = some p ∧ p.isFitted = true ∧
    p.sample (.list [.real 1e200]) (.int 2) = .ok [row] ∧
    p.interpolate (.given 1e200) (.int 2) = .ok row := by
  obtain ⟨p, hp, hf, hn⟩ := exists_square
  obtain ⟨-, -, hok, herr⟩ := sampling_is_interpolation hf [1e200] 2
  cases hs : p.sample (.list ([1e200].map .real)) (.int (2 : ℕ)) with
  | error e =>
    obtain ⟨done, t, rest, hts, -, hnan, -⟩ := herr e hs
    have ht : t ∈ [(1e200 : Float)] := hts ▸ by simp
    rw [List.mem_singleton.1 ht] at hnan
    exact absurd hnan (by decide +kernel)
  | ok rows =>
    obtain ⟨row, rest, ⟨-, hrow | ⟨-, k, hk, hk2, -⟩⟩, hrest, hrows⟩ :=
      List.forall₂_cons_left_iff.1 (hok rows hs)
    · rw [List.forall₂_nil_left_iff.1 hrest] at hrows
      exact ⟨p, row, hp, hf, hrows ▸ hs, hrow⟩
    · omega

end Problem

end KnotSpline
