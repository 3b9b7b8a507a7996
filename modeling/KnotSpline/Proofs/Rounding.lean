import KnotSpline.Proofs.Comparison
import KnotSpline.Proofs.Increasing

/-! Rounding. A result with enough digits is rounded to the nearest double, and packing keeps it. -/

namespace KnotSpline.Double

open Float.Model (UnpackedFloat Format totalExponent)
open Float.Model.UnpackedFloat

lemma log2_eq {m : ℕ} (h : 2 ^ 52 ≤ m) (h' : m < 2 ^ 53) : m.log2 = 52 :=
  (Nat.log2_eq_iff (by omega)).2 ⟨h, h'⟩

lemma unpack_pack {s : Sign} {m : ℕ} {e : ℤ} {h : 0 < m} (hm : 2 ^ 52 ≤ m) (hm' : m < 2 ^ 53)
    (he : -1074 ≤ e) (he' : e ≤ 971) :
    unpack Format.binary64 (pack Format.binary64 (.finite s m e h)) = .finite s m e h := by
  obtain ⟨b, hb⟩ : ∃ b : ℕ, e = b - 1075 := ⟨(e + 1075).toNat, by omega⟩
  have hbias : (Format.binary64.exponentBias : ℤ) = 1023 := rfl
  have hbits : (Format.binary64.mantissaBitsWithoutImplicit : ℤ) = 52 := rfl
  have hbiased : (e + (Format.binary64.exponentBias : ℤ) +
      (Format.binary64.mantissaBitsWithoutImplicit : ℤ)).toNat = b := by omega
  have hv : (BitVec.ofNat 11 b).toNat = b := by
    rw [BitVec.toNat_ofNat, Nat.mod_eq_of_lt (by omega)]
  have hmax : BitVec.ofNat 11 b ≠ -1#11 := by
    rw [ne_eq, ← BitVec.toNat_inj, hv]
    exact show ¬b = 2047 by omega
  have hmin : BitVec.ofNat 11 b ≠ 0#11 := by
    rw [ne_eq, ← BitVec.toNat_inj, hv]
    exact show ¬b = 0 by omega
  have hm₁ : (1#1 ++ BitVec.ofNat 52 m).toNat = m := by
    rw [BitVec.toNat_append, ← Nat.shiftLeft_add_eq_or_of_lt (BitVec.isLt _), BitVec.toNat_ofNat]
    change 2 ^ 52 + m % 2 ^ 52 = m
    omega
  have hs : Sign.ofBitVec s.toBitVec = s := by cases s <;> rfl
  rw [pack]
  dsimp only
  rw [hbiased, if_neg (show ¬2 ^ 11 ≤ b + 1 by omega), log2_eq hm hm',
    if_pos (show 52 + 1 = Format.binary64.mantissaBits from rfl), unpack]
  simp only [unpackExponent_packComponents, unpackMantissa_packComponents,
    unpackSign_packComponents]
  rw [if_neg hmax, if_neg hmin]
  simp only [hs, hm₁, hv]
  congr 1
  omega

def Stands (em : ExtendedMantissa) (x : ℝ) : Prop :=
  match em.accuracy with
  | .exact => x = em.mantissa
  | .inexact .lt => em.mantissa < x ∧ x < em.mantissa + 1 / (2 : ℕ)
  | .inexact .eq => x = em.mantissa + 1 / (2 : ℕ)
  | .inexact .gt => em.mantissa + 1 / (2 : ℕ) < x ∧ x < em.mantissa + 1

lemma Stands.shiftRightOne {em : ExtendedMantissa} {x : ℝ} (h : Stands em x) :
    Stands em.shiftRightOne (x / 2) := by
  obtain ⟨m, r, s⟩ := em
  have hm : (m : ℝ) = 2 * (m / 2 : ℕ) + (m % 2 : ℕ) := by exact_mod_cast (Nat.div_add_mod m 2).symm
  rcases Nat.mod_two_eq_zero_or_one m with h2 | h2 <;> cases r <;> cases s <;>
    simp only [Stands, ExtendedMantissa.accuracy, ExtendedMantissa.shiftRightOne, h2,
      Nat.cast_ofNat] at h hm ⊢ <;>
    simp <;> grind

lemma Stands.shiftRight {em : ExtendedMantissa} {x : ℝ} (h : Stands em x) (k : ℕ) :
    Stands (em >>> k) (x / 2 ^ k) := by
  change Stands (k.repeat ExtendedMantissa.shiftRightOne em) _
  induction k with
  | zero => simpa [Nat.repeat] using h
  | succ k ih =>
    rw [Nat.repeat, pow_succ, ← div_div]
    exact ih.shiftRightOne

lemma Stands.abs_sub_le {em : ExtendedMantissa} {x : ℝ} (h : Stands em x) :
    |(em.roundedMantissa : ℝ) - x| ≤ 1 / 2 := by
  obtain ⟨m, r, s⟩ := em
  rw [abs_le]
  rcases Nat.mod_two_eq_zero_or_one m with h2 | h2 <;> cases r <;> cases s <;>
    simp only [Stands, ExtendedMantissa.accuracy, ExtendedMantissa.roundedMantissa,
      Accuracy.roundToNearestEven, h2, Nat.cast_ofNat] at h ⊢ <;>
    push_cast <;> constructor <;> linarith

lemma shiftToTargetExponent_eq {m : ℕ} {e : ℤ} (hm : 2 ^ 52 ≤ m) (he : -1022 ≤ m.log2 + e) :
    shiftToTargetExponent Format.binary64 m e .exact =
      ((⟨m, false, false⟩ : ExtendedMantissa) >>> (m.log2 - 52), m.log2 + e - 52) := by
  have hlog : 52 ≤ m.log2 := (Nat.le_log2 (by omega)).2 hm
  have ht : Format.binary64.targetExponent (totalExponent m e) = m.log2 + e - 52 := by
    have hbits : (Format.binary64.mantissaBits : ℤ) = 53 := rfl
    have hmin : Format.binary64.minExponent = -1074 := rfl
    rw [Format.targetExponent, totalExponent, hbits, hmin]
    omega
  have hk : (m.log2 + e - 52 - e).toNat = m.log2 - 52 := by omega
  rw [shiftToTargetExponent, ht, shiftToExponent, hk]
  refine Prod.ext rfl ?_
  dsimp only
  omega

lemma log2_bounds {m : ℕ} (hm : 2 ^ 52 ≤ m) :
    (2 : ℝ) ^ 52 ≤ m / 2 ^ (m.log2 - 52) ∧ (m : ℝ) / 2 ^ (m.log2 - 52) < 2 ^ 53 := by
  have hlog : 52 ≤ m.log2 := (Nat.le_log2 (by omega)).2 hm
  have hlow : (2 : ℝ) ^ m.log2 ≤ m := by exact_mod_cast Nat.log2_self_le (by omega)
  have hhigh : (m : ℝ) < 2 ^ (m.log2 + 1) := by exact_mod_cast Nat.lt_log2_self
  have hpos : (0 : ℝ) < 2 ^ (m.log2 - 52) := by positivity
  rw [le_div_iff₀ hpos, div_lt_iff₀ hpos, ← pow_add, ← pow_add]
  rw [show 52 + (m.log2 - 52) = m.log2 by omega, show 53 + (m.log2 - 52) = m.log2 + 1 by omega]
  exact ⟨hlow, hhigh⟩

noncomputable def real : UnpackedFloat → ℝ
  | .finite s m e _ => (s.apply m : ℤ) * ((2 : ℕ) : ℝ) ^ e
  | _ => 0

/-- The double is as near to a number as any other one. -/
structure Nearest (u : UnpackedFloat) (x : ℝ) : Prop where
  isFinite : u.isFinite = true
  abs_sub_le (s : Sign) {n : ℕ} {f : ℤ} (h : Canonical n f) :
    |real u - x| ≤ |((s.apply n : ℤ) : ℝ) * 2 ^ f - x|

lemma abs_sub_le_of_grid {r : ℕ} {x y : ℝ} (hr : |r - x| ≤ 1 / 2) (hx : 2 ^ 52 ≤ x)
    (hy : (∃ j : ℤ, y = j) ∨ y ≤ 2 ^ 52) : |r - x| ≤ |y - x| := by
  have hint : ∀ j : ℤ, |r - x| ≤ |j - x| := by
    intro j
    rcases eq_or_ne (r : ℤ) j with rfl | hne
    · rw [Int.cast_natCast]
    · have h1 : (1 : ℝ) ≤ |(r : ℝ) - j| := by
        exact_mod_cast Int.one_le_abs (sub_ne_zero.2 hne)
      have htri := abs_sub_le (r : ℝ) x j
      rw [abs_sub_comm x] at htri
      linarith
  rcases hy with ⟨j, rfl⟩ | hy
  · exact hint j
  · have h52 := hint ((2 : ℤ) ^ 52)
    rw [Int.cast_pow, Int.cast_ofNat] at h52
    rw [abs_of_nonpos (sub_nonpos.2 hx)] at h52
    rw [abs_of_nonpos (sub_nonpos.2 (hy.trans hx))]
    linarith

lemma roundWithAccuracy_spec (s : Sign) {m : ℕ} {e : ℤ} (hm : 2 ^ 52 ≤ m)
    (he : -1022 ≤ m.log2 + e) : ∃ n f h,
      roundWithAccuracy Format.binary64 s m e .exact = .finite s n f h ∧
        2 ^ 52 ≤ n ∧ n < 2 ^ 53 ∧ m.log2 + e - 52 ≤ f ∧ f ≤ m.log2 + e - 51 ∧
        ∃ r : ℕ, |r - (m : ℝ) / 2 ^ (m.log2 - 52)| ≤ 1 / 2 ∧
          (n : ℝ) * 2 ^ f = r * 2 ^ (m.log2 + e - 52) := by
  obtain ⟨hlow, hhigh⟩ := log2_bounds hm
  have hstands : Stands ⟨m, false, false⟩ m := rfl
  have hr := (hstands.shiftRight (m.log2 - 52)).abs_sub_le
  rw [roundWithAccuracy, shiftToTargetExponent_eq hm he]
  dsimp only
  generalize ((⟨m, false, false⟩ : ExtendedMantissa) >>> (m.log2 - 52)).roundedMantissa = r at hr ⊢
  rw [abs_le] at hr
  have hr₁ : 2 ^ 52 ≤ r := by
    have h : ((2 ^ 52 : ℕ) : ℝ) < r + 1 := by push_cast; linarith
    exact Nat.le_of_lt_succ (by exact_mod_cast h)
  have hr₂ : r ≤ 2 ^ 53 := by
    have h : (r : ℝ) < (2 ^ 53 + 1 : ℕ) := by push_cast; linarith
    exact Nat.le_of_lt_succ (by exact_mod_cast h)
  -- the rounded significand may have one digit more, and is then shifted once again
  rcases Nat.lt_or_eq_of_le hr₂ with hlt | rfl
  · have hlog := log2_eq hr₁ hlt
    rw [shiftToTargetExponent_eq hr₁ (by omega), hlog]
    refine ⟨r, m.log2 + e - 52, by omega, ?_, hr₁, hlt, le_rfl, by omega, r, abs_le.2 hr, rfl⟩
    change (if h : r = 0 then _ else _) = _
    rw [dif_neg (by omega)]
    congr 1
    push_cast
    omega
  · have hshift : (⟨2 ^ 53, false, false⟩ : ExtendedMantissa) >>> (53 - 52) =
        ⟨2 ^ 52, false, false⟩ := rfl
    rw [shiftToTargetExponent_eq hr₁ (by rw [Nat.log2_two_pow]; omega), Nat.log2_two_pow, hshift]
    refine ⟨2 ^ 52, m.log2 + e - 51, by omega, ?_, le_rfl, by omega, by omega, le_rfl, 2 ^ 53,
      abs_le.2 hr, ?_⟩
    · change (if h : 2 ^ 52 = 0 then _ else _) = _
      rw [dif_neg (by omega)]
      congr 1
      push_cast
      omega
    · rw [show m.log2 + e - 51 = (m.log2 + e - 52) + 1 by omega, zpow_add_one₀ two_ne_zero]
      push_cast
      ring

lemma grid_or_le (s : Sign) {n : ℕ} {f : ℤ} (h : Canonical n f) (g : ℤ) :
    (∃ j : ℤ, ((s.apply n : ℤ) : ℝ) * 2 ^ (f - g) = j) ∨
      ((s.apply n : ℤ) : ℝ) * 2 ^ (f - g) ≤ 2 ^ 52 := by
  rcases le_or_gt g f with hle | hlt
  · refine .inl ⟨s.apply n * 2 ^ (f - g).toNat, ?_⟩
    rw [Int.cast_mul, Int.cast_pow, Int.cast_ofNat, ← zpow_natCast, Int.toNat_of_nonneg (by omega)]
  · right
    have hn : ((s.apply n : ℤ) : ℝ) ≤ 2 ^ 53 := by
      have hle : s.apply n ≤ 2 ^ 53 := by
        have := h.lt
        cases s <;> simp only [Sign.apply] <;> omega
      exact_mod_cast hle
    have hz : (2 : ℝ) ^ (f - g) ≤ 2⁻¹ := by
      rw [← zpow_neg_one]
      exact zpow_le_zpow_right₀ one_le_two (by omega)
    calc ((s.apply n : ℤ) : ℝ) * 2 ^ (f - g) ≤ 2 ^ 53 * 2 ^ (f - g) := by gcongr
      _ ≤ 2 ^ 53 * 2⁻¹ := by gcongr
      _ = 2 ^ 52 := by norm_num

theorem exists_nearest {m : ℕ} {e : ℤ} (hm : 2 ^ 52 ≤ m) (he : -1022 ≤ m.log2 + e) :
    ∃ n f h, roundWithAccuracy Format.binary64 .positive m e .exact = .finite .positive n f h ∧
      2 ^ 52 ≤ n ∧ n < 2 ^ 53 ∧ m.log2 + e - 52 ≤ f ∧ f ≤ m.log2 + e - 51 ∧
      Nearest (.finite .positive n f h) (m * 2 ^ e) := by
  obtain ⟨n, f, h, hround, hn, hn', hf, hf', r, hr, hvalue⟩ :=
    roundWithAccuracy_spec .positive hm he
  refine ⟨n, f, h, hround, hn, hn', hf, hf', rfl, fun s j i hj => ?_⟩
  have hlog : 52 ≤ m.log2 := (Nat.le_log2 (by omega)).2 hm
  set g : ℤ := m.log2 + e - 52
  have hx : (m : ℝ) * 2 ^ e = m / 2 ^ (m.log2 - 52) * 2 ^ g := by
    rw [div_mul_eq_mul_div, eq_div_iff (by positivity), mul_assoc, ← zpow_natCast,
      ← zpow_add₀ two_ne_zero]
    congr 2
    omega
  have hy : ((s.apply j : ℤ) : ℝ) * 2 ^ i = s.apply j * 2 ^ (i - g) * 2 ^ g := by
    rw [mul_assoc, ← zpow_add₀ two_ne_zero, sub_add_cancel]
  have hu : real (.finite .positive n f h) = r * 2 ^ g := by
    rw [real, ← hvalue]
    rfl
  -- measured in the last digit of the result all doubles are whole numbers, or smaller than it
  rw [hu, hx, hy, ← sub_mul, ← sub_mul, abs_mul, abs_mul]
  exact mul_le_mul_of_nonneg_right
    (abs_sub_le_of_grid hr (log2_bounds hm).1 (grid_or_le s hj g)) (abs_nonneg _)

lemma apply_neg (s : Sign) (n : ℤ) : (-s).apply n = -s.apply n := by
  cases s
  · exact (Int.neg_neg n).symm
  · rfl

lemma real_neg (u : UnpackedFloat) : real u.neg = -real u := by
  cases u with
  | finite s m e h =>
    change (((-s).apply m : ℤ) : ℝ) * 2 ^ e = -((s.apply m : ℤ) * 2 ^ e)
    rw [apply_neg, Int.cast_neg, neg_mul]
  | _ => exact neg_zero.symm

lemma Nearest.neg {u : UnpackedFloat} {x : ℝ} (h : Nearest u x) : Nearest u.neg (-x) := by
  refine ⟨?_, fun s n f hc => ?_⟩
  · have := h.isFinite
    cases u <;> first | rfl | cases this
  · have hle := h.abs_sub_le (-s) hc
    rw [apply_neg, Int.cast_neg, neg_mul] at hle
    rw [real_neg]
    have hl : -real u - -x = -(real u - x) := by ring
    have hr : -((s.apply n : ℤ) * 2 ^ f : ℝ) - x = -((s.apply n : ℤ) * 2 ^ f - -x) := by ring
    rwa [hl, abs_neg, ← abs_neg (_ - -x), ← hr]

lemma exists_nearest_pack {m : ℕ} {e : ℤ} (hm : 2 ^ 52 ≤ m) (he : -1022 ≤ m.log2 + e)
    (he' : m.log2 + e ≤ 1022) : ∃ n f h,
      (Float.Model.pack (roundWithAccuracy Format.binary64 .positive m e .exact)).unpack =
        .finite .positive n f h ∧ 2 ^ 52 ≤ n ∧ n < 2 ^ 53 ∧
        m.log2 + e - 52 ≤ f ∧ f ≤ m.log2 + e - 51 ∧
        Nearest (.finite .positive n f h) (m * 2 ^ e) := by
  obtain ⟨n, f, h, hround, hn, hn', hf, hf', hnear⟩ := exists_nearest hm he
  refine ⟨n, f, h, ?_, hn, hn', hf, hf', hnear⟩
  rw [hround]
  exact unpack_pack hn hn' (by omega) (by omega)

end KnotSpline.Double
