import KnotSpline.Proofs.Rounding

/-! Whole numbers as doubles. Those that fit a machine word count as the nearest doubles, and so in
their order. -/

namespace KnotSpline.Double

open Float.Model (UnpackedFloat Format totalExponent)
open Float.Model.UnpackedFloat

lemma log2_shiftLeft {n : ℕ} (hn : n ≠ 0) (k : ℕ) : (n <<< k).log2 = n.log2 + k := by
  rw [Nat.shiftLeft_eq, Nat.log2_eq_iff (by positivity), pow_add, Nat.add_right_comm, pow_add]
  exact ⟨Nat.mul_le_mul_right _ (Nat.log2_self_le hn),
    Nat.mul_lt_mul_of_pos_right Nat.lt_log2_self (by positivity)⟩

lemma cast_shiftLeft_mul_zpow (n k : ℕ) (e : ℤ) :
    ((n <<< k : ℕ) : ℝ) * 2 ^ e = n * 2 ^ (k + e) := by
  rw [Nat.shiftLeft_eq, Nat.cast_mul, Nat.cast_pow, Nat.cast_ofNat, mul_assoc, ← zpow_natCast,
    ← zpow_add₀ two_ne_zero]

lemma unpack_toFloat_eq {n : ℕ} (h0 : 0 < n) (hn : n < 2 ^ 53) :
    (UInt64.toFloat n.toUInt64).toModel.unpack =
      (Float.Model.pack (roundWithAccuracy Format.binary64 .positive (n <<< (52 - n.log2))
        (n.log2 - 52) .exact)).unpack := by
  have hlog : n.log2 < 53 := (Nat.log2_lt h0.ne').2 hn
  have hto : (UInt64.ofNat n).toNat = n := by
    rw [UInt64.toNat_ofNat', Nat.mod_eq_of_lt (by omega)]
  have hc : compare (n : ℤ) 0 = .gt := compare_gt_iff_gt.2 (by omega)
  have ht : Format.binary64.targetExponent (totalExponent n 0) = n.log2 - 52 := by
    have hbits : (Format.binary64.mantissaBits : ℤ) = 53 := rfl
    have hmin : Format.binary64.minExponent = -1074 := rfl
    rw [Format.targetExponent, totalExponent, hbits, hmin]
    omega
  change (Float.Model.pack (UnpackedFloat.normalize Format.binary64 ((UInt64.ofNat n).toNat : ℤ) 0
    .positive)).unpack = _
  rw [hto, UnpackedFloat.normalize, hc]
  dsimp only
  rw [UnpackedFloat.round, Int.toNat_natCast, ht, decreaseExponent]
  rw [show (0 - ((n.log2 : ℤ) - 52)).toNat = 52 - n.log2 by omega]
  rw [show (0 - ((52 - n.log2 : ℕ) : ℤ)) = n.log2 - 52 by omega]

lemma unpack_toFloat {n : ℕ} (h0 : 0 < n) (hn : n < 2 ^ 53) : ∃ m e h,
    (UInt64.toFloat n.toUInt64).toModel.unpack = .finite .positive m e h ∧
      2 ^ 52 ≤ m ∧ m < 2 ^ 53 ∧ -52 ≤ e ∧ e ≤ 1 ∧ (m : ℝ) * 2 ^ e = n := by
  have hlog : n.log2 < 53 := (Nat.log2_lt h0.ne').2 hn
  have hlog' : (n <<< (52 - n.log2)).log2 = 52 := by
    rw [log2_shiftLeft h0.ne']
    omega
  have hm : 2 ^ 52 ≤ n <<< (52 - n.log2) := by
    rw [← Nat.le_log2 (by rw [Nat.shiftLeft_eq]; positivity), hlog']
  have hm' : n <<< (52 - n.log2) < 2 ^ 53 := by
    rw [← Nat.log2_lt (by omega), hlog']
    omega
  obtain ⟨m, e, h, hu, hlow, hhigh, he, he', hnear⟩ :=
    exists_nearest_pack (e := (n.log2 : ℤ) - 52) hm (by omega) (by omega)
  have hvalue : ((n <<< (52 - n.log2) : ℕ) : ℝ) * 2 ^ ((n.log2 : ℤ) - 52) = n := by
    rw [cast_shiftLeft_mul_zpow, show ((52 - n.log2 : ℕ) : ℤ) + ((n.log2 : ℤ) - 52) = 0 by omega,
      zpow_zero, mul_one]
  have hexact := hnear.abs_sub_le .positive (n := n <<< (52 - n.log2)) (f := (n.log2 : ℤ) - 52)
    ⟨hm', by omega, .inl hm⟩
  refine ⟨m, e, h, (unpack_toFloat_eq h0 hn).trans hu, hlow, hhigh, by omega, by omega, ?_⟩
  change |_ - _| ≤ |((n <<< (52 - n.log2) : ℕ) : ℝ) * 2 ^ ((n.log2 : ℤ) - 52) - _| at hexact
  rw [sub_self, abs_zero, hvalue] at hexact
  exact sub_eq_zero.1 (abs_nonpos_iff.1 hexact)

lemma unpack_mul {x y : Float} {m n : ℕ} {e f : ℤ} {h : 0 < m} {h' : 0 < n}
    (hx : x.toModel.unpack = .finite .positive m e h)
    (hy : y.toModel.unpack = .finite .positive n f h') : (x * y).toModel.unpack =
      (Float.Model.pack (roundWithAccuracy Format.binary64 .positive (m * n) (e + f)
        .exact)).unpack := by
  change (Float.Model.pack (UnpackedFloat.mul Format.binary64 x.toModel.unpack
    y.toModel.unpack)).unpack = _
  rw [hx, hy, UnpackedFloat.mul]
  rfl

lemma ofNat_of_lt {n : ℕ} (hn : n < 2 ^ 53) :
    Float.ofNat n = n.toUInt64.toFloat * Float.exactlyRepresentablePowersOfTen[0] :=
  dif_pos ⟨hn, by decide⟩

lemma unpack_ofNat_of_le {n : ℕ} (hn : 2 ^ 53 ≤ n) : (Float.ofNat n).toModel.unpack =
    (Float.Model.pack (roundWithAccuracy Format.binary64 .positive (n <<< 53) (-53)
      .exact)).unpack := by
  have hof : Float.ofNat n = ⟨Float.Model.ofScientific n 0⟩ :=
    dif_neg fun h => absurd h.1 (by omega)
  have h0 : ¬n = 0 := by omega
  have hlow : ¬(0 : ℤ) < -((2 ^ Format.binary64.exponentBits : ℤ) + n.log2) := by
    have : (0 : ℤ) ≤ 2 ^ Format.binary64.exponentBits := by positivity
    omega
  rw [hof, Float.Model.ofScientific, UnpackedFloat.ofScientific, dif_neg h0, if_neg (by decide),
    if_neg hlow, if_pos le_rfl, UnpackedFloat.mul, Int.toNat_zero, Nat.pow_zero, Nat.mul_one]
  rfl

lemma exists_nearest_ofNat {n : ℕ} (h0 : 0 < n) (hn : n < 2 ^ 64) : ∃ m e h,
    (Float.ofNat n).toModel.unpack = .finite .positive m e h ∧ 2 ^ 52 ≤ m ∧ m < 2 ^ 53 ∧
      -52 ≤ e ∧ e ≤ 12 ∧ Nearest (.finite .positive m e h) n := by
  by_cases hsmall : n < 2 ^ 53
  · obtain ⟨m, e, h, hu, hlow, hhigh, he, he', hvalue⟩ := unpack_toFloat h0 hsmall
    have hone : (Float.exactlyRepresentablePowersOfTen[0]).toModel.unpack =
        .finite .positive (2 ^ 52) (-52) (by decide) := rfl
    have hlog : (m * 2 ^ 52).log2 = 104 := by
      rw [← Nat.shiftLeft_eq, log2_shiftLeft (by omega), log2_eq hlow hhigh]
    obtain ⟨n', f, h', hu', hlow', hhigh', hf, hf', hnear⟩ :=
      exists_nearest_pack (m := m * 2 ^ 52) (e := e + -52) (by omega) (by omega) (by omega)
    have hx : ((m * 2 ^ 52 : ℕ) : ℝ) * 2 ^ (e + -52) = n := by
      rw [← hvalue, ← Nat.shiftLeft_eq, cast_shiftLeft_mul_zpow]
      congr 2
      push_cast
      omega
    rw [hx] at hnear
    rw [ofNat_of_lt hsmall, unpack_mul hu hone, hu']
    exact ⟨n', f, h', rfl, hlow', hhigh', by omega, by omega, hnear⟩
  · have hlog : n.log2 < 64 := (Nat.log2_lt (by omega)).2 hn
    have hlog' : 53 ≤ n.log2 := (Nat.le_log2 (by omega)).2 (by omega)
    have hshift : (n <<< 53).log2 = n.log2 + 53 := log2_shiftLeft (by omega) 53
    have hm : 2 ^ 52 ≤ n <<< 53 := by
      rw [Nat.shiftLeft_eq]
      omega
    obtain ⟨m, e, h, hu, hlow, hhigh, hf, hf', hnear⟩ :=
      exists_nearest_pack (e := -53) hm (by omega) (by omega)
    have hx : ((n <<< 53 : ℕ) : ℝ) * 2 ^ (-53 : ℤ) = n := by
      rw [cast_shiftLeft_mul_zpow]
      simp
    rw [hx] at hnear
    rw [unpack_ofNat_of_le (by omega), hu]
    exact ⟨m, e, h, rfl, hlow, hhigh, by omega, by omega, hnear⟩

theorem nearest_ofInt {z : ℤ} (h : -2 ^ 63 ≤ z) (h' : z < 2 ^ 64) :
    Nearest (Float.ofInt z).toModel.unpack z := by
  cases z with
  | ofNat n =>
    rcases Nat.eq_zero_or_pos n with rfl | h0
    · refine ⟨rfl, fun s n f _ => ?_⟩
      change |(0 : ℝ) - ((0 : ℤ) : ℝ)| ≤ _
      rw [Int.cast_zero, sub_self, abs_zero]
      exact abs_nonneg _
    · obtain ⟨m, e, h, hu, -, -, -, -, hnear⟩ := exists_nearest_ofNat h0 (Int.ofNat_lt.1 h')
      change Nearest (Float.ofNat n).toModel.unpack _
      rw [hu]
      exact_mod_cast hnear
  | negSucc n =>
    obtain ⟨m, e, hm, hu, hlow, hhigh, he, he', hnear⟩ :=
      exists_nearest_ofNat (n := n + 1) (by omega) (by omega)
    have hneg : (Float.ofInt (.negSucc n)).toModel.unpack =
        unpack Format.binary64 (pack Format.binary64 (.finite .negative m e hm)) := by
      change (Float.Model.pack (Float.ofNat (n + 1)).toModel.unpack.neg).unpack = _
      rw [hu]
      rfl
    rw [hneg, unpack_pack hlow hhigh (by omega) (by omega)]
    have := hnear.neg
    rwa [← Int.cast_natCast, ← Int.cast_neg] at this

/-! The order of doubles is that of the numbers they are. -/

def IsCanonical (u : UnpackedFloat) : Prop :=
  ∀ s m e h, u = .finite s m e h → Canonical m e

lemma Canonical.lt_of_lex {m n : ℕ} {e f : ℤ} (hm : Canonical m e) (hn : Canonical n f)
    (h : e < f ∨ e = f ∧ m < n) : (m : ℝ) * 2 ^ e < n * 2 ^ f := by
  rcases h with hlt | ⟨rfl, hlt⟩
  · have hm' : (m : ℝ) < 2 ^ 53 := by exact_mod_cast hm.lt
    have hn' : (2 : ℝ) ^ 52 ≤ n := by
      exact_mod_cast hn.normal.resolve_right (by have := hm.least_le; omega)
    have hz : (2 : ℝ) ^ (e + 1) ≤ 2 ^ f := zpow_le_zpow_right₀ one_le_two hlt
    calc (m : ℝ) * 2 ^ e < 2 ^ 53 * 2 ^ e := by gcongr
      _ = 2 ^ 52 * 2 ^ (e + 1) := by rw [zpow_add_one₀ two_ne_zero]; ring
      _ ≤ n * 2 ^ f := by gcongr
  · gcongr

lemma real_lt_of_place_lt {u v : UnpackedFloat} (hu : IsCanonical u) (hv : IsCanonical v)
    (hu' : u.isFinite = true) (hv' : v.isFinite = true) (h : place u < place v) :
    real u < real v := by
  have hpos : ∀ {m : ℕ} (e : ℤ), 0 < m → (0 : ℝ) < m * 2 ^ e := fun e hm => by positivity
  cases u with
  | infinity | notANumber => cases hu'
  | zero s =>
    cases v with
    | infinity | notANumber => cases hv'
    | zero t => exact absurd h (lt_irrefl _)
    | finite t n f hn =>
      cases t with
      | negative => exact absurd h (by simp [place, Prod.Lex.toLex_lt_toLex])
      | positive => simpa [real, Sign.apply] using hpos f hn
  | finite s m e hm =>
    cases v with
    | infinity | notANumber => cases hv'
    | zero t =>
      cases s with
      | negative => simpa [real, Sign.apply] using hpos e hm
      | positive => exact absurd h (by simp [place, Prod.Lex.toLex_lt_toLex])
    | finite t n f hn =>
      have hmc := hu _ _ _ _ rfl
      have hnc := hv _ _ _ _ rfl
      cases s with
      | negative =>
        cases t with
        | negative =>
          have hlex : f < e ∨ f = e ∧ n < m := by
            simpa [place, Prod.Lex.toLex_lt_toLex, eq_comm] using h
          simpa [real, Sign.apply] using hnc.lt_of_lex hmc hlex
        | positive =>
          have := hpos e hm
          have := hpos f hn
          simp only [real, Sign.apply]
          push_cast
          linarith
      | positive =>
        cases t with
        | negative => exact absurd h (by simp [place, Prod.Lex.toLex_lt_toLex])
        | positive =>
          have hlex : e < f ∨ e = f ∧ m < n := by
            simpa [place, Prod.Lex.toLex_lt_toLex] using h
          simpa [real, Sign.apply] using hmc.lt_of_lex hnc hlex

lemma exists_canonical {u : UnpackedFloat} (hu : IsCanonical u) (h : u.isFinite = true) :
    ∃ (s : Sign) (n : ℕ) (f : ℤ), Canonical n f ∧ real u = (s.apply n : ℤ) * 2 ^ f := by
  cases u with
  | infinity | notANumber => cases h
  | zero s => exact ⟨.positive, 0, -1074, ⟨by omega, le_rfl, .inr rfl⟩, by simp [real, Sign.apply]⟩
  | finite s m e hm => exact ⟨s, m, e, hu _ _ _ _ rfl, rfl⟩

lemma Nearest.real_le {u v : UnpackedFloat} {a b : ℝ} (hu : IsCanonical u) (hv : IsCanonical v)
    (ha : Nearest u a) (hb : Nearest v b) (h : a < b) : real u ≤ real v := by
  obtain ⟨s, m, e, hm, hu⟩ := exists_canonical hu ha.isFinite
  obtain ⟨t, n, f, hn, hv⟩ := exists_canonical hv hb.isFinite
  have hsq : ∀ {x y c : ℝ}, |x - c| ≤ |y - c| → (x - c) ^ 2 ≤ (y - c) ^ 2 := sq_le_sq.2
  have hav : |real u - a| ≤ |real v - a| := hv ▸ ha.abs_sub_le t hn
  have hbu : |real v - b| ≤ |real u - b| := hu ▸ hb.abs_sub_le s hm
  replace hav := sq_le_sq.2 hav
  replace hbu := sq_le_sq.2 hbu
  -- the number halfway between the two doubles would be both at most `a` and at least `b`
  by_contra hlt
  nlinarith [not_le.1 hlt]

lemma Nearest.real_eq {u v : UnpackedFloat} (hv : IsCanonical v) (hf : v.isFinite = true)
    (h : Nearest u (real v)) : real u = real v := by
  obtain ⟨t, n, f, hn, hv⟩ := exists_canonical hv hf
  have := h.abs_sub_le t hn
  rw [← hv, sub_self, abs_zero, abs_nonpos_iff, sub_eq_zero] at this
  exact this

lemma nearest_real {u : UnpackedFloat} (h : u.isFinite = true) : Nearest u (real u) :=
  ⟨h, fun _ _ _ _ => by rw [sub_self, abs_zero]; exact abs_nonneg _⟩

noncomputable def extended : UnpackedFloat → EReal
  | .infinity .negative => ⊥
  | .infinity .positive => ⊤
  | u => real u

lemma extended_eq_real {u : UnpackedFloat} (h : u.isFinite = true) : extended u = real u := by
  cases u with
  | infinity => cases h
  | _ => rfl

lemma place_bot_le (u : UnpackedFloat) : place (.infinity .negative) ≤ place u := by
  rcases u with (_ | _) | _ | _ | ⟨_ | _, m, e, hm⟩ <;> simp [place, Prod.Lex.toLex_le_toLex]

lemma place_le_top {u : UnpackedFloat} (h : u ≠ .notANumber) :
    place u ≤ place (.infinity .positive) := by
  rcases u with (_ | _) | _ | _ | ⟨_ | _, m, e, hm⟩ <;>
    first | exact absurd rfl h | simp [place, Prod.Lex.toLex_le_toLex]

lemma eq_infinity {u : UnpackedFloat} (h : u ≠ .notANumber) (h' : u.isFinite = false) :
    u = .infinity .negative ∨ u = .infinity .positive := by
  rcases u with (_ | _) | _ | _ | _
  · exact .inl rfl
  · exact .inr rfl
  · exact absurd rfl h
  · cases h'
  · cases h'

lemma extended_lt_of_place_lt {u v : UnpackedFloat} (hu : IsCanonical u) (hv : IsCanonical v)
    (hu' : u ≠ .notANumber) (hv' : v ≠ .notANumber) (h : place u < place v) :
    extended u < extended v := by
  cases hfu : u.isFinite with
  | false =>
    obtain rfl | rfl := eq_infinity hu' hfu
    · cases hfv : v.isFinite with
      | false =>
        obtain rfl | rfl := eq_infinity hv' hfv
        · exact absurd h (lt_irrefl _)
        · exact bot_lt_top
      | true =>
        rw [extended_eq_real hfv]
        exact EReal.bot_lt_coe _
    · exact absurd h (not_lt.2 (place_le_top hv'))
  | true =>
    rw [extended_eq_real hfu]
    cases hfv : v.isFinite with
    | false =>
      obtain rfl | rfl := eq_infinity hv' hfv
      · exact absurd h (not_lt.2 (place_bot_le u))
      · exact EReal.coe_lt_top _
    | true =>
      rw [extended_eq_real hfv]
      exact EReal.coe_lt_coe_iff.2 (real_lt_of_place_lt hu hv hfu hfv h)

lemma isCanonical (x : Float) : IsCanonical x.toModel.unpack :=
  fun _ _ _ _ hx => canonical_of_unpack hx

theorem le_of_extended_le {x y : Float} (hx : x.isNaN = false) (hy : y.isNaN = false)
    (h : extended x.toModel.unpack ≤ extended y.toModel.unpack) : x ≤ y := by
  rw [isNaN_eq_false_iff] at hx hy
  refine le_iff.2 ⟨hx, hy, not_lt.1 fun hlt => ?_⟩
  exact h.not_gt (extended_lt_of_place_lt (isCanonical y) (isCanonical x) hy hx hlt)

end KnotSpline.Double
