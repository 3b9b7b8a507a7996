import KnotSpline.Double
import KnotSpline.Problem
import KnotSpline.Proofs.Reals

/-! Times whose differences are positive are increasing. This is so for doubles too: a difference of
doubles is positive only if the second is less than the first, however it is rounded. -/

namespace KnotSpline

class OrderedDifferences (α : Type) [Scalar α] : Prop where
  lt_of_sub_pos {a b : α} : 0 < b - a → a < b

lemma isChain_of_differences {α : Type} [Scalar α] [OrderedDifferences α] {xs : List α}
    (h : (Problem.differences xs).all fun d => decide (0 < d)) : xs.IsChain (· < ·) := by
  induction xs with
  | nil => exact .nil
  | cons x xs ih =>
    cases xs with
    | nil => exact .singleton x
    | cons y xs =>
      simp only [Problem.differences, List.tail_cons, List.zipWith_cons_cons, List.all_cons,
        Bool.and_eq_true, decide_eq_true_eq] at h
      exact .cons_cons (OrderedDifferences.lt_of_sub_pos h.1) (ih h.2)

instance : OrderedDifferences ℝ where
  lt_of_sub_pos := sub_pos.1

namespace Double

open Float.Model (UnpackedFloat Format)
open Float.Model.UnpackedFloat

def isPositive (x : UnpackedFloat) : Bool :=
  (UnpackedFloat.zero .positive).lt x

lemma isPositive_iff (x : UnpackedFloat) : isPositive x = true ↔
    x = .infinity .positive ∨ ∃ m e h, x = .finite .positive m e h := by
  cases x with
  | infinity s => cases s <;> simp [isPositive, UnpackedFloat.lt, UnpackedFloat.compare]
  | notANumber => simp [isPositive, UnpackedFloat.lt, UnpackedFloat.compare]
  | zero s => simp [isPositive, UnpackedFloat.lt, UnpackedFloat.compare]
  | finite s m e h => cases s <;> simp [isPositive, UnpackedFloat.lt, UnpackedFloat.compare, h]

lemma unpackSign_packComponents (s : Sign) (e : BitVec 11) (m : BitVec 52) :
    @unpackSign Format.binary64 (packComponents Format.binary64 s e m) = s.toBitVec := by
  have h : ∀ x : BitVec 1, (x ++ e ++ m).getLsbD 63 = x.getLsbD 0 := by
    intro x
    rw [BitVec.getLsbD_append, if_neg (by decide), BitVec.getLsbD_append, if_neg (by decide)]
  ext i hi
  obtain rfl : i = 0 := by omega
  simp only [unpackSign, packComponents, BitVec.cast_eq, BitVec.getElem_extract, Nat.add_zero]
  exact h _

lemma sign_of_isPositive {b : BitVec 64} (h : isPositive (unpack Format.binary64 b)) :
    @unpackSign Format.binary64 b = 0#1 := by
  have hs : ∀ s : BitVec 1, Sign.ofBitVec s = .positive → s = 0#1 := by
    intro s hs
    rw [Sign.ofBitVec] at hs
    split at hs
    · assumption
    · cases hs
  apply hs
  rw [UnpackedFloat.unpack] at h
  split at h
  · split at h
    · simpa [isPositive_iff] using h
    · simp [isPositive_iff] at h
  · split at h
    · split at h
      · simp [isPositive_iff] at h
      · exact ((by simpa [isPositive_iff] using h) : _ ∧ _).1
    · exact ((by simpa [isPositive_iff] using h) : _ ∧ _).1

lemma sign_of_packComponents {s : Sign} {e : BitVec 11} {m : BitVec 52}
    (h : isPositive (unpack Format.binary64 (packComponents Format.binary64 s e m))) :
    s = .positive := by
  have hs := sign_of_isPositive h
  rw [unpackSign_packComponents] at hs
  cases s with
  | positive => rfl
  | negative => cases hs

lemma isPositive_of_pack {x : UnpackedFloat}
    (h : isPositive (unpack Format.binary64 (UnpackedFloat.pack Format.binary64 x))) :
    isPositive x := by
  cases x with
  | notANumber => exact absurd h (by decide)
  | zero s => cases s <;> exact absurd h (by decide)
  | infinity s =>
    obtain rfl := sign_of_packComponents h
    rfl
  | finite s m e hm =>
    have hs : s = .positive := by
      rw [UnpackedFloat.pack] at h
      split at h
      · exact sign_of_packComponents h
      · split at h
        · exact sign_of_packComponents h
        · exact sign_of_packComponents h
    rw [hs]
    rfl

structure Canonical (m : ℕ) (e : ℤ) : Prop where
  lt : m < 2 ^ 53
  least_le : -1074 ≤ e
  normal : 2 ^ 52 ≤ m ∨ e = -1074

lemma canonical_of_unpack {b : BitVec 64} {s : Sign} {m : ℕ} {e : ℤ} {h : 0 < m}
    (hu : unpack Format.binary64 b = .finite s m e h) : Canonical m e := by
  rw [unpack] at hu
  have hm := (@unpackMantissa Format.binary64 b).isLt
  split at hu
  · split at hu <;> cases hu
  · split at hu
    · next he =>
      split at hu
      · cases hu
      · cases hu
        refine ⟨by dsimp only [Format.binary64] at hm; omega, ?_, .inr ?_⟩
        · rw [he]; decide
        · rw [he]; decide
    · next he =>
      cases hu
      have hm' : (1#1 ++ @unpackMantissa Format.binary64 b).toNat =
          2 ^ 52 + (@unpackMantissa Format.binary64 b).toNat := by
        rw [BitVec.toNat_append, ← Nat.shiftLeft_add_eq_or_of_lt hm]
        rfl
      have he' : (@unpackExponent Format.binary64 b).toNat ≠ 0 := fun h0 =>
        he (BitVec.eq_of_toNat_eq h0)
      have hb : ((Format.binary64.exponentBias : ℤ) +
        (Format.binary64.mantissaBitsWithoutImplicit : ℤ)) = 1075 := by decide
      rw [hm', hb]
      refine ⟨?_, by omega, .inl (by omega)⟩
      dsimp only [Format.binary64] at hm
      omega

lemma Canonical.lex {m n : ℕ} {e f : ℤ} (hm : Canonical m e) (hn : Canonical n f)
    (h : m <<< (e - min e f).toNat < n <<< (f - min e f).toNat) :
    e < f ∨ e = f ∧ m < n := by
  rw [Nat.shiftLeft_eq, Nat.shiftLeft_eq] at h
  rcases lt_trichotomy e f with hef | rfl | hef
  · exact .inl hef
  · exact .inr ⟨rfl, by simpa using h⟩
  · have hmin : min e f = f := min_eq_right hef.le
    have hnorm : 2 ^ 52 ≤ m := hm.normal.resolve_right (by have := hn.least_le; omega)
    rw [hmin, sub_self, Int.toNat_zero, pow_zero, mul_one] at h
    have hk : 1 ≤ (e - f).toNat := by omega
    have hp : 2 ^ 52 * 2 ^ 1 ≤ m * 2 ^ (e - f).toNat :=
      Nat.mul_le_mul hnorm (Nat.pow_le_pow_right two_pos hk)
    have := hn.lt
    omega

lemma pos_of_normalize {m : ℤ} {e : ℤ}
    (h : isPositive (normalize Format.binary64 m e .positive)) : 0 < m := by
  unfold UnpackedFloat.normalize at h
  split at h
  · rw [isPositive_iff, UnpackedFloat.round] at h
    simp only [roundWithAccuracy] at h
    split at h <;> simp at h
  · simp [isPositive_iff] at h
  · next hc => exact compare_gt_iff_gt.1 hc

lemma lt_of_isPositive_sub_finite {s t : Sign} {m n : ℕ} {e f : ℤ} {hm : 0 < m} {hn : 0 < n}
    (hm' : Canonical m e) (hn' : Canonical n f)
    (h : isPositive (UnpackedFloat.sub Format.binary64 (.finite t n f hn) (.finite s m e hm)) =
      true) : (UnpackedFloat.finite s m e hm).lt (.finite t n f hn) = true := by
  replace h := pos_of_normalize h
  change 0 < t.apply (n <<< (f - min f e).toNat : ℕ) - s.apply (m <<< (e - min f e).toNat : ℕ) at h
  cases s with
  | positive =>
    cases t with
    | positive =>
      have hlt := Int.ofNat_lt.1 (sub_pos.1 h)
      rw [min_comm] at hlt
      simpa [UnpackedFloat.lt, UnpackedFloat.compare, Ordering.then_eq_lt, compare_lt_iff_lt]
        using hm'.lex hn' hlt
    | negative =>
      generalize n <<< (f - min f e).toNat = x at h
      generalize m <<< (e - min f e).toNat = y at h
      exact absurd h (by simp only [Sign.apply]; omega)
  | negative =>
    cases t with
    | positive => rfl
    | negative =>
      have hlt := Int.ofNat_lt.1 (neg_lt_neg_iff.1 (sub_pos.1 h))
      have hlex : f < e ∨ e = f ∧ n < m := (hn'.lex hm' hlt).imp_right fun h => ⟨h.1.symm, h.2⟩
      simpa [UnpackedFloat.lt, UnpackedFloat.compare, Ordering.then_eq_gt, compare_gt_iff_gt]
        using hlex

lemma lt_of_isPositive_sub {b a : UnpackedFloat}
    (hb : ∀ s m e h, b = .finite s m e h → Canonical m e)
    (ha : ∀ s m e h, a = .finite s m e h → Canonical m e)
    (h : isPositive (UnpackedFloat.sub Format.binary64 b a) = true) : a.lt b = true := by
  cases b with
  | notANumber => exact absurd h Bool.false_ne_true
  | infinity t =>
    cases a with
    | notANumber => exact absurd h Bool.false_ne_true
    | infinity s => cases t <;> cases s <;> first | rfl | exact absurd h Bool.false_ne_true
    | zero s => cases t <;> first | rfl | exact absurd h Bool.false_ne_true
    | finite s m e hm =>
      cases t <;> cases s <;> first | rfl | exact absurd h Bool.false_ne_true
  | zero t =>
    cases a with
    | notANumber => exact absurd h Bool.false_ne_true
    | infinity s => cases s <;> first | rfl | exact absurd h Bool.false_ne_true
    | zero s => cases t <;> cases s <;> exact absurd h Bool.false_ne_true
    | finite s m e hm => cases s <;> first | rfl | exact absurd h Bool.false_ne_true
  | finite t n f hn =>
    cases a with
    | notANumber => exact absurd h Bool.false_ne_true
    | infinity s => cases s <;> first | rfl | exact absurd h Bool.false_ne_true
    | zero s => cases t <;> first | rfl | exact absurd h Bool.false_ne_true
    | finite s m e hm => exact lt_of_isPositive_sub_finite (ha _ _ _ _ rfl) (hb _ _ _ _ rfl) h

end Double

instance : OrderedDifferences Float where
  lt_of_sub_pos h := decide_eq_true (Double.lt_of_isPositive_sub
    (fun _ _ _ _ => Double.canonical_of_unpack) (fun _ _ _ _ => Double.canonical_of_unpack)
    (Double.isPositive_of_pack (of_decide_eq_true h)))

end KnotSpline
