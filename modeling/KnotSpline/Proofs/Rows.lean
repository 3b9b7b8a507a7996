import KnotSpline.Problem.Constraint
import KnotSpline.Proofs.Derivative

/-! The equations that a constraint stands for, segment by segment, and the rows that are written
for it into an empty system. -/

namespace KnotSpline

section Blocks

variable {α : Type}

def blocks (m : ℕ) (block : ℕ → List α) : List α :=
  (List.range m).flatMap block

lemma blocks_succ (m : ℕ) (block : ℕ → List α) :
    blocks (m + 1) block = blocks m block ++ block m := by
  simp [blocks, List.range_succ]

lemma length_blocks {m n : ℕ} {block : ℕ → List α} (h : ∀ i < m, (block i).length = n) :
    (blocks m block).length = m * n := by
  induction m with
  | zero => simp [blocks]
  | succ m ih =>
    rw [blocks_succ, List.length_append, ih fun i hi => h i (by omega), h m (by omega),
      Nat.succ_mul]

lemma blocks_congr {m : ℕ} {f g : ℕ → List α} (h : ∀ i < m, f i = g i) : blocks m f = blocks m g :=
  List.flatMap_congr fun i hi => h i (List.mem_range.1 hi)

lemma replicate_eq_blocks (m n : ℕ) (a : α) :
    List.replicate (m * n) a = blocks m fun _ => List.replicate n a := by
  induction m with
  | zero => simp [blocks]
  | succ m ih => rw [blocks_succ, ← ih, Nat.succ_mul, List.replicate_append_replicate]

lemma blocks_take_drop {m n : ℕ} {xs : List α} (h : xs.length = m * n) :
    (blocks m fun i => (xs.drop (i * n)).take n) = xs := by
  have ht : ∀ k, (blocks k fun i => (xs.drop (i * n)).take n) = xs.take (k * n) := by
    intro k
    induction k with
    | zero => simp [blocks]
    | succ k ih => rw [blocks_succ, ih, Nat.succ_mul, List.take_add]
  rw [ht, ← h, List.take_length]

lemma length_take_drop {m n i : ℕ} {xs : List α} (h : xs.length = m * n) (hi : i < m) :
    ((xs.drop (i * n)).take n).length = n := by
  have hle : (i + 1) * n ≤ m * n := Nat.mul_le_mul_right n hi
  rw [Nat.succ_mul] at hle
  rw [List.length_take, List.length_drop]
  omega

lemma take_drop_blocks {m n i : ℕ} {block : ℕ → List α} (h : ∀ i < m, (block i).length = n)
    (hi : i < m) : ((blocks m block).drop (i * n)).take n = block i := by
  induction m with
  | zero => omega
  | succ m ih =>
    have hm : ∀ i < m, (block i).length = n := fun i hi => h i (by omega)
    have hl := length_blocks hm
    rw [blocks_succ]
    rcases Nat.lt_succ_iff_lt_or_eq.1 hi with hi | rfl
    · have hle : (i + 1) * n ≤ m * n := Nat.mul_le_mul_right n hi
      rw [Nat.succ_mul] at hle
      rw [List.drop_append_of_le_length (by omega),
        List.take_append_of_le_length (by rw [List.length_drop]; omega), ih hm hi]
    · rw [← hl, List.drop_left, List.take_of_length_le (h i (by omega)).le]

lemma overwrite_append_left {start : ℕ} {v xs ys : List α} (h : start + v.length ≤ xs.length) :
    Row.overwrite start v (xs ++ ys) = Row.overwrite start v xs ++ ys := by
  rw [Row.overwrite, Row.overwrite, List.take_append_of_le_length (by omega),
    List.drop_append_of_le_length h]
  simp

lemma overwrite_append_right {v xs ys : List α} (h : v.length = ys.length) :
    Row.overwrite xs.length v (xs ++ ys) = xs ++ v := by
  simp [Row.overwrite, h]

lemma overwrite_blocks {m n s : ℕ} {block : ℕ → List α} {v : List α}
    (h : ∀ i < m, (block i).length = n) (hv : v.length = n) (hs : s < m) :
    Row.overwrite (s * n) v (blocks m block) = blocks m (Function.update block s v) := by
  induction m with
  | zero => omega
  | succ m ih =>
    have hm : ∀ i < m, (block i).length = n := fun i hi => h i (by omega)
    have hl := length_blocks hm
    rw [blocks_succ, blocks_succ]
    rcases Nat.lt_succ_iff_lt_or_eq.1 hs with hs | rfl
    · have hle : s * n + v.length ≤ (blocks m block).length := by
        rw [hl, hv, ← Nat.succ_mul]
        exact Nat.mul_le_mul_right n hs
      rw [overwrite_append_left hle, ih hm hs, Function.update_of_ne (by omega)]
    · rw [← hl, overwrite_append_right (hv.trans (h s (by omega)).symm), Function.update_self]
      congr 1
      exact blocks_congr fun i hi => (Function.update_of_ne (by omega) _ _).symm

end Blocks

namespace Problem

variable {α : Type} [Scalar α] (p : Problem α)

def knotRow (knot order : ℕ) : List α :=
  derivativeVector p.coefficientCount (p.times.getD knot 0) order

def zeroBlock : List α :=
  List.replicate p.coefficientCount 0

def constantLeft (knot order segment : ℕ) : List α :=
  blocks p.segmentCount fun s => if s = segment then p.knotRow knot order else p.zeroBlock

def continuityLeft (knot order : ℕ) : List α :=
  blocks p.segmentCount fun s =>
    if s + 1 = knot then p.knotRow knot order
    else if s = knot then (p.knotRow knot order).map (- ·)
    else p.zeroBlock

def equations : Constraint α → List (Equation α)
  | .constant knot order target =>
    (p.adjoining knot).map fun s => ⟨p.constantLeft knot order s, target⟩
  | .continuity knot order => [⟨p.continuityLeft knot order, List.replicate p.outputCount 0⟩]

def equationCount : Constraint α → ℕ
  | .constant knot _ _ => if knot = 0 ∨ knot + 1 = p.knotCount then 1 else 2
  | .continuity _ _ => 1

def emptyEquation : Equation α :=
  ⟨List.replicate p.dimension 0, List.replicate p.outputCount 0⟩

def Admits : Constraint α → Prop
  | .constant knot order _ => knot < p.knotCount ∧ order < p.coefficientCount
  | .continuity knot order => 0 < knot ∧ knot + 1 < p.knotCount ∧ order < p.coefficientCount

variable {p}

@[simp] lemma length_knotRow (knot order : ℕ) :
    (p.knotRow knot order).length = p.coefficientCount :=
  length_derivativeVector _ _ _

@[simp] lemma length_zeroBlock : p.zeroBlock.length = p.coefficientCount := by
  simp [zeroBlock]

omit [Scalar α] in
lemma segmentCount_add_one (h : 2 ≤ p.knotCount) : p.segmentCount + 1 = p.knotCount :=
  Nat.sub_add_cancel (Nat.one_le_of_lt h)

omit [Scalar α] in
lemma lt_segmentCount {knot : ℕ} (h : knot + 1 < p.knotCount) : knot < p.segmentCount :=
  Nat.lt_sub_of_add_lt h

omit [Scalar α] in
lemma mem_adjoining {knot s : ℕ} (h : knot < p.knotCount) :
    s ∈ p.adjoining knot ↔ s < p.segmentCount ∧ (s + 1 = knot ∨ s = knot) := by
  rw [adjoining, segmentCount]
  split <;> split <;> simp <;> omega

lemma length_equations (h : 2 ≤ p.knotCount) {c : Constraint α} (hc : p.Admits c) :
    (p.equations c).length = p.equationCount c := by
  cases c with
  | constant knot order target =>
    have hk : knot < p.knotCount := hc.1
    simp only [equations, List.length_map, adjoining, List.length_append, equationCount]
    split <;> split <;> split <;> simp <;> omega
  | continuity knot order => rfl

lemma knotVector_eq (knot order : ℕ) : p.knotVector knot order = .ok (p.knotRow knot order) :=
  evaluationVector_stored _ _ _

lemma fill_constant {knot order s : ℕ} (hs : s < p.segmentCount) (target : List α) :
    Row.fill p.coefficientCount ⟨[(s, p.knotRow knot order)], target⟩ p.emptyEquation =
      ⟨p.constantLeft knot order s, target⟩ := by
  simp only [Row.fill, List.foldl_cons, List.foldl_nil, emptyEquation, dimension,
    replicate_eq_blocks]
  rw [overwrite_blocks (by simp) (by simp) hs]
  congr 1
  refine blocks_congr fun i _ => ?_
  rw [Function.update_apply, zeroBlock]

lemma fill_continuity {knot order : ℕ} (h0 : 0 < knot) (hk : knot < p.segmentCount) :
    Row.fill p.coefficientCount ⟨[(knot - 1, p.knotRow knot order),
      (knot, (p.knotRow knot order).map (- ·))], List.replicate p.outputCount 0⟩ p.emptyEquation =
      ⟨p.continuityLeft knot order, List.replicate p.outputCount 0⟩ := by
  have hl : ∀ i < p.segmentCount, (Function.update
      (fun _ => List.replicate p.coefficientCount (0 : α)) (knot - 1)
      (p.knotRow knot order) i).length = p.coefficientCount := by
    intro i _
    rw [Function.update_apply]
    split <;> simp
  simp only [Row.fill, List.foldl_cons, List.foldl_nil, emptyEquation, dimension,
    replicate_eq_blocks]
  rw [overwrite_blocks (by simp) (by simp) (by omega), overwrite_blocks hl (by simp) hk]
  congr 1
  refine blocks_congr fun i _ => ?_
  rw [Function.update_apply, Function.update_apply, zeroBlock]
  rcases (by omega : i = knot ∨ i + 1 = knot ∨ (i ≠ knot ∧ i + 1 ≠ knot)) with hi | hi | ⟨hi, hi'⟩
  · rw [if_pos hi, if_neg (by omega), if_pos hi]
  · rw [if_neg (by omega), if_pos (by omega), if_pos hi]
  · rw [if_neg hi, if_neg (by omega), if_neg hi', if_neg hi]

end Problem

end KnotSpline
