import KnotSpline.Proofs.Reals

/-! Exact arithmetic with infinities and with what is no number. On finite entries it is that of the
reals; otherwise it is that of doubles, but for zero having no sign. -/

namespace KnotSpline

inductive Extended where
  | finite (x : ℝ)
  | infinite (negative : Bool)
  | notANumber

namespace Extended

noncomputable section

def neg : Extended → Extended
  | finite x => finite (-x)
  | infinite s => infinite !s
  | notANumber => notANumber

def add : Extended → Extended → Extended
  | finite x, finite y => finite (x + y)
  | notANumber, _ | _, notANumber => notANumber
  | infinite s, infinite t => if s = t then infinite s else notANumber
  | infinite s, finite _ | finite _, infinite s => infinite s

def sub : Extended → Extended → Extended
  | finite x, finite y => finite (x - y)
  | x, y => add x (neg y)

def mul : Extended → Extended → Extended
  | finite x, finite y => finite (x * y)
  | notANumber, _ | _, notANumber => notANumber
  | infinite s, infinite t => infinite (s ^^ t)
  | infinite s, finite x | finite x, infinite s =>
    if x = 0 then notANumber else infinite (s ^^ decide (x < 0))

def div : Extended → Extended → Extended
  | finite x, finite y =>
    if y ≠ 0 then finite (x / y) else if x = 0 then notANumber else infinite (decide (x < 0))
  | notANumber, _ | _, notANumber => notANumber
  | infinite _, infinite _ => notANumber
  | infinite s, finite y => infinite (s ^^ decide (y < 0))
  | finite _, infinite _ => finite 0

def lt : Extended → Extended → Prop
  | finite x, finite y => x < y
  | infinite true, finite _ | infinite true, infinite false | finite _, infinite false => True
  | _, _ => False

def le : Extended → Extended → Prop
  | finite x, finite y => x ≤ y
  | infinite s, infinite t => t ≤ s
  | infinite s, finite _ => s = true
  | finite _, infinite t => t = false
  | _, _ => False

def sqrt : Extended → Extended
  | finite x => if x < 0 then notANumber else finite √x
  | infinite false => infinite false
  | _ => notANumber

def abs : Extended → Extended
  | finite x => finite |x|
  | infinite _ => infinite false
  | notANumber => notANumber

def pow : Extended → ℕ → Extended
  | finite x, n => finite (x ^ n)
  | _, 0 => finite 1
  | infinite s, n + 1 => infinite (s && decide (n % 2 = 0))
  | notANumber, _ => notANumber

def ofNumeral : Numeral → Extended
  | .finite d => finite d.toReal
  | .infinite s => infinite s
  | .notANumber => notANumber

def toNumeral : Extended → Numeral
  | finite x => Numeral.ofReal x
  | infinite s => .infinite s
  | notANumber => .notANumber

def isFinite : Extended → Bool
  | finite _ => true
  | _ => false

def isNaN : Extended → Bool
  | notANumber => true
  | _ => false

@[irreducible]
def limit : ℤ :=
  2 ^ 1024 - 2 ^ 970

def ofInt? (z : ℤ) : Option Extended :=
  if |z| < limit then some (finite z) else none

open scoped Classical in
instance : Scalar Extended where
  add := add
  sub := sub
  mul := mul
  div := div
  neg := neg
  zero := finite 0
  one := finite 1
  lt := lt
  le := le
  decidableLT _ _ := inferInstance
  decidableLE _ _ := inferInstance
  natCast n := finite n
  ofInt? := ofInt?
  ofNumeral := ofNumeral
  toInt?
    | finite x => Reals.toInt? x
    | _ => none
  toNumeral := toNumeral
  roundTo n
    | finite x => Reals.roundTo n x
    | _ => ⟨false, 0, 0⟩
  pow := pow
  sqrt := sqrt
  abs := abs
  isFinite := isFinite
  isNaN := isNaN
  epsilon := finite Scalar.epsilon

end

variable (x y : ℝ)

lemma zero_eq : (0 : Extended) = finite 0 := rfl

lemma one_eq : (1 : Extended) = finite 1 := rfl

@[simp] lemma finite_sub : finite x - finite y = finite (x - y) := rfl

@[simp] lemma neg_finite : -finite x = finite (-x) := rfl

lemma finite_div {y : ℝ} (h : y ≠ 0) : finite x / finite y = finite (x / y) := if_pos h

@[simp] lemma finite_lt : finite x < finite y ↔ x < y := Iff.rfl

@[simp] lemma finite_lt_zero : finite x < 0 ↔ x < 0 := Iff.rfl

@[simp] lemma finite_le : finite x ≤ finite y ↔ x ≤ y := Iff.rfl

@[simp] lemma abs_finite : Scalar.abs (finite x) = finite |x| := rfl

lemma sqrt_finite {x : ℝ} (h : 0 ≤ x) : Scalar.sqrt (finite x) = finite √x := if_neg h.not_gt

@[simp] lemma isFinite_finite : Scalar.isFinite (finite x) = true := rfl

@[simp] lemma isZero_finite : Scalar.isZero (finite x) = Scalar.isZero x := by
  simp [Scalar.isZero, zero_eq]

lemma isFinite_iff {x : Extended} : Scalar.isFinite x = true ↔ ∃ a, x = finite a := by
  cases x with
  | finite a => exact iff_of_true rfl ⟨a, rfl⟩
  | _ => exact iff_of_false (fun h => by cases h) (by rintro ⟨a, ⟨⟩⟩)

end Extended

end KnotSpline
