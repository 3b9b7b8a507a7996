import KnotSpline.Scalar

/-! Orthogonal triangularization by columns. Each step brings the column of largest norm to the
front, reflects it onto the first axis and applies the same reflection to all other columns; the
steps can then be applied to any right-hand side. -/

namespace KnotSpline

variable {α : Type} [Scalar α]

def dot (xs ys : List α) : α :=
  (List.zipWith (· * ·) xs ys).foldl (· + ·) 0

def largest (xs : List α) : α :=
  xs.foldl (fun m x => if m < Scalar.abs x then Scalar.abs x else m) 0

/-- The Euclidean norm, taken relative to the largest entry so that squares stay in range. -/
def norm (xs : List α) : α :=
  let m := largest xs
  if Scalar.isZero m then 0
  else
    let ys := xs.map (· / m)
    m * Scalar.sqrt (dot ys ys)

structure Reflection (α : Type) where
  direction : List α
  scale : α

namespace Reflection

def apply (r : Reflection α) (xs : List α) : List α :=
  let s := r.scale * dot r.direction xs
  List.zipWith (fun v x => x - s * v) r.direction xs

/-- The reflection that takes a column to a multiple of the first axis, with that multiple. A
column that lies on the axis stays as it is. -/
def ofColumn : List α → Reflection α × α
  | [] => (⟨[], 0⟩, 0)
  | x :: xs =>
    if Scalar.isZero (norm xs) then (⟨1 :: xs.map fun _ => 0, 0⟩, x)
    else
      let length := norm (x :: xs)
      let image := if x < 0 then length else -length
      (⟨1 :: xs.map (· / (x - image)), (image - x) / image⟩, image)

end Reflection

def firstLargest : List α → Nat
  | [] => 0
  | x :: xs =>
    let rec go (best : α) (place next : Nat) : List α → Nat
      | [] => place
      | y :: ys => if best < y then go y next (next + 1) ys else go best place (next + 1) ys
    go x 0 1 xs

/-- Takes out the entry at place `k` and puts the first entry there. -/
def takeOut {β : Type} (k : Nat) : List β → List β
  | [] => []
  | x :: xs => if k = 0 then xs else xs.set (k - 1) x

def putBack {β : Type} (k : Nat) (x : β) (xs : List β) : List β :=
  match k with
  | 0 => x :: xs
  | k + 1 => (xs[k]?).getD x :: xs.set k x

theorem length_takeOut {β : Type} {k : Nat} {xs : List β} (h : xs ≠ []) :
    (takeOut k xs).length + 1 = xs.length := by
  cases xs with
  | nil => exact absurd rfl h
  | cons x xs => by_cases hk : k = 0 <;> simp [takeOut, hk]

@[simp]
theorem length_putBack {β : Type} (k : Nat) (x : β) (xs : List β) :
    (putBack k x xs).length = xs.length + 1 := by
  cases k <;> simp [putBack]

structure Step (α : Type) where
  pivot : Nat
  reflection : Reflection α
  diagonal : α
  row : List α

namespace Step

def ofColumns (columns : List (List α)) : Step α × List (List α) :=
  let k := firstLargest (columns.map norm)
  let (reflection, diagonal) := Reflection.ofColumn ((columns[k]?).getD [])
  let images := (takeOut k columns).map reflection.apply
  (⟨k, reflection, diagonal, images.map fun c => c.headD 0⟩, images.map List.tail)

def factor : Nat → List (List α) → List (Step α)
  | 0, _ => []
  | n + 1, columns =>
    let (step, rest) := ofColumns columns
    step :: factor n rest

@[simp]
theorem length_factor (n : Nat) (columns : List (List α)) : (factor n columns).length = n := by
  induction n generalizing columns with
  | zero => rfl
  | succ n ih => simp [factor, ih]

def reflect : List (Step α) → List α → List α
  | [], _ => []
  | step :: steps, b =>
    let image := step.reflection.apply b
    image.headD 0 :: reflect steps image.tail

/-- Entries that leave the range on the way are reflected again at a smaller scale. -/
def reflectInRange (steps : List (Step α)) (b : List α) : List α :=
  let image := reflect steps b
  if image.all Scalar.isFinite then image
  else (reflect steps (b.map (· * Scalar.epsilon))).map (· / Scalar.epsilon)

def substitute : List (Step α) → List α → List α
  | [], _ => []
  | step :: steps, image =>
    let xs := substitute steps image.tail
    putBack step.pivot ((image.headD 0 - dot step.row xs) / step.diagonal) xs

@[simp]
theorem length_reflect (steps : List (Step α)) (b : List α) :
    (reflect steps b).length = steps.length := by
  induction steps generalizing b with
  | nil => rfl
  | cons step steps ih => simp [reflect, ih]

@[simp]
theorem length_substitute (steps : List (Step α)) (image : List α) :
    (substitute steps image).length = steps.length := by
  induction steps generalizing image with
  | nil => rfl
  | cons step steps ih => simp [substitute, ih]

def isFinite (steps : List (Step α)) : Bool :=
  steps.all fun s => Scalar.isFinite s.diagonal && s.row.all Scalar.isFinite

def rank (tolerance : α) (steps : List (Step α)) : Nat :=
  steps.countP fun s => decide (tolerance < Scalar.abs s.diagonal)

end Step

end KnotSpline
