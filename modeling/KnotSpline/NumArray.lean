/-! Rectangular arrays of scalars of any dimension, entries in row-major order. -/

namespace KnotSpline

def NumArray.size (shape : List Nat) : Nat :=
  shape.foldr (· * ·) 1

structure NumArray (α : Type) where
  shape : List Nat
  entries : List α
  length_entries : entries.length = NumArray.size shape

namespace NumArray

variable {α β : Type}

def pieces (k : Nat) : Nat → List α → List (List α)
  | 0, _ => []
  | n + 1, xs => xs.take k :: pieces k n (xs.drop k)

@[simp]
theorem length_pieces (k n : Nat) (xs : List α) : (pieces k n xs).length = n := by
  induction n generalizing xs with
  | zero => rfl
  | succ n ih => simp [pieces, ih]

theorem flatten_pieces (k n : Nat) (xs : List α) : (pieces k n xs).flatten = xs.take (n * k) := by
  induction n generalizing xs with
  | zero => simp [pieces]
  | succ n ih =>
    rw [pieces, List.flatten_cons, ih, Nat.add_comm n 1, Nat.add_mul, Nat.one_mul, List.take_add]

theorem length_of_mem_pieces {k n : Nat} {xs ys : List α} (h : n * k ≤ xs.length)
    (hy : ys ∈ pieces k n xs) : ys.length = k := by
  induction n generalizing xs with
  | zero => simp [pieces] at hy
  | succ n ih =>
    rw [Nat.add_mul, Nat.one_mul] at h
    rcases List.mem_cons.1 hy with rfl | hy
    · rw [List.length_take]
      omega
    · exact ih (by rw [List.length_drop]; omega) hy

def scalar (x : α) : NumArray α :=
  ⟨[], [x], rfl⟩

def vector (xs : List α) : NumArray α :=
  ⟨[xs.length], xs, (Nat.mul_one _).symm⟩

/-- Entries that do not fill the shape stand along one axis. -/
def shaped (shape : List Nat) (xs : List α) : NumArray α :=
  if h : xs.length = size shape then ⟨shape, xs, h⟩ else vector xs

theorem shaped_eq {shape : List Nat} {xs : List α} (h : xs.length = size shape) :
    shaped shape xs = ⟨shape, xs, h⟩ :=
  dif_pos h

@[simp]
theorem entries_shaped (shape : List Nat) (xs : List α) : (shaped shape xs).entries = xs := by
  rw [shaped]
  split <;> rfl

theorem shaped_eq_vector {n : Nat} {xs : List α} (h : xs.length = n) :
    shaped [n] xs = vector xs := by
  subst h
  exact shaped_eq (Nat.mul_one _).symm

def atLeastVector (a : NumArray α) : NumArray α :=
  match a with
  | ⟨[], xs, h⟩ => ⟨[1], xs, h⟩
  | a => a

def nest (leaf : α → β) (node : List β → β) : List Nat → List α → β
  | [], xs =>
    match xs with
    | x :: _ => leaf x
    | [] => node []
  | n :: shape, xs => node ((pieces (size shape) n xs).map (nest leaf node shape))

def toNested (leaf : α → β) (node : List β → β) (a : NumArray α) : β :=
  nest leaf node a.shape a.entries

end NumArray

end KnotSpline
