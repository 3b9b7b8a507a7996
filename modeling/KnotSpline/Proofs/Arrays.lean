import KnotSpline.Proofs.Checks
import KnotSpline.Value.Numeric

/-! Arrays from values: as many entries as their extents say. -/

namespace KnotSpline

namespace Value

variable {α : Type}

mutual

lemma length_leaves : ∀ (v : Value α) {shape : List Nat}, v.shape? = some shape →
    v.leaves.length = NumArray.size shape
  | list [], shape, h => by
    obtain rfl : [0] = shape := Option.some_inj.1 h
    rfl
  | list (x :: xs), shape, h => by
    rw [shape?, Option.bind_eq_some_iff] at h
    obtain ⟨s, hs, h⟩ := h
    split at h
    · next hall =>
      obtain rfl := Option.some_inj.1 h
      rw [leaves, leavesOf, List.length_append, length_leaves x hs, length_leavesOf xs hall]
      change _ = (xs.length + 1) * NumArray.size s
      rw [Nat.succ_mul, Nat.add_comm]
    · cases h
  | array a, shape, h => by
    obtain rfl := Option.some_inj.1 h
    rw [leaves, List.length_map, a.length_entries]
  | null, shape, h => Option.some_inj.1 h ▸ rfl
  | bool _, shape, h => Option.some_inj.1 h ▸ rfl
  | int _, shape, h => Option.some_inj.1 h ▸ rfl
  | real _, shape, h => Option.some_inj.1 h ▸ rfl
  | text _, shape, h => Option.some_inj.1 h ▸ rfl
  | record _, shape, h => Option.some_inj.1 h ▸ rfl
  | problem _, shape, h => Option.some_inj.1 h ▸ rfl
  | foreign, shape, h => Option.some_inj.1 h ▸ rfl

lemma length_leavesOf : ∀ (xs : List (Value α)) {shape : List Nat},
    allShaped shape xs = true → (leavesOf xs).length = xs.length * NumArray.size shape
  | [], shape, _ => (Nat.zero_mul _).symm
  | x :: xs, shape, h => by
    rw [allShaped, Bool.and_eq_true, beq_iff_eq] at h
    rw [leavesOf, List.length_append, length_leaves x h.1, length_leavesOf xs h.2,
      List.length_cons, Nat.succ_mul, Nat.add_comm]

end

lemma toArray_eq_ok_iff [Scalar α] {v : Value α} {a : NumArray α} :
    v.toArray = .ok a ↔ v.shape? = some a.shape ∧ a.shape.length ≤ maxAxes ∧
      v.leaves.mapM toScalar = .ok a.entries := by
  rw [toArray]
  cases hs : v.shape? with
  | none => exact iff_of_false nofun nofun
  | some shape =>
    simp only [check_eq_ok_iff, bind_eq_ok_iff, Nat.not_lt]
    constructor
    · rintro ⟨hl, entries, he, h⟩
      have hlength := (mapM_eq_ok_iff.1 he).length_eq.symm.trans (v.length_leaves hs)
      rw [NumArray.shaped_eq hlength] at h
      obtain rfl := Except.ok.inj h
      exact ⟨rfl, hl, he⟩
    · rintro ⟨hshape, hl, he⟩
      obtain rfl := Option.some_inj.1 hshape
      exact ⟨hl, _, he, congrArg Except.ok (NumArray.shaped_eq a.length_entries)⟩

lemma leavesOf_eq (vs : List (Value α)) : leavesOf vs = vs.flatMap leaves := by
  induction vs with
  | nil => rfl
  | cons v vs ih => rw [leavesOf, ih, List.flatMap_cons]

lemma leaves_reals (xs : List α) : (list (xs.map real)).leaves = xs.map real := by
  rw [leaves, leavesOf_eq, List.flatMap_map]
  exact List.flatMap_pure_eq_map _ _

lemma allShaped_of_forall {s : List ℕ} {vs : List (Value α)}
    (h : ∀ v ∈ vs, v.shape? = some s) : allShaped s vs = true := by
  induction vs with
  | nil => rfl
  | cons v vs ih =>
    rw [allShaped, h v List.mem_cons_self, ih fun w hw => h w (List.mem_cons_of_mem _ hw)]
    simp

lemma shape?_list {s : List ℕ} {vs : List (Value α)} (h : ∀ v ∈ vs, v.shape? = some s) :
    (list vs).shape? = some (vs.length :: if vs.length = 0 then [] else s) := by
  cases vs with
  | nil => rfl
  | cons v vs =>
    rw [shape?, h v List.mem_cons_self, Option.bind_some,
      if_pos (allShaped_of_forall fun w hw => h w (List.mem_cons_of_mem _ hw))]
    rfl

lemma shape?_reals (xs : List α) : (list (xs.map real)).shape? = some [xs.length] := by
  have h : ∀ v ∈ xs.map real, v.shape? = some [] := by
    intro v hv
    obtain ⟨x, -, rfl⟩ := List.mem_map.1 hv
    rfl
  rw [shape?_list h, ite_self, List.length_map]

variable [Scalar α]

lemma mapM_toScalar (xs : List α) :
    (xs.map real).mapM toScalar = (.ok xs : Except (Fault α) (List α)) := by
  induction xs with
  | nil => rfl
  | cons x xs ih =>
    rw [List.map_cons, List.mapM_cons, ih]
    rfl

lemma exists_toArray_of_leaves {v : Value α} {shape : List ℕ} {xs : List α}
    (hs : v.shape? = some shape) (hl : shape.length ≤ maxAxes) (hx : v.leaves = xs.map real) :
    ∃ a, v.toArray = .ok a ∧ a.shape = shape ∧ a.entries = xs := by
  have hlength : xs.length = NumArray.size shape := by
    rw [← v.length_leaves hs, hx, List.length_map]
  refine ⟨⟨shape, xs, hlength⟩, toArray_eq_ok_iff.2 ⟨hs, hl, ?_⟩, rfl, rfl⟩
  rw [hx, mapM_toScalar]

lemma toArray_reals (xs : List α) : (list (xs.map real)).toArray = .ok (.vector xs) := by
  refine toArray_eq_ok_iff.2 ⟨shape?_reals xs, ?_, ?_⟩
  · exact show 1 ≤ maxAxes by decide
  · rw [leaves_reals]
    exact mapM_toScalar xs

end Value

end KnotSpline
