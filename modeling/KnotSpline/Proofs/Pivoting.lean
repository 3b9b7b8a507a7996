import KnotSpline.Proofs.Vectors

/-! The pivot is a largest entry, and bringing it to the front is an exchange of two places. -/

namespace KnotSpline

open Matrix

lemma firstLargest_go_spec {xs : List ℝ} (ys : List ℝ) {best : ℝ} {place next : ℕ}
    (hp : xs[place]? = some best) (hd : xs.drop next = ys)
    (hb : ∀ j < next, ∀ y, xs[j]? = some y → y ≤ best) :
    ∃ m, xs[firstLargest.go best place next ys]? = some m ∧ ∀ y ∈ xs, y ≤ m := by
  induction ys generalizing best place next with
  | nil =>
    refine ⟨best, hp, fun y hy => ?_⟩
    obtain ⟨j, hj, rfl⟩ := List.getElem_of_mem hy
    have hn : xs.length ≤ next := List.drop_eq_nil_iff.1 hd
    exact hb j (by omega) _ (List.getElem?_eq_getElem hj)
  | cons y ys ih =>
    have hy : xs[next]? = some y := by
      rw [← List.head?_drop, hd, List.head?_cons]
    have hd' : xs.drop (next + 1) = ys := by
      rw [← List.tail_drop, hd, List.tail_cons]
    rw [firstLargest.go]
    split
    · next h =>
      refine ih hy hd' fun j hj z hz => ?_
      rcases Nat.lt_succ_iff_lt_or_eq.1 hj with hj | rfl
      · exact (hb j hj z hz).trans h.le
      · exact (Option.some.inj (hz.symm.trans hy)).le
    · next h =>
      refine ih hp hd' fun j hj z hz => ?_
      rcases Nat.lt_succ_iff_lt_or_eq.1 hj with hj | rfl
      · exact hb j hj z hz
      · exact (Option.some.inj (hz.symm.trans hy)).le.trans (not_lt.1 h)

lemma firstLargest_spec {xs : List ℝ} (h : xs ≠ []) :
    ∃ m, xs[firstLargest xs]? = some m ∧ ∀ y ∈ xs, y ≤ m := by
  obtain ⟨x, xs, rfl⟩ := List.exists_cons_of_ne_nil h
  refine firstLargest_go_spec xs rfl rfl fun j hj y hy => ?_
  obtain rfl : j = 0 := by omega
  exact (Option.some.inj hy).ge

section Exchange

variable {β : Type}

lemma getElem?_takeOut {k : ℕ} {xs : List β} (h : k < xs.length) (i : ℕ) :
    (takeOut k xs)[i]? = xs[Equiv.swap 0 k (i + 1)]? := by
  have hne := List.ne_nil_of_length_pos (Nat.zero_lt_of_lt h)
  obtain ⟨x, xs, rfl⟩ := List.exists_cons_of_ne_nil hne
  rcases k with - | k
  · simp [takeOut]
  · rcases eq_or_ne i k with rfl | hi
    · have hk : i < xs.length := by simpa using h
      simp [takeOut, hk]
    · rw [Equiv.swap_apply_of_ne_of_ne (by omega) (by omega)]
      simp [takeOut, List.getElem?_set_ne (Ne.symm hi)]

lemma mem_of_mem_takeOut {k : ℕ} {x : β} {xs : List β} (h : k < xs.length)
    (hx : x ∈ takeOut k xs) : x ∈ xs := by
  obtain ⟨i, hi⟩ := List.mem_iff_getElem?.1 hx
  rw [getElem?_takeOut h] at hi
  exact List.mem_of_getElem? hi

lemma getElem?_putBack_self {k : ℕ} {xs : List β} (x : β) (h : k ≤ xs.length) :
    (putBack k x xs)[k]? = some x := by
  rcases k with - | k
  · rfl
  · simp [putBack, List.getElem?_set_self (show k < xs.length from h)]

lemma getElem?_putBack_swap {k : ℕ} {xs : List β} (x : β) (h : k ≤ xs.length) (i : ℕ) :
    (putBack k x xs)[Equiv.swap 0 k (i + 1)]? = xs[i]? := by
  rcases k with - | k
  · simp [putBack]
  · rcases eq_or_ne i k with rfl | hi
    · have hk : i < xs.length := h
      simp [putBack, hk]
    · rw [Equiv.swap_apply_of_ne_of_ne (by omega) (by omega)]
      simp [putBack, List.getElem?_set_ne (Ne.symm hi)]

lemma val_swap_zero {n : ℕ} (k i : Fin (n + 1)) :
    (Equiv.swap 0 k i : ℕ) = Equiv.swap 0 (k : ℕ) i := by
  simpa using (Fin.val_injective.swap_apply 0 k i).symm

lemma vec_putBack {n : ℕ} (k : Fin (n + 1)) (x : ℝ) {xs : List ℝ} (hx : xs.length = n) :
    vec (n + 1) (putBack k x xs) ∘ Equiv.swap 0 k = vecCons x (vec n xs) := by
  have hk : (k : ℕ) ≤ xs.length := by omega
  funext i
  cases i using Fin.cases with
  | zero => simp [vec, List.getD_eq_getElem?_getD, getElem?_putBack_self x hk]
  | succ i =>
    simp only [vec, List.getD_eq_getElem?_getD, Function.comp_apply, val_swap_zero, Fin.val_succ,
      getElem?_putBack_swap x hk, cons_val_succ]

end Exchange

end KnotSpline
