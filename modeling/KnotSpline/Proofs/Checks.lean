import KnotSpline.Fault
import Mathlib.Data.List.Forall2

/-! Chains of checks that end in success, and checks of one entry of a list after another. -/

namespace KnotSpline

variable {ε β γ : Type}

lemma bind_eq_ok_iff {x : Except ε β} {f : β → Except ε γ} {c : γ} :
    x >>= f = .ok c ↔ ∃ b, x = .ok b ∧ f b = .ok c := by
  cases x with
  | error e => simp [bind, Except.bind]
  | ok b => simp [bind, Except.bind]

lemma map_eq_ok_iff {x : Except ε β} {f : β → γ} {c : γ} :
    x.map f = .ok c ↔ ∃ b, x = .ok b ∧ f b = c := by
  cases x <;> simp [Except.map]

lemma check_eq_ok_iff {p : Prop} [Decidable p] {e : ε} {f : Unit → Except ε γ} {c : γ} :
    (if p then (throw e >>= f) else f ()) = .ok c ↔ ¬p ∧ f () = .ok c := by
  split
  · next h => simp [h, throw, throwThe, MonadExceptOf.throw, bind, Except.bind]
  · next h => simp [h]

lemma unless_eq_ok_iff {p : Prop} [Decidable p] {e : ε} {b c : γ} :
    (if p then throw e else pure b : Except ε γ) = .ok c ↔ ¬p ∧ b = c := by
  split
  · next h => simp [h, throw, throwThe, MonadExceptOf.throw]
  · next h => simp [h, pure, Except.pure]

lemma require_eq_ok_iff {p : Prop} [Decidable p] {e : ε} {b c : γ} :
    (if p then pure b else throw e : Except ε γ) = .ok c ↔ p ∧ b = c := by
  split
  · next h => simp [h, pure, Except.pure]
  · next h => simp [h, throw, throwThe, MonadExceptOf.throw]

lemma index_eq_ok_iff {o : Option Int} (p : Int → Prop) [DecidablePred p]
    (hp : ∀ z, p z → 0 ≤ z) {e : ε} {n : Nat} :
    (match o with
      | some z => if p z then pure z.toNat else throw e
      | none => throw e : Except ε Nat) = .ok n ↔ o = some (n : Int) ∧ p n := by
  cases o with
  | none => simp [throw, throwThe, MonadExceptOf.throw]
  | some z =>
    rw [require_eq_ok_iff, Option.some_inj]
    constructor
    · rintro ⟨hz, hn⟩
      obtain rfl : z = n := by have := hp z hz; omega
      exact ⟨rfl, hz⟩
    · rintro ⟨rfl, hz⟩
      exact ⟨hz, Int.toNat_natCast n⟩

section Entries

variable {f : β → Except ε γ} {xs : List β}

lemma mapM_eq_ok_iff {ys : List γ} :
    xs.mapM f = .ok ys ↔ List.Forall₂ (fun x y => f x = .ok y) xs ys := by
  induction xs generalizing ys with
  | nil => cases ys <;> simp [pure, Except.pure]
  | cons x xs ih =>
    simp only [List.mapM_cons, bind_eq_ok_iff, List.forall₂_cons_left_iff, ih]
    constructor
    · rintro ⟨y, hy, zs, hz, h⟩
      exact ⟨y, zs, hy, hz, (Except.ok.inj h).symm⟩
    · rintro ⟨y, zs, hy, hz, rfl⟩
      exact ⟨y, hy, zs, hz, rfl⟩

lemma exists_mapM_eq_ok_iff : (∃ ys, xs.mapM f = .ok ys) ↔ ∀ x ∈ xs, ∃ y, f x = .ok y := by
  simp only [mapM_eq_ok_iff]
  induction xs with
  | nil => simp
  | cons x xs ih =>
    rw [List.forall_mem_cons, ← ih]
    constructor
    · rintro ⟨_, _ | ⟨hy, hys⟩⟩
      exact ⟨⟨_, hy⟩, _, hys⟩
    · rintro ⟨⟨y, hy⟩, ys, hys⟩
      exact ⟨y :: ys, .cons hy hys⟩

lemma exists_of_mapM_eq_error {e : ε} (h : xs.mapM f = .error e) :
    ∃ done x rest, xs = done ++ x :: rest ∧ (∀ y ∈ done, ∃ z, f y = .ok z) ∧ f x = .error e := by
  induction xs with
  | nil => cases h
  | cons x xs ih =>
    rw [List.mapM_cons] at h
    cases hx : f x with
    | error e' =>
      rw [hx] at h
      cases h
      exact ⟨[], x, xs, rfl, by simp, hx⟩
    | ok y =>
      have hrest : xs.mapM f = .error e := by
        rw [hx] at h
        cases hxs : xs.mapM f with
        | error e' =>
          rw [hxs] at h
          cases h
          rfl
        | ok ys =>
          rw [hxs] at h
          cases h
      obtain ⟨done, z, rest, rfl, hdone, hz⟩ := ih hrest
      exact ⟨x :: done, z, rest, rfl, List.forall_mem_cons.2 ⟨⟨y, hx⟩, hdone⟩, hz⟩

end Entries

end KnotSpline
