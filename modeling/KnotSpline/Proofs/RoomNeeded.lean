import KnotSpline.Proofs.References
import KnotSpline.Proofs.WrittenValues

/-! How much room is needed to write a problem, whatever it refers to. Nothing gets smaller where
one problem is entered from another, but the problems that something stands in are different ones,
so that there are no more of them than problems in the store. -/

namespace KnotSpline

variable {α : Type}

namespace Value

mutual

def height : Value α → ℕ
  | list xs => heights xs + 1
  | record fields => fieldHeights fields + 1
  | array a => a.shape.length + 3
  | problem _ => 2
  | _ => 0

def heights : List (Value α) → ℕ
  | [] => 0
  | x :: xs => max (height x) (heights xs)

def fieldHeights : Record α → ℕ
  | [] => 0
  | (_, v) :: fields => max (height v) (fieldHeights fields)

end

variable {x : Value α}

lemma height_le_heights {xs : List (Value α)} (hx : x ∈ xs) : x.height ≤ heights xs := by
  induction xs with
  | nil => nomatch hx
  | cons y ys ih =>
    rw [heights]
    rcases List.mem_cons.1 hx with rfl | hx
    · exact le_max_left _ _
    · exact (ih hx).trans (le_max_right _ _)

lemma height_le_fieldHeights {fields : Record α} {f : Key α × Value α} (hf : f ∈ fields) :
    f.2.height ≤ fieldHeights fields := by
  induction fields with
  | nil => nomatch hf
  | cons g fields ih =>
    rw [fieldHeights]
    rcases List.mem_cons.1 hf with rfl | hf
    · exact le_max_left _ _
    · exact (ih hf).trans (le_max_right _ _)

lemma height_ofKey (key : Key α) : (ofKey key).height = 0 := by
  cases key <;> rfl

lemma heights_le {xs : List (Value α)} {n : ℕ} (h : ∀ x ∈ xs, x.height ≤ n) : heights xs ≤ n := by
  induction xs with
  | nil => exact Nat.zero_le n
  | cons x xs ih =>
    obtain ⟨hx, hxs⟩ := List.forall_mem_cons.1 h
    exact max_le hx (ih hxs)

lemma height_nest_le (shape : List ℕ) (xs : List α) :
    (NumArray.nest real list shape xs).height ≤ shape.length + 1 := by
  induction shape generalizing xs with
  | nil =>
    cases xs with
    | nil => exact le_rfl
    | cons x xs => exact Nat.zero_le 1
  | cons n shape ih =>
    refine Nat.succ_le_succ (heights_le fun v hv => ?_)
    obtain ⟨ys, -, rfl⟩ := List.mem_map.1 hv
    exact ih ys

end Value

namespace Store

def recordHeight (p : Problem α) : ℕ :=
  match p.toRecord with
  | .ok r => (Value.record r).height
  | .error _ => 0

/-- Enough for every problem in each of the others. -/
def roomNeeded (s : Store α) : ℕ :=
  (s.problems.length + 1) * ((s.problems.map recordHeight).sum + 2)

lemma height_le_sum {s : Store α} {p : Problem α} {r : Record α} (hp : p ∈ s.problems)
    (hr : p.toRecord = .ok r) :
    (Value.record r).height ≤ (s.problems.map recordHeight).sum := by
  have hheight : recordHeight p = (Value.record r).height := by rw [recordHeight, hr]
  exact hheight ▸ List.le_sum_of_mem (List.mem_map_of_mem hp)

end Store

namespace Visit

variable {s : Store α} {id : ℕ} {v w : Visit α} {place : List ℕ} {e : Fault α}

/-- The problems that something stands in are different ones, and account for its depth. -/
structure Bounded (s : Store α) (v : Visit α) : Prop where
  nodup : v.around.Nodup
  lt_length : ∀ a ∈ v.around, a < s.problems.length
  le : v.depth + v.value.height ≤
    (v.around.length + 1) * ((s.problems.map Store.recordHeight).sum + 2)

lemma bounded_root : (root id).Bounded s := by
  refine ⟨List.nodup_nil, List.forall_mem_nil _, ?_⟩
  change 0 + 2 ≤ (0 + 1) * _
  omega

lemma Bounded.inner (h : v.Bounded s) (hflaw : v.value.flaw? s v.around = none)
    (hw : w ∈ v.inner s) : w.Bounded s := by
  obtain ⟨around, depth, value⟩ := v
  obtain ⟨hnodup, hlt, hle⟩ := h
  dsimp only at hnodup hlt hle
  cases value with
  | list xs =>
    obtain ⟨x, hx, rfl⟩ := List.mem_map.1 hw
    have hheight := Value.height_le_heights hx
    rw [Value.height] at hle
    exact ⟨hnodup, hlt, by dsimp only; omega⟩
  | record fields =>
    obtain ⟨f, hf, hw⟩ := List.mem_flatMap.1 hw
    have hheight := Value.height_le_fieldHeights hf
    have hkey := Value.height_ofKey f.1
    rw [Value.height] at hle
    rcases List.mem_pair.1 hw with rfl | rfl
    · exact ⟨hnodup, hlt, by dsimp only; omega⟩
    · exact ⟨hnodup, hlt, by dsimp only; omega⟩
  | problem b =>
    obtain ⟨p, r, hp, hr, rfl⟩ := exists_of_mem_inner rfl hw
    rw [Store.problem?_eq] at hp
    -- The problem that is entered is not yet among those around it, and pays for its own record.
    have hheight := Store.height_le_sum (List.mem_of_getElem? hp) hr
    have hlength := (List.getElem?_eq_some_iff.1 hp).1
    have hnotMem := (Value.flaw?_problem_eq_none_iff.1 hflaw).1
    refine ⟨List.nodup_cons.2 ⟨hnotMem, hnodup⟩, List.forall_mem_cons.2 ⟨hlength, hlt⟩, ?_⟩
    rw [Value.height] at hle
    rw [List.length_cons, Nat.succ_mul]
    dsimp only
    omega
  | array a =>
    obtain rfl := List.mem_singleton.1 hw
    have hheight := Value.height_nest_le a.shape a.entries
    rw [Value.height] at hle
    refine ⟨hnodup, hlt, ?_⟩
    dsimp only
    rw [NumArray.toNested]
    omega
  | null | bool | int | real | text | foreign => exact absurd hw List.not_mem_nil

lemma Bounded.depth_le (h : v.Bounded s) : v.depth ≤ s.roomNeeded := by
  have hsubset : v.around ⊆ List.range s.problems.length :=
    fun a ha => List.mem_range.2 (h.lt_length a ha)
  have hlength := (List.subperm_of_subset h.nodup hsubset).length_le
  rw [List.length_range] at hlength
  have hmul := Nat.mul_le_mul_right ((s.problems.map Store.recordHeight).sum + 2)
    (Nat.add_le_add_right hlength 1)
  have hle := h.le
  rw [Store.roomNeeded]
  omega

lemma Bounded.at? (h : v.Bounded s) (hw : v.at? s place = some w)
    (hbefore : ∀ before < place, ∀ u, v.at? s before = some u → u.obstacle? s = none) :
    w.Bounded s := by
  induction place generalizing v with
  | nil => exact Option.some_inj.1 hw ▸ h
  | cons i place ih =>
    obtain ⟨u, hu, hw⟩ := Option.bind_eq_some_iff.1 hw
    have hnone := (obstacle?_eq_none_iff.1 (hbefore [] (List.nil_lt_cons _ _) v rfl)).2
    refine ih (h.inner hnone (List.mem_of_getElem? hu)) hw fun before hlt u' hu' => ?_
    refine hbefore (i :: before) (List.cons_lt_cons_iff.2 (.inr ⟨rfl, hlt⟩)) u' ?_
    rw [Visit.at?, hu, Option.bind_some, hu']

end Visit

/-- Every value that stands so deep, or less deep, can be written. -/
def Stack.Takes (k : Stack) (n : ℕ) : Prop :=
  ∀ depth ≤ n, ∀ kind, depth + k.calls kind ≤ k.room

def Store.withStack (s : Store α) (k : Stack) : Store α :=
  { s with host := { s.host with stack := k } }

namespace Visit

variable {s : Store α} {k : Stack} {id : ℕ} {v w : Visit α} {place : List ℕ} {e : Fault α}

lemma at?_withStack (s : Store α) (k : Stack) (v : Visit α) (place : List ℕ) :
    v.at? (s.withStack k) place = v.at? s place := by
  induction place generalizing v with
  | nil => rfl
  | cons i place ih =>
    rw [at?, at?]
    simp only [ih]
    rfl

lemma Bounded.obstacle?_withStack (h : v.Bounded s) (hk : k.Takes s.roomNeeded) :
    v.obstacle? (s.withStack k) = v.value.flaw? s v.around :=
  if_neg (Nat.not_lt.2 (hk _ h.depth_le _))

lemma Bounded.obstacle?_eq (h : v.Bounded s) (hs : s.host.stack.Takes s.roomNeeded) :
    v.obstacle? s = v.value.flaw? s v.around :=
  h.obstacle?_withStack hs

lemma StopsAt.ne_tooDeep (h : (root id).StopsAt s place e)
    (hs : s.host.stack.Takes s.roomNeeded) : e ≠ .tooDeep := by
  obtain ⟨⟨w, hw, he⟩, hbefore⟩ := h
  rw [(bounded_root.at? hw hbefore).obstacle?_eq hs] at he
  rintro rfl
  exact Value.flaw?_ne_tooDeep _ he

lemma StopsAt.withStack (h : (root id).StopsAt s place e)
    (hs : s.host.stack.Takes s.roomNeeded) (hk : k.Takes s.roomNeeded) :
    (root id).StopsAt (s.withStack k) place e := by
  obtain ⟨⟨w, hw, he⟩, hbefore⟩ := h
  have hsame {place' : List ℕ} {u : Visit α} (hplace : place' ≤ place)
      (hu : (root id).at? s place' = some u) : u.obstacle? (s.withStack k) = u.obstacle? s := by
    have hbounded := bounded_root.at? hu fun before hlt => hbefore before (hlt.trans_le hplace)
    rw [hbounded.obstacle?_eq hs, hbounded.obstacle?_withStack hk]
  refine ⟨⟨w, (at?_withStack s k _ _).trans hw, (hsame le_rfl hw).trans he⟩,
    fun before hlt u hu => ?_⟩
  rw [at?_withStack] at hu
  exact (hsame hlt.le hu).trans (hbefore before hlt u hu)

lemma Clear.withStack (h : (root id).Clear s) (hs : s.host.stack.Takes s.roomNeeded)
    (hk : k.Takes s.roomNeeded) : (root id).Clear (s.withStack k) := by
  intro place w hw
  rw [at?_withStack] at hw
  have hbounded := bounded_root.at? hw fun before _ => h before
  rw [hbounded.obstacle?_withStack hk, ← hbounded.obstacle?_eq hs]
  exact h place w hw

end Visit

lemma Stack.takes_usual {n : ℕ} (h : n ≤ 985) : usual.Takes n := by
  intro depth hdepth kind
  have hcalls : usual.calls kind ≤ 7 := by cases kind <;> decide
  have hroom : usual.room = 992 := rfl
  omega

variable [Scalar α]

lemma Store.Writable.depth_le {s : Store α} {id : ℕ} (h : s.Writable id)
    (hs : ∀ p ∈ s.problems, p.Sized) {w : Visit α} (hw : (Visit.root id).Reaches s w) :
    w.depth ≤ s.roomNeeded := by
  have hflawless := (Visit.flawless_root_iff hs).2 h
  obtain ⟨-, hbounded⟩ := hw.induction (P := fun u => (Visit.root id).Reaches s u ∧ u.Bounded s)
    ⟨.refl _, Visit.bounded_root⟩ fun u ⟨hu, hb⟩ u' hu' =>
      ⟨hu.inner hu', hb.inner (hflawless u hu) hu'⟩
  exact hbounded.depth_le

lemma Store.Writable.within {s : Store α} {id : ℕ} (h : s.Writable id)
    (hs : ∀ p ∈ s.problems, p.Sized) (hk : s.host.stack.Takes s.roomNeeded) :
    (Visit.root id).Within s :=
  fun _ hw => hk _ (h.depth_le hs hw) _

theorem Store.outcome_encode_withStack {s : Store α} {k : Stack}
    (hs : s.host.stack.Takes s.roomNeeded) (hk : k.Takes s.roomNeeded) (id : ℕ) :
    ((s.withStack k).encode id).outcome = (s.encode id).outcome := by
  cases h : (s.encode id).outcome with
  | ok _ => exact encode_ok_iff.2 ((encode_ok_iff.1 h).withStack hs hk)
  | error e =>
    obtain ⟨place, hp⟩ := encode_error_iff.1 h
    exact encode_error_iff.2 ⟨place, hp.withStack hs hk⟩

end KnotSpline
