import KnotSpline.Proofs.RecordRoundTrip
import Mathlib.Data.List.Lex

/-! What is met, and in which order, while a problem is written with the problems that it refers
to: the places of a tree, which has no end where problems refer to themselves. The
first obstacle is the one at the first place in depth-first order. -/

namespace KnotSpline

variable {α : Type}

lemma NumArray.mem_of_mem_pieces {k n : ℕ} {xs ys : List α} {y : α} (hys : ys ∈ pieces k n xs)
    (hy : y ∈ ys) : y ∈ xs := by
  have hmem : y ∈ (pieces k n xs).flatten := List.mem_flatten_of_mem hys hy
  rw [flatten_pieces] at hmem
  exact List.mem_of_mem_take hmem

namespace Value

inductive Holds (v : Value α) : Value α → Prop
  | self : Holds v v
  | item {xs : List (Value α)} {x : Value α} (h : Holds v (.list xs)) (hx : x ∈ xs) : Holds v x
  | key {fields : Record α} {f : Key α × Value α} (h : Holds v (.record fields))
      (hf : f ∈ fields) : Holds v (.ofKey f.1)
  | content {fields : Record α} {f : Key α × Value α} (h : Holds v (.record fields))
      (hf : f ∈ fields) : Holds v f.2
  | entries {a : NumArray α} (h : Holds v (.array a)) : Holds v (a.toNested .real .list)

lemma Holds.trans {v w y : Value α} (h : w.Holds y) (hv : v.Holds w) : v.Holds y := by
  induction h with
  | self => exact hv
  | item _ hx ih => exact .item ih hx
  | key _ hf ih => exact .key ih hf
  | content _ hf ih => exact .content ih hf
  | entries _ ih => exact .entries ih

inductive OfReals (P : α → Prop) : Value α → Prop
  | real {x : α} (h : P x) : OfReals P (.real x)
  | list {xs : List (Value α)} (h : ∀ x ∈ xs, OfReals P x) : OfReals P (.list xs)

lemma ofReals_nest {P : α → Prop} (shape : List ℕ) {xs : List α} (h : ∀ x ∈ xs, P x) :
    OfReals P (NumArray.nest real list shape xs) := by
  induction shape generalizing xs with
  | nil =>
    cases xs with
    | nil => exact .list nofun
    | cons x xs => exact .real (h x List.mem_cons_self)
  | cons n shape ih =>
    refine .list fun v hv => ?_
    obtain ⟨ys, hys, rfl⟩ := List.mem_map.1 hv
    exact ih fun y hy => h y (NumArray.mem_of_mem_pieces hys hy)

lemma OfReals.of_holds {P : α → Prop} {v y : Value α} (h : v.OfReals P) (hy : v.Holds y) :
    y.OfReals P := by
  induction hy with
  | self => exact h
  | item _ hx ih =>
    cases ih with
    | list hxs => exact hxs _ hx
  | key _ _ ih => cases ih
  | content _ _ ih => cases ih
  | entries _ ih => cases ih

/-- The reason for which a value itself cannot be written inside these problems. -/
def flaw? (s : Store α) (around : List ℕ) : Value α → Option (Fault α)
  | int z => if Json.isShort z then none else some .unusable
  | problem id =>
    if id ∈ around then some .circular
    else
      match s.problem? id with
      | none => some (.noSuchProblem id)
      | some p => if p.isFitted then none else some .notFittedToWrite
  | foreign => some .wrongKind
  | _ => none

variable {s : Store α} {around : List ℕ}

lemma flaw?_int_of_not_isShort {z : ℤ} (h : ¬Json.isShort z = true) :
    (int z : Value α).flaw? s around = some .unusable := by
  rw [flaw?, if_neg h]

lemma flaw?_int_eq_none_iff {z : ℤ} :
    (int z : Value α).flaw? s around = none ↔ Json.isShort z = true := by
  refine ⟨fun h => by_contra fun hz => ?_, fun h => by rw [flaw?, if_pos h]⟩
  rw [flaw?_int_of_not_isShort hz] at h
  cases h

lemma flaw?_problem_eq_none_iff {id : ℕ} : (problem id : Value α).flaw? s around = none ↔
    id ∉ around ∧ ∃ p, s.problem? id = some p ∧ p.isFitted = true := by
  rw [flaw?]
  split_ifs with h
  · exact iff_of_false nofun fun hn => hn.1 h
  · cases s.problem? id with
    | none => exact iff_of_false nofun fun ⟨_, _, hp, _⟩ => nomatch hp
    | some p =>
      dsimp only
      split_ifs with hf
      · exact iff_of_true rfl ⟨h, p, rfl, hf⟩
      · refine iff_of_false nofun fun ⟨_, q, hq, hfitted⟩ => hf ?_
        exact Option.some_inj.1 hq ▸ hfitted

lemma flaw?_ne_tooDeep (v : Value α) : v.flaw? s around ≠ some .tooDeep := by
  cases v with
  | int z =>
    rw [flaw?]
    split_ifs <;> nofun
  | problem id =>
    rw [flaw?]
    split_ifs
    · nofun
    · cases s.problem? id with
      | none => nofun
      | some p =>
        dsimp only
        split_ifs <;> nofun
  | null | bool | real | text | list | record | array | foreign => nofun

end Value

/-- Something that is met: the problems that it stands in, the calls that are open then, and what it
is. -/
structure Visit (α : Type) where
  around : List ℕ
  depth : ℕ
  value : Value α

namespace Visit

def ofField (around : List ℕ) (depth : ℕ) (f : Key α × Value α) : List (Visit α) :=
  [⟨around, depth, .ofKey f.1⟩, ⟨around, depth, f.2⟩]

def inner (s : Store α) (v : Visit α) : List (Visit α) :=
  match v.value with
  | .list xs => xs.map fun x => ⟨v.around, v.depth + 1, x⟩
  | .record fields => fields.flatMap (ofField v.around (v.depth + 1))
  | .array a => [⟨v.around, v.depth + 2, a.toNested .real .list⟩]
  | .problem id =>
    match (s.problem? id).map Problem.toRecord with
    | some (.ok r) => [⟨id :: v.around, v.depth + 2, .record r⟩]
    | _ => []
  | _ => []

/-- What stands at a place. A place is given by the numbers of the steps inwards, so the order of
places in which one comes before all those inside it is the lexicographic one. -/
def at? (s : Store α) (v : Visit α) : List ℕ → Option (Visit α)
  | [] => some v
  | i :: place => (v.inner s)[i]?.bind fun w => w.at? s place

def obstacle? (s : Store α) (v : Visit α) : Option (Fault α) :=
  if s.host.stack.room < v.depth + s.host.stack.calls (v.value.kind v.around) then some .tooDeep
  else v.value.flaw? s v.around

def Clear (s : Store α) (v : Visit α) : Prop :=
  ∀ place w, v.at? s place = some w → w.obstacle? s = none

/-- The first obstacle stands at this place. -/
def StopsAt (s : Store α) (v : Visit α) (place : List ℕ) (e : Fault α) : Prop :=
  (∃ w, v.at? s place = some w ∧ w.obstacle? s = some e) ∧
    ∀ before < place, ∀ w, v.at? s before = some w → w.obstacle? s = none

variable {s : Store α} {v w : Visit α} {place : List ℕ} {e : Fault α}

lemma obstacle?_eq_none_iff : v.obstacle? s = none ↔
    v.depth + s.host.stack.calls (v.value.kind v.around) ≤ s.host.stack.room ∧
      v.value.flaw? s v.around = none := by
  rw [obstacle?]
  split_ifs with h
  · exact iff_of_false nofun fun hn => absurd hn.1 (Nat.not_le.2 h)
  · exact ⟨fun hn => ⟨Nat.not_lt.1 h, hn⟩, And.right⟩

lemma mem_inner_list {xs : List (Value α)} {x : Value α} (hv : v.value = .list xs) (hx : x ∈ xs) :
    ⟨v.around, v.depth + 1, x⟩ ∈ v.inner s := by
  rw [inner, hv]
  exact List.mem_map_of_mem hx

lemma mem_inner_record {fields : Record α} {f : Key α × Value α} (hv : v.value = .record fields)
    (hf : f ∈ fields) : ⟨v.around, v.depth + 1, .ofKey f.1⟩ ∈ v.inner s ∧
      ⟨v.around, v.depth + 1, f.2⟩ ∈ v.inner s := by
  rw [inner, hv]
  exact ⟨List.mem_flatMap.2 ⟨f, hf, List.mem_cons_self⟩,
    List.mem_flatMap.2 ⟨f, hf, List.mem_cons_of_mem _ List.mem_cons_self⟩⟩

lemma mem_inner_array {a : NumArray α} (hv : v.value = .array a) :
    ⟨v.around, v.depth + 2, a.toNested .real .list⟩ ∈ v.inner s := by
  rw [inner, hv]
  exact List.mem_singleton_self _

lemma inner_problem {id : ℕ} {p : Problem α} {r : Record α} (hv : v.value = .problem id)
    (hp : s.problem? id = some p) (hr : p.toRecord = .ok r) :
    v.inner s = [⟨id :: v.around, v.depth + 2, .record r⟩] := by
  rw [inner, hv]
  dsimp only
  rw [hp, Option.map_some, hr]

lemma mem_inner_problem {id : ℕ} {p : Problem α} {r : Record α} (hv : v.value = .problem id)
    (hp : s.problem? id = some p) (hr : p.toRecord = .ok r) :
    ⟨id :: v.around, v.depth + 2, .record r⟩ ∈ v.inner s := by
  rw [inner_problem hv hp hr]
  exact List.mem_singleton_self _

lemma exists_of_mem_inner {id : ℕ} (hv : v.value = .problem id) (hw : w ∈ v.inner s) :
    ∃ p r, s.problem? id = some p ∧ p.toRecord = .ok r ∧
      w = ⟨id :: v.around, v.depth + 2, .record r⟩ := by
  rw [inner, hv] at hw
  dsimp only at hw
  split at hw
  · next r hr =>
    obtain ⟨p, hp, hr⟩ := Option.map_eq_some_iff.1 hr
    exact ⟨p, r, hp, hr, List.mem_singleton.1 hw⟩
  · nomatch hw

lemma clear_of_inner (h : v.obstacle? s = none) (hi : ∀ w ∈ v.inner s, w.Clear s) :
    v.Clear s := by
  intro place w hw
  cases place with
  | nil => exact Option.some_inj.1 hw ▸ h
  | cons i place =>
    obtain ⟨u, hu, hw⟩ := Option.bind_eq_some_iff.1 hw
    exact hi u (List.mem_of_getElem? hu) place w hw

lemma Clear.inner (h : v.Clear s) (hw : w ∈ v.inner s) : w.Clear s := by
  intro place u hu
  obtain ⟨i, hi⟩ := List.getElem?_of_mem hw
  exact h (i :: place) u (by rw [at?, hi, Option.bind_some, hu])

lemma stopsAt_nil (h : v.obstacle? s = some e) : v.StopsAt s [] e :=
  ⟨⟨v, rfl, h⟩, fun _ hlt => absurd hlt (List.not_lt_nil _)⟩

lemma StopsAt.cons (h : v.obstacle? s = none) {done rest : List (Visit α)}
    (hinner : v.inner s = done ++ w :: rest) (hdone : ∀ u ∈ done, u.Clear s)
    (hw : w.StopsAt s place e) : v.StopsAt s (done.length :: place) e := by
  obtain ⟨⟨u, hu, he⟩, hbefore⟩ := hw
  have hat : (v.inner s)[done.length]? = some w := by
    rw [hinner, List.getElem?_append_right le_rfl, Nat.sub_self, List.getElem?_cons_zero]
  refine ⟨⟨u, by rw [at?, hat, Option.bind_some, hu], he⟩, fun before hlt u hu => ?_⟩
  -- What comes before is the whole, or lies in an earlier part, or earlier in the same part.
  cases before with
  | nil => exact Option.some_inj.1 hu ▸ h
  | cons i before =>
    obtain ⟨x, hx, hu⟩ := Option.bind_eq_some_iff.1 hu
    rcases List.cons_lt_cons_iff.1 hlt with hi | ⟨rfl, hin⟩
    · rw [hinner, List.getElem?_append_left hi] at hx
      exact hdone x (List.mem_of_getElem? hx) before u hu
    · obtain rfl := Option.some_inj.1 (hat.symm.trans hx)
      exact hbefore before hin u hu

lemma StopsAt.not_clear (h : v.StopsAt s place e) : ¬v.Clear s := by
  intro hc
  obtain ⟨⟨w, hw, he⟩, -⟩ := h
  rw [hc place w hw] at he
  cases he

lemma StopsAt.unique {place' : List ℕ} {e' : Fault α} (h : v.StopsAt s place e)
    (h' : v.StopsAt s place' e') : e = e' := by
  obtain ⟨⟨w, hw, he⟩, hbefore⟩ := h
  obtain ⟨⟨w', hw', he'⟩, hbefore'⟩ := h'
  rcases lt_trichotomy place place' with hlt | rfl | hlt
  · rw [hbefore' place hlt w hw] at he
    cases he
  · obtain rfl := Option.some_inj.1 (hw.symm.trans hw')
    exact Option.some_inj.1 (he.symm.trans he')
  · rw [hbefore place' hlt w' hw'] at he'
    cases he'

section Reaching

variable {u : Visit α}

lemma at?_append (v : Visit α) (place place' : List ℕ) :
    v.at? s (place ++ place') = (v.at? s place).bind fun w => w.at? s place' := by
  induction place generalizing v with
  | nil => rfl
  | cons i place ih =>
    rw [List.cons_append, at?, at?, Option.bind_assoc]
    simp only [ih]

def Reaches (s : Store α) (v w : Visit α) : Prop :=
  ∃ place, v.at? s place = some w

lemma Reaches.refl (v : Visit α) : v.Reaches s v :=
  ⟨[], rfl⟩

lemma Reaches.trans (h : u.Reaches s v) (h' : v.Reaches s w) : u.Reaches s w := by
  obtain ⟨place, hp⟩ := h
  obtain ⟨place', hp'⟩ := h'
  exact ⟨place ++ place', by rw [at?_append, hp, Option.bind_some, hp']⟩

lemma Reaches.inner (h : u.Reaches s v) (hw : w ∈ v.inner s) : u.Reaches s w := by
  obtain ⟨i, hi⟩ := List.getElem?_of_mem hw
  exact h.trans ⟨[i], by rw [at?, hi]; rfl⟩

lemma Reaches.induction {P : Visit α → Prop} (h : v.Reaches s w) (hv : P v)
    (hstep : ∀ u, P u → ∀ u' ∈ u.inner s, P u') : P w := by
  obtain ⟨place, hp⟩ := h
  induction place generalizing v with
  | nil => exact Option.some_inj.1 hp ▸ hv
  | cons i place ih =>
    obtain ⟨u, hu, hp⟩ := Option.bind_eq_some_iff.1 hp
    exact ih (hstep v hv u (List.mem_of_getElem? hu)) hp

def Flawless (s : Store α) (v : Visit α) : Prop :=
  ∀ w, v.Reaches s w → w.value.flaw? s w.around = none

/-- There is room for the calls that are needed. -/
def Within (s : Store α) (v : Visit α) : Prop :=
  ∀ w, v.Reaches s w → w.depth + s.host.stack.calls (w.value.kind w.around) ≤ s.host.stack.room

lemma clear_iff : v.Clear s ↔ v.Flawless s ∧ v.Within s := by
  refine ⟨fun h => ⟨fun w ⟨place, hw⟩ => ?_, fun w ⟨place, hw⟩ => ?_⟩,
    fun ⟨hflawless, hwithin⟩ place w hw => ?_⟩
  · exact (obstacle?_eq_none_iff.1 (h place w hw)).2
  · exact (obstacle?_eq_none_iff.1 (h place w hw)).1
  · exact obstacle?_eq_none_iff.2 ⟨hwithin w ⟨place, hw⟩, hflawless w ⟨place, hw⟩⟩

end Reaching

def root (id : ℕ) : Visit α := ⟨[], 0, .problem id⟩

end Visit

end KnotSpline
