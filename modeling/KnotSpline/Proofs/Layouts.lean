import KnotSpline.Decimal.Text
import KnotSpline.Text.Class
import Mathlib.Data.List.DropRight
import Mathlib.Tactic.IntervalCases
import Mathlib.Tactic.Lemma

/-! The layout of written numbers: whole digits, then digits after a point, then a power of ten.
Every decimal and every whole number is written in it. -/

namespace KnotSpline

namespace Text

def IsDigits (cs : List Char) : Prop :=
  ∀ c ∈ cs, c.isDigit = true

def digitValues (cs : List Char) : List Nat :=
  cs.map fun c => c.toNat - '0'.toNat

def decimalDigits : List Char :=
  ['0', '1', '2', '3', '4', '5', '6', '7', '8', '9']

lemma mem_of_isDigit {c : Char} (h : c.isDigit = true) : c ∈ decimalDigits := by
  rw [Char.isDigit, Bool.and_eq_true, decide_eq_true_eq, decide_eq_true_eq] at h
  have hl : 48 ≤ c.toNat := UInt32.le_iff_toNat_le.1 h.1
  have hu : c.toNat ≤ 57 := UInt32.le_iff_toNat_le.1 h.2
  rw [← Char.ofNat_toNat c]
  interval_cases c.toNat <;> decide

lemma asciiDigit?_eq (c : Char) :
    asciiDigit? c = if c.isDigit = true then some (c.toNat - '0'.toNat) else none := by
  rw [asciiDigit?]
  congr 1
  simp [Char.isDigit, Char.le_def]

lemma spanDigits_append {ds rest : List Char} (hd : IsDigits ds)
    (hr : ∀ c ∈ rest.head?, c.isDigit = false) :
    spanDigits (ds ++ rest) = (digitValues ds, rest) := by
  induction ds with
  | nil =>
    cases rest with
    | nil => rfl
    | cons c cs =>
      rw [List.nil_append, spanDigits, asciiDigit?_eq, hr c rfl]
      rfl
  | cons d ds ih =>
    rw [List.cons_append, spanDigits, asciiDigit?_eq, hd d List.mem_cons_self, if_pos rfl,
      ih fun c hc => hd c (List.mem_cons_of_mem _ hc)]
    rfl

lemma isDigits_toDigits (n : Nat) : IsDigits (Nat.toDigits 10 n) :=
  fun _ hc => Nat.isDigit_of_mem_toDigits (by decide) (by decide) hc

lemma ofDigits_toDigits (n : Nat) : Decimal.ofDigits (digitValues (Nat.toDigits 10 n)) = n := by
  rw [Decimal.ofDigits, digitValues, List.foldl_map]
  exact Nat.ofDigitChars_toDigits (by decide) (by decide)

lemma head_toDigits {n : Nat} (hn : n ≠ 0) : (Nat.toDigits 10 n).head? ≠ some '0' := by
  induction n using Nat.strongRecOn with
  | ind n ih =>
    rw [Nat.toDigits_eq_if (by decide)]
    split
    · interval_cases n <;> first | contradiction | decide
    · have hne : Nat.toDigits 10 (n / 10) ≠ [] := List.ne_nil_of_length_pos Nat.length_toDigits_pos
      rw [List.head?_append_of_ne_nil _ hne]
      exact ih (n / 10) (by omega) (by omega)

lemma isDigits_append {cs ds : List Char} : IsDigits (cs ++ ds) ↔ IsDigits cs ∧ IsDigits ds :=
  List.forall_mem_append

lemma isDigits_cons {c : Char} {cs : List Char} :
    IsDigits (c :: cs) ↔ c.isDigit = true ∧ IsDigits cs :=
  List.forall_mem_cons

lemma isDigits_zeros (n : Nat) : IsDigits (Decimal.zeros n) := by
  intro c hc
  rw [List.eq_of_mem_replicate hc]
  rfl

end Text

namespace Decimal

open Text

structure Layout where
  whole : List Char
  fraction : List Char
  exponent : Option (Bool × List Char)

namespace Layout

def fractionChars (l : Layout) : List Char :=
  match l.fraction with
  | [] => []
  | d :: ds => '.' :: d :: ds

def exponentChars (l : Layout) : List Char :=
  match l.exponent with
  | none => []
  | some (negative, ds) => 'e' :: (if negative then '-' else '+') :: ds

def chars (l : Layout) : List Char :=
  l.whole ++ (l.fractionChars ++ l.exponentChars)

def power? (l : Layout) : Option Int :=
  l.exponent.map fun (negative, ds) =>
    let n : Int := ofDigits (digitValues ds)
    if negative then -n else n

def decimal (l : Layout) (negative : Bool) : Decimal :=
  .ofParts negative (digitValues l.whole) (digitValues l.fraction) (l.power?.getD 0)

structure Proper (l : Layout) : Prop where
  whole : IsDigits l.whole
  fraction : IsDigits l.fraction
  exponent : ∀ negative ds, l.exponent = some (negative, ds) → IsDigits ds ∧ ds ≠ []
  ne_nil : l.whole ≠ []
  leading : l.whole = ['0'] ∨ l.whole.head? ≠ some '0'

def IsWhole (l : Layout) : Prop :=
  l.fraction = [] ∧ l.exponent = none

lemma fractionChars_eq {l : Layout} (h : l.fraction ≠ []) :
    l.fractionChars = '.' :: l.fraction := by
  rw [fractionChars]
  cases hf : l.fraction with
  | nil => exact absurd hf h
  | cons d ds => rfl

end Layout

lemma significant_of_ne_zero {d : Decimal} (h : d.digits ≠ 0) :
    IsDigits d.significant.1 ∧ ∃ c cs, d.significant.1 = c :: cs ∧ c ≠ '0' := by
  have hs : d.significant.1 = (Nat.toDigits 10 d.digits).rdropWhile (· == '0') := by
    rw [significant, if_neg h]
    rfl
  have hp : d.significant.1 <+: Nat.toDigits 10 d.digits := by
    rw [hs]
    exact List.rdropWhile_prefix _ _
  refine ⟨fun c hc => isDigits_toDigits _ c (hp.subset hc), ?_⟩
  cases hd : Nat.toDigits 10 d.digits with
  | nil => exact absurd hd (List.ne_nil_of_length_pos Nat.length_toDigits_pos)
  | cons c cs =>
    have hc : c ≠ '0' := fun hc => head_toDigits h (by rw [hd, hc]; rfl)
    cases hsig : d.significant.1 with
    | nil =>
      rw [hsig] at hs
      have hall := List.rdropWhile_eq_nil_iff.1 hs.symm c (by rw [hd]; exact List.mem_cons_self)
      exact absurd (beq_iff_eq.1 hall) hc
    | cons c' cs' =>
      rw [hsig, hd] at hp
      obtain rfl := (List.cons_prefix_cons.1 hp).1
      exact ⟨c', cs', rfl, hc⟩

def positionalLayout (d : Decimal) : Layout :=
  ⟨d.positional.1, if d.positional.2.isEmpty then ['0'] else d.positional.2, none⟩

lemma positionalLayout_proper (d : Decimal) : d.positionalLayout.Proper := by
  suffices h : IsDigits d.positional.1 ∧ IsDigits d.positional.2 ∧ d.positional.1 ≠ [] ∧
      (d.positional.1 = ['0'] ∨ d.positional.1.head? ≠ some '0') by
    obtain ⟨hw, hf, hne, hl⟩ := h
    refine ⟨hw, ?_, by simp [positionalLayout], hne, hl⟩
    rw [positionalLayout]
    split
    · exact isDigits_zeros 1
    · exact hf
  by_cases h0 : d.digits = 0
  · rw [positional, if_pos h0]
    exact ⟨isDigits_zeros 1, isDigits_zeros 0, List.cons_ne_nil _ _, .inl rfl⟩
  · obtain ⟨hd, c, cs, hs, hc⟩ := significant_of_ne_zero h0
    rw [positional, if_neg h0]
    dsimp only
    split
    · exact ⟨isDigits_zeros 1, isDigits_append.2 ⟨isDigits_zeros _, hd⟩, List.cons_ne_nil _ _,
        .inl rfl⟩
    · next hp =>
      obtain ⟨n, hn⟩ : ∃ n, d.significant.2.toNat = n + 1 := ⟨_, (Nat.succ_pred (by omega)).symm⟩
      rw [hn]
      refine ⟨isDigits_append.2 ⟨fun x hx => hd x (List.mem_of_mem_take hx), isDigits_zeros _⟩,
        fun x hx => hd x (List.mem_of_mem_drop hx), ?_, .inr ?_⟩
      · simp [hs]
      · simpa [hs] using hc

def scientificLayout (d : Decimal) : Layout :=
  let e := d.significant.2 - 1
  let ds := Nat.toDigits 10 e.natAbs
  ⟨d.significant.1.take 1, d.significant.1.drop 1,
    some (decide (e < 0), if ds.length < 2 then '0' :: ds else ds)⟩

lemma scientificLayout_proper {d : Decimal} (h : d.digits ≠ 0) : d.scientificLayout.Proper := by
  obtain ⟨hd, c, cs, hs, hc⟩ := significant_of_ne_zero h
  refine ⟨fun x hx => hd x (List.mem_of_mem_take hx), fun x hx => hd x (List.mem_of_mem_drop hx),
    ?_, ?_, .inr ?_⟩
  · rintro negative ds he
    obtain ⟨-, rfl⟩ := Prod.mk.inj (Option.some.inj he)
    split
    · exact ⟨isDigits_cons.2 ⟨rfl, isDigits_toDigits _⟩, List.cons_ne_nil _ _⟩
    · exact ⟨isDigits_toDigits _, List.ne_nil_of_length_pos Nat.length_toDigits_pos⟩
  · simp [scientificLayout, hs]
  · simpa [scientificLayout, hs] using hc

lemma exists_layout (d : Decimal) :
    ∃ l : Layout, l.Proper ∧ ¬l.IsWhole ∧ d.unsignedText = l.chars := by
  rw [unsignedText]
  dsimp only
  split
  · refine ⟨d.positionalLayout, d.positionalLayout_proper, fun h => ?_, ?_⟩
    · have hf := h.1
      rw [positionalLayout] at hf
      split at hf <;> simp_all
    · rw [Layout.chars, Layout.fractionChars_eq]
      · simp [positionalLayout, Layout.exponentChars]
      · rw [positionalLayout]
        split <;> simp_all
  · next hp =>
    have h0 : d.digits ≠ 0 := fun h => hp (by simp [significant, h])
    obtain ⟨-, c, cs, hs, -⟩ := significant_of_ne_zero h0
    refine ⟨d.scientificLayout, scientificLayout_proper h0, fun h => Option.some_ne_none _ h.2, ?_⟩
    rw [hs, Layout.chars, scientificLayout, hs, exponentText]
    cases cs <;> simp [Layout.fractionChars, Layout.exponentChars]

def wholeLayout (n : Nat) : Layout :=
  ⟨Nat.toDigits 10 n, [], none⟩

lemma wholeLayout_proper (n : Nat) : (wholeLayout n).Proper := by
  refine ⟨isDigits_toDigits n, isDigits_zeros 0, ?_,
    List.ne_nil_of_length_pos Nat.length_toDigits_pos, ?_⟩
  · intro negative ds he
    exact absurd he.symm (Option.some_ne_none _)
  · by_cases hn : n = 0
    · exact .inl (by rw [hn]; rfl)
    · exact .inr (head_toDigits hn)

end Decimal

end KnotSpline
