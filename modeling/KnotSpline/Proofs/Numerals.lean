import KnotSpline.Decimal.Reading
import KnotSpline.Json.Writer
import KnotSpline.Json.Reader
import KnotSpline.Proofs.Layouts
import Mathlib.Data.Bool.AllAny

/-! Reading written numbers. The reader of free text and the one of JSON find the same number in the
same layout. -/

namespace KnotSpline

namespace Decimal

open Text

namespace Layout

def Ends (rest : List Char) : Prop :=
  ∀ c ∈ rest.head?, c.isDigit = false ∧ c ≠ '.' ∧ c ≠ 'e' ∧ c ≠ 'E'

variable {l : Layout} {rest : List Char}

lemma head?_exponentChars_append (hr : Ends rest) :
    ∀ c ∈ (l.exponentChars ++ rest).head?, c.isDigit = false ∧ c ≠ '.' := by
  intro c hc
  rw [exponentChars] at hc
  split at hc
  · exact ⟨(hr c hc).1, (hr c hc).2.1⟩
  · obtain rfl := Option.some_inj.1 hc
    decide

lemma head?_fractionChars_append (hr : Ends rest) :
    ∀ c ∈ (l.fractionChars ++ (l.exponentChars ++ rest)).head?, c.isDigit = false := by
  intro c hc
  rw [fractionChars] at hc
  split at hc
  · exact (head?_exponentChars_append hr c hc).1
  · obtain rfl := Option.some_inj.1 hc
    rfl

lemma ends_nil : Ends [] := fun _ hc => nomatch hc

lemma spanDigits_whole (hl : l.Proper) (hr : Ends rest) :
    spanDigits (l.chars ++ rest) =
      (digitValues l.whole, l.fractionChars ++ (l.exponentChars ++ rest)) := by
  rw [chars, List.append_assoc, List.append_assoc,
    spanDigits_append hl.whole (head?_fractionChars_append hr)]

lemma spanDigits_fraction (hl : l.Proper) (hr : Ends rest) :
    spanDigits (l.fraction ++ (l.exponentChars ++ rest)) =
      (digitValues l.fraction, l.exponentChars ++ rest) :=
  spanDigits_append hl.fraction fun c hc => (head?_exponentChars_append hr c hc).1

lemma spanDigits_exponent (hl : l.Proper) (hr : Ends rest) {negative : Bool} {ds : List Char}
    (he : l.exponent = some (negative, ds)) : spanDigits (ds ++ rest) = (digitValues ds, rest) :=
  spanDigits_append (hl.exponent _ _ he).1 fun c hc => (hr c hc).1

lemma readWhole_chars (hl : l.Proper) (hr : Ends rest) : Json.readWhole (l.chars ++ rest) =
    some (digitValues l.whole, l.fractionChars ++ (l.exponentChars ++ rest)) := by
  have hs := spanDigits_whole hl hr
  rw [chars, List.append_assoc, List.append_assoc] at hs ⊢
  rcases hl.leading with h0 | hne
  · rw [h0]
    rfl
  · cases hw : l.whole with
    | nil => exact absurd hw hl.ne_nil
    | cons c cs =>
      rw [hw] at hs hne
      rw [Json.readWhole, hs]
      · rfl
      · rintro cs' hcs
        exact hne (by rw [(List.cons.inj hcs).1]; rfl)

lemma readFraction_chars (hl : l.Proper) (hr : Ends rest) :
    Json.readFraction (l.fractionChars ++ (l.exponentChars ++ rest)) =
      (digitValues l.fraction, l.exponentChars ++ rest) := by
  have hs := spanDigits_fraction hl hr
  rw [fractionChars]
  cases hf : l.fraction with
  | nil =>
    rw [List.nil_append, Json.readFraction]
    · rfl
    · intro cs hcs
      exact (head?_exponentChars_append hr '.' (by rw [hcs]; rfl)).2 rfl
  | cons d ds =>
    rw [hf] at hs
    rw [List.cons_append, Json.readFraction, hs]
    rfl

lemma readExponent_chars (hl : l.Proper) (hr : Ends rest) :
    Json.readExponent (l.exponentChars ++ rest) = (l.power?, rest) := by
  rw [exponentChars, power?]
  cases he : l.exponent with
  | none =>
    cases rest with
    | nil => rfl
    | cons c cs =>
      obtain ⟨-, -, h1, h2⟩ := hr c rfl
      rw [List.nil_append, Json.readExponent.eq_def]
      exact if_neg (by simp [h1, h2])
  | some e =>
    obtain ⟨negative, ds⟩ := e
    have hs := spanDigits_exponent hl hr he
    have hne := (hl.exponent _ _ he).2
    cases ds with
    | nil => exact absurd rfl hne
    | cons d ds =>
      rw [List.cons_append] at hs
      cases negative
      · rw [Json.readExponent.eq_def]
        simp [hs, digitValues]
      · rw [Json.readExponent.eq_def]
        simp [hs, digitValues]

lemma readNumber_chars {α : Type} [Scalar α] (hl : l.Proper) (hw : ¬l.IsWhole) (hr : Ends rest)
    (negative : Bool) : Json.readNumber negative (l.chars ++ rest) =
      .ok (.real (Scalar.ofNumeral (.finite (l.decimal negative)) : α), rest) := by
  rw [Json.readNumber, readWhole_chars hl hr]
  dsimp only
  rw [readFraction_chars hl hr]
  dsimp only
  split
  · next hf he =>
    rw [readExponent_chars hl hr, Prod.mk.injEq] at he
    refine absurd ⟨List.map_eq_nil_iff.1 hf, Option.map_eq_none_iff.1 he.1⟩ hw
  · next he _ =>
    rw [readExponent_chars hl hr] at he
    obtain ⟨rfl, rfl⟩ := Prod.mk.inj he
    rfl

lemma readNumber_whole {α : Type} [Scalar α] (hl : l.Proper) (hw : l.IsWhole)
    (hs : l.whole.length ≤ Json.maxDigits) (hr : Ends rest) (negative : Bool) :
    Json.readNumber negative (l.chars ++ rest) =
      .ok ((.int (if negative then -(ofDigits (digitValues l.whole) : Int)
        else ofDigits (digitValues l.whole)) : Json α), rest) := by
  rw [Json.readNumber, readWhole_chars hl hr]
  dsimp only
  rw [readFraction_chars hl hr]
  dsimp only
  rw [hw.1, readExponent_chars hl hr, power?, hw.2]
  exact if_neg (by rwa [digitValues, List.length_map, not_lt])

lemma readNumber_rest {α : Type} [Scalar α] (hl : l.Proper) (hr : Ends rest) {negative : Bool}
    {j : Json α} {rest' : List Char}
    (h : Json.readNumber negative (l.chars ++ rest) = .ok (j, rest')) : rest' = rest := by
  rw [Json.readNumber, readWhole_chars hl hr] at h
  dsimp only at h
  rw [readFraction_chars hl hr] at h
  dsimp only at h
  split at h
  · next he =>
    rw [readExponent_chars hl hr] at he
    obtain ⟨-, rfl⟩ := Prod.mk.inj he
    split at h <;> cases h
    rfl
  · next he _ =>
    rw [readExponent_chars hl hr] at he
    obtain ⟨rfl, rfl⟩ := Prod.mk.inj he
    cases h
    rfl

lemma exponent?_chars (hl : l.Proper) :
    Numeral.exponent? l.exponentChars = some (l.power?.getD 0) := by
  rw [exponentChars, power?]
  cases he : l.exponent with
  | none => rfl
  | some e =>
    obtain ⟨negative, ds⟩ := e
    have hs := spanDigits_exponent hl ends_nil he
    rw [List.append_nil] at hs
    have hne := (hl.exponent _ _ he).2
    cases ds with
    | nil => exact absurd rfl hne
    | cons d ds =>
      cases negative
      · simp [Numeral.exponent?, Numeral.splitSign, hs, digitValues]
      · simp [Numeral.exponent?, Numeral.splitSign, hs, digitValues]

lemma unsigned?_chars (hl : l.Proper) (negative : Bool) :
    Numeral.unsigned? negative l.chars = some (.finite (l.decimal negative)) := by
  have hs := spanDigits_whole hl ends_nil
  have hf := spanDigits_fraction hl ends_nil
  have he := exponent?_chars hl
  rw [List.append_nil, List.append_nil] at hs
  rw [List.append_nil] at hf
  have hne : (digitValues l.whole).isEmpty = false := by
    simpa [digitValues] using hl.ne_nil
  rw [Numeral.unsigned?, hs, decimal, fractionChars]
  cases hd : l.fraction with
  | nil =>
    dsimp only [List.nil_append]
    split
    · next hcs =>
      have h := head?_exponentChars_append ends_nil '.' (by rw [List.append_nil, hcs]; rfl)
      exact absurd rfl h.2
    · rw [hne, he]
      rfl
  | cons d ds =>
    rw [hd, List.cons_append] at hf
    simp only [List.cons_append, hf, hne, he]
    rfl

lemma exists_cons_chars (hl : l.Proper) : ∃ c cs, l.chars = c :: cs ∧ c.isDigit = true := by
  have hd := hl.whole
  rw [chars]
  cases hw : l.whole with
  | nil => exact absurd hw hl.ne_nil
  | cons c cs =>
    rw [hw] at hd
    exact ⟨c, _, rfl, hd c List.mem_cons_self⟩

lemma mem_chars (hl : l.Proper) : ∀ c ∈ l.chars, c.isDigit = true ∨ c ∈ ['.', 'e', '+', '-'] := by
  intro c hc
  rw [chars, List.mem_append, List.mem_append] at hc
  rcases hc with hc | hc | hc
  · exact .inl (hl.whole c hc)
  · rw [fractionChars] at hc
    split at hc
    · exact absurd hc List.not_mem_nil
    · next d ds hf =>
      rcases List.mem_cons.1 hc with rfl | hc
      · exact .inr (by decide)
      · exact .inl (hl.fraction c (hf ▸ hc))
  · rw [exponentChars] at hc
    split at hc
    · exact absurd hc List.not_mem_nil
    · next negative ds he =>
      rcases List.mem_cons.1 hc with rfl | hc
      · exact .inr (by decide)
      · rcases List.mem_cons.1 hc with rfl | hc
        · cases negative <;> exact .inr (by decide)
        · exact .inl ((hl.exponent _ _ he).1 c hc)

end Layout

end Decimal

namespace Numeral

open Text Decimal

lemma plain_of_mem {c : Char} (h : c.isDigit = true ∨ c ∈ ['.', 'e', '+', '-']) :
    isBlank c = false ∧ toAsciiDigit c = c ∧ c ≠ '_' := by
  have hall : ∀ c ∈ decimalDigits ++ ['.', 'e', '+', '-'],
      isBlank c = false ∧ toAsciiDigit c = c ∧ c ≠ '_' :=
    List.all_iff_forall_prop.1 (by decide)
  exact hall c (List.mem_append.2 (h.imp_left mem_of_isDigit))

lemma trimBlanks_eq_self {cs : List Char} (h : ∀ c ∈ cs, isBlank c = false) :
    trimBlanks cs = cs := by
  have hd : ∀ {cs : List Char}, (∀ c ∈ cs, isBlank c = false) → cs.dropWhile isBlank = cs := by
    intro cs h
    cases cs with
    | nil => rfl
    | cons c cs => rw [List.dropWhile_cons, h c List.mem_cons_self]; rfl
  rw [trimBlanks, hd h, hd fun c hc => h c (List.mem_reverse.1 hc), List.reverse_reverse]

lemma dropUnderscores?_eq_self {cs : List Char} (h : ∀ c ∈ cs, c ≠ '_') (before : Option Char) :
    dropUnderscores? before cs = some cs := by
  induction cs generalizing before with
  | nil => rfl
  | cons c cs ih =>
    rw [dropUnderscores?, if_neg (h c List.mem_cons_self),
      ih fun d hd => h d (List.mem_cons_of_mem _ hd)]
    rfl

lemma word?_eq_none {c : Char} (h : c.isDigit = true) (negative : Bool) (cs : List Char) :
    word? negative (c :: cs) = none := by
  have hall : ∀ c ∈ decimalDigits, c.toLower ≠ 'i' ∧ c.toLower ≠ 'n' :=
    List.all_iff_forall_prop.1 (by decide)
  obtain ⟨hi, hn⟩ := hall c (mem_of_isDigit h)
  have hne : ∀ s : String, s.toList.head? ≠ some c.toLower →
      String.ofList ((c :: cs).map Char.toLower) ≠ s := by
    rintro s hs rfl
    exact hs (by rw [String.toList_ofList]; rfl)
  have h1 := hne "inf" fun h => hi (Option.some.inj h).symm
  have h2 := hne "infinity" fun h => hi (Option.some.inj h).symm
  have h3 := hne "nan" fun h => hn (Option.some.inj h).symm
  rw [word?, if_neg (not_or.2 ⟨h1, h2⟩), if_neg h3]

variable {l : Layout}

lemma ofChars?_chars (hl : l.Proper) (negative : Bool) :
    ofChars? (if negative then '-' :: l.chars else l.chars) =
      some (.finite (l.decimal negative)) := by
  have hm : ∀ c ∈ (if negative then '-' :: l.chars else l.chars),
      c.isDigit = true ∨ c ∈ ['.', 'e', '+', '-'] := by
    cases negative
    · exact Layout.mem_chars hl
    · exact List.forall_mem_cons.2 ⟨.inr (by decide), Layout.mem_chars hl⟩
  obtain ⟨c, cs, hc, hd⟩ := Layout.exists_cons_chars hl
  have hsign : splitSign (if negative then '-' :: l.chars else l.chars) = (negative, l.chars) := by
    cases negative
    · have hall : ∀ c ∈ decimalDigits, c ≠ '-' ∧ c ≠ '+' :=
        List.all_iff_forall_prop.1 (by decide)
      obtain ⟨h1, h2⟩ := hall c (mem_of_isDigit hd)
      rw [hc, if_neg Bool.false_ne_true, splitSign]
      · exact fun _ h => h1 (List.cons.inj h).1
      · exact fun _ h => h2 (List.cons.inj h).1
    · rfl
  rw [ofChars?, trimBlanks_eq_self fun c hc => (plain_of_mem (hm c hc)).1,
    List.map_congr_left (g := id) fun c hc => (plain_of_mem (hm c hc)).2.1, List.map_id,
    dropUnderscores?_eq_self (fun c hc => (plain_of_mem (hm c hc)).2.2), Option.bind_eq_bind,
    Option.bind_some, hsign]
  dsimp only
  rw [hc, word?_eq_none hd, ← hc, Layout.unsigned?_chars hl]
  rfl

end Numeral

/-- The scalar is found again in its text. -/
def Scalar.ReadsBack {α : Type} [Scalar α] (x : α) : Prop :=
  (Numeral.ofChars? (toNumeral x).text.toList).map ofNumeral = some x

instance Scalar.decidableReadsBack {α : Type} [Scalar α] [DecidableEq α] (x : α) :
    Decidable (ReadsBack x) :=
  inferInstanceAs (Decidable (_ = _))

namespace Decimal

open Text Layout

lemma exists_cons_unsignedText (d : Decimal) :
    ∃ c cs, d.unsignedText = c :: cs ∧ c.isDigit = true := by
  obtain ⟨l, hl, -, hd⟩ := d.exists_layout
  rw [hd]
  exact exists_cons_chars hl

variable {α : Type} [Scalar α] {rest : List Char}

lemma readNumber_unsignedText (d : Decimal) {x : α}
    (hx : (Numeral.ofChars? d.text.toList).map Scalar.ofNumeral = some x) (hr : Ends rest) :
    Json.readNumber d.negative (d.unsignedText ++ rest) = .ok (.real x, rest) := by
  obtain ⟨l, hl, hw, hd⟩ := d.exists_layout
  rw [text, String.toList_ofList, hd, Numeral.ofChars?_chars hl] at hx
  rw [hd, readNumber_chars hl hw hr, Option.some.inj hx]

lemma readNumber_toDigits {n : Nat} (hn : n < 10 ^ Json.maxDigits) (hr : Ends rest)
    (negative : Bool) : Json.readNumber negative (Nat.toDigits 10 n ++ rest) =
      .ok ((.int (if negative then -(n : Int) else n) : Json α), rest) := by
  have hs : (Nat.toDigits 10 n).length ≤ Json.maxDigits :=
    (Nat.length_toDigits_le_iff (by decide) (by decide)).2 hn
  have hc : (wholeLayout n).chars = Nat.toDigits 10 n := List.append_nil _
  rw [← hc, readNumber_whole (wholeLayout_proper n) ⟨rfl, rfl⟩ hs hr, wholeLayout,
    ofDigits_toDigits]

end Decimal

end KnotSpline
