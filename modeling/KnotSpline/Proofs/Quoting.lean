import KnotSpline.Json.Quoted
import Mathlib.Data.List.Basic
import Mathlib.Tactic.Lemma

/-! Texts between quotes are read as they were written: each character comes back from its escape,
a large one from the two halves that stand for it. -/

namespace KnotSpline.Json

open Text

section Hexadecimal

lemma hexDigit?_digitChar {d : ℕ} (hd : d < 16) : hexDigit? d.digitChar = some d := by
  have hall : ∀ d : Fin 16, hexDigit? d.val.digitChar = some d.val := by decide
  exact hall ⟨d, hd⟩

lemma hexNumber?_append_singleton (ds : List Char) (d : Char) : hexNumber? (ds ++ [d]) =
    (hexNumber? ds).bind fun n => (hexDigit? d).map (16 * n + ·) := by
  rw [hexNumber?, List.foldl_append]
  rfl

lemma hexNumber?_zeros (k : ℕ) : hexNumber? (List.replicate k '0') = some 0 := by
  induction k with
  | zero => rfl
  | succ k ih =>
    rw [List.replicate_succ', hexNumber?_append_singleton, ih]
    rfl

lemma hexNumber?_hex (width n : ℕ) : hexNumber? (hex width n) = some n := by
  rw [hex]
  generalize width - (Nat.toDigits 16 n).length = k
  induction n using Nat.strongRecOn with
  | ind n ih =>
    rw [Nat.toDigits_eq_if (by decide)]
    split
    · next hn =>
      rw [hexNumber?_append_singleton, hexNumber?_zeros, Option.bind_some, hexDigit?_digitChar hn,
        Option.map_some, Nat.mul_zero, Nat.zero_add]
    · rw [← List.append_assoc, hexNumber?_append_singleton, ih (n / 16) (by omega),
        Option.bind_some, hexDigit?_digitChar (Nat.mod_lt _ (by decide)), Option.map_some,
        Nat.div_add_mod]

lemma length_hex {n : ℕ} (hn : n < 0x10000) : (hex 4 n).length = 4 := by
  have hl : (Nat.toDigits 16 n).length ≤ 4 :=
    (Nat.length_toDigits_le_iff (by decide) (by decide)).2 hn
  rw [hex, List.length_append, List.length_replicate]
  omega

end Hexadecimal

section Units

lemma readUnits_unit {u : ℕ} (hu : u < 0x10000) (cs : List Char) :
    readUnits ('\\' :: 'u' :: hex 4 u ++ cs) =
      (readUnits cs).map fun (ns, rest) => (u :: ns, rest) := by
  obtain ⟨a, b, c, d, habcd⟩ : ∃ a b c d, hex 4 u = [a, b, c, d] := by
    have hl := length_hex hu
    match hex 4 u, hl with
    | [a, b, c, d], _ => exact ⟨a, b, c, d, rfl⟩
  have hn := hexNumber?_hex 4 u
  rw [habcd] at hn ⊢
  change readUnits ('\\' :: 'u' :: a :: b :: c :: d :: cs) = _
  rw [readUnits, hn]
  cases readUnits cs <;> rfl

lemma readUnits_short {c e : Char} (he : shortEscape? c = some e) (hc : c ≠ 'u') (cs : List Char) :
    readUnits ('\\' :: c :: cs) =
      (readUnits cs).map fun (ns, rest) => (e.toNat :: ns, rest) := by
  rw [readUnits, he]
  · cases readUnits cs <;> rfl
  · intro _ _ _ _ _ h
    exact absurd h hc

lemma readUnits_plain {c : Char} (hq : c ≠ '"') (hb : c ≠ '\\') (hc : ¬c < ' ') (cs : List Char) :
    readUnits (c :: cs) = (readUnits cs).map fun (ns, rest) => (c.toNat :: ns, rest) := by
  rw [readUnits, if_neg hc]
  · cases readUnits cs <;> rfl
  · exact hq
  · exact fun _ _ _ _ _ h => absurd h hb
  · exact fun _ _ h => absurd h hb

lemma toNat_lt (c : Char) : c.toNat < 0x110000 := by
  rcases c.valid with h | h
  · exact Nat.lt_trans h (by decide)
  · exact h.2

lemma readUnits_escapeUnits {n : ℕ} (hn : n < 0x110000) (cs : List Char) :
    readUnits (escapeUnits n ++ cs) =
      (readUnits cs).map fun (ns, rest) => (units n ++ ns, rest) := by
  rw [escapeUnits, units]
  split
  · next h =>
    rw [List.flatMap_singleton, readUnits_unit h]
    rfl
  · next h =>
    rw [List.flatMap_cons, List.flatMap_singleton, List.append_assoc, readUnits_unit (by omega),
      readUnits_unit (by omega), Option.map_map]
    rfl

lemma units_of_lt {n : ℕ} (hn : n < 0x10000) : units n = [n] := if_pos hn

lemma escapeChar_cases (c : Char) :
    (∃ e, escapeChar c = ['\\', e] ∧ shortEscape? e = some c ∧ e ≠ 'u' ∧ c.toNat < 0x10000) ∨
    (escapeChar c = [c] ∧ c ≠ '"' ∧ c ≠ '\\' ∧ ¬c < ' ' ∧ c.toNat < 0x10000) ∨
    escapeChar c = escapeUnits c.toNat := by
  by_cases hm : c ∈ ['"', '\\', '\n', '\r', '\t', '\x08', '\x0c']
  · simp only [List.mem_cons, List.not_mem_nil, or_false] at hm
    rcases hm with rfl | rfl | rfl | rfl | rfl | rfl | rfl <;>
      exact .inl ⟨_, rfl, rfl, by decide, by decide⟩
  · simp only [List.mem_cons, List.not_mem_nil, or_false, not_or] at hm
    obtain ⟨hq, hb, hn, hr, ht, h8, hf⟩ := hm
    refine .inr ?_
    rw [escapeChar, if_neg hq, if_neg hb, if_neg hn, if_neg hr, if_neg ht, if_neg h8, if_neg hf]
    split
    · next h =>
      have hlt : c.toNat < 0x10000 :=
        Nat.lt_of_le_of_lt (UInt32.le_iff_toNat_le.1 h.2) (by decide)
      exact .inl ⟨rfl, hq, hb, Char.not_lt.2 h.1, hlt⟩
    · exact .inr rfl

lemma readUnits_escapeChar (c : Char) (cs : List Char) : readUnits (escapeChar c ++ cs) =
    (readUnits cs).map fun (ns, rest) => (units c.toNat ++ ns, rest) := by
  rcases escapeChar_cases c with ⟨e, he, hs, hu, hlt⟩ | ⟨he, hq, hb, hl, hlt⟩ | he
  · rw [he, units_of_lt hlt]
    exact readUnits_short hs hu cs
  · rw [he, units_of_lt hlt]
    exact readUnits_plain hq hb hl cs
  · rw [he]
    exact readUnits_escapeUnits (toNat_lt c) cs

end Units

section Joining

lemma joinUnit_of_not_high {n : ℕ} (hn : ¬(0xd800 ≤ n ∧ n < 0xdc00)) (ns : List ℕ) :
    joinUnit n ns = n :: ns := by
  rw [joinUnit.eq_def]
  split
  · exact if_neg fun h => hn ⟨h.1, h.2.1⟩
  · rfl

lemma joinUnit_pair {i j : ℕ} (hi : i < 0x400) (hj : j < 0x400) (ns : List ℕ) :
    joinUnit (0xd800 + i) ((0xdc00 + j) :: ns) = (0x10000 + i * 0x400 + j) :: ns := by
  rw [joinUnit.eq_def]
  dsimp only
  rw [if_pos (by omega), Nat.add_sub_cancel_left, Nat.add_sub_cancel_left]

lemma foldr_joinUnit_units (c : Char) (ns : List ℕ) :
    (units c.toNat).foldr joinUnit ns = c.toNat :: ns := by
  have hlt := toNat_lt c
  have hv : c.toNat < 0xd800 ∨ 0xdfff < c.toNat := c.valid.imp_right And.left
  rw [units]
  split
  · exact joinUnit_of_not_high (by omega) ns
  · have hlow : ¬(0xd800 ≤ 0xdc00 + (c.toNat - 0x10000) % 0x400 ∧
        0xdc00 + (c.toNat - 0x10000) % 0x400 < 0xdc00) := by omega
    have hi : (c.toNat - 0x10000) / 0x400 < 0x400 := by omega
    rw [List.foldr_cons, List.foldr_cons, List.foldr_nil, joinUnit_of_not_high hlow,
      joinUnit_pair hi (Nat.mod_lt _ (by decide))]
    exact congrArg (· :: ns) (by omega)

lemma join_units (cs : List Char) :
    (cs.flatMap fun c => units c.toNat).foldr joinUnit [] = cs.map Char.toNat := by
  induction cs with
  | nil => rfl
  | cons c cs ih =>
    rw [List.flatMap_cons, List.foldr_append, ih, foldr_joinUnit_units, List.map_cons]

end Joining

lemma readUnits_escapePoint (p : CodePoint) (cs : List Char) : readUnits (escapePoint p ++ cs) =
    (readUnits cs).map fun (ns, rest) => (units p.toNat ++ ns, rest) := by
  cases p with
  | char c => exact readUnits_escapeChar c cs
  | half n =>
    have hlt : (CodePoint.half n).toNat < 0x110000 := by
      have := n.isLt
      rw [CodePoint.toNat]
      omega
    exact readUnits_escapeUnits hlt cs

lemma readUnits_escaped (ps : List CodePoint) (rest : List Char) :
    readUnits (ps.flatMap escapePoint ++ '"' :: rest) =
      some (ps.flatMap fun p => units p.toNat, rest) := by
  induction ps with
  | nil => rw [List.flatMap_nil, List.nil_append, readUnits]; rfl
  | cons p ps ih =>
    rw [List.flatMap_cons, List.append_assoc, readUnits_escapePoint, ih, Option.map_some,
      List.flatMap_cons]

theorem readText_points (t : Text) : ∃ quoted s, writeText t = '"' :: quoted ∧
    ∀ rest, readText (quoted ++ rest) = some (s, rest) := by
  refine ⟨t.points.flatMap escapePoint ++ ['"'],
    ⟨((t.points.flatMap fun p => units p.toNat).foldr joinUnit []).map CodePoint.ofNat⟩, rfl,
    fun rest => ?_⟩
  rw [readText, List.append_assoc, List.singleton_append, readUnits_escaped, Option.map_some]

theorem readText_writeText (cs : List Char) :
    ∃ quoted, writeText (ofChars cs) = '"' :: quoted ∧
      ∀ rest, readText (quoted ++ rest) = some (ofChars cs, rest) := by
  refine ⟨(ofChars cs).points.flatMap escapePoint ++ ['"'], rfl, fun rest => ?_⟩
  have hunits : (ofChars cs).points.flatMap (fun p => units p.toNat) =
      cs.flatMap fun c => units c.toNat := by
    rw [ofChars, List.flatMap_map]
    rfl
  rw [readText, List.append_assoc, List.singleton_append, readUnits_escaped, Option.map_some,
    hunits]
  dsimp only
  rw [join_units, List.map_map, ofChars]
  exact congrArg (fun ps => some (Text.mk ps, rest))
    (List.map_congr_left fun c _ => CodePoint.ofNat_toNat (.char c))

end KnotSpline.Json
