/-! Texts as lists of code points. Beside characters a text may hold single halves of the pairs
that stand for large code points in 16-bit units. -/

namespace KnotSpline

inductive CodePoint
  | char (c : Char)
  /-- Half of a pair on its own, counted from `0xd800`. -/
  | half (n : Fin 0x800)
  deriving DecidableEq, Repr

namespace CodePoint

def toNat : CodePoint → Nat
  | char c => c.toNat
  | half n => 0xd800 + n.val

def ofNat (n : Nat) : CodePoint :=
  if n.isValidChar then char (Char.ofNat n) else half (Fin.ofNat 0x800 (n - 0xd800))

theorem ofNat_toNat (p : CodePoint) : ofNat p.toNat = p := by
  cases p with
  | char c =>
    have h : c.toNat.isValidChar := c.valid
    rw [ofNat, toNat, if_pos h, Char.ofNat_toNat]
  | half n =>
    have hn := n.isLt
    have h : ¬ (0xd800 + n.val).isValidChar := by
      simp only [Nat.isValidChar]
      omega
    rw [ofNat, toNat, if_neg h, Nat.add_sub_cancel_left]
    exact congrArg half (Fin.ext (Nat.mod_eq_of_lt hn))

def char? : CodePoint → Option Char
  | char c => some c
  | half _ => none

end CodePoint

structure Text where
  points : List CodePoint
  deriving DecidableEq, Repr

namespace Text

def ofChars (cs : List Char) : Text :=
  ⟨cs.map .char⟩

def ofString (s : String) : Text :=
  ofChars s.toList

instance : Coe String Text := ⟨ofString⟩

instance : Append Text := ⟨fun s t => ⟨s.points ++ t.points⟩⟩

def chars? (t : Text) : Option (List Char) :=
  t.points.mapM CodePoint.char?

theorem chars?_ofChars (cs : List Char) : (ofChars cs).chars? = some cs := by
  simp only [chars?, ofChars]
  induction cs with
  | nil => rfl
  | cons c cs ih => simp [CodePoint.char?, ih]

def toString? (t : Text) : Option String :=
  t.chars?.map String.ofList

def length (t : Text) : Nat :=
  t.points.length

def isEmpty (t : Text) : Bool :=
  t.points.isEmpty

end Text

end KnotSpline
