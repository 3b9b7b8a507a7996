import KnotSpline.NumArray
import KnotSpline.Value.Text

/-! Arrays as text: all entries have their points below one another, blanks fill both sides, rows
stand on lines of their own. -/

namespace KnotSpline.NumArray

variable {α : Type} [Scalar α]

def maxFraction : Nat := 8

inductive Shown where
  | digits (whole fraction : List Char)
  | word (cs : List Char)

def Shown.ofScalar (x : α) : Shown :=
  match Scalar.toNumeral x with
  | .finite d =>
    let d := if -(maxFraction : Int) ≤ d.exponent then d else Scalar.roundTo maxFraction x
    let (whole, fraction) := d.positional
    .digits (if d.negative then '-' :: whole else whole) fraction
  | n => .word n.text.toList

def Shown.before : Shown → Nat
  | .digits whole _ => whole.length
  | .word _ => 0

def Shown.after : Shown → Nat
  | .digits _ fraction => fraction.length
  | .word _ => 0

def Shown.wordLength : Shown → Nat
  | .digits _ _ => 0
  | .word cs => cs.length

def blanks (n : Nat) : List Char :=
  List.replicate n ' '

def widest (ns : List Nat) : Nat :=
  ns.foldl max 0

def Shown.aligned (before after width : Nat) : Shown → String
  | .digits whole fraction =>
    String.ofList (blanks (width - (before + 1 + after)) ++ blanks (before - whole.length) ++
      whole ++ '.' :: fraction ++ blanks (after - fraction.length))
  | .word cs => String.ofList (blanks (width - cs.length) ++ cs)

def alignedTexts (xs : List α) : List String :=
  let shown := xs.map Shown.ofScalar
  let before := widest (shown.map Shown.before)
  let after := widest (shown.map Shown.after)
  let width := max (before + 1 + after) (widest (shown.map Shown.wordLength))
  shown.map (Shown.aligned before after width)

def bracketed (depth : Nat) : List Nat → List String → String
  | [], ts => "".intercalate ts
  | [_], ts => "[" ++ " ".intercalate ts ++ "]"
  | n :: shape, ts =>
    let gap := String.ofList (List.replicate shape.length '\n' ++ blanks (depth + 1))
    "[" ++ gap.intercalate ((pieces (size shape) n ts).map (bracketed (depth + 1) shape)) ++ "]"

def text (a : NumArray α) : String :=
  match a.shape, a.entries with
  | [], x :: _ => Scalar.text x
  | shape, xs =>
    if xs.isEmpty then "[]"
    else bracketed 0 shape (alignedTexts xs)

end KnotSpline.NumArray
