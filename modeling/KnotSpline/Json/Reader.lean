import KnotSpline.Json
import KnotSpline.Json.Quoted
import KnotSpline.Scalar
import KnotSpline.Text.Class

/-! Reading JSON. Beside the standard grammar the words for infinity and for no number are taken. -/

namespace KnotSpline.Json

open Text

variable {α : Type} [Scalar α]

def skipBlanks (cs : List Char) : List Char :=
  cs.dropWhile fun c => c == ' ' || c == '\t' || c == '\n' || c == '\r'

def readWhole : List Char → Option (List Nat × List Char)
  | '0' :: cs => some ([0], cs)
  | cs =>
    match spanDigits cs with
    | ([], _) => none
    | found => some found

def readFraction : List Char → List Nat × List Char
  | '.' :: cs =>
    match spanDigits cs with
    | ([], _) => ([], '.' :: cs)
    | found => found
  | cs => ([], cs)

def readExponent : List Char → Option Int × List Char
  | [] => (none, [])
  | c :: cs =>
    if c = 'e' ∨ c = 'E' then
      let (negative, digits) :=
        match cs with
        | '-' :: rest => (true, rest)
        | '+' :: rest => (false, rest)
        | _ => (false, cs)
      match spanDigits digits with
      | ([], _) => (none, c :: cs)
      | (ds, rest) =>
        let n : Int := Decimal.ofDigits ds
        (some (if negative then -n else n), rest)
    else (none, c :: cs)

inductive Flaw
  | malformed
  | tooDeep
  | tooLong
  deriving DecidableEq, Repr

/-- Numbers without point and exponent are whole numbers. -/
def readNumber (negative : Bool) (cs : List Char) : Except Flaw (Json α × List Char) :=
  match readWhole cs with
  | none => throw .malformed
  | some (whole, rest) =>
    let (fraction, rest) := readFraction rest
    match fraction, readExponent rest with
    | [], (none, rest) =>
      if maxDigits < whole.length then throw .tooLong
      else
        let n : Int := Decimal.ofDigits whole
        pure (int (if negative then -n else n), rest)
    | ds, (e, rest) =>
      pure (real (Scalar.ofNumeral (.finite (.ofParts negative whole ds (e.getD 0)))), rest)

mutual

/-- Reads a value with room for so many levels; the fuel bounds the number of values and
separators. -/
def readValue : Nat → Nat → List Char → Except Flaw (Json α × List Char)
  | 0, _, _ => throw .malformed
  | fuel + 1, room, cs =>
    match skipBlanks cs with
    | '"' :: cs =>
      match readText cs with
      | none => throw .malformed
      | some (s, rest) => pure (text s, rest)
    | '[' :: cs =>
      match room, skipBlanks cs with
      | 0, _ => throw .tooDeep
      | _ + 1, ']' :: rest => pure (list [], rest)
      | room + 1, cs => do
        let (xs, rest) ← readItems fuel room cs
        pure (list xs, rest)
    | '\x7b' :: cs =>
      match room, skipBlanks cs with
      | 0, _ => throw .tooDeep
      | _ + 1, '\x7d' :: rest => pure (record [], rest)
      | room + 1, cs => do
        let (fields, rest) ← readFields fuel room [] cs
        pure (record fields, rest)
    | 'n' :: 'u' :: 'l' :: 'l' :: rest => pure (null, rest)
    | 't' :: 'r' :: 'u' :: 'e' :: rest => pure (bool true, rest)
    | 'f' :: 'a' :: 'l' :: 's' :: 'e' :: rest => pure (bool false, rest)
    | 'N' :: 'a' :: 'N' :: rest => pure (real (Scalar.ofNumeral .notANumber), rest)
    | 'I' :: 'n' :: 'f' :: 'i' :: 'n' :: 'i' :: 't' :: 'y' :: rest =>
      pure (real (Scalar.ofNumeral (.infinite false)), rest)
    | '-' :: 'I' :: 'n' :: 'f' :: 'i' :: 'n' :: 'i' :: 't' :: 'y' :: rest =>
      pure (real (Scalar.ofNumeral (.infinite true)), rest)
    | '-' :: cs => readNumber true cs
    | cs => readNumber false cs

def readItems : Nat → Nat → List Char → Except Flaw (List (Json α) × List Char)
  | 0, _, _ => throw .malformed
  | fuel + 1, room, cs => do
    let (x, rest) ← readValue fuel room cs
    match skipBlanks rest with
    | ',' :: rest => do
      let (xs, rest) ← readItems fuel room rest
      pure (x :: xs, rest)
    | ']' :: rest => pure ([x], rest)
    | _ => throw .malformed

def readFields : Nat → Nat → List (Text × Json α) → List Char →
    Except Flaw (List (Text × Json α) × List Char)
  | 0, _, _, _ => throw .malformed
  | fuel + 1, room, fields, cs =>
    match skipBlanks cs with
    | '"' :: cs =>
      match readText cs with
      | none => throw .malformed
      | some (name, rest) =>
        match skipBlanks rest with
        | ':' :: rest => do
          let (v, rest) ← readValue fuel room rest
          let fields := setField fields name v
          match skipBlanks rest with
          | ',' :: rest => readFields fuel room fields rest
          | '\x7d' :: rest => pure (fields, rest)
          | _ => throw .malformed
        | _ => throw .malformed
    | _ => throw .malformed

end

def ofText (room : Nat) (s : String) : Except Flaw (Json α) := do
  let cs := s.toList
  let (v, rest) ← readValue (2 * cs.length + 2) room cs
  if (skipBlanks rest).isEmpty then pure v else throw .malformed

end KnotSpline.Json
