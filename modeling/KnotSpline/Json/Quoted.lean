import KnotSpline.Text
import KnotSpline.Text.Hex

/-! Texts between quotes. Only the visible characters of ASCII are written as they are; all others
become escapes of one or two 16-bit units. -/

namespace KnotSpline.Json

open Text

def units (n : Nat) : List Nat :=
  if n < 0x10000 then [n] else [0xd800 + (n - 0x10000) / 0x400, 0xdc00 + (n - 0x10000) % 0x400]

def escapeUnits (n : Nat) : List Char :=
  (units n).flatMap fun u => '\\' :: 'u' :: hex 4 u

def escapeChar (c : Char) : List Char :=
  if c = '"' then ['\\', '"']
  else if c = '\\' then ['\\', '\\']
  else if c = '\n' then ['\\', 'n']
  else if c = '\r' then ['\\', 'r']
  else if c = '\t' then ['\\', 't']
  else if c = '\x08' then ['\\', 'b']
  else if c = '\x0c' then ['\\', 'f']
  else if ' ' ≤ c ∧ c ≤ '~' then [c]
  else escapeUnits c.toNat

def escapePoint : CodePoint → List Char
  | .char c => escapeChar c
  | p => escapeUnits p.toNat

def writeText (t : Text) : List Char :=
  '"' :: t.points.flatMap escapePoint ++ ['"']

def hexNumber? (ds : List Char) : Option Nat :=
  ds.foldl (fun n d => n.bind fun n => (hexDigit? d).map (16 * n + ·)) (some 0)

def shortEscape? (c : Char) : Option Char :=
  if c = '"' ∨ c = '\\' ∨ c = '/' then some c
  else if c = 'n' then some '\n'
  else if c = 'r' then some '\r'
  else if c = 't' then some '\t'
  else if c = 'b' then some '\x08'
  else if c = 'f' then some '\x0c'
  else none

def readUnits : List Char → Option (List Nat × List Char)
  | [] => none
  | '"' :: cs => some ([], cs)
  | '\\' :: 'u' :: a :: b :: c :: d :: cs => do
    let n ← hexNumber? [a, b, c, d]
    let (ns, rest) ← readUnits cs
    some (n :: ns, rest)
  | '\\' :: c :: cs => do
    let e ← shortEscape? c
    let (ns, rest) ← readUnits cs
    some (e.toNat :: ns, rest)
  | c :: cs =>
    if c < ' ' then none
    else do
      let (ns, rest) ← readUnits cs
      some (c.toNat :: ns, rest)

/-- Puts a unit in front of code points; the first half of a pair joins with the second half. -/
def joinUnit (n : Nat) (ns : List Nat) : List Nat :=
  match ns with
  | m :: rest =>
    if 0xd800 ≤ n ∧ n < 0xdc00 ∧ 0xdc00 ≤ m ∧ m < 0xe000 then
      (0x10000 + (n - 0xd800) * 0x400 + (m - 0xdc00)) :: rest
    else n :: ns
  | [] => [n]

def readText (cs : List Char) : Option (Text × List Char) :=
  (readUnits cs).map fun (ns, rest) => (⟨(ns.foldr joinUnit []).map CodePoint.ofNat⟩, rest)

end KnotSpline.Json
