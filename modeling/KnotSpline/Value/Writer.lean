import KnotSpline.Json.Writer
import KnotSpline.Value.Json
import KnotSpline.Value.Record

/-! Values written as JSON, one piece of text after the other. What has been written before a fault
stays written. -/

namespace KnotSpline

inductive Value.Kind
  | null
  | bool
  | int
  | real
  | text
  | emptyList
  | list
  | emptyRecord
  | record
  | array
  | foreign
  | problem
  /-- A problem inside itself. -/
  | circle

def Value.kind {α : Type} (around : List Nat) : Value α → Kind
  | null => .null
  | bool _ => .bool
  | int _ => .int
  | real _ => .real
  | text _ => .text
  | list [] => .emptyList
  | list _ => .list
  | record [] => .emptyRecord
  | record _ => .record
  | array _ => .array
  | foreign => .foreign
  | problem id => if around.contains id then .circle else .problem

/-- How far calls can go into one another. What is left of the stack depends on the caller. -/
structure Stack where
  /-- So many calls can be open at once. -/
  room : Nat
  /-- So many are open for a moment while a value itself is written. -/
  calls : Value.Kind → Nat
  /-- So many levels can be read. -/
  levels : Nat

namespace Stack

def check {α : Type} (k : Stack) (around : List Nat) (depth : Nat) (v : Value α) :
    Except (Fault α) Unit :=
  if k.room < depth + k.calls (v.kind around) then throw .tooDeep else pure ()

def usualCalls : Value.Kind → Nat
  | .null | .bool => 0
  | .int | .text | .emptyList | .emptyRecord => 1
  | .real | .list | .record | .circle => 2
  | .array => 3
  | .foreign => 4
  | .problem => 7

/-- A limit of a thousand calls, of which the caller has taken a few. -/
def usual : Stack := ⟨992, usualCalls, 989⟩

end Stack

structure Output (α β : Type) where
  chunks : List (List Char)
  outcome : Except (Fault α) β

namespace Output

variable {α β : Type}

instance : Monad (Output α) where
  pure b := ⟨[], .ok b⟩
  bind o f :=
    match o.outcome with
    | .error e => ⟨o.chunks, .error e⟩
    | .ok b => ⟨o.chunks ++ (f b).chunks, (f b).outcome⟩

def put (chunk : List Char) : Output α Unit :=
  ⟨[chunk], .ok ()⟩

def ofExcept (r : Except (Fault α) β) : Output α β :=
  ⟨[], r⟩

def text (o : Output α β) : List Char :=
  o.chunks.flatten

end Output

namespace Value

open Json Output

variable {α : Type} [Scalar α]

section Layout

variable (check : Nat → Value α → Except (Fault α) Unit)
  (writeObject : Nat → Nat → Value α → Output α Unit)

def writeName (depth : Nat) (before : List Char) (key : Key α) : Output α Unit := do
  ofExcept (check depth (ofKey key))
  let name ← ofExcept key.toJsonName
  put (before ++ writeText name ++ ": ".toList)

mutual

/-- Writes a value so many levels deep, so many calls deep. A text stands before it, in the same
piece if the value has no parts. -/
def write (level depth : Nat) (before : List Char) : Value α → Output α Unit
  | null => do
    ofExcept (check depth null)
    put (before ++ "null".toList)
  | bool b => do
    ofExcept (check depth (bool b))
    put (before ++ (if b then "true" else "false").toList)
  | int z => do
    ofExcept (check depth (int z))
    ofExcept (if isShort z then pure () else throw .unusable)
    put (before ++ (toString z).toList)
  | real x => do
    ofExcept (check depth (real x))
    put (before ++ writeNumeral (Scalar.toNumeral x))
  | text s => do
    ofExcept (check depth (text s))
    put (before ++ writeText s)
  | list [] => do
    put before
    ofExcept (check depth (list []))
    put "[]".toList
  | list (x :: xs) => do
    put before
    ofExcept (check depth (list (x :: xs)))
    write (level + 1) (depth + 1) ('[' :: newLine (level + 1)) x
    writeItems (level + 1) (depth + 1) xs
    put (newLine level ++ [']'])
  | record [] => do
    put before
    ofExcept (check depth (record []))
    put "\x7b\x7d".toList
  | record ((key, v) :: fields) => do
    put before
    ofExcept (check depth (record ((key, v) :: fields)))
    put ('\x7b' :: newLine (level + 1))
    writeName check (depth + 1) [] key
    write (level + 1) (depth + 1) [] v
    writeFields (level + 1) (depth + 1) fields
    put (newLine level ++ ['\x7d'])
  | v => do
    put before
    writeObject level depth v

def writeItems (level depth : Nat) : List (Value α) → Output α Unit
  | [] => pure ()
  | x :: xs => do
    write level depth (',' :: newLine level) x
    writeItems level depth xs

def writeFields (level depth : Nat) : Record α → Output α Unit
  | [] => pure ()
  | (key, v) :: fields => do
    writeName check depth (',' :: newLine level) key
    write level depth [] v
    writeFields level depth fields

end

end Layout

end Value

end KnotSpline
