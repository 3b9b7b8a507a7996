import KnotSpline.Fault

/-! Paths of files. A path starts from the working directory or, with a slash, from the root, and
goes through the directories that there are. -/

namespace KnotSpline

/-- The names on the way from the root, the last one first. Above the root there is only the root
again. -/
abbrev Directory := List (List UInt8)

structure Location where
  directory : Directory
  name : List UInt8
  deriving DecidableEq

structure Path where
  absolute : Bool
  names : List (List UInt8)
  closed : Bool

namespace Path

inductive Target
  | directory
  | entry (l : Location)

/-- The bytes of a code point in a path. The halves from `0xdc80` to `0xdcff` stand for the bytes
from `0x80` on, which no character begins with. -/
def bytes? : CodePoint → Option (List UInt8)
  | .char c => some (String.utf8EncodeChar c)
  | .half n => if 0x480 ≤ n.val ∧ n.val < 0x500 then some [(n.val - 0x400).toUInt8] else none

def slash : UInt8 := 0x2f

def maxName : Nat := 255

def maxPath : Nat := 4095

def split (bytes : List UInt8) : List (List UInt8) :=
  (bytes.splitOn slash).filter fun name => !name.isEmpty

variable {α : Type}

def ofText (t : Text) : Except (Fault α) Path := do
  match t.points.mapM bytes? with
  | none => throw .notEncodable
  | some pieces =>
    let bytes := pieces.flatten
    if bytes.contains 0 then throw .unusable
    if bytes.isEmpty then throw .noSuchFile
    if maxPath < bytes.length then throw .nameTooLong
    pure ⟨bytes.head? = some slash, split bytes, bytes.getLast? = some slash⟩

def here : List UInt8 := [0x2e]

def up : List UInt8 := [0x2e, 0x2e]

def follow (isDirectory : Directory → Bool) (isFile : Location → Bool) (d : Directory) :
    List (List UInt8) → Except (Fault α) Target
  | [] => pure .directory
  | name :: names =>
    if name = here then follow isDirectory isFile d names
    else if name = up then follow isDirectory isFile d.tail names
    else if isDirectory (name :: d) then follow isDirectory isFile (name :: d) names
    else if names.isEmpty then pure (.entry ⟨d, name⟩)
    else if maxName < name.length then throw .nameTooLong
    else if isFile ⟨d, name⟩ then throw .notDirectory
    else throw .noSuchFile

end Path

end KnotSpline
