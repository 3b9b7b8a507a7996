import KnotSpline.Json.Reader
import KnotSpline.Store.Encoder

/-! Fitted problems in files. -/

namespace KnotSpline

def Json.Flaw.fault {α : Type} : Json.Flaw → Fault α
  | malformed => .notJson
  | tooDeep => .tooDeep
  | tooLong => .unusable

namespace Store

variable {α : Type}

def isFile (s : Store α) (l : Location) : Bool :=
  (s.file? l).isSome

def isDirectory (s : Store α) (d : Directory) : Bool :=
  s.host.directories.contains d

def entryAt (s : Store α) (t : Text) : Except (Fault α) (Location × Bool) := do
  let path ← Path.ofText t
  let start := if path.absolute then [] else s.host.workingDirectory
  match ← Path.follow s.isDirectory s.isFile start path.names with
  | .directory => throw .isDirectory
  | .entry l => pure (l, path.closed)

/-- The place that a path names for writing. Only directories are named with a slash at the end. -/
def placeToWrite (s : Store α) (t : Text) : Except (Fault α) Location := do
  let (l, closed) ← s.entryAt t
  if closed then throw .isDirectory
  if Path.maxName < l.name.length then throw .nameTooLong
  pure l

def contentAt (s : Store α) (t : Text) : Except (Fault α) ByteArray := do
  let (l, closed) ← s.entryAt t
  if Path.maxName < l.name.length then throw .nameTooLong
  match s.file? l with
  | none => throw .noSuchFile
  | some content => if closed then throw .notDirectory else pure content

def append (s : Store α) (l : Location) (content : ByteArray) : Store α :=
  s.setFile l ((s.file? l).getD ByteArray.empty ++ content)

end Store

namespace Session

variable {α : Type}

def openToWrite (path : Text) : Session α Location := do
  let l ← ofExcept ((← get).placeToWrite path)
  modify fun s => s.setFile l ByteArray.empty
  pure l

def writeChunk (l : Location) (chunk : List Char) : Session α Unit :=
  modify fun s => s.append l (String.ofList chunk).toUTF8

def store (path : Text) (content : ByteArray) : Session α Unit := do
  let l ← openToWrite path
  modify fun s => s.append l content

def fetch (path : Text) : Session α ByteArray := do
  ofExcept ((← get).contentAt path)

def textOf (content : ByteArray) : Session α String :=
  match String.fromUTF8? content with
  | some text => pure text
  | none => throw .notUtf8

variable [Scalar α]

/-- The pieces are written as they come, and stay in the file if there are no more after a fault. -/
def saveFile (id : Nat) (path : Text) : Session α Unit := do
  let l ← openToWrite path
  let output := (← get).encode id
  output.chunks.forM (writeChunk l)
  ofExcept output.outcome

def readRecord (path : Text) : Session α (Record α) := do
  let text ← textOf (← fetch path)
  match (Json.ofText (← get).host.stack.levels text : Except Json.Flaw (Json α)) with
  | .error flaw => throw flaw.fault
  | .ok json =>
    match json.toValue with
    | .record fields =>
      match Record.get? fields (.text "type") with
      | some (.text name) =>
        if name = Problem.recordType then pure fields else throw (.invalidInput (.notASpline path))
      | _ => throw (.invalidInput (.notASpline path))
    | _ => throw .notARecord

def loadFile (path : Text) : Session α Nat := do
  load (← readRecord path)

end Session

end KnotSpline
