import KnotSpline.Problem.Constraint
import KnotSpline.Problem.Fit
import KnotSpline.Problem.Record
import KnotSpline.Store.Path
import KnotSpline.Value.Writer

/-! A store of problems that may refer to one another, with their messages and with files. -/

namespace KnotSpline

structure Entry (α : Type) where
  problem : Problem α
  /-- The messages of a problem that keeps its own; all others go to the log. -/
  messages : Option (List String)

/-- What a program finds and does not change: directories, and how much it may ask for. -/
structure Host where
  directories : List Directory
  workingDirectory : Directory
  stack : Stack

def Host.usual : Host :=
  let home := "home".toUTF8.toList
  let work := "work".toUTF8.toList
  ⟨[[home], [work, home]], [work, home], .usual⟩

structure Store (α : Type) where
  /-- A problem is known by its place. -/
  entries : List (Entry α)
  files : List (Location × ByteArray)
  log : List String
  host : Host

/-- Operations on a store. What has been done before a fault stays done. -/
abbrev Session (α : Type) := ExceptT (Fault α) (StateM (Store α))

namespace Store

variable {α : Type}

def empty : Store α :=
  ⟨[], [], [], .usual⟩

def problem? (s : Store α) (id : Nat) : Option (Problem α) :=
  s.entries[id]?.map Entry.problem

def setProblem (s : Store α) (id : Nat) (p : Problem α) : Store α :=
  { s with entries := s.entries.modify id fun e => { e with problem := p } }

def announce (s : Store α) (id : Nat) (message : String) : Store α :=
  match s.entries[id]?.bind Entry.messages with
  | some ms =>
    let messages := some (ms ++ [message])
    { s with entries := s.entries.modify id fun e => { e with messages } }
  | none => { s with log := s.log ++ [message] }

def file? (s : Store α) (l : Location) : Option ByteArray :=
  (s.files.find? fun f => f.1 == l).map (·.2)

def setFile (s : Store α) (l : Location) (content : ByteArray) : Store α :=
  { s with files := (l, content) :: s.files.filter fun f => f.1 != l }

@[simp]
theorem file?_setFile_self (s : Store α) (l : Location) (content : ByteArray) :
    (s.setFile l content).file? l = some content := by
  simp [file?, setFile]

theorem file?_setFile_of_ne (s : Store α) {l m : Location} (h : l ≠ m) (content : ByteArray) :
    (s.setFile l content).file? m = s.file? m := by
  have hl : (l == m) = false := by simpa using h
  simp only [file?, setFile, List.find?_cons, hl, List.find?_filter]
  congr 2
  funext f
  by_cases hf : f.1 = m
  · simp [hf, h.symm]
  · simp [hf]

end Store

namespace Session

variable {α : Type}

def ofExcept {β : Type} (r : Except (Fault α) β) : Session α β :=
  ExceptT.mk (pure r)

def problem (id : Nat) : Session α (Problem α) := do
  match (← get).problem? id with
  | some p => pure p
  | none => throw (.noSuchProblem id)

def add (p : Problem α) (messages : Option (List String)) : Session α Nat := do
  let s ← get
  modify fun s => { s with entries := s.entries ++ [⟨p, messages⟩] }
  pure s.entries.length

def update (id : Nat) (f : Problem α → Except (Fault α) (Problem α)) : Session α Unit := do
  let p ← ofExcept (f (← problem id))
  modify fun s => s.setProblem id p

variable [Scalar α]

def create (times coefficientCount outputCount metadata : Value α) (listening : Bool) :
    Session α Nat := do
  let p ← ofExcept (Problem.create times coefficientCount outputCount metadata)
  let id ← add p (if listening then some [] else none)
  modify fun s => s.announce id p.summary
  pure id

/-- The message about a problem from a record is sent before its solution is looked at. -/
def load (r : Record α) : Session α Nat := do
  let p ← ofExcept (Problem.openRecord r)
  modify fun s => { s with log := s.log ++ [p.summary] }
  add (← ofExcept (p.loadSolution r)) none

def constrain (id : Nat) (r : Request α) : Session α Unit :=
  update id fun p => p.constrain r

def fit (id : Nat) : Session α Unit := do
  let p ← problem id
  modify fun s => s.announce id p.fitNotice
  update id Problem.fit

def setTolerance (id : Nat) (tolerance : Value α) : Session α Unit :=
  update id fun p => pure { p with rankTolerance := tolerance }

def setRowIndex (id : Nat) (rowIndex : Int) : Session α Unit :=
  update id fun p => pure { p with rowIndex }

def setMetadata (id : Nat) (name : Text) (v : Value α) : Session α Unit :=
  update id fun p => pure { p with metadata := p.metadata.set (.text name) v }

end Session

end KnotSpline
