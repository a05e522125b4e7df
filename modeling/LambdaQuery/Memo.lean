/-!
A table of computed values. A value is computed when its key is first asked for and kept from
then on; a computation that fails leaves no trace. Reading and writing are two steps, so that two
computations of one key may overlap: the first to be written stays.
-/

namespace LambdaQuery

/-- The entries written so far, the newest first. -/
structure Memo (κ ν : Type) where
  entries : List (κ × ν)

namespace Memo

variable {κ ν ε : Type} [BEq κ]

def empty : Memo κ ν := ⟨[]⟩

def get? (m : Memo κ ν) (key : κ) : Option ν :=
  m.entries.lookup key

def size (m : Memo κ ν) : Nat :=
  m.entries.length

def isEmpty (m : Memo κ ν) : Bool :=
  m.entries.isEmpty

/-- Write a value unless the key has one, and give the value that the key has afterwards. -/
def insertIfAbsent (m : Memo κ ν) (key : κ) (value : ν) : ν × Memo κ ν :=
  match m.get? key with
  | some old => (old, m)
  | none => (value, ⟨(key, value) :: m.entries⟩)

/-- The value of a key, computed if there is none yet. -/
def getOrInsert (m : Memo κ ν) (key : κ) (compute : Unit → ν) : ν × Memo κ ν :=
  match m.get? key with
  | some value => (value, m)
  | none => m.insertIfAbsent key (compute ())

/-- The value of a key, computed if there is none yet; a failure is not kept. -/
def tryGetOrInsert (m : Memo κ ν) (key : κ) (compute : Unit → Except ε ν) :
    Except ε ν × Memo κ ν :=
  match m.get? key with
  | some value => (.ok value, m)
  | none =>
    match compute () with
    | .ok value =>
      let (kept, m) := m.insertIfAbsent key value
      (.ok kept, m)
    | .error e => (.error e, m)

/-- The table as it is shown: only its size. -/
def summary (m : Memo κ ν) : String :=
  "MemoCache \x7b entries: " ++ toString m.size ++ " \x7d"

end Memo

end LambdaQuery
