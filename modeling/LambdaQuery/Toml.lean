/-!
TOML documents: tables of values, and the rules by which headers and keys build them up. A table
may be opened by a header once, keys may not be given twice, and what a value or an inline table
holds is not added to later.
-/

namespace LambdaQuery

inductive Toml where
  | string (s : String)
  | integer (n : Int)
  | float (x : Float)
  | boolean (b : Bool)
  | array (items : List Toml)
  /-- A table that is written as a value. -/
  | inline (entries : List (String × Toml))
  /-- A table that headers or dotted keys made. It is implied if no header of its own opened it,
  and dotted if keys made it. -/
  | table (implied dotted : Bool) (entries : List (String × Toml))
  /-- The tables that headers of one name opened, in order. -/
  | tables (items : List (List (String × Toml)))

namespace Toml

abbrev Entries := List (String × Toml)

/-- Put a value at a key, in place of what is there. -/
def setEntry (key : String) (value : Toml) : Entries → Entries
  | [] => [(key, value)]
  | (name, old) :: rest =>
    if name = key then (key, value) :: rest else (name, old) :: setEntry key value rest

/-- Change the last of the given tables. -/
def changeLast (change : Entries → Option Entries) : List Entries → Option (List Entries)
  | [] => none
  | [last] => (change last).map fun entries => [entries]
  | first :: rest => (changeLast change rest).map (first :: ·)

/-- Change the table at a path of headers. Tables on the way are made as needed. -/
def changeAt (change : Entries → Option Entries) : List String → Entries → Option Entries
  | [], entries => change entries
  | key :: path, entries =>
    match entries.lookup key with
    | none => do
      let inner ← changeAt change path []
      return setEntry key (.table true false inner) entries
    | some (.table implied dotted inner) => do
      let inner ← changeAt change path inner
      return setEntry key (.table implied dotted inner) entries
    | some (.tables items) => do
      let items ← changeLast (changeAt change path) items
      return setEntry key (.tables items) entries
    | some _ => none

/-- Put a new value at a path of dotted keys. They pass through tables that no header opened, and
through the last of several tables; but a table that only headers made is not open to them, and
gets no value of its own. -/
def putAt (value : Toml) (isOpen : Bool) :
    (key : String) → (path : List String) → Entries → Option Entries
  | key, [], entries =>
    if isOpen && (entries.lookup key).isNone then some (entries ++ [(key, value)]) else none
  | key, next :: path, entries =>
    match entries.lookup key with
    | none => do
      let inner ← putAt value true next path []
      return entries ++ [(key, .table true true inner)]
    | some (.table true dotted inner) => do
      let inner ← putAt value dotted next path inner
      return setEntry key (.table true dotted inner) entries
    | some (.tables items) => do
      let items ← changeLast (putAt value false next path) items
      return setEntry key (.tables items) entries
    | some _ => none

/-- Open the table of a header. -/
def openTable (key : String) (entries : Entries) : Option Entries :=
  match entries.lookup key with
  | none => some (entries ++ [(key, .table false false [])])
  | some (.table true false inner) => some (setEntry key (.table false false inner) entries)
  | some _ => none

/-- Open one more of the tables of a header. -/
def openNext (key : String) (entries : Entries) : Option Entries :=
  match entries.lookup key with
  | none => some (entries ++ [(key, .tables [[]])])
  | some (.tables items) => some (setEntry key (.tables (items ++ [[]])) entries)
  | some _ => none

/-! Views. -/

def string? : Toml → Option String
  | string s => some s
  | _ => none

def integer? : Toml → Option Int
  | integer n => some n
  | _ => none

def boolean? : Toml → Option Bool
  | boolean b => some b
  | _ => none

def array? : Toml → Option (List Toml)
  | array items => some items
  | _ => none

def entries? : Toml → Option Entries
  | inline entries | table _ _ entries => some entries
  | _ => none

/-- Every value read by the same rule, if it fits all of them. -/
def readAll {α β : Type} (read : α → Option β) : List α → Option (List β)
  | [] => some []
  | a :: rest =>
    match read a, readAll read rest with
    | some b, some bs => some (b :: bs)
    | _, _ => none

/-- A table whose values are all read by the same rule. -/
def mapOf? {α : Type} (read : Toml → Option α) (t : Toml) : Option (List (String × α)) := do
  let entries ← t.entries?
  readAll (fun (key, value) => (read value).map fun a => (key, a)) entries

/-- Entries in the order of their keys. -/
def insertByKey {α : Type} (entry : String × α) : List (String × α) → List (String × α)
  | [] => [entry]
  | other :: rest =>
    if other.1 < entry.1 then other :: insertByKey entry rest else entry :: other :: rest

def sortByKey {α : Type} : List (String × α) → List (String × α)
  | [] => []
  | entry :: rest => insertByKey entry (sortByKey rest)

end Toml

end LambdaQuery
