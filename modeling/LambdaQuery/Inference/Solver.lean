import LambdaQuery.Overload
import LambdaQuery.Inference.TypeError

/-!
What inference knows. Slots that must have the same type form a class, and one slot of the class
stands for all of it: its leader. What is believed of the type is kept with the leader.
-/

namespace LambdaQuery

/-- Something required of the type of a slot, in terms of the types of other slots. -/
inductive Constraint where
  | arithmetic
  /-- A sequence of any kind whose elements have the slot's type. -/
  | enumerableOf (element : Nat)
  | arrayOf (element : Nat)
  | optionalOf (inner : Nat)
  | lambda (params : List Nat) (result : Nat)
  /-- A type with a property of the slot's type. -/
  | property (name : String) (slot : Nat)
deriving DecidableEq, Repr

/-- How a constraint goes with one that is there already. -/
inductive Meeting where
  /-- They say the same, once these slots have the same types. -/
  | same (pairs : List (Nat × Nat))
  /-- Both are kept, and these slots have the same types. -/
  | beside (pairs : List (Nat × Nat))
  | unrelated
  | conflict
deriving Repr

namespace Constraint

def requirement : Constraint → Requirement
  | arithmetic => .number
  | enumerableOf _ => .sequence
  | arrayOf _ => .array
  | optionalOf _ => .optional
  | lambda .. => .lambda
  | property .. => .owner

/-- The slots that a constraint speaks of. -/
def components : Constraint → List Nat
  | arithmetic => []
  | enumerableOf e | arrayOf e | optionalOf e | property _ e => [e]
  | lambda params result => params ++ [result]

/-- How a new constraint goes with an old one. -/
def meet : (old new : Constraint) → Meeting
  | arithmetic, arithmetic => .same []
  | enumerableOf a, enumerableOf b | arrayOf a, arrayOf b | optionalOf a, optionalOf b =>
    .same [(a, b)]
  | enumerableOf a, arrayOf b | arrayOf a, enumerableOf b => .beside [(a, b)]
  | lambda ps r, lambda qs t =>
    if ps.length = qs.length then .same (ps.zip qs ++ [(r, t)]) else .conflict
  | property name a, property name' b =>
    if Text.sameName name name' then .same [(a, b)] else .unrelated
  | lambda .., _ | _, lambda .. => .conflict
  | arithmetic, enumerableOf _ | arithmetic, arrayOf _ => .conflict
  | enumerableOf _, arithmetic | arrayOf _, arithmetic => .conflict
  | optionalOf _, enumerableOf _ | optionalOf _, arrayOf _ => .conflict
  | enumerableOf _, optionalOf _ | arrayOf _, optionalOf _ => .conflict
  | _, _ => .unrelated

end Constraint

/-- What is believed of the type of a class. A belief only ever gets narrower. -/
inductive Belief where
  | known (ty : Ty)
  | unknown (constraints : List Constraint)
deriving DecidableEq, Repr

/-- The node that a slot belongs to, to blame if something is wrong with its type. -/
structure Origin where
  tag : NodeTag
  span : Span
deriving Repr

structure Cell where
  /-- The leader of the slot's class. -/
  leader : Nat
  /-- A bound on how often the class was merged with one as large. -/
  rank : Nat
  /-- What is believed of the class, if the slot is its leader. -/
  belief : Belief
  origin : Origin
  /-- The overload that the node stands for, if it is a call or a member. -/
  overload : Option Overload

structure Solver where
  cells : Array Cell
  /-- Every use of a name that a resolver was asked about, the latest first. -/
  asked : List Request

namespace Solver

/-- The leader of a slot's class. -/
def leader? (s : Solver) (slot : Nat) : Option Nat :=
  match s.cells[slot]? with
  | some cell =>
    match s.cells[cell.leader]? with
    | some leader => if leader.leader = cell.leader then some cell.leader else none
    | none => none
  | none => none

/-- What is believed of a slot's type. -/
def belief (s : Solver) (slot : Nat) : Belief :=
  match s.leader? slot with
  | some leader =>
    match s.cells[leader]? with
    | some cell => cell.belief
    | none => .unknown []
  | none => .unknown []

def known? (s : Solver) (slot : Nat) : Option Ty :=
  match s.belief slot with
  | .known ty => some ty
  | .unknown _ => none

/-- The node to blame for a slot. Slots that do not exist belong to nothing. -/
def origin (s : Solver) (slot : Nat) : Origin :=
  match s.cells[slot]? with
  | some cell => cell.origin
  | none => ⟨.lambda, ⟨0, 0⟩⟩

def blame (s : Solver) (slot : Nat) (fault : TypeFault) : TypeError :=
  ⟨fault, (s.origin slot).tag, (s.origin slot).span⟩

def setBelief (s : Solver) (leader : Nat) (belief : Belief) : Solver :=
  { s with cells := s.cells.modify leader fun cell => { cell with belief := belief } }

/-- Merge the class of `loser` into that of `winner`. -/
def merge (s : Solver) (winner loser rank : Nat) (belief : Belief) : Solver :=
  { s with
    cells := s.cells.mapIdx fun i cell =>
      if i = winner then { cell with rank := rank, belief := belief }
      else if cell.leader = loser then { cell with leader := winner, belief := .unknown [] }
      else cell }

def rank (s : Solver) (leader : Nat) : Nat :=
  match s.cells[leader]? with
  | some cell => cell.rank
  | none => 0

/-- Merge two classes. The leader of the higher rank leads on; of equal ones the second does, and
its rank grows. -/
def union (s : Solver) (a b : Nat) (belief : Belief) : Nat × Solver :=
  if s.rank b < s.rank a then (a, s.merge a b (s.rank a) belief)
  else if s.rank a < s.rank b then (b, s.merge b a (s.rank b) belief)
  else (b, s.merge b a (s.rank b + 1) belief)

/-- A new slot, to be blamed on the same node as another. -/
def fresh (s : Solver) (like : Nat) (belief : Belief) : Nat × Solver :=
  let slot := s.cells.size
  (slot, { s with cells := s.cells.push ⟨slot, 0, belief, s.origin like, none⟩ })

/-- Record the overload that a node stands for. -/
def setOverload (s : Solver) (slot : Nat) (o : Overload) : Solver :=
  { s with cells := s.cells.modify slot fun cell => { cell with overload := some o } }

def overload? (s : Solver) (slot : Nat) : Option Overload :=
  match s.cells[slot]? with
  | some cell => cell.overload
  | none => none

/-- What is known of a slot's type, down to a depth. -/
def hintAt (s : Solver) : (depth slot : Nat) → Hint
  | 0, slot =>
    match s.belief slot with
    | .known ty => .known ty
    | .unknown _ => .nothing
  | depth + 1, slot =>
    match s.belief slot with
    | .known ty => .known ty
    | .unknown constraints => .unknown <| constraints.map fun c =>
      match c with
      | .arithmetic => .arithmetic
      | .enumerableOf e => .enumerableOf (s.hintAt depth e)
      | .arrayOf e => .arrayOf (s.hintAt depth e)
      | .optionalOf e => .optionalOf (s.hintAt depth e)
      | .lambda params result => .lambda (params.map (s.hintAt depth)) (s.hintAt depth result)
      | .property name e => .property name (s.hintAt depth e)

/-- How deep hints describe slots inside slots. -/
def hintDepth : Nat := 8

def hint (s : Solver) (slot : Nat) : Hint :=
  s.hintAt hintDepth slot

end Solver

end LambdaQuery
