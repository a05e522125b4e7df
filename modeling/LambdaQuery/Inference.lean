import LambdaQuery.Inference.Rounds
import LambdaQuery.Inference.Typed

/-!
Type inference. A query is a lambda whose parameter has the root type; if a type is expected, the
body has to convert to it.
-/

namespace LambdaQuery

namespace Solver

/-- Let a slot belong to a node. -/
def own (cells : Array Cell) (slot : Nat) (tag : NodeTag) (span : Span) : Array Cell :=
  cells.modify slot fun cell => { cell with origin := ⟨tag, span⟩ }

mutual
/-- Let the slots of a tree belong to their nodes. An identifier leaves its slot to its
parameter. -/
def ownSlots (cells : Array Cell) : Term Slotted → Array Cell
  | .lambda n param body =>
    own (ownSlots (own cells param.note.slot .parameter param.note.span) body) n.slot .lambda n.span
  | .binary n _ left right => own (ownSlots (ownSlots cells left) right) n.slot .binary n.span
  | .call n _ args => own (ownSlotsAll cells args) n.slot .call n.span
  | .member n receiver _ => own (ownSlots cells receiver) n.slot .member n.span
  | .ident .. => cells
  | .literal n _ => own cells n.slot .literal n.span

def ownSlotsAll (cells : Array Cell) : List (Term Slotted) → Array Cell
  | [] => cells
  | t :: rest => ownSlotsAll (ownSlots cells t) rest
end

/-- Nothing is known of any slot of a tree, and no two of them need have the same type. -/
def start (t : Term Slotted) (slots : Nat) : Solver where
  cells := ownSlots
    ((Array.range slots).map fun i => ⟨i, 0, .unknown [], ⟨.lambda, t.note.span⟩, none⟩) t
  asked := []

/-- The slot, name and arguments of the call that stands first in the text. -/
def firstCall? (s : Solver) : List Item → Option (Nat × String × List Nat)
  | [] => none
  | .call slot name args :: rest =>
    match firstCall? s rest with
    | some other =>
      if (s.origin other.1).span.start < (s.origin slot).span.start then some other
      else some (slot, name, args)
    | none => some (slot, name, args)
  | _ :: rest => firstCall? s rest

end Solver

namespace Inference

/-- Work that was not done is an error if it is a call. Members and operators without a type are
reported with the tree. -/
def report (resolver : Resolver) (left : List Item) : Inference Unit := do
  let s ← get
  match s.firstCall? left with
  | none => return ()
  | some (slot, name, args) =>
    let request := callRequest s slot name args
    match resolver.candidates request with
    | first :: second :: rest =>
      fail slot (.ambiguousCall name ((first :: second :: rest).map Overload.toString))
    | _ => fail slot (.noMatchingFunction name request.args)

/-- Do the work of a tree, from what is learnt at the start; what is left could not be done. -/
def work (catalog : Catalog) (resolver : Resolver) (tree : Term Slotted) (tasks : List Task) :
    Inference (List Item) := do
  learn catalog tasks
  solve catalog resolver tree.bodyLiterals tree.items

/-- The typed tree, from what is learnt at the start. -/
def run (catalog : Catalog) (resolver : Resolver) (tree : Term Slotted)
    (binders : List (Symbol × Nat)) (tasks : List Task) : Inference (Term Typed) := do
  let left ← work catalog resolver tree tasks
  report resolver left
  match (← get).typed catalog binders tree with
  | .ok t => return t
  | .error e => throw e

end Inference

/-- What is learnt at the start of a query: the types of its lambdas, the root type and the expected
type. Only a lambda is a query. -/
def Term.startTasks? (root : Ty) (expected : Option Ty) : Term Slotted → Option (List Task)
  | .lambda n param body =>
    some (.assign param.note.slot root :: (Term.lambda n param body).lambdaTasks ++
      expected.toList.map fun ty => .expect body.slot ty .into)
  | _ => none

/-- The outcome of inference, with every use of a name that the resolver was asked about, in
order. -/
structure Inferred where
  outcome : Except TypeError (Term Typed)
  asked : List Request

/-- Infer the types of a query. -/
def infer (catalog : Catalog) (resolver : Resolver) (query : Term Span) (root : Ty)
    (expected : Option Ty) : Inferred :=
  let (tree, numbering) := query.number .start
  match tree.startTasks? root expected with
  | some tasks =>
    match Inference.run catalog resolver tree numbering.binders tasks
        (.start tree numbering.next) with
    | .ok t s => ⟨.ok t, s.asked.reverse⟩
    | .error e s => ⟨.error e, s.asked.reverse⟩
  | none => ⟨.error ⟨.notALambda, query.tag, query.note⟩, []⟩

end LambdaQuery
