import LambdaQuery.Term

/-!
Type slots. Every node of a query gets a slot that its type will be put in, and so does every
lambda parameter; an identifier shares the slot of its parameter. Slots are numbered from zero,
those of the nodes below a node before its own, and a parameter's before those of the body.
-/

namespace LambdaQuery

structure Slotted where
  slot : Nat
  span : Span
deriving Repr

/-- The next number, and the slots of the parameters met so far, the latest first. -/
structure Numbering where
  next : Nat
  binders : List (Symbol × Nat)
deriving Repr

namespace Numbering

def start : Numbering := ⟨0, []⟩

def skip (n : Numbering) : Numbering :=
  { n with next := n.next + 1 }

/-- Give a parameter the next slot. -/
def bind (n : Numbering) (symbol : Symbol) : Numbering :=
  ⟨n.next + 1, (symbol, n.next) :: n.binders⟩

end Numbering

namespace Term

mutual
/-- Give every node and every parameter its slot. An identifier without a parameter gets one of
its own. -/
def number : Term Span → Numbering → Term Slotted × Numbering
  | lambda span param body, n =>
    let (body, after) := number body (n.bind param.symbol)
    (lambda ⟨after.next, span⟩ ⟨param.symbol, ⟨n.next, param.note⟩⟩ body, after.skip)
  | binary span op left right, n =>
    let (left, n) := number left n
    let (right, n) := number right n
    (binary ⟨n.next, span⟩ op left right, n.skip)
  | call span name args, n =>
    let (args, n) := numberAll args n
    (call ⟨n.next, span⟩ name args, n.skip)
  | member span receiver name, n =>
    let (receiver, n) := number receiver n
    (member ⟨n.next, span⟩ receiver name, n.skip)
  | ident span symbol, n =>
    match n.binders.lookup symbol with
    | some slot => (ident ⟨slot, span⟩ symbol, n)
    | none => (ident ⟨n.next, span⟩ symbol, n.skip)
  | literal span text, n => (literal ⟨n.next, span⟩ text, n.skip)

def numberAll : List (Term Span) → Numbering → List (Term Slotted) × Numbering
  | [], n => ([], n)
  | t :: rest, n =>
    let (t, n) := number t n
    let (rest, n) := numberAll rest n
    (t :: rest, n)
end

end Term

end LambdaQuery
