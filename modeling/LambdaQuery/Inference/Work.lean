import LambdaQuery.Inference.Signature
import LambdaQuery.Inference.Slots
import LambdaQuery.Number.Reading
import LambdaQuery.Resolver

/-!
The work of inference. Every operator, call and member of a query is an item of work, tried again
and again until it can be done. When a round of trying gets nowhere, types whose parts are known
are put together; when that gets nowhere either, numbers that are the whole body of a lambda get
the type they look like.
-/

namespace LambdaQuery

inductive Item where
  | member (slot receiver : Nat) (name : String)
  | binary (slot : Nat) (op : Operator) (left right : Nat)
  | call (slot : Nat) (name : String) (args : List Nat)
deriving Repr

namespace Term

def slot (t : Term Slotted) : Nat :=
  t.note.slot

mutual
/-- The items of work, those below a node before its own. -/
def items : Term Slotted → List Item
  | lambda _ _ body => items body
  | binary n op left right => items left ++ items right ++ [.binary n.slot op left.slot right.slot]
  | call n name args => itemsAll args ++ [.call n.slot name (args.map slot)]
  | member n receiver name => items receiver ++ [.member n.slot receiver.slot name]
  | ident .. | literal .. => []

def itemsAll : List (Term Slotted) → List Item
  | [] => []
  | t :: rest => items t ++ itemsAll rest
end

mutual
/-- What the lambdas of a query say of their own types, the inner ones first. -/
def lambdaTasks : Term Slotted → List Task
  | lambda n param body =>
    lambdaTasks body ++ [.constrain n.slot (.lambda [param.note.slot] body.slot)]
  | binary _ _ left right => lambdaTasks left ++ lambdaTasks right
  | call _ _ args => lambdaTasksAll args
  | member _ receiver _ => lambdaTasks receiver
  | ident .. | literal .. => []

def lambdaTasksAll : List (Term Slotted) → List Task
  | [] => []
  | t :: rest => lambdaTasks t ++ lambdaTasksAll rest
end

mutual
/-- The literals other than `null` that are the whole body of a lambda, the inner ones first. -/
def bodyLiterals : Term Slotted → List (Nat × String)
  | lambda _ _ body =>
    bodyLiterals body ++
      match body with
      | literal n (some text) => [(n.slot, text)]
      | _ => []
  | binary _ _ left right => bodyLiterals left ++ bodyLiterals right
  | call _ _ args => bodyLiteralsAll args
  | member _ receiver _ => bodyLiterals receiver
  | ident .. | literal .. => []

def bodyLiteralsAll : List (Term Slotted) → List (Nat × String)
  | [] => []
  | t :: rest => bodyLiterals t ++ bodyLiteralsAll rest
end

end Term

namespace Solver

/-- Whether a slot may take its type from the other operand of an operator. Members and
parameters have types of their own. -/
def presettable (s : Solver) (slot : Nat) : Bool :=
  match (s.origin slot).tag with
  | .literal | .binary | .call => true
  | _ => false

/-- The constraint that says most of what a type is made of. -/
def decisive? (constraints : List Constraint) : Option Constraint :=
  let first (p : Constraint → Bool) := constraints.find? p
  first (fun c => c.requirement == .array) <|> first (fun c => c.requirement == .optional) <|>
    first (fun c => c.requirement == .lambda) <|> first (fun c => c.requirement == .sequence)

/-- The types of slots, if all are known. -/
def knownAll? (s : Solver) : List Nat → Option (List Ty)
  | [] => some []
  | slot :: rest =>
    match s.known? slot, s.knownAll? rest with
    | some ty, some types => some (ty :: types)
    | _, _ => none

/-- The type that a constraint describes, if the types of its parts are known. -/
def assemble? (s : Solver) : Constraint → Option Ty
  | .arrayOf e => (s.known? e).map .array
  | .optionalOf e => (s.known? e).map .orNull
  | .enumerableOf e => (s.known? e).map .enumerable
  | .lambda params result =>
    match s.knownAll? params, s.known? result with
    | some types, some ty => some (.lambda types ty)
    | _, _ => none
  | .arithmetic | .property .. => none

/-- Whether a slot is there and its type unknown. -/
def isOpen (s : Solver) (slot : Nat) : Bool :=
  (s.leader? slot).isSome && (s.known? slot).isNone

/-- The type that can be put together for a class of unknown type, seen from its leader. -/
def settledTy? (s : Solver) (slot : Nat) : Option Ty :=
  match s.belief slot with
  | .known _ => none
  | .unknown constraints =>
    if s.leader? slot = some slot then (decisive? constraints).bind s.assemble? else none

end Solver

/-- The type that a number looks like. -/
def numberTy? (text : String) : Option Ty :=
  let cs := text.toList
  match cs with
  | [] => none
  | c :: _ =>
    if c.isDigit || c == '-' then
      if (Number.readInt64? cs).isSome then some .int
      else if (Number.readFloat? cs).isSome then some .float
      else none
    else
      none

namespace Inference

/-- Ask what a name stands for. -/
def ask (resolver : Resolver) (r : Request) : Inference (Option Overload) := fun s =>
  .ok (resolver.resolve? r) { s with asked := r :: s.asked }

/-- What a member stands for. If none has the expected type any other is taken, so that what is
reported is its type. -/
def askMember (resolver : Resolver) (ty : Ty) (name : String) (result : Hint) :
    Inference (Option Overload) := do
  match ← ask resolver ⟨name, .member, [.known ty], result⟩ with
  | some o => return some o
  | none => ask resolver ⟨name, .member, [.known ty], .nothing⟩

/-- A member of a value of unknown type is only noted. -/
def attemptMember (catalog : Catalog) (resolver : Resolver) (slot receiver : Nat)
    (name : String) : Inference Bool := do
  let s ← get
  match s.known? receiver with
  | none =>
    learn catalog [.constrain receiver (.property name slot)]
    return false
  | some ty =>
    match ← askMember resolver ty name (s.hint slot) with
    | none => fail slot (.missingProperty ty name)
    | some o =>
      applyOverload catalog slot o [receiver]
      return true

/-- Make two operands compatible; the answer is whether both have types. -/
def operands (catalog : Catalog) (slot : Nat) (op : Operator) (left right : Nat) :
    Inference Bool := do
  let s ← get
  match s.known? left, s.known? right with
  | some l, some r =>
    if (l.common? r).isNone then fail slot (.incompatibleOperands op l r) else return true
  | some l, none =>
    if s.presettable right then
      learn catalog [.assign right l]
      return true
    else
      return false
  | none, some r =>
    if s.presettable left then
      learn catalog [.assign left r]
      return true
    else
      return false
  | none, none => return false

/-- Operands and results of arithmetic are numbers; only `+` is for texts too. -/
def numbersOnly (catalog : Catalog) (op : Operator) (slot left right : Nat) : Inference Unit :=
  if op = .add then return ()
  else
    learn catalog
      [.constrain left .arithmetic, .constrain right .arithmetic, .constrain slot .arithmetic]

/-- The result of arithmetic has the type that both operands convert to. -/
def arithmeticResult (catalog : Catalog) (slot left right : Nat) : Inference Bool := do
  let s ← get
  match s.known? left, s.known? right with
  | some l, some r =>
    match l.common? r with
    | some ty =>
      learn catalog [.expect slot ty .outOf]
      return true
    | none => return false
  | _, _ => return false

/-- If nothing is known of the operands of an arithmetic operator they take the type of the
result. -/
def presetOperands (catalog : Catalog) (slot left right : Nat) : Inference Bool := do
  let s ← get
  match s.known? slot with
  | some ty =>
    if s.presettable left && s.presettable right then
      learn catalog [.assign left ty, .assign right ty]
      return true
    else
      return false
  | none => return false

def attemptBinary (catalog : Catalog) (slot : Nat) (op : Operator) (left right : Nat) :
    Inference Bool :=
  match op.kind with
  | .logical => do
    learn catalog [.expect left .bool .into, .expect right .bool .into, .expect slot .bool .outOf]
    return true
  | .equality | .ordering => do
    learn catalog [.expect slot .bool .outOf]
    operands catalog slot op left right
  | .arithmetic => do
    numbersOnly catalog op slot left right
    if ← operands catalog slot op left right then
      arithmeticResult catalog slot left right
    else if ← presetOperands catalog slot left right then
      numbersOnly catalog op slot left right
      if ← operands catalog slot op left right then
        arithmeticResult catalog slot left right
      else
        return false
    else
      return false

def callRequest (s : Solver) (slot : Nat) (name : String) (args : List Nat) : Request :=
  ⟨name, .call, args.map s.hint, s.hint slot⟩

def attemptCall (catalog : Catalog) (resolver : Resolver) (slot : Nat) (name : String)
    (args : List Nat) : Inference Bool := do
  let s ← get
  match ← ask resolver (callRequest s slot name args) with
  | none => return false
  | some o =>
    applyOverload catalog slot o args
    return true

/-- Try an item; the answer is whether it is done. -/
def attempt (catalog : Catalog) (resolver : Resolver) : Item → Inference Bool
  | .member slot receiver name => attemptMember catalog resolver slot receiver name
  | .binary slot op left right => attemptBinary catalog slot op left right
  | .call slot name args => attemptCall catalog resolver slot name args

/-- Try each item once; what is left are those that could not be done. -/
def attemptAll (catalog : Catalog) (resolver : Resolver) : List Item → Inference (List Item)
  | [] => return []
  | item :: rest => do
    let done ← attempt catalog resolver item
    let left ← attemptAll catalog resolver rest
    return if done then left else item :: left

/-- Put together the types whose parts are known, for each of the slots in turn; the answer is
whether there was one. -/
def settle (catalog : Catalog) : List Nat → Inference Bool
  | [] => return false
  | slot :: rest => do
    let s ← get
    match s.settledTy? slot with
    | some ty =>
      learn catalog [.assign slot ty]
      let _ ← settle catalog rest
      return true
    | none => settle catalog rest

/-- Give literals that are bodies the types they look like; the answer is whether there was one. -/
def defaultLiterals (catalog : Catalog) : List (Nat × String) → Inference Bool
  | [] => return false
  | (slot, text) :: rest => do
    let s ← get
    match numberTy? text with
    | some ty =>
      if s.isOpen slot then
        learn catalog [.assign slot ty]
        let _ ← defaultLiterals catalog rest
        return true
      else
        defaultLiterals catalog rest
    | none => defaultLiterals catalog rest

/-- When trying gets nowhere: put types together, or else look at literals. -/
def advance (catalog : Catalog) (literals : List (Nat × String)) : Inference Bool := do
  let s ← get
  if ← settle catalog (List.range s.cells.size) then
    return true
  else
    defaultLiterals catalog literals

/-- One round of work: what is left, and whether anything was done. -/
def round (catalog : Catalog) (resolver : Resolver) (literals : List (Nat × String))
    (pending : List Item) : Inference (List Item × Bool) := do
  let left ← attemptAll catalog resolver pending
  if left.length < pending.length then
    return (left, true)
  else
    return (left, ← advance catalog literals)

end Inference

end LambdaQuery
