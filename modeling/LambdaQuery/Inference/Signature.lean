import LambdaQuery.Inference.Narrowing

/-!
What follows for the arguments and the result of a call from the signature it is resolved to.
-/

namespace LambdaQuery

/-- A computation on what is known, which may find a type error. -/
abbrev Inference := EStateM TypeError Solver

namespace Inference

/-- Learn something, and all that follows from it. -/
def learn (catalog : Catalog) (tasks : List Task) : Inference Unit := fun s =>
  match s.narrow catalog tasks with
  | .ok s' => .ok () s'
  | .error e => .error e s

def known? (slot : Nat) : Inference (Option Ty) := do
  return (← get).known? slot

def fail {α : Type} (slot : Nat) (fault : TypeFault) : Inference α := do
  throw ((← get).blame slot fault)

/-- A new slot, to be blamed on the same node as another. -/
def fresh (like : Nat) (belief : Belief) : Inference Nat := fun s =>
  let (slot, s') := s.fresh like belief
  .ok slot s'

/-- As many new slots as asked for, to be blamed on the same node as another. -/
def freshSlots (like : Nat) : Nat → Inference (List Nat)
  | 0 => return []
  | n + 1 => do
    let slot ← fresh like (.unknown [])
    let slots ← freshSlots like n
    return slot :: slots

mutual
/-- Narrow a slot to a shape. The variables of the signature are the slots `generics`. -/
def applyShape (catalog : Catalog) (generics : List Nat) :
    Shape → (slot : Nat) → Flow → Inference Unit
  | .concrete ty, slot, flow => learn catalog [.expect slot ty flow]
  | .generic index arithmetic, slot, _ =>
    match generics[index]? with
    | none => return ()
    | some generic => do
      if arithmetic then learn catalog [.constrain generic .arithmetic]
      learn catalog [.unify slot generic]
  | .enumerable element, slot, _ => do
    match ← known? slot with
    | some ty =>
      match ty.element? with
      | some e => applyShape catalog generics element (← fresh slot (.known e)) .exact
      | none => fail slot (.shapeMismatch .sequence ty)
    | none =>
      let inner ← fresh slot (.unknown [])
      learn catalog [.constrain slot (.enumerableOf inner)]
      applyShape catalog generics element inner .exact
  | .array element, slot, _ => do
    match ← known? slot with
    | some (.array e) => applyShape catalog generics element (← fresh slot (.known e)) .exact
    | some ty => fail slot (.shapeMismatch .array ty)
    | none =>
      let inner ← fresh slot (.unknown [])
      learn catalog [.constrain slot (.arrayOf inner)]
      applyShape catalog generics element inner .exact
  | .optional shape, slot, flow => do
    match ← known? slot with
    | some (.optional ty) => applyShape catalog generics shape (← fresh slot (.known ty)) .exact
    | some _ => applyShape catalog generics shape slot flow
    | none =>
      let inner ← fresh slot (.unknown [])
      learn catalog [.constrain slot (.optionalOf inner)]
      applyShape catalog generics shape inner .exact
  | .lambda params result, slot, _ => do
    match ← known? slot with
    | some (.lambda types ty) =>
      if types.length = params.length then
        applyTypes catalog generics params types slot
        applyShape catalog generics result (← fresh slot (.known ty)) .exact
      else
        fail slot (.shapeMismatch .lambda (.lambda types ty))
    | some ty => fail slot (.shapeMismatch .lambda ty)
    | none =>
      let slots ← freshSlots slot params.length
      let inner ← fresh slot (.unknown [])
      learn catalog [.constrain slot (.lambda slots inner)]
      applySlots catalog generics params slots
      applyShape catalog generics result inner .exact

/-- Narrow new slots of the given types to shapes, one by one. -/
def applyTypes (catalog : Catalog) (generics : List Nat) :
    List Shape → List Ty → (like : Nat) → Inference Unit
  | shape :: shapes, ty :: types, like => do
    applyShape catalog generics shape (← fresh like (.known ty)) .exact
    applyTypes catalog generics shapes types like
  | _, _, _ => return ()

/-- Narrow slots to shapes, one by one. -/
def applySlots (catalog : Catalog) (generics : List Nat) :
    List Shape → List Nat → Inference Unit
  | shape :: shapes, slot :: slots => do
    applyShape catalog generics shape slot .exact
    applySlots catalog generics shapes slots
  | _, _ => return ()
end

/-- Narrow arguments to the parameters they are passed for. -/
def applyArgs (catalog : Catalog) (generics : List Nat) :
    List Shape → List Nat → Inference Unit
  | shape :: shapes, slot :: slots => do
    applyShape catalog generics shape slot .into
    applyArgs catalog generics shapes slots
  | _, _ => return ()

/-- Narrow the arguments and the result of a call to a signature, and record it. -/
def applyOverload (catalog : Catalog) (slot : Nat) (o : Overload) (args : List Nat) :
    Inference Unit := do
  let generics ← freshSlots slot o.genericCount
  applyArgs catalog generics o.params args
  applyShape catalog generics o.result slot .outOf
  modify (·.setOverload slot o)

end Inference

end LambdaQuery
