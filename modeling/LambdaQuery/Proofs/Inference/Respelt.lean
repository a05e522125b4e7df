import LambdaQuery.Proofs.Inference.Respelling

/-!
# Work on respelt queries

Each computation of inference follows the spelling of what it works on: on respelt knowledge it does
what it does on the original, respelt. So does the work on a whole query.
-/

namespace LambdaQuery.Respelling

variable (v : Respelling)

/-! Computations. -/

/-- A result respelt, with `f` for what is computed. -/
def result {α β : Type} (f : α → β) :
    EStateM.Result TypeError Solver α → EStateM.Result TypeError Solver β
  | .ok a s => .ok (f a) (v.solver s)
  | .error e s => .error (v.error e) (v.solver s)

/-- The second computation does on respelt knowledge what the first does, respelt; `f` is how what
they compute is respelt. -/
def Follows {α β : Type} (f : α → β) (x : Inference α) (y : Inference β) : Prop :=
  ∀ s, y (v.solver s) = v.result f (x s)

namespace Follows

variable {v} {α β γ δ : Type}

theorem pure {f : α → β} (a : α) : v.Follows f (Pure.pure a) (Pure.pure (f a)) := fun _ => rfl

theorem bind {f : α → β} {g : γ → δ} {x : Inference α} {y : Inference β} {k : α → Inference γ}
    {k' : β → Inference δ} (first : v.Follows f x y) (next : ∀ a, v.Follows g (k a) (k' (f a))) :
    v.Follows g (x >>= k) (y >>= k') := by
  intro s
  show EStateM.bind y k' (v.solver s) = v.result g (EStateM.bind x k s)
  unfold EStateM.bind
  rw [first s]
  cases x s with
  | ok a t => exact next a t
  | error e t => rfl

theorem get : v.Follows v.solver MonadState.get MonadState.get := fun _ => rfl

theorem learn (catalog : Catalog) (tasks : List Task) :
    v.Follows id (Inference.learn catalog tasks) (Inference.learn catalog (tasks.map v.task)) := by
  intro s
  unfold Inference.learn
  rw [narrow_solver]
  cases s.narrow catalog tasks <;> rfl

theorem fail {f : α → β} (slot : Nat) (fault : TypeFault) :
    v.Follows f (Inference.fail slot fault) (Inference.fail slot (v.fault fault)) := by
  intro s
  show EStateM.Result.error ((v.solver s).blame slot (v.fault fault)) (v.solver s) =
    v.result f (.error (s.blame slot fault) s)
  rw [blame_solver]
  rfl

theorem known? (slot : Nat) : v.Follows id (Inference.known? slot) (Inference.known? slot) := by
  refine .bind .get fun s => ?_
  rw [known?_solver]
  exact .pure _

theorem fresh (like : Nat) (b : Belief) :
    v.Follows id (Inference.fresh like b) (Inference.fresh like (v.belief b)) := by
  intro s
  unfold Inference.fresh
  rw [fresh_solver]
  rfl

theorem freshSlots (like n : Nat) :
    v.Follows id (Inference.freshSlots like n) (Inference.freshSlots like n) := by
  induction n with
  | zero => exact .pure _
  | succ n ih => exact .bind (.fresh like (.unknown [])) fun _ => .bind ih fun _ => .pure _

theorem setOverload (slot : Nat) (o : Overload) :
    v.Follows id (modify (·.setOverload slot o) : Inference PUnit) (modify (·.setOverload slot o)) := by
  intro s
  show EStateM.Result.ok _ ((v.solver s).setOverload slot o) = _
  rw [setOverload_solver]
  rfl

theorem ask {resolver : Resolver} (builtIn : resolver.BuiltIn) (r : Request) :
    v.Follows id (Inference.ask resolver r) (Inference.ask resolver (v.request r)) := by
  intro s
  unfold Inference.ask
  rw [(v.resolver_request builtIn r).2]
  rfl

end Follows

open Inference

variable {v} (catalog : Catalog)

/-! Signatures. -/

mutual
theorem applyShape_follows (generics : List Nat) : ∀ (shape : Shape) (slot : Nat) (flow : Flow),
    v.Follows id (applyShape catalog generics shape slot flow)
      (applyShape catalog generics shape slot flow)
  | .concrete ty, slot, flow => by
    simp only [applyShape]
    exact .learn catalog [.expect slot ty flow]
  | .generic index arithmetic, slot, flow => by
    simp only [applyShape]
    split
    · exact .pure _
    · rename_i generic _
      split
      · exact .bind (.learn catalog [.constrain generic .arithmetic]) fun _ =>
          .learn catalog [.unify slot generic]
      · exact .learn catalog [.unify slot generic]
  | .enumerable element, slot, flow => by
    simp only [applyShape]
    refine .bind (.known? slot) fun found => ?_
    simp only [id_eq]
    split
    · split
      · rename_i e _
        exact .bind (.fresh slot (.known e)) fun inner => applyShape_follows generics element inner .exact
      · exact .fail _ _
    · exact .bind (.fresh slot (.unknown [])) fun inner =>
        .bind (.learn catalog [.constrain slot (.enumerableOf inner)]) fun _ =>
          applyShape_follows generics element inner .exact
  | .array element, slot, flow => by
    simp only [applyShape]
    refine .bind (.known? slot) fun found => ?_
    simp only [id_eq]
    split
    · rename_i e
      exact .bind (.fresh slot (.known e)) fun inner => applyShape_follows generics element inner .exact
    · exact .fail _ _
    · exact .bind (.fresh slot (.unknown [])) fun inner =>
        .bind (.learn catalog [.constrain slot (.arrayOf inner)]) fun _ =>
          applyShape_follows generics element inner .exact
  | .optional shape, slot, flow => by
    simp only [applyShape]
    refine .bind (.known? slot) fun found => ?_
    simp only [id_eq]
    split
    · rename_i ty
      exact .bind (.fresh slot (.known ty)) fun inner => applyShape_follows generics shape inner .exact
    · exact applyShape_follows generics shape slot flow
    · exact .bind (.fresh slot (.unknown [])) fun inner =>
        .bind (.learn catalog [.constrain slot (.optionalOf inner)]) fun _ =>
          applyShape_follows generics shape inner .exact
  | .lambda params result, slot, flow => by
    simp only [applyShape]
    refine .bind (.known? slot) fun found => ?_
    simp only [id_eq]
    split
    · rename_i types ty
      split
      · exact .bind (applyTypes_follows generics params types slot) fun _ =>
          .bind (.fresh slot (.known ty)) fun inner => applyShape_follows generics result inner .exact
      · exact .fail _ _
    · exact .fail _ _
    · exact .bind (.freshSlots slot params.length) fun slots =>
        .bind (.fresh slot (.unknown [])) fun inner =>
          .bind (.learn catalog [.constrain slot (.lambda slots inner)]) fun _ =>
            .bind (applySlots_follows generics params slots) fun _ =>
              applyShape_follows generics result inner .exact

theorem applyTypes_follows (generics : List Nat) : ∀ (shapes : List Shape) (types : List Ty)
    (like : Nat), v.Follows id (applyTypes catalog generics shapes types like)
      (applyTypes catalog generics shapes types like)
  | [], _, _ => by
    simp only [applyTypes]
    exact .pure _
  | _ :: _, [], _ => by
    simp only [applyTypes]
    exact .pure _
  | shape :: shapes, ty :: types, like => by
    simp only [applyTypes]
    exact .bind (.fresh like (.known ty)) fun inner =>
      .bind (applyShape_follows generics shape inner .exact) fun _ =>
        applyTypes_follows generics shapes types like

theorem applySlots_follows (generics : List Nat) : ∀ (shapes : List Shape) (slots : List Nat),
    v.Follows id (applySlots catalog generics shapes slots)
      (applySlots catalog generics shapes slots)
  | [], _ => by
    simp only [applySlots]
    exact .pure _
  | _ :: _, [] => by
    simp only [applySlots]
    exact .pure _
  | shape :: shapes, slot :: slots => by
    simp only [applySlots]
    exact .bind (applyShape_follows generics shape slot .exact) fun _ =>
      applySlots_follows generics shapes slots
end

theorem applyArgs_follows (generics : List Nat) (shapes : List Shape) (slots : List Nat) :
    v.Follows id (applyArgs catalog generics shapes slots)
      (applyArgs catalog generics shapes slots) := by
  induction shapes generalizing slots with
  | nil => exact .pure _
  | cons shape shapes ih =>
    cases slots with
    | nil => exact .pure _
    | cons slot slots =>
      exact .bind (applyShape_follows catalog generics shape slot .into) fun _ => ih slots

theorem applyOverload_follows (slot : Nat) (o : Overload) (args : List Nat) :
    v.Follows id (applyOverload catalog slot o args) (applyOverload catalog slot o args) :=
  .bind (.freshSlots slot o.genericCount) fun generics =>
    .bind (applyArgs_follows catalog generics o.params args) fun _ =>
      .bind (applyShape_follows catalog generics o.result slot .outOf) fun _ => .setOverload slot o

/-! The items of work. -/

theorem presettable_solver (s : Solver) (slot : Nat) :
    (v.solver s).presettable slot = s.presettable slot := by
  unfold Solver.presettable
  rw [origin_solver]
  rfl

theorem askMember_follows {resolver : Resolver} (builtIn : resolver.BuiltIn) (ty : Ty)
    (name : String) (h : Hint) : v.Follows id (askMember resolver ty name h)
      (askMember resolver ty (v.name name) (v.hint h)) := by
  refine .bind (.ask builtIn ⟨name, .member, [.known ty], h⟩) fun found => ?_
  cases found with
  | some o => exact .pure _
  | none => exact .ask builtIn ⟨name, .member, [.known ty], .nothing⟩

theorem attemptMember_follows {resolver : Resolver} (builtIn : resolver.BuiltIn)
    (slot receiver : Nat) (name : String) :
    v.Follows id (attemptMember catalog resolver slot receiver name)
      (attemptMember catalog resolver slot receiver (v.name name)) := by
  refine .bind .get fun s => ?_
  simp only [known?_solver, hint_solver]
  split
  · exact .bind (.learn catalog [.constrain receiver (.property name slot)]) fun _ => .pure _
  · rename_i ty _
    refine .bind (askMember_follows builtIn ty name (s.hint slot)) fun found => ?_
    cases found with
    | none => exact .fail slot (.missingProperty ty name)
    | some o => exact .bind (applyOverload_follows catalog slot o [receiver]) fun _ => .pure _

theorem operands_follows (slot : Nat) (op : Operator) (left right : Nat) :
    v.Follows id (operands catalog slot op left right) (operands catalog slot op left right) := by
  refine .bind .get fun s => ?_
  simp only [known?_solver, presettable_solver]
  split
  · split
    · exact .fail _ _
    · exact .pure _
  · rename_i l _ _
    split
    · exact .bind (.learn catalog [.assign right l]) fun _ => .pure _
    · exact .pure _
  · rename_i r _ _
    split
    · exact .bind (.learn catalog [.assign left r]) fun _ => .pure _
    · exact .pure _
  · exact .pure _

theorem numbersOnly_follows (op : Operator) (slot left right : Nat) :
    v.Follows id (numbersOnly catalog op slot left right)
      (numbersOnly catalog op slot left right) := by
  unfold numbersOnly
  split
  · exact .pure _
  · exact .learn catalog
      [.constrain left .arithmetic, .constrain right .arithmetic, .constrain slot .arithmetic]

theorem arithmeticResult_follows (slot left right : Nat) :
    v.Follows id (arithmeticResult catalog slot left right)
      (arithmeticResult catalog slot left right) := by
  refine .bind .get fun s => ?_
  simp only [known?_solver]
  split
  · split
    · rename_i ty _
      exact .bind (.learn catalog [.expect slot ty .outOf]) fun _ => .pure _
    · exact .pure _
  · exact .pure _

theorem presetOperands_follows (slot left right : Nat) :
    v.Follows id (presetOperands catalog slot left right)
      (presetOperands catalog slot left right) := by
  refine .bind .get fun s => ?_
  simp only [known?_solver, presettable_solver]
  split
  · rename_i ty _
    split
    · exact .bind (.learn catalog [.assign left ty, .assign right ty]) fun _ => .pure _
    · exact .pure _
  · exact .pure _

theorem attemptBinary_follows (slot : Nat) (op : Operator) (left right : Nat) :
    v.Follows id (attemptBinary catalog slot op left right)
      (attemptBinary catalog slot op left right) := by
  have finish (ready : Bool) : v.Follows id
      (if ready = true then arithmeticResult catalog slot left right else pure false)
      (if ready = true then arithmeticResult catalog slot left right else pure false) := by
    split
    · exact arithmeticResult_follows catalog slot left right
    · exact .pure _
  unfold attemptBinary
  split
  · exact .bind (.learn catalog [.expect left .bool .into, .expect right .bool .into,
      .expect slot .bool .outOf]) fun _ => .pure _
  · exact .bind (.learn catalog [.expect slot .bool .outOf]) fun _ =>
      operands_follows catalog slot op left right
  · exact .bind (.learn catalog [.expect slot .bool .outOf]) fun _ =>
      operands_follows catalog slot op left right
  · refine .bind (numbersOnly_follows catalog op slot left right) fun _ =>
      .bind (operands_follows catalog slot op left right) fun ready => ?_
    simp only [id_eq]
    split
    · exact arithmeticResult_follows catalog slot left right
    · refine .bind (presetOperands_follows catalog slot left right) fun preset => ?_
      simp only [id_eq]
      split
      · exact .bind (numbersOnly_follows catalog op slot left right) fun _ =>
          .bind (operands_follows catalog slot op left right) finish
      · exact .pure _

theorem callRequest_solver (s : Solver) (slot : Nat) (name : String) (args : List Nat) :
    callRequest (v.solver s) slot (v.name name) args = v.request (callRequest s slot name args) := by
  simp [callRequest, request]

theorem attemptCall_follows {resolver : Resolver} (builtIn : resolver.BuiltIn) (slot : Nat)
    (name : String) (args : List Nat) :
    v.Follows id (attemptCall catalog resolver slot name args)
      (attemptCall catalog resolver slot (v.name name) args) := by
  refine .bind .get fun s => ?_
  simp only [callRequest_solver]
  refine .bind (.ask builtIn (callRequest s slot name args)) fun found => ?_
  cases found with
  | none => exact .pure _
  | some o => exact .bind (applyOverload_follows catalog slot o args) fun _ => .pure _

theorem attempt_follows {resolver : Resolver} (builtIn : resolver.BuiltIn) (item : Item) :
    v.Follows id (attempt catalog resolver item) (attempt catalog resolver (v.item item)) := by
  cases item with
  | member slot receiver name => exact attemptMember_follows catalog builtIn slot receiver name
  | binary slot op left right => exact attemptBinary_follows catalog slot op left right
  | call slot name args => exact attemptCall_follows catalog builtIn slot name args

/-! Rounds. -/

theorem attemptAll_follows {resolver : Resolver} (builtIn : resolver.BuiltIn) (items : List Item) :
    v.Follows (List.map v.item) (attemptAll catalog resolver items)
      (attemptAll catalog resolver (items.map v.item)) := by
  induction items with
  | nil => exact .pure _
  | cons item rest ih =>
    refine .bind (attempt_follows catalog builtIn item) fun done => .bind ih fun left => ?_
    cases done <;> exact .pure _

theorem knownAll?_solver (s : Solver) (slots : List Nat) :
    (v.solver s).knownAll? slots = s.knownAll? slots := by
  induction slots with
  | nil => rfl
  | cons slot rest ih => simp only [Solver.knownAll?, known?_solver, ih]

theorem decisive?_constraint (constraints : List Constraint) :
    Solver.decisive? (constraints.map v.constraint) =
      (Solver.decisive? constraints).map v.constraint := by
  have first (r : Requirement) : (constraints.map v.constraint).find? (fun c => c.requirement == r) =
      (constraints.find? fun c => c.requirement == r).map v.constraint := by
    rw [List.find?_map]
    simp only [Function.comp_def, requirement_constraint]
  unfold Solver.decisive?
  simp only [first]
  cases constraints.find? fun c => c.requirement == .array with
  | some c => rfl
  | none =>
    cases constraints.find? fun c => c.requirement == .optional with
    | some c => rfl
    | none =>
      cases constraints.find? fun c => c.requirement == .lambda <;> rfl

theorem assemble?_solver (s : Solver) (c : Constraint) :
    (v.solver s).assemble? (v.constraint c) = s.assemble? c := by
  cases c <;> simp [constraint, Solver.assemble?, knownAll?_solver]

theorem settledTy?_solver (s : Solver) (slot : Nat) :
    (v.solver s).settledTy? slot = s.settledTy? slot := by
  unfold Solver.settledTy?
  rw [belief_solver]
  cases s.belief slot with
  | known ty => rfl
  | unknown constraints =>
    simp only [belief, leader?_solver, decisive?_constraint]
    split
    · cases Solver.decisive? constraints with
      | none => rfl
      | some c => exact assemble?_solver s c
    · rfl

theorem settle_follows (slots : List Nat) :
    v.Follows id (settle catalog slots) (settle catalog slots) := by
  induction slots with
  | nil => exact .pure _
  | cons slot rest ih =>
    refine .bind .get fun s => ?_
    simp only [settledTy?_solver]
    split
    · rename_i ty _
      exact .bind (.learn catalog [.assign slot ty]) fun _ => .bind ih fun _ => .pure _
    · exact ih

theorem isOpen_solver (s : Solver) (slot : Nat) : (v.solver s).isOpen slot = s.isOpen slot := by
  simp [Solver.isOpen]

theorem defaultLiterals_follows (literals : List (Nat × String)) :
    v.Follows id (defaultLiterals catalog literals) (defaultLiterals catalog literals) := by
  induction literals with
  | nil => exact .pure _
  | cons literal rest ih =>
    obtain ⟨slot, text⟩ := literal
    refine .bind .get fun s => ?_
    simp only [isOpen_solver]
    split
    · rename_i ty _
      split
      · exact .bind (.learn catalog [.assign slot ty]) fun _ => .bind ih fun _ => .pure _
      · exact ih
    · exact ih

theorem advance_follows (literals : List (Nat × String)) :
    v.Follows id (advance catalog literals) (advance catalog literals) := by
  refine .bind .get fun s => ?_
  have size : (v.solver s).cells.size = s.cells.size := by simp [solver]
  rw [size]
  refine .bind (settle_follows catalog _) fun settled => ?_
  cases settled with
  | true => exact .pure _
  | false => exact defaultLiterals_follows catalog literals

theorem round_follows {resolver : Resolver} (builtIn : resolver.BuiltIn)
    (literals : List (Nat × String)) (pending : List Item) :
    v.Follows (fun (left, progress) => (left.map v.item, progress))
      (round catalog resolver literals pending)
      (round catalog resolver literals (pending.map v.item)) := by
  refine .bind (attemptAll_follows catalog builtIn pending) fun left => ?_
  simp only [List.length_map]
  split
  · exact .pure _
  · exact .bind (advance_follows catalog literals) fun progress => .pure _

theorem solve_follows {resolver : Resolver} (builtIn : resolver.BuiltIn)
    (literals : List (Nat × String)) (pending : List Item) :
    v.Follows (List.map v.item) (solve catalog resolver literals pending)
      (solve catalog resolver literals (pending.map v.item)) := by
  intro s
  fun_induction solve catalog resolver literals pending s with
  | case1 pending s e s' failed =>
    rw [solve_eq, round_follows catalog builtIn literals pending s, failed]
    rfl
  | case2 pending s left s' done =>
    rw [solve_eq, round_follows catalog builtIn literals pending s, done]
    rfl
  | case3 pending s left s' goesOn ih =>
    rw [solve_eq, round_follows catalog builtIn literals pending s, goesOn]
    exact ih

/-! Trees. -/

mutual
/-- A tree respelt. The symbol of a parameter has the number of its slot. -/
def term : Term Slotted → Term Slotted
  | .lambda n param body =>
    .lambda ⟨n.slot, v.span n.span⟩
      ⟨⟨param.note.slot, ""⟩, ⟨param.note.slot, v.span param.note.span⟩⟩ (term body)
  | .binary n op left right => .binary ⟨n.slot, v.span n.span⟩ op (term left) (term right)
  | .call n name args => .call ⟨n.slot, v.span n.span⟩ (v.name name) (termAll args)
  | .member n receiver name => .member ⟨n.slot, v.span n.span⟩ (term receiver) (v.name name)
  | .ident n _ => .ident ⟨n.slot, v.span n.span⟩ ⟨n.slot, ""⟩
  | .literal n text => .literal ⟨n.slot, v.span n.span⟩ text

def termAll : List (Term Slotted) → List (Term Slotted)
  | [] => []
  | t :: rest => term t :: termAll rest
end

theorem slot_term (t : Term Slotted) : (v.term t).slot = t.slot := by
  cases t <;> rfl

theorem slots_termAll (ts : List (Term Slotted)) :
    (v.termAll ts).map Term.slot = ts.map Term.slot := by
  induction ts with
  | nil => rfl
  | cons t rest ih => simp [termAll, slot_term, ih]

open Term in
mutual
theorem items_term : ∀ t : Term Slotted, (v.term t).items = t.items.map v.item
  | .lambda _ _ body => by simp only [term, items, items_term body]
  | .binary _ _ left right => by
    simp only [term, items, items_term left, items_term right, slot_term, List.map_append]
    rfl
  | .call _ _ args => by
    simp only [term, items, itemsAll_term args, slots_termAll, List.map_append]
    rfl
  | .member _ receiver _ => by
    simp only [term, items, items_term receiver, slot_term, List.map_append]
    rfl
  | .ident .. => rfl
  | .literal .. => rfl

theorem itemsAll_term : ∀ ts : List (Term Slotted), itemsAll (v.termAll ts) = (itemsAll ts).map v.item
  | [] => rfl
  | t :: rest => by simp only [termAll, itemsAll, items_term t, itemsAll_term rest, List.map_append]
end

open Term in
mutual
theorem lambdaTasks_term : ∀ t : Term Slotted, (v.term t).lambdaTasks = t.lambdaTasks.map v.task
  | .lambda _ _ body => by
    simp only [term, lambdaTasks, lambdaTasks_term body, slot_term, List.map_append]
    rfl
  | .binary _ _ left right => by
    simp only [term, lambdaTasks, lambdaTasks_term left, lambdaTasks_term right, List.map_append]
  | .call _ _ args => by simp only [term, lambdaTasks, lambdaTasksAll_term args]
  | .member _ receiver _ => by simp only [term, lambdaTasks, lambdaTasks_term receiver]
  | .ident .. => rfl
  | .literal .. => rfl

theorem lambdaTasksAll_term : ∀ ts : List (Term Slotted),
    lambdaTasksAll (v.termAll ts) = (lambdaTasksAll ts).map v.task
  | [] => rfl
  | t :: rest => by
    simp only [termAll, lambdaTasksAll, lambdaTasks_term t, lambdaTasksAll_term rest,
      List.map_append]
end

open Term in
mutual
theorem bodyLiterals_term : ∀ t : Term Slotted, (v.term t).bodyLiterals = t.bodyLiterals
  | .lambda _ _ body => by
    simp only [term, bodyLiterals, bodyLiterals_term body]
    congr 1
    cases body with
    | literal n text => cases text <;> rfl
    | _ => rfl
  | .binary _ _ left right => by
    simp only [term, bodyLiterals, bodyLiterals_term left, bodyLiterals_term right]
  | .call _ _ args => by simp only [term, bodyLiterals, bodyLiteralsAll_term args]
  | .member _ receiver _ => by simp only [term, bodyLiterals, bodyLiterals_term receiver]
  | .ident .. => rfl
  | .literal .. => rfl

theorem bodyLiteralsAll_term : ∀ ts : List (Term Slotted),
    bodyLiteralsAll (v.termAll ts) = bodyLiteralsAll ts
  | [] => rfl
  | t :: rest => by
    simp only [termAll, bodyLiteralsAll, bodyLiterals_term t, bodyLiteralsAll_term rest]
end

theorem own_cells (cells : Array Cell) (slot : Nat) (tag : NodeTag) (span : Span) :
    Solver.own (cells.map v.cell) slot tag (v.span span) =
      (Solver.own cells slot tag span).map v.cell :=
  v.map_modify cells slot fun _ => rfl

open Solver in
mutual
theorem ownSlots_term : ∀ (t : Term Slotted) (cells : Array Cell),
    ownSlots (cells.map v.cell) (v.term t) = (ownSlots cells t).map v.cell
  | .lambda _ _ body, cells => by
    simp only [term, ownSlots, own_cells, ownSlots_term body]
  | .binary _ _ left right, cells => by
    simp only [term, ownSlots, own_cells, ownSlots_term left, ownSlots_term right]
  | .call _ _ args, cells => by simp only [term, ownSlots, own_cells, ownSlotsAll_term args]
  | .member _ receiver _, cells => by simp only [term, ownSlots, own_cells, ownSlots_term receiver]
  | .ident .., _ => rfl
  | .literal .., cells => by simp only [term, ownSlots, own_cells]

theorem ownSlotsAll_term : ∀ (ts : List (Term Slotted)) (cells : Array Cell),
    ownSlotsAll (cells.map v.cell) (v.termAll ts) = (ownSlotsAll cells ts).map v.cell
  | [], _ => rfl
  | t :: rest, cells => by
    simp only [termAll, ownSlotsAll, ownSlots_term t, ownSlotsAll_term rest]
end

theorem start_term (fresh : v.earlier = []) (t : Term Slotted) (slots : Nat) :
    Solver.start (v.term t) slots = v.solver (Solver.start t slots) := by
  have blank : (Array.range slots).map (fun i => (⟨i, 0, .unknown [],
      ⟨.lambda, (v.term t).note.span⟩, none⟩ : Cell)) =
        ((Array.range slots).map fun i => (⟨i, 0, .unknown [], ⟨.lambda, t.note.span⟩, none⟩ : Cell)).map
          v.cell := by
    have span : (v.term t).note.span = v.span t.note.span := by cases t <;> rfl
    rw [Array.map_map, span]
    rfl
  simp only [Solver.start, solver, fresh, List.map_nil, List.append_nil, Solver.mk.injEq, and_true]
  rw [blank, ownSlots_term]

theorem startTasks?_term (root : Ty) (expected : Option Ty) (t : Term Slotted) :
    (v.term t).startTasks? root expected = (t.startTasks? root expected).map (List.map v.task) := by
  cases t with
  | lambda n param body =>
    have tasks := v.lambdaTasks_term (.lambda n param body)
    simp only [term] at tasks
    simp only [term, Term.startTasks?, tasks, slot_term, Option.map_some, List.map_append,
      List.map_cons, List.map_map]
    rfl
  | _ => rfl

/-- A respelt query leaves the same work undone, knows the same in the end, or stops with the same
error. -/
theorem work_follows {resolver : Resolver} (builtIn : resolver.BuiltIn) (tree : Term Slotted)
    (tasks : List Task) : v.Follows (List.map v.item) (work catalog resolver tree tasks)
      (work catalog resolver (v.term tree) (tasks.map v.task)) := by
  refine .bind (.learn catalog tasks) fun _ => ?_
  rw [bodyLiterals_term, items_term]
  exact solve_follows catalog builtIn tree.bodyLiterals tree.items

end LambdaQuery.Respelling
