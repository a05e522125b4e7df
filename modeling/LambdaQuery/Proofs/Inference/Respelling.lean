import LambdaQuery.Compiler

/-!
# Inference does not look at spellings

A respelling changes where the nodes of a query stand in its text and how names are written, up to
the case of ASCII letters. Inference compares names up to case and looks at places only to blame
nodes for errors. So it does the same on a respelt query: what it comes to know, and the error it
stops with, are those of the query, respelt.
-/

namespace LambdaQuery

/-- Another way to write queries, and uses of names that were asked about before. -/
structure Respelling where
  span : Span → Span
  name : String → String
  earlier : List Request
  sameName : ∀ n, Text.folded (name n) = Text.folded n
  /-- What belongs to no node stays where it is. -/
  nowhere : span ⟨0, 0⟩ = ⟨0, 0⟩

namespace Respelling

variable (v : Respelling)

/-! What inference works with, respelt. -/

def constraint : Constraint → Constraint
  | .property name slot => .property (v.name name) slot
  | c => c

def belief : Belief → Belief
  | .known ty => .known ty
  | .unknown constraints => .unknown (constraints.map v.constraint)

def origin (o : Origin) : Origin :=
  ⟨o.tag, v.span o.span⟩

def cell (c : Cell) : Cell :=
  ⟨c.leader, c.rank, v.belief c.belief, v.origin c.origin, c.overload⟩

mutual
def hint : Hint → Hint
  | .known ty => .known ty
  | .unknown demands => .unknown (demandAll demands)

def demand : Demand → Demand
  | .arithmetic => .arithmetic
  | .enumerableOf h => .enumerableOf (hint h)
  | .arrayOf h => .arrayOf (hint h)
  | .optionalOf h => .optionalOf (hint h)
  | .lambda params result => .lambda (hintAll params) (hint result)
  | .property name h => .property (v.name name) (hint h)

def demandAll : List Demand → List Demand
  | [] => []
  | d :: rest => demand d :: demandAll rest

def hintAll : List Hint → List Hint
  | [] => []
  | h :: rest => hint h :: hintAll rest
end

theorem demandAll_eq (demands : List Demand) : v.demandAll demands = demands.map v.demand := by
  induction demands with
  | nil => rfl
  | cons d rest ih => simp [demandAll, ih]

theorem hintAll_eq (hints : List Hint) : v.hintAll hints = hints.map v.hint := by
  induction hints with
  | nil => rfl
  | cons h rest ih => simp [hintAll, ih]

theorem length_hintAll (hints : List Hint) : (v.hintAll hints).length = hints.length := by
  rw [hintAll_eq, List.length_map]

def request (r : Request) : Request :=
  ⟨v.name r.name, r.site, r.args.map v.hint, v.hint r.result⟩

def solver (s : Solver) : Solver :=
  ⟨s.cells.map v.cell, s.asked.map v.request ++ v.earlier⟩

def fault : TypeFault → TypeFault
  | .missingProperty ty name => .missingProperty ty (v.name name)
  | .noMatchingFunction name args => .noMatchingFunction (v.name name) (args.map v.hint)
  | .ambiguousCall name candidates => .ambiguousCall (v.name name) candidates
  | f => f

def error (e : TypeError) : TypeError :=
  ⟨v.fault e.fault, e.node, v.span e.span⟩

def task : Task → Task
  | .discharge slot ty c => .discharge slot ty (v.constraint c)
  | .constrain slot c => .constrain slot (v.constraint c)
  | t => t

def item : Item → Item
  | .member slot receiver name => .member slot receiver (v.name name)
  | .call slot name args => .call slot (v.name name) args
  | i => i

/-- A result respelt, with `f` for what is computed. -/
def except {α β : Type} (f : α → β) : Except TypeError α → Except TypeError β
  | .ok a => .ok (f a)
  | .error e => .error (v.error e)

theorem code_fault (f : TypeFault) : (v.fault f).code = f.code := by
  cases f <;> rfl

/-! Looking at what is known. -/

section

variable (s : Solver)

theorem getElem?_cells (slot : Nat) : (v.solver s).cells[slot]? = (s.cells[slot]?).map v.cell := by
  simp [solver]

@[simp] theorem leader?_solver (slot : Nat) : (v.solver s).leader? slot = s.leader? slot := by
  unfold Solver.leader?
  rw [getElem?_cells]
  cases s.cells[slot]? with
  | none => rfl
  | some c =>
    simp only [Option.map_some, cell, getElem?_cells]
    cases s.cells[c.leader]? <;> simp [cell]

@[simp] theorem belief_solver (slot : Nat) : (v.solver s).belief slot = v.belief (s.belief slot) := by
  unfold Solver.belief
  rw [leader?_solver]
  cases s.leader? slot with
  | none => rfl
  | some leader =>
    simp only [getElem?_cells]
    cases s.cells[leader]? <;> simp [cell, belief]

@[simp] theorem known?_solver (slot : Nat) : (v.solver s).known? slot = s.known? slot := by
  unfold Solver.known?
  rw [belief_solver]
  cases s.belief slot <;> rfl

@[simp] theorem origin_solver (slot : Nat) : (v.solver s).origin slot = v.origin (s.origin slot) := by
  unfold Solver.origin
  rw [getElem?_cells]
  cases s.cells[slot]? with
  | none => simp [origin, v.nowhere]
  | some c => rfl

@[simp] theorem blame_solver (slot : Nat) (f : TypeFault) :
    (v.solver s).blame slot (v.fault f) = v.error (s.blame slot f) := by
  unfold Solver.blame
  rw [origin_solver]
  rfl

/-- Most faults name nothing. -/
theorem blame_plain (slot : Nat) {f : TypeFault} (plain : v.fault f = f) :
    (v.solver s).blame slot f = v.error (s.blame slot f) := by
  rw [← blame_solver, plain]

@[simp] theorem overload?_solver (slot : Nat) : (v.solver s).overload? slot = s.overload? slot := by
  unfold Solver.overload?
  rw [getElem?_cells]
  cases s.cells[slot]? <;> rfl

@[simp] theorem rank_solver (slot : Nat) : (v.solver s).rank slot = s.rank slot := by
  unfold Solver.rank
  rw [getElem?_cells]
  cases s.cells[slot]? <;> rfl

theorem hintAt_solver (depth slot : Nat) :
    (v.solver s).hintAt depth slot = v.hint (s.hintAt depth slot) := by
  induction depth generalizing slot with
  | zero =>
    unfold Solver.hintAt
    rw [belief_solver]
    cases s.belief slot <;> rfl
  | succ depth ih =>
    unfold Solver.hintAt
    rw [belief_solver]
    cases s.belief slot with
    | known ty => rfl
    | unknown constraints =>
      simp only [belief, hint, demandAll_eq, List.map_map, Hint.unknown.injEq]
      refine List.map_congr_left fun c _ => ?_
      cases c <;> simp [constraint, demand, ih, hintAll_eq]

@[simp] theorem hint_solver (slot : Nat) : (v.solver s).hint slot = v.hint (s.hint slot) :=
  v.hintAt_solver s _ slot

/-! Changing what is known. -/

theorem map_modify (cells : Array Cell) (slot : Nat) {f g : Cell → Cell}
    (h : ∀ c, v.cell (f c) = g (v.cell c)) :
    (cells.map v.cell).modify slot g = (cells.modify slot f).map v.cell := by
  refine Array.ext_getElem? fun i => ?_
  simp only [Array.getElem?_modify, Array.getElem?_map]
  split
  · cases cells[i]? <;> simp [h]
  · rfl

theorem setBelief_solver (leader : Nat) (b : Belief) :
    (v.solver s).setBelief leader (v.belief b) = v.solver (s.setBelief leader b) := by
  unfold Solver.setBelief solver
  rw [v.map_modify s.cells leader (f := fun cell => { cell with belief := b }) fun _ => rfl]

theorem setOverload_solver (slot : Nat) (o : Overload) :
    (v.solver s).setOverload slot o = v.solver (s.setOverload slot o) := by
  unfold Solver.setOverload solver
  rw [v.map_modify s.cells slot (f := fun cell => { cell with overload := some o }) fun _ => rfl]

theorem merge_solver (winner loser rank : Nat) (b : Belief) :
    (v.solver s).merge winner loser rank (v.belief b) = v.solver (s.merge winner loser rank b) := by
  simp only [Solver.merge, solver, Solver.mk.injEq, and_true]
  refine Array.ext_getElem? fun i => ?_
  simp only [Array.getElem?_mapIdx, Array.getElem?_map, Option.map_map]
  congr 1
  funext c
  simp only [Function.comp_apply]
  split
  · rfl
  · split <;> simp_all [cell, belief]

theorem union_solver (a b : Nat) (b' : Belief) : (v.solver s).union a b (v.belief b') =
    ((s.union a b b').1, v.solver (s.union a b b').2) := by
  unfold Solver.union
  simp only [rank_solver, merge_solver]
  split
  · rfl
  · split <;> rfl

theorem fresh_solver (like : Nat) (b : Belief) : (v.solver s).fresh like (v.belief b) =
    ((s.fresh like b).1, v.solver (s.fresh like b).2) := by
  unfold Solver.fresh
  rw [origin_solver]
  simp [solver, cell]

end

/-! Narrowing. -/

theorem property?_name (info : TypeInfo) (name : String) :
    info.property? (v.name name) = info.property? name := by
  unfold TypeInfo.property? Text.sameName
  rw [v.sameName]

theorem discharge_solver (catalog : Catalog) (s : Solver) (slot : Nat) (ty : Ty) (c : Constraint) :
    (v.solver s).discharge catalog slot ty (v.constraint c) =
      v.except (List.map v.task) (s.discharge catalog slot ty c) := by
  cases c with
  | arithmetic =>
    simp only [constraint, Solver.discharge]
    split
    · rfl
    · rw [blame_plain _ _ _ rfl]
      rfl
  | enumerableOf element =>
    simp only [constraint, Solver.discharge]
    split
    · rfl
    · rw [blame_plain _ _ _ rfl]
      rfl
  | arrayOf element =>
    simp only [constraint, Solver.discharge]
    split
    · rfl
    · rw [blame_plain _ _ _ rfl]
      rfl
  | optionalOf inner => rfl
  | lambda params result =>
    simp only [constraint, Solver.discharge]
    split
    · split
      · simp only [except, List.map_append, List.map_zipWith, List.map_singleton]
        rfl
      · rw [blame_plain _ _ _ rfl]
        rfl
    · rw [blame_plain _ _ _ rfl]
      rfl
  | property name slot' =>
    simp only [constraint, Solver.discharge]
    simp only [property?_name]
    split <;> rfl

/-- How two constraints go together does not depend on how names are written. -/
theorem meet_constraint (old new : Constraint) :
    (v.constraint old).meet (v.constraint new) = old.meet new := by
  cases old <;> cases new <;> simp [constraint, Constraint.meet, Text.sameName, v.sameName]

theorem requirement_constraint (c : Constraint) :
    (v.constraint c).requirement = c.requirement := by
  cases c <;> rfl

theorem meetAll_constraint (new : Constraint) (old : List Constraint) :
    Solver.meetAll (v.constraint new) (old.map v.constraint) = Solver.meetAll new old := by
  induction old with
  | nil => rfl
  | cons first rest ih =>
    simp only [List.map_cons, Solver.meetAll, meet_constraint, requirement_constraint, ih]

theorem map_task_discharge (slot : Nat) (ty : Ty) (cs : List Constraint) :
    (cs.map (Task.discharge slot ty)).map v.task =
      (cs.map v.constraint).map (Task.discharge slot ty) := by
  rw [List.map_map, List.map_map]
  rfl

theorem map_task_constrain (slot : Nat) (cs : List Constraint) :
    (cs.map (Task.constrain slot)).map v.task = (cs.map v.constraint).map (Task.constrain slot) := by
  rw [List.map_map, List.map_map]
  rfl

theorem map_task_unify (pairs : List (Nat × Nat)) :
    (pairs.map fun (a, b) => Task.unify a b).map v.task = pairs.map fun (a, b) => Task.unify a b := by
  rw [List.map_map]
  rfl

theorem fault_flow {flow : Flow} {known other : Ty} {f : TypeFault}
    (h : flow.fault? known other = some f) : v.fault f = f := by
  unfold Flow.fault? at h
  cases flow <;> dsimp only at h <;> split at h <;> cases h <;> rfl

/-- One task leaves the same tasks, respelt. -/
theorem step_solver (catalog : Catalog) (s : Solver) (t : Task) :
    (v.solver s).step catalog (v.task t) =
      v.except (fun (left, s') => (left.map v.task, v.solver s')) (s.step catalog t) := by
  cases t with
  | assign slot ty =>
    simp only [task, Solver.step, leader?_solver, belief_solver]
    cases s.leader? slot with
    | none => rfl
    | some leader =>
      cases s.belief slot with
      | known old =>
        simp only [belief]
        split
        · rfl
        · rw [blame_plain _ _ _ rfl]
          rfl
      | unknown constraints =>
        simp only [belief, except, map_task_discharge, ← setBelief_solver]
  | expect slot ty flow =>
    simp only [task, Solver.step, belief_solver]
    cases s.belief slot with
    | known old =>
      simp only [belief]
      cases isFault : flow.fault? old ty with
      | none => rfl
      | some fault => simp only [except, v.blame_plain _ _ (v.fault_flow isFault)]
    | unknown constraints => rfl
  | discharge slot ty c =>
    simp only [task, Solver.step, discharge_solver]
    cases s.discharge catalog slot ty c <;> rfl
  | constrain slot c =>
    simp only [task, Solver.step, leader?_solver, belief_solver]
    cases s.leader? slot with
    | none => rfl
    | some leader =>
      cases s.belief slot with
      | known ty => rfl
      | unknown old =>
        simp only [belief, meetAll_constraint, requirement_constraint]
        cases Solver.meetAll c old with
        | error first => exact congrArg Except.error (v.blame_plain s slot rfl)
        | ok found =>
          obtain ⟨there, pairs⟩ := found
          have learnt : (v.solver s).setBelief leader
              (.unknown (old.map v.constraint ++ [v.constraint c])) =
                v.solver (s.setBelief leader (.unknown (old ++ [c]))) := by
            rw [← setBelief_solver, belief, List.map_append, List.map_singleton]
          cases there <;>
            simp only [except, map_task_unify, learnt, Bool.false_eq_true, if_true, if_false]
  | unify a b =>
    simp only [task, Solver.step, leader?_solver, belief_solver]
    cases s.leader? a with
    | none => rfl
    | some x =>
      cases s.leader? b with
      | none => rfl
      | some y =>
        by_cases same : x = y
        · simp only [same, if_true]
          rfl
        · simp only [same, if_false]
          cases s.belief a with
          | known ty =>
            cases s.belief b with
            | known ty' =>
              have merged := v.union_solver s x y (.known ty)
              simp only [belief] at merged ⊢
              rw [merged]
              split
              · rfl
              · rw [blame_plain _ _ _ rfl]
                rfl
            | unknown constraints =>
              have merged := v.union_solver s x y (.known ty)
              simp only [belief] at merged ⊢
              rw [merged]
              simp only [except, map_task_discharge]
          | unknown constraints =>
            cases s.belief b with
            | known ty =>
              have merged := v.union_solver s x y (.known ty)
              simp only [belief] at merged ⊢
              rw [merged]
              simp only [except, map_task_discharge]
            | unknown constraints' =>
              have merged := v.union_solver s x y (.unknown [])
              simp only [belief, List.map_nil] at merged ⊢
              rw [merged]
              simp only [except, map_task_constrain, List.map_append]

theorem narrow_eq (catalog : Catalog) (task : Task) (rest : List Task) (s : Solver) :
    s.narrow catalog (task :: rest) =
      match s.step catalog task with
      | .error e => .error e
      | .ok (left, s') => s'.narrow catalog (left ++ rest) := by
  rw [Solver.narrow]
  split <;> simp [*]

/-- Learning the same, respelt. -/
theorem narrow_solver (catalog : Catalog) (tasks : List Task) (s : Solver) :
    (v.solver s).narrow catalog (tasks.map v.task) =
      v.except v.solver (s.narrow catalog tasks) := by
  fun_induction Solver.narrow catalog tasks s with
  | case1 s =>
    rw [List.map_nil, Solver.narrow]
    rfl
  | case2 s task rest e failed =>
    rw [List.map_cons, narrow_eq, step_solver, failed]
    rfl
  | case3 s task rest left s' taken ih =>
    rw [List.map_cons, narrow_eq, step_solver, taken]
    simp only [except, ← List.map_append]
    exact ih

/-! Resolving names. -/

mutual
theorem fitsParam_hint : ∀ (h : Hint) (s : Shape) (b : Bindings),
    (v.hint h).fitsParam s b = h.fitsParam s b
  | .known ty, s, b => by rw [hint]
  | .unknown demands, s, b => by
    simp only [hint, Hint.fitsParam]
    exact allFit_demandAll demands s b

theorem allFit_demandAll : ∀ (demands : List Demand) (s : Shape) (b : Bindings),
    Hint.allFit (v.demandAll demands) s b = Hint.allFit demands s b
  | [], s, b => rfl
  | d :: rest, s, b => by
    simp only [demandAll, Hint.allFit, demandFits_demand d s b]
    split
    · exact allFit_demandAll rest s _
    · rfl

theorem demandFits_demand : ∀ (d : Demand) (s : Shape) (b : Bindings),
    Hint.demandFits (v.demand d) s b = Hint.demandFits d s b
  | .property name h, s, b => by simp only [demand, Hint.demandFits]
  | .arithmetic, s, b => by simp only [demand]
  | .enumerableOf h, s, b => by simp only [demand, Hint.demandFits, fitsParam_hint h]
  | .arrayOf h, s, b => by simp only [demand, Hint.demandFits, fitsParam_hint h]
  | .optionalOf h, s, b => by simp only [demand, Hint.demandFits, fitsParam_hint h]
  | .lambda params result, s, b => by
    simp only [demand, Hint.demandFits, fitsParam_hint result, allFitEach_hintAll params,
      length_hintAll]

theorem allFitEach_hintAll : ∀ (hints : List Hint) (shapes : List Shape) (b : Bindings),
    Hint.allFitEach (v.hintAll hints) shapes b = Hint.allFitEach hints shapes b
  | [], shapes, b => by rw [hintAll]
  | h :: hints, [], b => by simp only [hintAll, Hint.allFitEach]
  | h :: hints, s :: shapes, b => by
    simp only [hintAll, Hint.allFitEach, fitsParam_hint h]
    split
    · exact allFitEach_hintAll hints shapes _
    · rfl
end

theorem fitsResult_hint (h : Hint) (s : Shape) (b : Bindings) :
    (v.hint h).fitsResult s b = h.fitsResult s b := by
  cases h with
  | known ty => rfl
  | unknown demands =>
    have fits := v.fitsParam_hint (.unknown demands) s b
    simp only [hint] at fits
    simp only [hint, Hint.fitsResult, fits]

theorem fitArgs_hint (shapes : List Shape) (hints : List Hint) (b : Bindings) :
    Overload.fitArgs shapes (hints.map v.hint) b = Overload.fitArgs shapes hints b := by
  induction shapes generalizing hints b with
  | nil => rfl
  | cons s shapes ih =>
    cases hints with
    | nil => rfl
    | cons h hints =>
      simp only [List.map_cons, Overload.fitArgs, fitsParam_hint, ih]
      cases h <;> rfl

theorem fit_request (o : Overload) (r : Request) : o.fit (v.request r) = o.fit r := by
  unfold Overload.fit
  simp only [request, Text.sameName, v.sameName, List.length_map, fitArgs_hint, fitsResult_hint]

theorem bestFits_request (os : List Overload) (r : Request) :
    Overload.bestFits os (v.request r) = Overload.bestFits os r := by
  simp only [Overload.bestFits, fit_request]

end Respelling

/-- The resolver is made from the properties and methods of catalogs and from tables. -/
inductive Resolver.BuiltIn : Resolver → Prop
  | properties (catalog : Catalog) : BuiltIn (.properties catalog)
  | methods (catalog : Catalog) : BuiltIn (.methods catalog)
  | table (functions : List Overload) : BuiltIn (.table functions)
  | chain {resolvers : List Resolver} : (∀ r ∈ resolvers, BuiltIn r) → BuiltIn (.chain resolvers)
  | exhaustive {resolver : Resolver} : BuiltIn resolver → BuiltIn (.exhaustive resolver)
  | observer : BuiltIn .observer

theorem Resolver.builtIn_withOptions (catalog : Catalog) (options : Options) :
    (Compiler.withOptions catalog options).resolver.BuiltIn := by
  apply BuiltIn.chain
  intro resolver mem
  simp only [Compiler.withOptions, List.mem_append, List.mem_cons, List.not_mem_nil, or_false] at mem
  rcases mem with (rfl | rfl) | isStandard
  · exact .properties catalog
  · exact .methods catalog
  · split at isStandard
    · cases List.mem_singleton.1 isStandard
      exact .table _
    · cases isStandard

namespace Respelling

variable (v : Respelling)

theorem propertyCandidates_request (c : Catalog) (r : Request) :
    Resolver.propertyCandidates c (v.request r) = Resolver.propertyCandidates c r := by
  unfold Resolver.propertyCandidates Resolver.propertyOf?
  cases r with
  | mk name site args result =>
    match args with
    | [] => rfl
    | [.known ty] =>
      simp only [bestFits_request]
      simp only [request, hint, property?_name, List.map_cons, List.map_nil]
    | [.unknown _] => rfl
    | first :: _ :: _ => cases first <;> rfl

theorem methodCandidates_request (c : Catalog) (r : Request) :
    Resolver.methodCandidates c (v.request r) = Resolver.methodCandidates c r := by
  unfold Resolver.methodCandidates Resolver.methodsOf TypeInfo.methodsNamed Text.sameName
  cases r with
  | mk name site args result =>
    match site, args with
    | .member, _ => rfl
    | .call, [] => rfl
    | .call, .unknown _ :: _ => rfl
    | .call, .known ty :: rest =>
      simp only [bestFits_request]
      simp only [request, hint, v.sameName, List.map_cons]

theorem tableCandidates_request (functions : List Overload) (r : Request) :
    Resolver.tableCandidates functions (v.request r) = Resolver.tableCandidates functions r := by
  unfold Resolver.tableCandidates
  simp only [bestFits_request]
  rfl

/-- What a name stands for does not depend on how it is written. -/
theorem resolver_request {resolver : Resolver} (h : resolver.BuiltIn) (r : Request) :
    resolver.candidates (v.request r) = resolver.candidates r ∧
      resolver.resolve? (v.request r) = resolver.resolve? r := by
  induction h with
  | properties c =>
    simp only [Resolver.candidates, Resolver.resolve?, propertyCandidates_request, and_self]
  | methods c =>
    simp only [Resolver.candidates, Resolver.resolve?, methodCandidates_request, and_self]
  | table functions =>
    simp only [Resolver.candidates, Resolver.resolve?, tableCandidates_request, and_self]
  | @chain resolvers builtIn ih =>
    simp only [Resolver.candidates, Resolver.resolve?]
    induction resolvers with
    | nil => exact ⟨rfl, rfl⟩
    | cons first rest onRest =>
      obtain ⟨⟨sameCandidates, sameAnswer⟩, others⟩ := List.forall_mem_cons.1 ih
      obtain ⟨allCandidates, firstAnswer⟩ :=
        onRest (fun resolver mem => builtIn resolver (List.mem_cons_of_mem _ mem)) others
      simp only [Resolver.candidatesAll, Resolver.resolveFirst?, sameCandidates, sameAnswer,
        allCandidates, firstAnswer, and_self]
  | exhaustive _ ih =>
    simp only [Resolver.candidates, Resolver.resolve?, ih.1, and_self]
  | observer => exact ⟨rfl, rfl⟩

end Respelling

end LambdaQuery
