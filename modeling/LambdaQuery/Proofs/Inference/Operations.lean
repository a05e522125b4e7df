import LambdaQuery.Proofs.Inference.Kept
import LambdaQuery.Proofs.Inference.Termination

/-!
# Operations lose nothing

The operations that inference is made of, in any order and on any slots that are there. As long as
none of them fails, what was learnt stays learnt.
-/

namespace LambdaQuery

/-- What a task was for, once everything that follows from it is done. -/
def Task.Done (catalog : Catalog) (s : Solver) : Task → Prop
  | assign slot ty => s.known? slot = some ty
  | expect slot ty flow => ∃ given, s.known? slot = some given ∧ flow.fault? given ty = none
  | discharge _ ty c => c.Holds catalog s.known? ty
  | constrain slot c => s.Kept catalog slot c
  | unify a b => s.SameClass a b

/-- A run that ends with nothing left to do has done what it was to do. -/
theorem Run.done {catalog : Catalog} {config : Config} {log : List (Nat × Constraint)} {s : Solver}
    (run : Run catalog config log ⟨[], s⟩) (inRange : config.InRange) :
    ∀ task ∈ config.tasks, task.Done catalog s := by
  intro task mem
  obtain ⟨atEnd, grows⟩ := run.inRange inRange
  have holds := (run.models inRange (s.models_at_rest catalog)).tasks task mem
  cases task with
  | assign slot ty => exact holds
  | expect slot ty flow => exact holds
  | discharge slot ty c => exact holds
  | constrain slot c =>
    have ensured := run.ensures inRange (.inl (Config.ensures_of_task mem))
    exact Solver.kept_of_ensures atEnd.solver ensured
  | unify a b =>
    have equated := (run.equates inRange s.equates_identifies).tasks mem
    have there := inRange.tasks _ mem b (by simp [Task.slots])
    exact atEnd.solver.sameClass_of_identifies (Nat.lt_of_lt_of_le there grows) equated

/-- Something that inference does between two moments at which nothing is left to do. -/
inductive Operation where
  | learn (task : Task)
  | fresh (like : Nat) (belief : Belief)
  | applyShape (generics : List Nat) (shape : Shape) (slot : Nat) (flow : Flow)
  | attempt (item : Item)
  | settle
  | defaultLiterals (literals : List (Nat × String))

namespace Operation

/-- The slots that an operation is about. -/
def slots : Operation → List Nat
  | learn task => task.slots
  | fresh like b => like :: b.slots
  | applyShape generics _ slot _ => slot :: generics
  | attempt item => item.slots
  | settle => []
  | defaultLiterals literals => literals.map Prod.fst

def perform (catalog : Catalog) (resolver : Resolver) : Operation → Inference Unit
  | learn task => Inference.learn catalog [task]
  | fresh like b => do
    let _ ← Inference.fresh like b
  | applyShape generics shape slot flow => Inference.applyShape catalog generics shape slot flow
  | attempt item => do
    let _ ← Inference.attempt catalog resolver item
  | settle => do
    let s ← get
    let _ ← Inference.settle catalog (List.range s.cells.size)
  | defaultLiterals literals => do
    let _ ← Inference.defaultLiterals catalog literals

/-- What is known after a sequence of operations, each on slots that are there, if none fails. -/
def performAll? (catalog : Catalog) (resolver : Resolver) : List Operation → Solver → Option Solver
  | [], s => some s
  | op :: ops, s =>
    if ∀ i ∈ op.slots, i < s.cells.size then
      match op.perform catalog resolver s with
      | .ok _ t => performAll? catalog resolver ops t
      | .error .. => none
    else
      none

variable {catalog : Catalog} {resolver : Resolver} {s s' : Solver}

theorem perform_proceeds (op : Operation) (inRange : s.InRange)
    (inside : ∀ i ∈ op.slots, i < s.cells.size) :
    Inference.Proceeds catalog (op.perform catalog resolver) s fun _ _ => True := by
  cases op with
  | learn task => exact .learn (by simpa [slots] using inside)
  | fresh like b =>
    obtain ⟨there, within⟩ := List.forall_mem_cons.1 inside
    exact .bind_pure inRange (.fresh there within) _
  | applyShape generics shape slot flow =>
    obtain ⟨there, within⟩ := List.forall_mem_cons.1 inside
    exact (Inference.applyShape_proceeds catalog generics shape).apply inRange within there
  | attempt item =>
    exact .bind_pure inRange (Inference.attempt_proceeds inRange inside) _
  | settle =>
    apply Inference.Proceeds.get_bind
    exact .bind_pure inRange (Inference.settle_proceeds inRange fun _ => List.mem_range.1) _
  | defaultLiterals literals =>
    refine .bind_pure inRange (Inference.defaultLiterals_proceeds inRange fun entry mem => ?_) _
    exact inside entry.1 (List.mem_map_of_mem mem)

theorem performAll?_cons {op : Operation} {ops : List Operation}
    (h : performAll? catalog resolver (op :: ops) s = some s') :
    (∀ i ∈ op.slots, i < s.cells.size) ∧
      ∃ t, op.perform catalog resolver s = .ok () t ∧
        performAll? catalog resolver ops t = some s' := by
  unfold performAll? at h
  split at h
  · rename_i inside
    split at h
    · rename_i t done
      exact ⟨inside, t, done, h⟩
    · cases h
  · cases h

/-- A sequence of operations is a run of moves, and does what it was to learn. -/
theorem run_of_performAll? {ops : List Operation} (inRange : s.InRange)
    (h : performAll? catalog resolver ops s = some s') :
    (∃ log, Run catalog ⟨[], s⟩ log ⟨[], s'⟩) ∧
      ∀ task, .learn task ∈ ops → task.Done catalog s' := by
  induction ops generalizing s with
  | nil =>
    cases h
    exact ⟨⟨[], .refl _⟩, by simp⟩
  | cons op ops ih =>
    obtain ⟨inside, t, performed, rest⟩ := performAll?_cons h
    obtain ⟨⟨log, run⟩, _⟩ := (op.perform_proceeds inRange inside).ok performed
    have atT := (run.inRange ⟨inRange, by simp⟩).1.solver
    obtain ⟨⟨log', run'⟩, later⟩ := ih atT rest
    refine ⟨⟨_, run.trans run'⟩, fun task mem => ?_⟩
    rcases List.mem_cons.1 mem with rfl | isLater
    · obtain ⟨log, narrowing, _⟩ := Solver.run_of_narrow (Inference.learn_ok performed)
      have tasksInside : ∀ t ∈ [task], ∀ i ∈ t.slots, i < s.cells.size := by
        simpa [slots] using inside
      exact (narrowing.trans run').done ⟨inRange, tasksInside⟩ task List.mem_cons_self
    · exact later task isLater

end Operation

/-- **Operations lose nothing.** After any operations that do not fail, a known type is known still,
slots of one class are in one class still, and what was required of a slot is required of it still.
What the operations were to learn is learnt. They are a run of moves, and every constraint that is
added to a slot on such a run is kept. -/
theorem operations_lose_nothing {catalog : Catalog} {resolver : Resolver} {s s' : Solver}
    {ops : List Operation} (inRange : s.InRange)
    (performed : Operation.performAll? catalog resolver ops s = some s') :
    s'.InRange ∧ (∀ slot ty, s.known? slot = some ty → s'.known? slot = some ty) ∧
      (∀ a b, s.SameClass a b → s'.SameClass a b) ∧
      (∀ slot c, s.Kept catalog slot c → s'.Kept catalog slot c) ∧
      (∀ task, .learn task ∈ ops → task.Done catalog s') ∧
      (∃ log, Run catalog ⟨[], s⟩ log ⟨[], s'⟩) ∧
      ∀ log, Run catalog ⟨[], s⟩ log ⟨[], s'⟩ → ∀ slot c, (slot, c) ∈ log →
        s'.Kept catalog slot c := by
  obtain ⟨⟨log, run⟩, learnt⟩ := Operation.run_of_performAll? inRange performed
  have start : Config.InRange ⟨[], s⟩ := ⟨inRange, by simp⟩
  have atEnd := (run.inRange start).1.solver
  refine ⟨atEnd, ?_, ?_, ?_, learnt, ⟨log, run⟩, ?_⟩
  · intro slot ty known
    exact (run.models start (s'.models_at_rest catalog)).solver.eq_some known
  · intro a b same
    exact run.sameClass start same
  · intro slot c kept
    exact Solver.kept_of_ensures atEnd (run.ensures start (.inl kept.ensures))
  · intro log' run' slot c added
    exact Solver.kept_of_ensures atEnd (run'.ensures start (.inr added))

/-! A function that gives itself back. -/

/-- Slot 0 is a function from slot 1 to slot 2, which is the function itself. Slot 1 is multiplied,
the function is described again with slot 3 in place of slot 1, and slot 3 is a whole number. -/
def knot : List Operation :=
  [.learn (.constrain 0 (.lambda [1] 2)), .learn (.unify 0 2), .attempt (.binary 4 .mul 1 4),
    .learn (.constrain 2 (.lambda [3] 0)), .settle, .learn (.assign 3 .int)]

def knotStart : Solver :=
  .start (.literal ⟨4, ⟨0, 1⟩⟩ (some "1")) 5

theorem performs_knot : ∃ s,
    Operation.performAll? Schema.empty.catalog .observer knot knotStart = some s := by
  apply Option.isSome_iff_exists.1
  cbv

/-- What is said of the function is kept, up to the slots that turned out to be the same. -/
theorem operations_lose_nothing_knot : ∃ s, knotStart.InRange ∧
    Operation.performAll? Schema.empty.catalog .observer knot knotStart = some s ∧
      s.Kept Schema.empty.catalog 2 (.lambda [3] 0) ∧ s.SameClass 0 2 ∧
      s.known? 3 = some .int := by
  obtain ⟨s, performed⟩ := performs_knot
  have inRange : knotStart.InRange := Solver.inRange_start _ _
  have learnt := (operations_lose_nothing inRange performed).2.2.2.2.1
  refine ⟨s, inRange, performed, ?_, ?_, ?_⟩
  · exact learnt (.constrain 2 (.lambda [3] 0)) (by simp [knot])
  · exact learnt (.unify 0 2) (by simp [knot])
  · exact learnt (.assign 3 .int) (by simp [knot])

end LambdaQuery
