import LambdaQuery.Proofs.Inference.Offers
import LambdaQuery.Proofs.Inference.Signatures

/-!
# The moves of inference

Inference changes what is known in small moves. It does the first of the tasks it has taken on;
when it has none it takes on new ones, makes a slot, records an overload or asks about a name. A
run is a sequence of moves, with a log of the constraints that were added to slots on the way.

No move leads to a slot that is not there.
-/

namespace LambdaQuery

/-- The slots that a task speaks of. -/
def Task.slots : Task → List Nat
  | assign slot _ | expect slot _ _ => [slot]
  | discharge slot _ c | constrain slot c => slot :: c.components
  | unify a b => [a, b]

namespace Belief

/-- The constraints on a type that is not known. -/
def constraints : Belief → List Constraint
  | known _ => []
  | unknown constraints => constraints

/-- The slots that a belief speaks of. -/
def slots (b : Belief) : List Nat :=
  b.constraints.flatMap Constraint.components

@[simp] theorem slots_known (ty : Ty) : (known ty).slots = [] := rfl

@[simp] theorem slots_unknown_nil : (unknown []).slots = [] := rfl

end Belief

/-- The slots that a cell refers to. -/
def Cell.slots (cell : Cell) : List Nat :=
  cell.leader :: cell.belief.slots

theorem Task.within_of_slots {task : Task} {bound : Nat} (h : ∀ i ∈ task.slots, i < bound) :
    task.Within (fun _ => True) bound := by
  cases task with
  | assign slot ty => exact ⟨h slot (by simp [slots]), trivial⟩
  | expect slot ty flow => exact ⟨h slot (by simp [slots]), trivial⟩
  | discharge slot ty c => exact ⟨trivial, fun e mem => h e (List.mem_cons_of_mem _ mem)⟩
  | constrain slot c =>
    exact ⟨h slot (by simp [slots]), fun e mem => h e (List.mem_cons_of_mem _ mem)⟩
  | unify a b => exact ⟨h a (by simp [slots]), h b (by simp [slots])⟩

theorem Belief.within_of_slots {b : Belief} {bound : Nat} (h : ∀ i ∈ b.slots, i < bound) :
    b.Within (fun _ => True) bound := by
  cases b with
  | known ty => trivial
  | unknown cs => exact fun c mem e part => h e (List.mem_flatMap.2 ⟨c, mem, part⟩)

namespace Solver

variable {catalog : Catalog} {s s' : Solver}

/-- Every slot has a leader, and whatever slot a cell refers to is there. -/
structure InRange (s : Solver) : Prop extends s.Valid fun _ => True where
  cells : ∀ {i : Nat} {cell : Cell}, s.cells[i]? = some cell → ∀ e ∈ cell.slots, e < s.cells.size

theorem InRange.slots_belief (inRange : s.InRange) (slot : Nat) :
    ∀ e ∈ (s.belief slot).slots, e < s.cells.size := by
  have within := inRange.beliefs slot
  intro e mem
  obtain ⟨c, isOne, part⟩ := List.mem_flatMap.1 mem
  cases believed : s.belief slot with
  | known ty =>
    rw [believed] at isOne
    cases isOne
  | unknown cs =>
    rw [believed] at isOne within
    exact within c isOne e part

/-! What becomes of the cells. -/

theorem cells_setBelief (inRange : s.InRange) {leader : Nat} {b : Belief}
    (inside : ∀ e ∈ b.slots, e < s.cells.size) {i : Nat} {cell : Cell}
    (h : (s.setBelief leader b).cells[i]? = some cell) : ∀ e ∈ cell.slots, e < s.cells.size := by
  simp only [setBelief, Array.getElem?_modify] at h
  split at h
  · obtain ⟨old, there, rfl⟩ := Option.map_eq_some_iff.1 h
    intro e mem
    rcases List.mem_cons.1 mem with rfl | held
    · exact inRange.cells there _ List.mem_cons_self
    · exact inside e held
  · exact inRange.cells h

theorem cells_merge (inRange : s.InRange) {winner loser rank : Nat} {b : Belief}
    (lt : winner < s.cells.size) (inside : ∀ e ∈ b.slots, e < s.cells.size) {i : Nat} {cell : Cell}
    (h : (s.merge winner loser rank b).cells[i]? = some cell) :
    ∀ e ∈ cell.slots, e < s.cells.size := by
  rw [getElem?_merge] at h
  obtain ⟨old, there, rfl⟩ := Option.map_eq_some_iff.1 h
  intro e mem
  split at mem
  · rcases List.mem_cons.1 mem with rfl | held
    · exact inRange.cells there _ List.mem_cons_self
    · exact inside e held
  · split at mem
    · rcases List.mem_cons.1 mem with rfl | held
      · exact lt
      · cases held
    · exact inRange.cells there e mem

theorem cells_union (inRange : s.InRange) {x y : Nat} {b : Belief} (ltX : x < s.cells.size)
    (ltY : y < s.cells.size) (inside : ∀ e ∈ b.slots, e < s.cells.size) {i : Nat} {cell : Cell}
    (h : (s.union x y b).2.cells[i]? = some cell) : ∀ e ∈ cell.slots, e < s.cells.size := by
  unfold union at h
  split at h
  · exact cells_merge inRange ltX inside h
  · split at h <;> exact cells_merge inRange ltY inside h

theorem InRange.fresh (catalog : Catalog) (inRange : s.InRange) (like : Nat) {b : Belief}
    (inside : ∀ e ∈ b.slots, e < s.cells.size) : (s.fresh like b).2.InRange where
  toValid := (fresh_grown catalog inRange.toValid like
    (Belief.within_of_slots inside)).1.valid
  cells {i cell} h := by
    rw [size_fresh]
    intro e mem
    simp only [Solver.fresh, Array.getElem?_push] at h
    split at h
    · cases h
      rcases List.mem_cons.1 mem with rfl | held
      · exact Nat.lt_succ_self _
      · exact Nat.lt_succ_of_lt (inside e held)
    · exact Nat.lt_succ_of_lt (inRange.cells h e mem)

theorem InRange.setOverload (catalog : Catalog) (inRange : s.InRange) (slot : Nat) (o : Overload) :
    (s.setOverload slot o).InRange where
  toValid := (setOverload_grown catalog inRange.toValid slot o).valid
  cells {i cell} h := by
    rw [size_setOverload]
    simp only [Solver.setOverload, Array.getElem?_modify] at h
    split at h
    · obtain ⟨old, there, rfl⟩ := Option.map_eq_some_iff.1 h
      exact fun e mem => inRange.cells there e mem
    · exact inRange.cells h

/-! One task. -/

/-- What doing a task comes to: the tasks that it leaves, and what is known then. -/
inductive Stepped (catalog : Catalog) (s : Solver) : Task → List Task → Solver → Prop
  | assigned {slot : Nat} {ty : Ty} (known : s.belief slot = .known ty) :
    Stepped catalog s (.assign slot ty) [] s
  | assign {slot leader : Nat} {ty : Ty} {cs : List Constraint}
    (led : s.leader? slot = some leader) (unknown : s.belief slot = .unknown cs) :
    Stepped catalog s (.assign slot ty) (cs.map (.discharge slot ty))
      (s.setBelief leader (.known ty))
  | expected {slot : Nat} {ty old : Ty} {flow : Flow} (known : s.belief slot = .known old) :
    Stepped catalog s (.expect slot ty flow) [] s
  | expect {slot : Nat} {ty : Ty} {flow : Flow} {cs : List Constraint}
    (unknown : s.belief slot = .unknown cs) :
    Stepped catalog s (.expect slot ty flow) [.assign slot ty] s
  | discharge {slot : Nat} {ty : Ty} {c : Constraint} {left : List Task}
    (discharged : s.discharge catalog slot ty c = .ok left) :
    Stepped catalog s (.discharge slot ty c) left s
  | constrained {slot : Nat} {ty : Ty} {c : Constraint} (known : s.belief slot = .known ty) :
    Stepped catalog s (.constrain slot c) [.discharge slot ty c] s
  | again {slot : Nat} {c : Constraint} {old : List Constraint} {pairs : List (Nat × Nat)}
    (unknown : s.belief slot = .unknown old) (met : meetAll c old = .ok (true, pairs)) :
    Stepped catalog s (.constrain slot c) (pairs.map fun (a, b) => .unify a b) s
  | constrain {slot leader : Nat} {c : Constraint} {old : List Constraint}
    {pairs : List (Nat × Nat)} (led : s.leader? slot = some leader)
    (unknown : s.belief slot = .unknown old) (met : meetAll c old = .ok (false, pairs)) :
    Stepped catalog s (.constrain slot c) (pairs.map fun (a, b) => .unify a b)
      (s.setBelief leader (.unknown (old ++ [c])))
  | unified {a b leader : Nat} (ledA : s.leader? a = some leader)
    (ledB : s.leader? b = some leader) :
    Stepped catalog s (.unify a b) [] s
  | resolve {a b x y : Nat} {ty : Ty} (ledA : s.leader? a = some x) (ledB : s.leader? b = some y)
    (different : x ≠ y) (known : s.belief a = .known ty ∨ s.belief b = .known ty) :
    Stepped catalog s (.unify a b)
      (((s.belief a).constraints ++ (s.belief b).constraints).map (.discharge b ty))
      (s.union x y (.known ty)).2
  | unify {a b x y : Nat} {cs cs' : List Constraint} (ledA : s.leader? a = some x)
    (ledB : s.leader? b = some y) (different : x ≠ y) (openA : s.belief a = .unknown cs)
    (openB : s.belief b = .unknown cs') :
    Stepped catalog s (.unify a b)
      ((cs ++ cs').map (.constrain (s.union x y (.unknown [])).1)) (s.union x y (.unknown [])).2

theorem stepped_of_step (inRange : s.InRange) {task : Task} {left : List Task}
    (inside : ∀ i ∈ task.slots, i < s.cells.size) (h : s.step catalog task = .ok (left, s')) :
    Stepped catalog s task left s' := by
  cases task with
  | assign slot ty =>
    obtain ⟨leader, led⟩ := inRange.leads (inside slot (by simp [Task.slots]))
    simp only [step, led] at h
    cases believed : s.belief slot with
    | known old =>
      simp only [believed] at h
      split at h <;> cases h
      rename_i same
      exact .assigned (same ▸ believed)
    | unknown cs =>
      simp only [believed] at h
      cases h
      exact .assign led believed
  | expect slot ty flow =>
    simp only [step] at h
    cases believed : s.belief slot with
    | known old =>
      simp only [believed] at h
      split at h <;> cases h
      exact .expected believed
    | unknown cs =>
      simp only [believed] at h
      cases h
      exact .expect believed
  | discharge slot ty c =>
    simp only [step] at h
    split at h <;> cases h
    exact .discharge ‹_›
  | constrain slot c =>
    obtain ⟨leader, led⟩ := inRange.leads (inside slot (by simp [Task.slots]))
    simp only [step, led] at h
    cases believed : s.belief slot with
    | known ty =>
      simp only [believed] at h
      cases h
      exact .constrained believed
    | unknown old =>
      simp only [believed] at h
      split at h <;> cases h
      rename_i isThere pairs met
      cases isThere with
      | true => exact .again believed met
      | false => exact .constrain led believed met
  | unify a b =>
    obtain ⟨x, ledA⟩ := inRange.leads (inside a (by simp [Task.slots]))
    obtain ⟨y, ledB⟩ := inRange.leads (inside b (by simp [Task.slots]))
    simp only [step, ledA, ledB] at h
    split at h
    · cases h
      rename_i same
      exact .unified ledA (same ▸ ledB)
    · rename_i different
      split at h
      · rename_i ty ty' knownA knownB
        split at h <;> cases h
        have resolved : Stepped catalog s (.unify a b) _ _ :=
          .resolve ledA ledB different (.inl knownA)
        simpa [knownA, knownB, Belief.constraints] using resolved
      · rename_i ty cs knownA openB
        cases h
        have resolved : Stepped catalog s (.unify a b) _ _ :=
          .resolve ledA ledB different (.inl knownA)
        simpa [knownA, openB, Belief.constraints] using resolved
      · rename_i cs ty openA knownB
        cases h
        have resolved : Stepped catalog s (.unify a b) _ _ :=
          .resolve ledA ledB different (.inr knownB)
        simpa [openA, knownB, Belief.constraints] using resolved
      · rename_i cs cs' openA openB
        cases h
        exact .unify ledA ledB different openA openB

/-- What is left of a constraint speaks of its slots only. -/
theorem slots_discharge {slot : Nat} {ty : Ty} {c : Constraint} {left : List Task}
    (h : s.discharge catalog slot ty c = .ok left) :
    ∀ t ∈ left, ∀ i ∈ t.slots, i ∈ c.components := by
  unfold discharge at h
  split at h
  case h_5 params result =>
    split at h
    · split at h
      · cases h
        rename_i types resultTy _
        intro t mem i isSlot
        rcases List.mem_append.1 mem with onParam | onResult
        · obtain ⟨j, lt, rfl⟩ := List.getElem_of_mem onParam
          rw [List.getElem_zipWith] at isSlot
          rw [List.length_zipWith] at lt
          cases List.mem_singleton.1 isSlot
          exact List.mem_append_left _ (List.getElem_mem (by omega))
        · cases List.mem_singleton.1 onResult
          cases List.mem_singleton.1 isSlot
          exact List.mem_append_right _ List.mem_cons_self
      · cases h
    · cases h
  all_goals
    repeat' split at h
  all_goals cases h
  all_goals simp [Task.slots, Constraint.components]

theorem slots_pairs {slot : Nat} {c : Constraint} {old : List Constraint} {there : Bool}
    {pairs : List (Nat × Nat)} (inRange : s.InRange) (inside : ∀ e ∈ c.components, e < s.cells.size)
    (unknown : s.belief slot = .unknown old) (met : meetAll c old = .ok (there, pairs)) :
    ∀ t ∈ pairs.map fun (a, b) => Task.unify a b, ∀ i ∈ t.slots, i < s.cells.size := by
  intro t mem i isSlot
  obtain ⟨⟨a, b⟩, isPair, rfl⟩ := List.mem_map.1 mem
  obtain ⟨⟨c', isOld, ofOld⟩, ofNew⟩ := (meetAll_ok met).1 a b isPair
  simp only [Task.slots, List.mem_cons, List.not_mem_nil, or_false] at isSlot
  rcases isSlot with rfl | rfl
  · refine inRange.slots_belief slot i ?_
    rw [unknown]
    exact List.mem_flatMap.2 ⟨c', isOld, ofOld⟩
  · exact inside i ofNew

/-- A task that speaks of slots that are there leaves only such tasks. -/
theorem Stepped.slots_left {task : Task} {left : List Task}
    (stepped : Stepped catalog s task left s') (inRange : s.InRange)
    (inside : ∀ i ∈ task.slots, i < s.cells.size) :
    ∀ t ∈ left, ∀ i ∈ t.slots, i < s.cells.size := by
  have held (slot : Nat) {c : Constraint} (mem : c ∈ (s.belief slot).constraints) :
      ∀ i ∈ c.components, i < s.cells.size := fun i part =>
    inRange.slots_belief slot i (List.mem_flatMap.2 ⟨c, mem, part⟩)
  cases stepped with
  | assigned | expected | unified => simp
  | expect | constrained => simpa [Task.slots] using inside
  | discharge discharged =>
    intro t mem i isSlot
    exact inside i (List.mem_cons_of_mem _ (slots_discharge discharged t mem i isSlot))
  | @assign slot _ _ _ led unknown =>
    intro t mem
    obtain ⟨c, isOne, rfl⟩ := List.mem_map.1 mem
    refine List.forall_mem_cons.2 ⟨inside slot List.mem_cons_self, held slot ?_⟩
    rwa [unknown]
  | again unknown met =>
    exact slots_pairs inRange (fun e mem => inside e (List.mem_cons_of_mem _ mem)) unknown met
  | constrain led unknown met =>
    exact slots_pairs inRange (fun e mem => inside e (List.mem_cons_of_mem _ mem)) unknown met
  | @resolve a b _ _ _ ledA ledB different known =>
    intro t mem
    obtain ⟨c, isOne, rfl⟩ := List.mem_map.1 mem
    refine List.forall_mem_cons.2 ⟨inside b (by simp [Task.slots]), ?_⟩
    rcases List.mem_append.1 isOne with ofA | ofB
    · exact held a ofA
    · exact held b ofB
  | @unify a b x y _ _ ledA ledB different openA openB =>
    intro t mem
    obtain ⟨c, isOne, rfl⟩ := List.mem_map.1 mem
    refine List.forall_mem_cons.2 ⟨?_, ?_⟩
    · rcases (union_spec (leader?_self ledA) (leader?_self ledB) different (.unknown [])).1
        with isX | isY
      · rw [isX]
        exact leader?_lt ledA
      · rw [isY]
        exact leader?_lt ledB
    · rcases List.mem_append.1 isOne with ofA | ofB
      · exact held a (openA ▸ ofA)
      · exact held b (openB ▸ ofB)

theorem Stepped.cells {task : Task} {left : List Task} (stepped : Stepped catalog s task left s')
    (inRange : s.InRange) (inside : ∀ i ∈ task.slots, i < s.cells.size) {i : Nat} {cell : Cell}
    (h : s'.cells[i]? = some cell) : ∀ e ∈ cell.slots, e < s.cells.size := by
  cases stepped with
  | assigned | expected | unified | expect | constrained | discharge | again =>
    exact inRange.cells h
  | assign => exact cells_setBelief inRange (by simp) h
  | @constrain slot _ c old _ led unknown met =>
    refine cells_setBelief inRange (fun e mem => ?_) h
    obtain ⟨c', isOne, part⟩ := List.mem_flatMap.1 mem
    rcases List.mem_append.1 isOne with isOld | isNew
    · refine inRange.slots_belief slot e ?_
      rw [unknown]
      exact List.mem_flatMap.2 ⟨c', isOld, part⟩
    · cases List.mem_singleton.1 isNew
      exact inside e (List.mem_cons_of_mem _ part)
  | resolve ledA ledB | unify ledA ledB =>
    exact cells_union inRange (leader?_lt ledA) (leader?_lt ledB) (by simp) h

end Solver

/-! The machine. -/

/-- What inference has yet to do, and what it knows. -/
structure Config where
  tasks : List Task
  solver : Solver

namespace Config

/-- Every slot that is spoken of anywhere is there. -/
structure InRange (config : Config) : Prop where
  solver : config.solver.InRange
  tasks : ∀ t ∈ config.tasks, ∀ i ∈ t.slots, i < config.solver.cells.size

/-- The constraint that is added next, with the slot that it is added to. -/
def added (config : Config) : List (Nat × Constraint) :=
  match config.tasks with
  | .constrain slot c :: _ => [(slot, c)]
  | _ => []

theorem mem_tasks_of_added {config : Config} {slot : Nat} {c : Constraint}
    (h : (slot, c) ∈ config.added) : .constrain slot c ∈ config.tasks := by
  unfold added at h
  split at h
  · rename_i isFirst
    cases List.mem_singleton.1 h
    rw [isFirst]
    exact List.mem_cons_self
  · cases h

theorem InRange.stepped {catalog : Catalog} {s s' : Solver} {task : Task} {left rest : List Task}
    (inRange : InRange ⟨task :: rest, s⟩) (done : s.step catalog task = .ok (left, s')) :
    Solver.Stepped catalog s task left s' :=
  Solver.stepped_of_step inRange.solver (inRange.tasks task List.mem_cons_self) done

end Config

/-- One move of inference. -/
inductive Move (catalog : Catalog) : Config → Config → Prop
  | task {s s' : Solver} {task : Task} {left rest : List Task}
    (done : s.step catalog task = .ok (left, s')) :
    Move catalog ⟨task :: rest, s⟩ ⟨left ++ rest, s'⟩
  | learn {s : Solver} {tasks : List Task}
    (inside : ∀ t ∈ tasks, ∀ i ∈ t.slots, i < s.cells.size) : Move catalog ⟨[], s⟩ ⟨tasks, s⟩
  | fresh {s : Solver} {like : Nat} {b : Belief} (there : like < s.cells.size)
    (inside : ∀ i ∈ b.slots, i < s.cells.size) : Move catalog ⟨[], s⟩ ⟨[], (s.fresh like b).2⟩
  | record {s : Solver} {slot : Nat} (there : slot < s.cells.size) (o : Overload) :
    Move catalog ⟨[], s⟩ ⟨[], s.setOverload slot o⟩
  | ask {s : Solver} (r : Request) : Move catalog ⟨[], s⟩ ⟨[], { s with asked := r :: s.asked }⟩

/-- A sequence of moves, and the constraints that are added on the way. -/
inductive Run (catalog : Catalog) : Config → List (Nat × Constraint) → Config → Prop
  | refl (config : Config) : Run catalog config [] config
  | move {first second last : Config} {log : List (Nat × Constraint)}
    (moved : Move catalog first second) (run : Run catalog second log last) :
    Run catalog first (first.added ++ log) last

variable {catalog : Catalog} {first second last : Config} {log log' : List (Nat × Constraint)}

theorem Move.inRange (moved : Move catalog first second) (inRange : first.InRange) :
    second.InRange ∧ first.solver.cells.size ≤ second.solver.cells.size := by
  cases moved with
  | @task s s' task left rest done =>
    have inside := inRange.tasks task List.mem_cons_self
    have narrowed := Solver.step_narrowed catalog.closed_true inRange.solver.toValid
      (Task.within_of_slots inside) done
    have stepped := inRange.stepped done
    refine ⟨⟨⟨narrowed.valid, fun h e mem => ?_⟩, fun t mem i isSlot => ?_⟩,
      Nat.le_of_eq narrowed.size.symm⟩
    · rw [narrowed.size]
      exact stepped.cells inRange.solver inside h e mem
    · show i < s'.cells.size
      rw [narrowed.size]
      rcases List.mem_append.1 mem with isLeft | isRest
      · exact stepped.slots_left inRange.solver inside t isLeft i isSlot
      · exact inRange.tasks t (List.mem_cons_of_mem _ isRest) i isSlot
  | learn inside => exact ⟨⟨inRange.solver, inside⟩, Nat.le_refl _⟩
  | @fresh s like b _ inside =>
    have size := s.size_fresh like b
    exact ⟨⟨inRange.solver.fresh catalog like inside, by simp⟩, by simp [size]⟩
  | record there o => exact ⟨⟨inRange.solver.setOverload catalog _ o, by simp⟩, by simp⟩
  | ask r =>
    refine ⟨⟨⟨⟨inRange.solver.leads, inRange.solver.beliefs⟩, inRange.solver.cells⟩, by simp⟩, ?_⟩
    exact Nat.le_refl _

namespace Run

theorem trans (run : Run catalog first log second) (run' : Run catalog second log' last) :
    Run catalog first (log ++ log') last := by
  induction run with
  | refl => exact run'
  | move moved _ ih =>
    rw [List.append_assoc]
    exact .move moved (ih run')

/-- No run leads out of range, and no slot is ever lost. -/
theorem inRange (run : Run catalog first log last) (start : first.InRange) :
    last.InRange ∧ first.solver.cells.size ≤ last.solver.cells.size := by
  induction run with
  | refl => exact ⟨start, Nat.le_refl _⟩
  | move moved _ ih =>
    obtain ⟨next, grows⟩ := moved.inRange start
    obtain ⟨atEnd, growsOn⟩ := ih next
    exact ⟨atEnd, Nat.le_trans grows growsOn⟩

end Run

end LambdaQuery
