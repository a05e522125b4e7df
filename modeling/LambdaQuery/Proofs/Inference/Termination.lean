import LambdaQuery.Proofs.Inference.Soundness
import LambdaQuery.Proofs.Inference.Traces

/-!
# Inference ends, and stays in range

Tasks cannot be done forever, although nothing keeps a slot from being part of itself, and rounds
that do something cannot go on forever, although signatures make new slots. Whatever the query, the
slots it is given are all there from the start, and no move leads to one that is not.
-/

namespace LambdaQuery

/-! The slots of a tree. -/

namespace Term

mutual
/-- The slots of the nodes and of the parameters. -/
def slots : Term Slotted → List Nat
  | lambda n param body => n.slot :: param.note.slot :: slots body
  | binary n _ left right => n.slot :: (slots left ++ slots right)
  | call n _ args => n.slot :: slotsAll args
  | member n receiver _ => n.slot :: slots receiver
  | ident n _ | literal n _ => [n.slot]

def slotsAll : List (Term Slotted) → List Nat
  | [] => []
  | t :: rest => slots t ++ slotsAll rest
end

mutual
theorem bodyLiterals_mem_slots : ∀ (t : Term Slotted), ∀ entry ∈ t.bodyLiterals, entry.1 ∈ t.slots
  | lambda n param body, entry, mem => by
    simp only [bodyLiterals, List.mem_append] at mem
    simp only [slots, List.mem_cons]
    rcases mem with inBody | isBody
    · exact .inr (.inr (bodyLiterals_mem_slots body entry inBody))
    · split at isBody
      · cases List.mem_singleton.1 isBody
        simp [slots]
      · cases isBody
  | binary n op left right, entry, mem => by
    simp only [bodyLiterals, List.mem_append] at mem
    simp only [slots, List.mem_cons, List.mem_append]
    rcases mem with inLeft | inRight
    · exact .inr (.inl (bodyLiterals_mem_slots left entry inLeft))
    · exact .inr (.inr (bodyLiterals_mem_slots right entry inRight))
  | call n name args, entry, mem =>
    List.mem_cons_of_mem _ (bodyLiteralsAll_mem_slots args entry mem)
  | member n receiver name, entry, mem =>
    List.mem_cons_of_mem _ (bodyLiterals_mem_slots receiver entry mem)
  | ident .., entry, mem => by cases mem
  | literal .., entry, mem => by cases mem

theorem bodyLiteralsAll_mem_slots : ∀ (ts : List (Term Slotted)), ∀ entry ∈ bodyLiteralsAll ts,
    entry.1 ∈ slotsAll ts
  | [], entry, mem => by cases mem
  | t :: rest, entry, mem => by
    simp only [bodyLiteralsAll, List.mem_append] at mem
    simp only [slotsAll, List.mem_append]
    rcases mem with inFirst | inRest
    · exact .inl (bodyLiterals_mem_slots t entry inFirst)
    · exact .inr (bodyLiteralsAll_mem_slots rest entry inRest)
end

end Term

mutual
/-- Numbering gives no slot from its end on. -/
theorem Numbered.treeSlots_lt : ∀ {low high : Nat} {t : Term Slotted}, Numbered low t high →
    ∀ i ∈ t.slots, i < high
  | low, _, _, .lambda isParam body => by
    have le := body.le_slot.1
    intro i mem
    simp only [Term.slots, List.mem_cons] at mem
    rcases mem with rfl | rfl | inBody
    · exact Nat.lt_succ_self _
    · omega
    · exact Nat.lt_succ_of_lt (body.treeSlots_lt i inBody)
  | _, _, _, .binary left right => by
    have le := right.le_slot.1
    intro i mem
    simp only [Term.slots, List.mem_cons, List.mem_append] at mem
    rcases mem with rfl | inLeft | inRight
    · exact Nat.lt_succ_self _
    · have := left.treeSlots_lt i inLeft
      omega
    · exact Nat.lt_succ_of_lt (right.treeSlots_lt i inRight)
  | _, _, _, .call args => by
    intro i mem
    simp only [Term.slots, List.mem_cons] at mem
    rcases mem with rfl | inArgs
    · exact Nat.lt_succ_self _
    · exact Nat.lt_succ_of_lt (args.treeSlots_lt i inArgs)
  | _, _, _, .member receiver => by
    intro i mem
    simp only [Term.slots, List.mem_cons] at mem
    rcases mem with rfl | inReceiver
    · exact Nat.lt_succ_self _
    · exact Nat.lt_succ_of_lt (receiver.treeSlots_lt i inReceiver)
  | _, _, _, .bound lt => by simpa [Term.slots] using lt
  | _, _, _, .unbound => by simp [Term.slots]
  | _, _, _, .literal => by simp [Term.slots]

theorem NumberedAll.treeSlots_lt : ∀ {low high : Nat} {ts : List (Term Slotted)},
    NumberedAll low ts high → ∀ i ∈ Term.slotsAll ts, i < high
  | _, _, _, .nil => by simp [Term.slotsAll]
  | _, _, _, .cons first rest => by
    have le := rest.le
    intro i mem
    simp only [Term.slotsAll, List.mem_append] at mem
    rcases mem with inFirst | inRest
    · have := first.treeSlots_lt i inFirst
      omega
    · exact rest.treeSlots_lt i inRest
end

namespace Solver

/-- Whatever can go wrong is blamed on a slot below a bound. -/
def Blames {α : Type} (s : Solver) (bound : Nat) (r : Except TypeError α) : Prop :=
  ∀ e, r = .error e → ∃ slot < bound, ∃ fault, e = s.blame slot fault

namespace Blames

variable {α β : Type} {s : Solver} {bound slot : Nat}

theorem ok (a : α) : s.Blames bound (.ok a) := by
  intro e h
  cases h

theorem error (lt : slot < bound) (fault : TypeFault) :
    s.Blames bound (.error (s.blame slot fault) : Except TypeError α) := by
  intro e h
  cases h
  exact ⟨slot, lt, fault, rfl⟩

theorem bind {r : Except TypeError α} {f : α → Except TypeError β} (first : s.Blames bound r)
    (next : ∀ a, s.Blames bound (f a)) : s.Blames bound (r >>= f) := by
  intro e h
  cases r with
  | error e' =>
    cases h
    exact first e rfl
  | ok a => exact next a e h

theorem typeOf (lt : slot < bound) (fault : TypeFault) :
    s.Blames bound (s.typeOf slot fault) := by
  unfold Solver.typeOf
  split
  · exact .ok _
  · exact .error lt fault

theorem functionBinding (lt : slot < bound) (args : List Ty) :
    s.Blames bound (s.functionBinding slot args) := by
  unfold Solver.functionBinding
  split
  · exact .ok _
  · exact .error lt _

theorem checkOperator (catalog : Catalog) (lt : slot < bound) (op : Operator) (left right : Ty) :
    s.Blames bound (s.checkOperator catalog slot op left right) := by
  unfold Solver.checkOperator
  split
  · exact .error lt _
  · split
    · exact .error lt _
    · split
      · exact .ok _
      · exact .error lt _

theorem literalValue (catalog : Catalog) (lt : slot < bound) (ty : Ty) (text : Option String) :
    s.Blames bound (s.literalValue catalog slot ty text) := by
  unfold Solver.literalValue
  split
  · split
    · exact .ok _
    · exact .error lt _
  · split
    · exact .error lt _
    · rename_i info _
      cases info.parse _ with
      | ok value => exact .ok _
      | error e => exact .error lt _

end Blames

variable {catalog : Catalog} {binders : List (Symbol × Nat)} {bound : Nat}

mutual
/-- A tree that gets no types has a slot to blame. -/
theorem typed_blames (bindersInside : ∀ p ∈ binders, p.2 < bound) (s : Solver) :
    ∀ t : Term Slotted, (∀ i ∈ t.slots, i < bound) → s.Blames bound (s.typed catalog binders t)
  | .lambda n param body, inside => by
    simp only [Term.slots, List.forall_mem_cons] at inside
    obtain ⟨here, paramInside, bodyInside⟩ := inside
    unfold typed
    refine .bind (typed_blames bindersInside s body bodyInside) fun _ => ?_
    refine .bind (.typeOf paramInside _) fun _ => ?_
    exact .bind (.typeOf here _) fun _ => .ok _
  | .binary n op left right, inside => by
    simp only [Term.slots, List.forall_mem_cons, List.forall_mem_append] at inside
    obtain ⟨here, leftInside, rightInside⟩ := inside
    unfold typed
    refine .bind (typed_blames bindersInside s left leftInside) fun _ => ?_
    refine .bind (typed_blames bindersInside s right rightInside) fun _ => ?_
    refine .bind (.checkOperator catalog here op _ _) fun _ => ?_
    exact .bind (.typeOf here _) fun _ => .ok _
  | .call n name args, inside => by
    obtain ⟨here, argsInside⟩ := List.forall_mem_cons.1 inside
    unfold typed
    refine .bind (typedAll_blames bindersInside s args argsInside) fun _ => ?_
    refine .bind (.typeOf here _) fun _ => ?_
    exact .bind (.functionBinding here _) fun _ => .ok _
  | .member n receiver name, inside => by
    obtain ⟨here, receiverInside⟩ := List.forall_mem_cons.1 inside
    unfold typed
    refine .bind (typed_blames bindersInside s receiver receiverInside) fun _ => ?_
    refine .bind (.typeOf here _) fun _ => ?_
    exact .bind (.functionBinding here _) fun _ => .ok _
  | .ident n symbol, inside => by
    unfold typed
    refine .bind (.typeOf ?_ _) fun _ => .ok _
    cases found : binders.lookup symbol with
    | none => exact inside n.slot List.mem_cons_self
    | some slot =>
      obtain ⟨p, mem, rfl, _⟩ := lookup_mem found
      exact bindersInside p mem
  | .literal n text, inside => by
    have here := inside n.slot List.mem_cons_self
    unfold typed
    refine .bind (.typeOf here _) fun _ => ?_
    exact .bind (.literalValue catalog here _ text) fun _ => .ok _

theorem typedAll_blames (bindersInside : ∀ p ∈ binders, p.2 < bound) (s : Solver) :
    ∀ ts : List (Term Slotted), (∀ i ∈ Term.slotsAll ts, i < bound) →
      s.Blames bound (s.typedAll catalog binders ts)
  | [], _ => by
    unfold typedAll
    exact .ok _
  | t :: rest, inside => by
    obtain ⟨firstInside, restInside⟩ := List.forall_mem_append.1 inside
    unfold typedAll
    refine .bind (typed_blames bindersInside s t firstInside) fun _ => ?_
    exact .bind (typedAll_blames bindersInside s rest restInside) fun _ => .ok _
end

theorem mem_of_firstCall? {s : Solver} {items : List Item} {slot : Nat} {name : String}
    {args : List Nat} (h : s.firstCall? items = some (slot, name, args)) :
    .call slot name args ∈ items := by
  fun_induction firstCall? s items with
  | case1 => cases h
  | case2 slot' name' args' rest other found later ih =>
    cases h
    exact List.mem_cons_of_mem _ (ih found)
  | case3 slot' name' args' rest other found notLater ih =>
    cases h
    exact List.mem_cons_self
  | case4 slot' name' args' rest noneLater ih =>
    cases h
    exact List.mem_cons_self
  | case5 item rest notCall ih => exact List.mem_cons_of_mem _ (ih h)

theorem inRange_start (t : Term Slotted) (slots : Nat) : (start t slots).InRange where
  toValid := (blank_start t slots).1.valid
  cells {i cell} there := by
    obtain ⟨isLeader, believed, _⟩ := (blank_start t slots).1 i cell there
    intro e mem
    simp only [Cell.slots, isLeader, believed, Belief.slots, Belief.constraints, List.flatMap_nil,
      List.mem_singleton] at mem
    rw [mem]
    exact (Array.getElem?_eq_some_iff.1 there).1

end Solver

namespace Inference

variable {catalog : Catalog} {resolver : Resolver} {s : Solver} {tree : Term Slotted}
  {binders : List (Symbol × Nat)} {tasks : List Task}

theorem report_proceeds {left : List Item}
    (inside : ∀ item ∈ left, ∀ i ∈ item.slots, i < s.cells.size) :
    Proceeds catalog (report resolver left) s fun _ _ => True := by
  apply Proceeds.get_bind
  split
  · exact .pure trivial
  · rename_i slot name args found
    have there : slot < s.cells.size :=
      inside _ (Solver.mem_of_firstCall? found) slot List.mem_cons_self
    dsimp only
    split
    · exact .fail there _
    · exact .fail there _

/-- From any state in which the slots of a tree are there, the work is a run of moves, and what is
left of it is work of the tree. -/
theorem work_proceeds (inRange : s.InRange)
    (tasksInside : ∀ t ∈ tasks, ∀ i ∈ t.slots, i < s.cells.size)
    (itemsInside : ∀ item ∈ tree.items, ∀ i ∈ item.slots, i < s.cells.size)
    (treeInside : ∀ i ∈ tree.slots, i < s.cells.size) :
    Proceeds catalog (work catalog resolver tree tasks) s
      fun left _ => ∀ item ∈ left, item ∈ tree.items := by
  refine .bind inRange (.learn tasksInside) ?_
  intro _ t inRange' grows _
  refine solve_proceeds inRange' ?_ ?_
  · intro item mem i isSlot
    exact Nat.lt_of_lt_of_le (itemsInside item mem i isSlot) grows
  · intro entry mem
    exact Nat.lt_of_lt_of_le (treeInside _ (tree.bodyLiterals_mem_slots entry mem)) grows

/-- From any state in which the slots of a tree are there, inference is a run of moves; if it ends
well, it has the types for the tree. -/
theorem run_proceeds (inRange : s.InRange)
    (tasksInside : ∀ t ∈ tasks, ∀ i ∈ t.slots, i < s.cells.size)
    (itemsInside : ∀ item ∈ tree.items, ∀ i ∈ item.slots, i < s.cells.size)
    (treeInside : ∀ i ∈ tree.slots, i < s.cells.size)
    (bindersInside : ∀ p ∈ binders, p.2 < s.cells.size) :
    Proceeds catalog (run catalog resolver tree binders tasks) s
      fun t s' => s'.typed catalog binders tree = .ok t := by
  refine .bind inRange (work_proceeds inRange tasksInside itemsInside treeInside) ?_
  intro left t inRange₁ grows₁ sub
  refine .bind inRange₁ (report_proceeds fun item mem i isSlot => ?_) ?_
  · exact Nat.lt_of_lt_of_le (itemsInside item (sub item mem) i isSlot) grows₁
  intro _ t' inRange₂ grows₂ _
  apply Proceeds.get_bind
  cases typed : t'.typed catalog binders tree with
  | ok typedTree => exact .pure typed
  | error e =>
    obtain ⟨slot, there, fault, rfl⟩ :=
      Solver.typed_blames bindersInside t' tree treeInside e typed
    exact .throw (by omega) fault

/-- What is learnt at the start speaks of slots of the tree only. -/
theorem startTasks_inside {high : Nat} {root : Ty} {expected : Option Ty}
    (numbered : Numbered 0 tree high) (isStart : tree.startTasks? root expected = some tasks) :
    ∀ t ∈ tasks, ∀ i ∈ t.slots, i < high := by
  intro t mem i isSlot
  cases tree with
  | lambda n param body =>
    have within := startTasks_within (P := fun _ => True) numbered isStart trivial
      (fun _ _ => trivial) t mem
    cases isStart
    rw [Term.lambdaTasks_eq] at mem
    simp only [List.cons_append, List.mem_cons, List.mem_append, List.mem_map] at mem
    rcases mem with rfl | ⟨l, isLambda, rfl⟩ | ⟨ty, isExpected, rfl⟩
    · cases List.mem_singleton.1 isSlot
      exact within.1
    · rcases List.mem_cons.1 isSlot with rfl | part
      · exact within.1
      · exact within.2 i part
    · cases List.mem_singleton.1 isSlot
      exact within.1
  | binary | call | member | ident | literal => cases isStart

end Inference

/-! The whole of inference. -/

/-- Every slot that a query is given is there from the start, and wherever moves lead from there,
everything is in range and no slot is lost. -/
structure StaysInRange (catalog : Catalog) (tree : Term Slotted) (numbering : Numbering) :
    Prop where
  nodes : ∀ i ∈ tree.slots, i < numbering.next
  items : ∀ item ∈ tree.items, ∀ i ∈ item.slots, i < numbering.next
  binders : ∀ p ∈ numbering.binders, p.2 < numbering.next
  runs : ∀ {log : List (Nat × Constraint)} {config : Config},
    Run catalog ⟨[], .start tree numbering.next⟩ log config →
      config.InRange ∧ numbering.next ≤ config.solver.cells.size

/-- What inference comes to: it has types for the tree, or it stops at a fault, or the query is not
a lambda and there is nothing to infer. -/
inductive Ends (catalog : Catalog) (query : Term Span) (tree : Term Slotted)
    (numbering : Numbering) : Except TypeError (Term Typed) → Prop
  | typed {log : List (Nat × Constraint)} {s : Solver} {t : Term Typed}
    (run : Run catalog ⟨[], .start tree numbering.next⟩ log ⟨[], s⟩)
    (isTyped : s.typed catalog numbering.binders tree = .ok t) :
    Ends catalog query tree numbering (.ok t)
  | failed {log : List (Nat × Constraint)} {config : Config} {e : TypeError}
    (run : Run catalog ⟨[], .start tree numbering.next⟩ log config)
    (fails : config.Fails catalog e) : Ends catalog query tree numbering (.error e)
  | rejected (notLambda : ∀ span param body, query ≠ .lambda span param body) :
    Ends catalog query tree numbering (.error ⟨.notALambda, query.tag, query.note⟩)

theorem staysInRange (catalog : Catalog) (query : Term Span) :
    StaysInRange catalog (query.number .start).1 (query.number .start).2 := by
  obtain ⟨numbered, settled⟩ := query.number_numbered Numbering.settled_start
  refine ⟨numbered.treeSlots_lt, numbered.slots_lt, settled, fun run => ?_⟩
  have grown := run.inRange ⟨Solver.inRange_start _ _, by simp⟩
  rwa [(Solver.blank_start _ _).2] at grown

/-- Doing a task leaves less to do, so tasks come to an end. -/
theorem wellFounded_tasks (catalog : Catalog) :
    WellFounded fun next config : Config => config.tasks ≠ [] ∧ Move catalog config next := by
  have lex : WellFounded
      (Prod.Lex (· < ·) (Prod.Lex (· < ·) (· < ·)) : Nat × Nat × Nat → Nat × Nat × Nat → Prop) :=
    (Prod.lex Nat.lt_wfRel (Prod.lex Nat.lt_wfRel Nat.lt_wfRel)).wf
  refine Subrelation.wf ?_
    (InvImage.wf (fun config : Config => Solver.load config.tasks config.solver) lex)
  rintro next config ⟨busy, moved⟩
  cases moved with
  | task done => exact Solver.step_lt done
  | learn => exact absurd rfl busy
  | fresh => exact absurd rfl busy
  | record => exact absurd rfl busy
  | ask => exact absurd rfl busy

/-- A round that does something leaves less, so rounds come to an end. -/
theorem wellFounded_rounds (catalog : Catalog) (resolver : Resolver)
    (literals : List (Nat × String)) :
    WellFounded fun next now : List Item × Solver =>
      Inference.round catalog resolver literals now.1 now.2 = .ok (next.1, true) next.2 := by
  have lex : WellFounded (Prod.Lex (· < ·) (· < ·) : Nat × Nat → Nat × Nat → Prop) :=
    (Prod.lex Nat.lt_wfRel Nat.lt_wfRel).wf
  refine Subrelation.wf ?_
    (InvImage.wf (fun now : List Item × Solver => (now.1.length, now.2.potential)) lex)
  intro next now worked
  rcases Inference.round_ok worked with fewer | ⟨same, lower⟩
  · exact .left _ _ fewer
  · have lengths : next.1.length = now.1.length := same
    simp only [InvImage, lengths]
    exact .right _ lower

theorem ends_infer (catalog : Catalog) (resolver : Resolver) (query : Term Span) (root : Ty)
    (expected : Option Ty) :
    Ends catalog query (query.number .start).1 (query.number .start).2
      (infer catalog resolver query root expected).outcome := by
  have inRange := staysInRange catalog query
  unfold infer
  cases isStart : (query.number .start).1.startTasks? root expected with
  | none =>
    simp only [isStart]
    refine .rejected fun span param body isLambda => ?_
    subst isLambda
    cases isStart
  | some tasks =>
    simp only [isStart]
    have size := (Solver.blank_start (query.number .start).1 (query.number .start).2.next).2
    have tasksInside := Inference.startTasks_inside
      (query.number_numbered Numbering.settled_start).1 isStart
    have proceeds : Inference.Proceeds catalog (Inference.run catalog resolver
        (query.number .start).1 (query.number .start).2.binders tasks)
        (.start (query.number .start).1 (query.number .start).2.next) _ :=
      Inference.run_proceeds (Solver.inRange_start _ _) (by rwa [size])
        (by rw [size]; exact inRange.items) (by rw [size]; exact inRange.nodes)
        (by rw [size]; exact inRange.binders)
    split
    · rename_i t s ended
      obtain ⟨⟨log, run⟩, isTyped⟩ := proceeds.ok ended
      exact .typed run isTyped
    · rename_i e s ended
      obtain ⟨log, config, run, fails⟩ := proceeds.error ended
      exact .failed run fails

/-- **Inference ends.** Tasks cannot be done forever and rounds cannot go on forever. For every
query, the slots stay in range, and the outcome is reached in finitely many moves. -/
theorem infer_ends (catalog : Catalog) (resolver : Resolver) :
    (WellFounded fun next config : Config => config.tasks ≠ [] ∧ Move catalog config next) ∧
      (∀ literals, WellFounded fun next now : List Item × Solver =>
        Inference.round catalog resolver literals now.1 now.2 = .ok (next.1, true) next.2) ∧
      ∀ (query : Term Span) (root : Ty) (expected : Option Ty),
        StaysInRange catalog (query.number .start).1 (query.number .start).2 ∧
          Ends catalog query (query.number .start).1 (query.number .start).2
            (infer catalog resolver query root expected).outcome := by
  refine ⟨wellFounded_tasks catalog, wellFounded_rounds catalog resolver, ?_⟩
  intro query root expected
  exact ⟨staysInRange catalog query, ends_infer catalog resolver query root expected⟩

end LambdaQuery
