import LambdaQuery.Proofs.Inference.FirstCall
import LambdaQuery.Proofs.Term.Binding

/-!
# What type errors are blamed on

A slot belongs to a node of the query or to the parameter of a lambda, and is blamed on it. Slots
that are made on the way belong to what the slot they are made for belongs to, and no move changes
that. So a type error names a node or a parameter of the query, and where it stands.
-/

namespace LambdaQuery

namespace Term

/-- The tag and the place are those of a node, or of the parameter of a lambda. -/
def Shows (t : Term Span) (tag : NodeTag) (span : Span) : Prop :=
  (∃ around node, At around node t ∧ node.tag = tag ∧ node.note = span) ∨
    tag = .parameter ∧ ∃ around note param body, At around (.lambda note param body) t ∧
      param.note = span

namespace Shows

variable {tag : NodeTag} {span : Span} {t outer : Term Span}

theorem root (t : Term Span) : t.Shows t.tag t.note :=
  .inl ⟨[], t, .here, rfl, rfl⟩

theorem param (note : Span) (param : Binder Span) (body : Term Span) :
    (Term.lambda note param body).Shows .parameter param.note :=
  .inr ⟨rfl, [], note, param, body, .here, rfl⟩

/-- Whatever is shown by a part is shown by the whole. -/
theorem of_part (h : t.Shows tag span)
    (inside : ∀ {around node}, At around node t → ∃ around', At around' node outer) :
    outer.Shows tag span := by
  rcases h with ⟨around, node, place, isTag, isSpan⟩ | ⟨isTag, around, note, param, body, place, isSpan⟩
  · obtain ⟨around', place'⟩ := inside place
    exact .inl ⟨around', node, place', isTag, isSpan⟩
  · obtain ⟨around', place'⟩ := inside place
    exact .inr ⟨isTag, around', note, param, body, place', isSpan⟩

theorem of_child {child : Term Span} (h : child.Shows tag span) (isChild : child ∈ t.children) :
    t.Shows tag span := by
  refine h.of_part fun {around node} place => ?_
  cases t with
  | lambda note param body =>
    cases List.mem_singleton.1 isChild
    exact ⟨_, .body place⟩
  | binary _ _ left right =>
    simp only [children, List.mem_cons, List.not_mem_nil, or_false] at isChild
    rcases isChild with rfl | rfl
    · exact ⟨_, .left place⟩
    · exact ⟨_, .right place⟩
  | call => exact ⟨_, .argument isChild place⟩
  | member =>
    cases List.mem_singleton.1 isChild
    exact ⟨_, .receiver place⟩
  | ident | literal => cases isChild

end Shows

end Term

namespace Solver

variable {P : NodeTag → Span → Prop} {catalog : Catalog} {s s' : Solver}

/-! ### The slots of a query -/

/-- Every slot belongs to something of a kind. -/
def OwnersIn (P : NodeTag → Span → Prop) (cells : Array Cell) : Prop :=
  ∀ (i : Nat) (cell : Cell), cells[i]? = some cell → P cell.origin.tag cell.origin.span

theorem OwnersIn.own {cells : Array Cell} (h : OwnersIn P cells) (slot : Nat) {tag : NodeTag}
    {span : Span} (here : P tag span) : OwnersIn P (own cells slot tag span) := by
  intro i cell there
  simp only [Solver.own, Array.getElem?_modify] at there
  split at there
  · obtain ⟨old, _, rfl⟩ := Option.map_eq_some_iff.1 there
    exact here
  · exact h i cell there

mutual
/-- The slots of a tree belong to its nodes and parameters, whatever the others belong to. -/
theorem ownersIn_ownSlots : ∀ {t : Term Slotted} {cells : Array Cell}, OwnersIn P cells →
    (∀ tag span, (t.map Slotted.span).Shows tag span → P tag span) →
    OwnersIn P (ownSlots cells t)
  | .lambda n param body, cells, h, shown => by
    have onParam := h.own param.note.slot (shown _ _ (.param ..))
    have onBody := ownersIn_ownSlots (t := body) onParam fun _ _ inBody =>
      shown _ _ (inBody.of_child List.mem_cons_self)
    exact onBody.own n.slot (shown _ _ (.root _))
  | .binary n _ left right, cells, h, shown => by
    have onLeft := ownersIn_ownSlots (t := left) h fun _ _ inLeft =>
      shown _ _ (inLeft.of_child List.mem_cons_self)
    have onRight := ownersIn_ownSlots (t := right) onLeft fun _ _ inRight =>
      shown _ _ (inRight.of_child (List.mem_cons_of_mem _ List.mem_cons_self))
    exact onRight.own n.slot (shown _ _ (.root _))
  | .call n _ args, cells, h, shown => by
    have onArgs := ownersIn_ownSlotsAll args h fun arg isArg _ _ inArg =>
      shown _ _ (inArg.of_child isArg)
    exact onArgs.own n.slot (shown _ _ (.root _))
  | .member n receiver _, cells, h, shown => by
    have onReceiver := ownersIn_ownSlots (t := receiver) h fun _ _ inReceiver =>
      shown _ _ (inReceiver.of_child List.mem_cons_self)
    exact onReceiver.own n.slot (shown _ _ (.root _))
  | .ident .., _, h, _ => h
  | .literal n _, _, h, shown => h.own n.slot (shown _ _ (.root _))

theorem ownersIn_ownSlotsAll : ∀ (ts : List (Term Slotted)) {cells : Array Cell},
    OwnersIn P cells →
    (∀ t ∈ Term.mapAll Slotted.span ts, ∀ tag span, t.Shows tag span → P tag span) →
    OwnersIn P (ownSlotsAll cells ts)
  | [], _, h, _ => h
  | t :: rest, cells, h, shown => by
    have onFirst := ownersIn_ownSlots (t := t) h (shown _ List.mem_cons_self)
    exact ownersIn_ownSlotsAll rest onFirst fun other mem =>
      shown other (List.mem_cons_of_mem _ mem)
end

/-- A slot that nothing owns belongs to the whole query. -/
theorem ownersIn_start {t : Term Slotted} {slots : Nat} (whole : P .lambda t.note.span)
    (shown : ∀ tag span, (t.map Slotted.span).Shows tag span → P tag span) :
    OwnersIn P (start t slots).cells := by
  refine ownersIn_ownSlots (fun i cell there => ?_) shown
  obtain ⟨j, -, rfl⟩ : ∃ j, (Array.range slots)[i]? = some j ∧ _ = cell := by simpa using there
  exact whole

/-- Every slot that is there is blamed on something of a kind. -/
def Owned (P : NodeTag → Span → Prop) (s : Solver) : Prop :=
  ∀ slot < s.cells.size, P (s.origin slot).tag (s.origin slot).span

theorem OwnersIn.owned (h : OwnersIn P s.cells) : s.Owned P := by
  intro slot there
  have isCell := Array.getElem?_eq_getElem there
  rw [origin, isCell]
  exact h slot _ isCell

/-! ### Faults -/

theorem discharge_error {slot : Nat} {ty : Ty} {c : Constraint} {e : TypeError}
    (failed : s.discharge catalog slot ty c = .error e) : ∃ fault, e = s.blame slot fault := by
  unfold discharge at failed
  repeat' split at failed
  all_goals cases failed
  all_goals exact ⟨_, rfl⟩

theorem blame_union (s : Solver) (x y : Nat) (b : Belief) (slot : Nat) (fault : TypeFault) :
    (s.union x y b).2.blame slot fault = s.blame slot fault := by
  simp [blame]

/-- A task that cannot be done is blamed on one of its slots. -/
theorem step_error {task : Task} {e : TypeError} (failed : s.step catalog task = .error e) :
    ∃ slot ∈ task.slots, ∃ fault, e = s.blame slot fault := by
  cases task with
  | assign slot ty =>
    simp only [step] at failed
    repeat' split at failed
    all_goals cases failed
    exact ⟨slot, List.mem_cons_self, _, rfl⟩
  | expect slot ty flow =>
    simp only [step] at failed
    repeat' split at failed
    all_goals cases failed
    exact ⟨slot, List.mem_cons_self, _, rfl⟩
  | discharge slot ty c =>
    simp only [step] at failed
    split at failed <;> cases failed
    exact ⟨slot, List.mem_cons_self, discharge_error ‹_›⟩
  | constrain slot c =>
    simp only [step] at failed
    repeat' split at failed
    all_goals cases failed
    exact ⟨slot, List.mem_cons_self, _, rfl⟩
  | unify a b =>
    simp only [step] at failed
    repeat' split at failed
    all_goals cases failed
    exact ⟨b, List.mem_cons_of_mem _ List.mem_cons_self, _, blame_union ..⟩

end Solver

/-! ### Runs -/

section

variable {P : NodeTag → Span → Prop} {catalog : Catalog} {first second last config : Config}
  {log : List (Nat × Constraint)} {e : TypeError}

/-- A new slot belongs to what the slot that it is made for belongs to, and nothing changes for the
others. -/
theorem Move.owned (moved : Move catalog first second) (inRange : first.InRange)
    (owned : first.solver.Owned P) : second.solver.Owned P := by
  intro slot there
  by_cases old : slot < first.solver.cells.size
  · rw [moved.origin inRange old]
    exact owned slot old
  · cases moved with
    | @task s s' task left rest done =>
      have narrowed := Solver.step_narrowed catalog.closed_true inRange.solver.toValid
        (Task.within_of_slots (inRange.tasks task List.mem_cons_self)) done
      exact absurd (narrowed.size ▸ there) old
    | @fresh s like b likeThere _ =>
      have isNew : slot = s.cells.size := by
        rw [Solver.size_fresh] at there
        exact Nat.le_antisymm (Nat.le_of_lt_succ there) (Nat.le_of_not_lt old)
      have copied : (s.fresh like b).2.origin s.cells.size = s.origin like := by
        simp [Solver.origin, Solver.fresh]
      subst isNew
      show P ((s.fresh like b).2.origin s.cells.size).tag ((s.fresh like b).2.origin s.cells.size).span
      rw [copied]
      exact owned like likeThere
    | learn | ask => exact absurd there old
    | record => exact absurd (by simpa using there) old

theorem Run.owned (run : Run catalog first log last) (inRange : first.InRange)
    (owned : first.solver.Owned P) : last.solver.Owned P := by
  induction run with
  | refl => exact owned
  | move moved _ ih => exact ih (moved.inRange inRange).1 (moved.owned inRange owned)

theorem Config.Fails.owned (fails : config.Fails catalog e) (inRange : config.InRange)
    (owned : config.solver.Owned P) : P e.node e.span := by
  cases fails with
  | @task s task rest e failed =>
    obtain ⟨slot, isSlot, fault, rfl⟩ := Solver.step_error failed
    exact owned slot (inRange.tasks task List.mem_cons_self slot isSlot)
  | blame there fault => exact owned _ there

end

/-- A type error names a node of the query and where it stands, or a parameter and where it is
bound. -/
theorem shows_of_infer_error {catalog : Catalog} {resolver : Resolver} {query : Term Span} {root : Ty}
    {expected : Option Ty} {e : TypeError}
    (failed : (infer catalog resolver query root expected).outcome = .error e) :
    query.Shows e.node e.span := by
  have ends := ends_infer catalog resolver query root expected
  cases isLambda : query with
  | lambda note param body =>
    rw [← isLambda]
    rw [failed] at ends
    cases ends with
    | failed run fails =>
      have inRange := (staysInRange catalog query).runs run
      have start : (Solver.start (query.number .start).1 (query.number .start).2.next).Owned
          query.Shows := by
        refine (Solver.ownersIn_start ?_ ?_).owned
        · subst isLambda
          exact .root (.lambda note param body)
        · rw [query.map_number]
          exact fun _ _ shown => shown
      exact fails.owned inRange.1 (run.owned ⟨Solver.inRange_start _ _, by simp⟩ start)
    | rejected => exact .root query
  | _ =>
    subst isLambda
    cases failed
    exact .root _

end LambdaQuery
