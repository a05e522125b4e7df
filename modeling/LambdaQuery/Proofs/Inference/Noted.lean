import Mathlib.Data.List.Pairwise
import LambdaQuery.Proofs.Inference.Operations
import LambdaQuery.Proofs.Inference.Stalled

/-!
# What trying in vain leaves behind

An item that cannot be done yet is noted: a member is asked of its receiver, the parts of arithmetic
are asked to be numbers, a comparison is a truth value. What was noted stays noted. So an item that
is tried in vain a second time has nothing to add, and leaves what is known as it is.

That nothing is added the second time rests on the constraints of a class being different ones.
A class that has a slot of the query in it gets its constraints one by one, and none that says the
same as one before.
-/

namespace LambdaQuery

/-! Constraints that say different things. -/

namespace Constraint

/-- Constraints that do not say the same of a type. -/
def Apart (c c' : Constraint) : Prop :=
  ∀ pairs, c.meet c' ≠ .same pairs

instance : Std.Symm Apart where
  symm c c' h pairs met := by
    have matching : Matches (fun _ _ => True) c' c := .of_meet met (by simp)
    obtain ⟨pairs', met', _⟩ := (matching.symm fun _ => trivial).exists_meet
    exact h pairs' met'

/-- Constraints that match the same one do not say different things. -/
theorem Matches.not_apart {R R' : Nat → Nat → Prop} {c c' c'' : Constraint} (first : Matches R c c'')
    (second : Matches R' c' c'') : ¬c.Apart c' := by
  intro apart
  have weak : Matches (fun _ _ => True) c c'' := first.mono fun _ _ _ _ => trivial
  have weak' : Matches (fun _ _ => True) c' c'' := second.mono fun _ _ _ _ => trivial
  obtain ⟨pairs, met, _⟩ := (weak.trans (fun _ _ => trivial) (weak'.symm fun _ => trivial)).exists_meet
  exact apart pairs met

/-- Numbers and properties: constraints that either say the same as another or have nothing to do
with it. -/
def Separate (c : Constraint) : Prop :=
  ∀ (old : Constraint) (pairs : List (Nat × Nat)), old.meet c ≠ .beside pairs

theorem separate_arithmetic : Separate .arithmetic := by
  intro old pairs met
  cases old <;> cases met

theorem separate_property (name : String) (slot : Nat) : Separate (.property name slot) := by
  intro old pairs met
  cases old with
  | property name' slot' =>
    simp only [meet] at met
    split at met <;> cases met
  | _ => cases met

end Constraint

namespace Solver

variable {catalog : Catalog} {s s' : Solver} {n : Nat}

/-- A constraint is added only where none says the same, and the slots that it makes the same are
those of a constraint it meets. -/
theorem meetAll_origin {new : Constraint} {old : List Constraint} {there : Bool}
    {pairs : List (Nat × Nat)} (h : meetAll new old = .ok (there, pairs)) :
    (there = false → ∀ c ∈ old, c.Apart new) ∧
      ∀ p ∈ pairs, ∃ c ∈ old, ∃ some,
        (c.meet new = .same some ∨ c.meet new = .beside some) ∧ p ∈ some := by
  induction old generalizing there pairs with
  | nil =>
    cases h
    simp
  | cons first rest ih =>
    have later {flag : Bool} {more : List (Nat × Nat)} (h : meetAll new rest = .ok (flag, more)) :
        ∀ p ∈ more, ∃ c ∈ first :: rest, ∃ some,
          (c.meet new = .same some ∨ c.meet new = .beside some) ∧ p ∈ some := by
      intro p mem
      obtain ⟨c, inRest, found⟩ := (ih h).2 p mem
      exact ⟨c, List.mem_cons_of_mem _ inRest, found⟩
    unfold meetAll at h
    split at h
    · cases h
    · rename_i met
      refine ⟨fun notThere => ?_, later h⟩
      refine List.forall_mem_cons.2 ⟨fun pairs same => ?_, (ih h).1 notThere⟩
      cases met.symm.trans same
    · rename_i some met
      cases rec : meetAll new rest with
      | error e => simp [rec, Except.map] at h
      | ok answer =>
        simp only [rec, Except.map, Except.ok.injEq, Prod.mk.injEq] at h
        obtain ⟨rfl, rfl⟩ := h
        refine ⟨by simp, fun p mem => ?_⟩
        rcases List.mem_append.1 mem with here | more
        · exact ⟨first, List.mem_cons_self, some, .inl met, here⟩
        · exact later rec p more
    · rename_i some met
      cases rec : meetAll new rest with
      | error e => simp [rec, Except.map] at h
      | ok answer =>
        simp only [rec, Except.map, Except.ok.injEq, Prod.mk.injEq] at h
        obtain ⟨rfl, rfl⟩ := h
        refine ⟨fun notThere => ?_, fun p mem => ?_⟩
        · refine List.forall_mem_cons.2 ⟨fun pairs same => ?_, (ih rec).1 notThere⟩
          cases met.symm.trans same
        · rcases List.mem_append.1 mem with here | more
          · exact ⟨first, List.mem_cons_self, some, .inr met, here⟩
          · exact later rec p more

/-- The constraints on a slot below `n` say different things. -/
def Distinct (n : Nat) (s : Solver) : Prop :=
  ∀ slot < n, ∀ cs, s.belief slot = .unknown cs → cs.Pairwise Constraint.Apart

theorem Stepped.distinct {task : Task} {left : List Task} (stepped : Stepped catalog s task left s')
    (h : s.Distinct n) : s'.Distinct n := by
  cases stepped with
  | assigned | expected | unified | expect | constrained | discharge | again => exact h
  | @assign _ leader =>
    intro slot lt cs believed
    by_cases inClass : s.leader? slot = some leader
    · rw [belief_setBelief inClass] at believed
      cases believed
    · rw [belief_setBelief_of_ne inClass] at believed
      exact h slot lt cs believed
  | @constrain _ leader c old pairs led unknown met =>
    intro slot lt cs believed
    by_cases inClass : s.leader? slot = some leader
    · rw [belief_setBelief inClass] at believed
      cases believed
      have before : s.belief slot = .unknown old := (belief_congr inClass led).trans unknown
      have apart := (meetAll_origin met).1 rfl
      exact List.pairwise_append.2 ⟨h slot lt old before, List.pairwise_singleton _ _,
        fun c' mem _ isNew => List.mem_singleton.1 isNew ▸ apart c' mem⟩
    · rw [belief_setBelief_of_ne inClass] at believed
      exact h slot lt cs believed
  | @resolve a b x y ty ledA ledB different =>
    intro slot lt cs believed
    by_cases either : s.leader? slot = some x ∨ s.leader? slot = some y
    · rw [belief_union (leader?_self ledA) (leader?_self ledB) different _ either] at believed
      cases believed
    · rw [belief_union_of_ne (leader?_self ledA) (leader?_self ledB) different _ either] at believed
      exact h slot lt cs believed
  | @unify a b x y _ _ ledA ledB different =>
    intro slot lt cs believed
    by_cases either : s.leader? slot = some x ∨ s.leader? slot = some y
    · rw [belief_union (leader?_self ledA) (leader?_self ledB) different _ either] at believed
      cases believed
      exact .nil
    · rw [belief_union_of_ne (leader?_self ledA) (leader?_self ledB) different _ either] at believed
      exact h slot lt cs believed

end Solver

theorem Move.distinct {catalog : Catalog} {first second : Config} {n : Nat}
    (moved : Move catalog first second) (inRange : first.InRange)
    (size : n ≤ first.solver.cells.size) (h : first.solver.Distinct n) :
    second.solver.Distinct n := by
  cases moved with
  | task done => exact (inRange.stepped done).distinct h
  | learn => exact h
  | fresh =>
    intro slot lt cs believed
    obtain ⟨leader, led⟩ := inRange.solver.leads (Nat.lt_of_lt_of_le lt size)
    exact h slot lt cs ((Solver.belief_fresh led).symm.trans believed)
  | record =>
    intro slot lt cs believed
    exact h slot lt cs (by simpa using believed)
  | ask => exact h

theorem Run.distinct {catalog : Catalog} {first last : Config} {log : List (Nat × Constraint)}
    {n : Nat} (run : Run catalog first log last) (inRange : first.InRange)
    (size : n ≤ first.solver.cells.size) (h : first.solver.Distinct n) :
    last.solver.Distinct n := by
  induction run with
  | refl => exact h
  | move moved _ ih =>
    obtain ⟨next, grows⟩ := moved.inRange inRange
    exact ih next (Nat.le_trans size grows) (moved.distinct inRange size h)

/-! Asking again for what is kept. -/

namespace Solver

variable {catalog : Catalog} {s s' : Solver} {n slot : Nat} {tasks : List Task}

/-- Slots of one class need not be unified. -/
theorem narrow_unify_same {pairs : List (Nat × Nat)} (same : ∀ p ∈ pairs, s.SameClass p.1 p.2)
    (h : s.narrow catalog (pairs.map (fun (a, b) => .unify a b) ++ tasks) = .ok s') :
    s.narrow catalog tasks = .ok s' := by
  induction pairs with
  | nil => exact h
  | cons pair rest ih =>
    obtain ⟨left, t, stepped, h⟩ := narrow_cons h
    obtain ⟨leader, ledA, ledB⟩ := same pair List.mem_cons_self
    simp only [step, ledA, ledB, if_true] at stepped
    cases stepped
    exact ih (fun p mem => same p (List.mem_cons_of_mem _ mem)) h

/-- A constraint that a class of unknown type is under already adds nothing. -/
theorem narrow_constrain_held {c : Constraint} {old : List Constraint} (separate : c.Separate)
    (distinct : old.Pairwise Constraint.Apart) (unknown : s.belief slot = .unknown old)
    (held : ∃ c' ∈ old, c.Matches s.SameClass c')
    (h : s.narrow catalog (.constrain slot c :: tasks) = .ok s') :
    s.narrow catalog tasks = .ok s' := by
  obtain ⟨left, t, stepped, h⟩ := narrow_cons h
  obtain ⟨c', isOld, matching⟩ := held
  have matching' := matching.symm SameClass.symm
  obtain ⟨own, metOwn, related⟩ := matching'.exists_meet
  simp only [step] at stepped
  cases led : s.leader? slot with
  | none =>
    simp only [led] at stepped
    cases stepped
    exact h
  | some leader =>
    simp only [led, unknown] at stepped
    split at stepped <;> cases stepped
    rename_i there pairs met
    obtain ⟨apart, origin⟩ := meetAll_origin met
    obtain rfl : there = true := by
      cases there with
      | true => rfl
      | false => exact absurd metOwn (apart rfl c' isOld own)
    refine narrow_unify_same (fun p mem => ?_) h
    -- Only the constraint that says the same has slots to pair.
    obtain ⟨c'', isOld', some, met' | beside, inSome⟩ := origin p mem
    · have same : c'' = c' := by
        by_contra different
        have apart' := distinct.forall isOld' isOld different
        have matching'' : Constraint.Matches (fun _ _ => True) c'' c := .of_meet met' (by simp)
        exact matching''.not_apart matching' apart'
      subst same
      cases metOwn.symm.trans met'
      exact related p inSome
    · exact absurd beside (separate c'' some)

/-- A slot that is kept a number is asked to be one in vain. -/
theorem narrow_constrain_arithmetic (distinct : s.Distinct n) (lt : slot < n)
    (kept : s.Kept catalog slot .arithmetic)
    (h : s.narrow catalog (.constrain slot .arithmetic :: tasks) = .ok s') :
    s.narrow catalog tasks = .ok s' := by
  unfold Kept at kept
  cases believed : s.belief slot with
  | unknown old =>
    simp only [believed] at kept
    exact narrow_constrain_held Constraint.separate_arithmetic (distinct slot lt old believed)
      believed kept h
  | known ty =>
    obtain ⟨left, t, stepped, h⟩ := narrow_cons h
    simp only [step] at stepped
    cases led : s.leader? slot with
    | none =>
      simp only [led] at stepped
      cases stepped
      exact h
    | some leader =>
      simp only [led, believed] at stepped
      cases stepped
      obtain ⟨left, t, stepped, h⟩ := narrow_cons h
      simp only [step, discharge] at stepped
      split at stepped
      · cases stepped
        rename_i discharged
        split at discharged <;> cases discharged
        exact h
      · cases stepped

end Solver

/-! What items note. -/

/-- What an item that cannot be done yet asks of slots. -/
def Item.notes : Item → List (Nat × Constraint)
  | .member slot receiver name => [(receiver, .property name slot)]
  | .binary slot op left right =>
    if op.kind = .arithmetic ∧ op ≠ .add then
      [(left, .arithmetic), (right, .arithmetic), (slot, .arithmetic)]
    else
      []
  | .call .. => []

namespace Inference

open Solver

variable {catalog : Catalog} {resolver : Resolver} {s s' : Solver} {n : Nat} {item : Item}

/-- Everything that trying the item can ask for without doing it is known or kept. -/
structure Noted (catalog : Catalog) (s : Solver) (item : Item) : Prop where
  asked : Asked s item
  kept : ∀ note ∈ item.notes, s.Kept catalog note.1 note.2

theorem Noted.run (noted : Noted catalog s item) {log : List (Nat × Constraint)}
    (inRange : s.InRange) (run : Run catalog ⟨[], s⟩ log ⟨[], s'⟩) : Noted catalog s' item := by
  have start : Config.InRange ⟨[], s⟩ := ⟨inRange, by simp⟩
  have atEnd := (run.inRange start).1.solver
  constructor
  · have asked := noted.asked
    cases item with
    | binary slot op left right =>
      intro compares
      obtain ⟨ty, known⟩ := asked compares
      exact ⟨ty, (run.models start (s'.models_at_rest catalog)).solver.eq_some known⟩
    | _ => trivial
  · intro note mem
    exact kept_of_ensures atEnd (run.ensures start (.inl (noted.kept note mem).ensures))

/-- A member that is tried in vain is asked of a receiver of unknown type. -/
theorem attemptMember_false {slot receiver : Nat} {name : String}
    (h : attemptMember catalog resolver slot receiver name s = .ok false s') :
    s.known? receiver = none ∧
      s.narrow catalog [.constrain receiver (.property name slot)] = .ok s' := by
  obtain ⟨_, _, got, h⟩ := bind_ok h
  obtain ⟨rfl, rfl⟩ := get_ok got
  cases known : s.known? receiver with
  | none =>
    simp only [known] at h
    obtain ⟨_, _, learnt, done⟩ := bind_ok h
    obtain ⟨_, rfl⟩ := pure_ok done
    exact ⟨rfl, learn_ok learnt⟩
  | some ty =>
    simp only [known] at h
    obtain ⟨found, t, _, h⟩ := bind_ok h
    cases found with
    | none => exact absurd h fail_ne_ok
    | some o =>
      obtain ⟨_, _, _, done⟩ := bind_ok h
      cases (pure_ok done).1

/-- A call that is tried in vain changes nothing that is known. -/
theorem attemptCall_false {slot : Nat} {name : String} {args : List Nat}
    (h : attemptCall catalog resolver slot name args s = .ok false s') :
    resolver.resolve? (callRequest s slot name args) = none ∧ s'.cells = s.cells := by
  obtain ⟨_, _, got, h⟩ := bind_ok h
  obtain ⟨rfl, rfl⟩ := get_ok got
  obtain ⟨answer, t, asked, h⟩ := bind_ok h
  cases asked
  cases answered : resolver.resolve? (callRequest s slot name args) with
  | none =>
    simp only [answered] at h
    obtain ⟨_, rfl⟩ := pure_ok h
    exact ⟨rfl, rfl⟩
  | some o =>
    simp only [answered] at h
    obtain ⟨_, _, _, done⟩ := bind_ok h
    cases (pure_ok done).1

/-- Numbers that are asked for are what an operator notes. -/
theorem numbersOnly_narrow {slot left right : Nat} {op : Operator} {u : Unit}
    (kind : op.kind = .arithmetic) (h : numbersOnly catalog op slot left right s = .ok u s') :
    s.narrow catalog ((Item.binary slot op left right).notes.map fun (i, c) => .constrain i c) =
      .ok s' := by
  unfold numbersOnly at h
  split at h
  · rename_i isAdd
    obtain ⟨_, rfl⟩ := pure_ok h
    simp [Item.notes, isAdd, narrow_nil]
  · rename_i notAdd
    simpa [Item.notes, kind, notAdd] using learn_ok h

/-- An item that is tried in vain is noted. -/
theorem attempt_noted (inRange : s.InRange) (inside : ∀ i ∈ item.slots, i < s.cells.size)
    (h : attempt catalog resolver item s = .ok false s') : Noted catalog s' item := by
  refine ⟨attempt_asked catalog.closed_true inRange.toValid inside h, ?_⟩
  -- What is asked for on the way is kept at the end.
  have keeps (narrowed : s.narrow catalog (item.notes.map fun (i, c) => .constrain i c) = .ok s')
      (notesInside : ∀ note ∈ item.notes, note.1 < s.cells.size ∧
        ∀ i ∈ note.2.components, i < s.cells.size) :
      ∀ note ∈ item.notes, s'.Kept catalog note.1 note.2 := by
    obtain ⟨log, run, _⟩ := run_of_narrow narrowed
    intro note mem
    refine run.done ⟨inRange, fun t isTask i isSlot => ?_⟩ (.constrain note.1 note.2)
      (List.mem_map.2 ⟨note, mem, rfl⟩)
    obtain ⟨other, isNote, rfl⟩ := List.mem_map.1 isTask
    obtain ⟨first, rest⟩ := notesInside other isNote
    rcases List.mem_cons.1 isSlot with rfl | part
    · exact first
    · exact rest i part
  cases item with
  | member slot receiver name =>
    refine keeps (attemptMember_false h).2 ?_
    simpa [Item.notes, Constraint.components] using
      ⟨inside receiver (by simp [Item.slots, Item.operands]),
        inside slot (by simp [Item.slots, Item.slot])⟩
  | binary slot op left right =>
    have leftLt := inside left (by simp [Item.slots, Item.operands])
    have rightLt := inside right (by simp [Item.slots, Item.operands])
    have slotLt := inside slot (by simp [Item.slots, Item.slot])
    by_cases kind : op.kind = .arithmetic
    · have numbers := (arithmetic_false catalog.closed_true inRange.toValid leftLt rightLt slotLt
        kind h).1
      refine keeps (numbersOnly_narrow kind numbers) fun note mem => ?_
      simp only [Item.notes] at mem
      split at mem
      · simp only [List.mem_cons, List.not_mem_nil, or_false] at mem
        rcases mem with rfl | rfl | rfl <;> simpa [Constraint.components]
      · cases mem
    · simp [Item.notes, kind]
  | call slot name args => simp [Item.notes]

/-- **An item that is tried in vain again changes nothing.** -/
theorem attempt_again (inRange : s.InRange) (distinct : s.Distinct n) (size : n ≤ s.cells.size)
    (inside : ∀ i ∈ item.slots, i < n) (noted : Noted catalog s item)
    (h : attempt catalog resolver item s = .ok false s') : s'.cells = s.cells := by
  have there : ∀ i ∈ item.slots, i < s.cells.size := fun i mem =>
    Nat.lt_of_lt_of_le (inside i mem) size
  have restored (narrowed : s.narrow catalog [] = .ok s') : s'.cells = s.cells := by
    cases (narrow_nil catalog s).symm.trans narrowed
    rfl
  cases item with
  | member slot receiver name =>
    obtain ⟨missing, narrowed⟩ := attemptMember_false h
    have kept := noted.kept _ List.mem_cons_self
    unfold Kept at kept
    cases believed : s.belief receiver with
    | known ty =>
      rw [known?_eq_some_iff.2 believed] at missing
      cases missing
    | unknown old =>
      simp only [believed] at kept
      have lt := inside receiver (by simp [Item.slots, Item.operands])
      exact restored (narrow_constrain_held (Constraint.separate_property name slot)
        (distinct receiver lt old believed) believed kept narrowed)
  | binary slot op left right =>
    have leftLt := inside left (by simp [Item.slots, Item.operands])
    have rightLt := inside right (by simp [Item.slots, Item.operands])
    have slotLt := inside slot (by simp [Item.slots, Item.slot])
    have compares {t : Solver} {u : Unit} (isTruth : op.Compares)
        (learnt : learn catalog [.expect slot .bool .outOf] s = .ok u t)
        (h : operands catalog slot op left right t = .ok false s') : s'.cells = s.cells := by
      obtain ⟨rfl, _⟩ := operands_false h
      obtain ⟨ty, known⟩ := noted.asked isTruth
      rw [narrow_expect_known known (learn_ok learnt)]
    cases kind : op.kind with
    | logical =>
      simp only [attempt, attemptBinary, kind] at h
      obtain ⟨_, _, _, h⟩ := bind_ok h
      cases (pure_ok h).1
    | equality =>
      simp only [attempt, attemptBinary, kind] at h
      obtain ⟨_, t, learnt, h⟩ := bind_ok h
      exact compares (.inl kind) learnt h
    | ordering =>
      simp only [attempt, attemptBinary, kind] at h
      obtain ⟨_, t, learnt, h⟩ := bind_ok h
      exact compares (.inr kind) learnt h
    | arithmetic =>
      have numbers := (arithmetic_false catalog.closed_true inRange.toValid
        (Nat.lt_of_lt_of_le leftLt size) (Nat.lt_of_lt_of_le rightLt size)
        (Nat.lt_of_lt_of_le slotLt size) kind h).1
      have narrowed := numbersOnly_narrow kind numbers
      have kept := noted.kept
      by_cases isAdd : op = .add
      · simp only [Item.notes, isAdd, ne_eq, not_true, and_false, if_false, List.map_nil] at narrowed
        exact restored narrowed
      · simp only [Item.notes, kind, isAdd, ne_eq, not_false_iff, and_self, if_true, List.map_cons,
          List.map_nil] at narrowed
        simp only [Item.notes, kind, isAdd, ne_eq, not_false_iff, and_self, if_true,
          List.forall_mem_cons] at kept
        obtain ⟨onLeft, onRight, onSlot, _⟩ := kept
        apply restored
        apply narrow_constrain_arithmetic distinct slotLt onSlot
        apply narrow_constrain_arithmetic distinct rightLt onRight
        exact narrow_constrain_arithmetic distinct leftLt onLeft narrowed
  | call slot name args => exact (attemptCall_false h).2

end Inference

end LambdaQuery
