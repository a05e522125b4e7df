import LambdaQuery.Proofs.Inference.Noted
import LambdaQuery.Proofs.Inference.Respelt
import Mathlib

/-!
# Where the work stops

The work stops with a round in which no item could be done. If the round before it left the same
items, all of them were noted there, so the last round changed nothing and could be repeated
forever. If there was no round before, trying an item may have told something about another that
was tried already, and nobody has looked at that one again.
-/

namespace LambdaQuery

/-! What was asked before makes no difference. -/

namespace Respelling

/-- Everything is written as before; only the uses of names that were asked about are others. -/
def after (earlier : List Request) : Respelling where
  span := id
  name := id
  earlier := earlier
  sameName _ := rfl
  nowhere := rfl

variable (earlier : List Request)

theorem constraint_after (c : Constraint) : (after earlier).constraint c = c := by
  cases c <;> rfl

theorem cell_after (c : Cell) : (after earlier).cell c = c := by
  have believed (b : Belief) : (after earlier).belief b = b := by
    cases b with
    | known => rfl
    | unknown cs =>
      have same : (after earlier).constraint = id := funext (constraint_after earlier)
      rw [belief, same, List.map_id]
  rw [cell, believed]
  rfl

theorem cells_after (s : Solver) : ((after earlier).solver s).cells = s.cells := by
  have same : (after earlier).cell = id := funext (cell_after earlier)
  rw [solver, same, Array.map_id]

theorem solver_after (cells : Array Cell) :
    (after earlier).solver ⟨cells, []⟩ = ⟨cells, earlier⟩ := by
  have same := cells_after earlier ⟨cells, []⟩
  simp only [solver] at same ⊢
  rw [same]
  rfl

theorem item_after (item : Item) : (after earlier).item item = item := by
  cases item <;> rfl

end Respelling

namespace Inference

variable {catalog : Catalog} {resolver : Resolver} {s s' t t' : Solver} {item : Item} {n : Nat}
  {pending left : List Item} {literals : List (Nat × String)}

/-- What comes of an item depends on what is known and not on what was asked before. -/
theorem attempt_cells (builtIn : resolver.BuiltIn) (same : s'.cells = s.cells) {done : Bool}
    (h : attempt catalog resolver item s = .ok done t) :
    ∃ t', attempt catalog resolver item s' = .ok done t' ∧ t'.cells = t.cells := by
  have followed (earlier : List Request) := Respelling.attempt_follows (v := .after earlier) catalog
    builtIn item ⟨s.cells, []⟩
  simp only [Respelling.solver_after, Respelling.item_after] at followed
  cases tried : attempt catalog resolver item ⟨s.cells, []⟩ with
  | error e u =>
    rw [tried] at followed
    cases (followed s.asked).symm.trans h
  | ok done' u =>
    rw [tried] at followed
    cases (followed s.asked).symm.trans h
    have again := followed s'.asked
    rw [← same] at again
    exact ⟨_, again, by rw [Respelling.cells_after, Respelling.cells_after]⟩

/-! Rounds in which nothing is done. -/

/-- Trying the item again would get nowhere and change nothing that is known. -/
def Stuck (catalog : Catalog) (resolver : Resolver) (s : Solver) (item : Item) : Prop :=
  ∃ t, attempt catalog resolver item s = .ok false t ∧ t.cells = s.cells

/-- Some items are tried in vain, and then so is another one, which still adds to what is known. -/
def AddsInVain (catalog : Catalog) (resolver : Resolver) (s : Solver) (before : List Item)
    (item : Item) : Prop :=
  ∃ t u, attemptAll catalog resolver before s = .ok before t ∧
    attempt catalog resolver item t = .ok false u ∧ u.cells ≠ t.cells

theorem attemptAll_sublist (h : attemptAll catalog resolver pending s = .ok left s') :
    left.Sublist pending := by
  induction pending generalizing s left with
  | nil =>
    obtain ⟨rfl, _⟩ := pure_ok h
    exact .slnil
  | cons item rest ih =>
    obtain ⟨done, t, tried, h⟩ := bind_ok h
    obtain ⟨more, t', others, h⟩ := bind_ok h
    obtain ⟨rfl, rfl⟩ := pure_ok h
    cases done with
    | true => exact .cons _ (ih others)
    | false => exact .cons_cons _ (ih others)

theorem attemptAll_cons_iff :
    attemptAll catalog resolver (item :: pending) s = .ok (item :: pending) s' ↔
      ∃ t, attempt catalog resolver item s = .ok false t ∧
        attemptAll catalog resolver pending t = .ok pending s' := by
  constructor
  · intro h
    obtain ⟨done, t, tried, h⟩ := bind_ok h
    obtain ⟨more, t', others, h⟩ := bind_ok h
    obtain ⟨isAll, rfl⟩ := pure_ok h
    cases done with
    | false =>
      cases isAll
      exact ⟨t, tried, others⟩
    | true =>
      have longer : more.length = pending.length + 1 := congrArg List.length isAll
      have := (attemptAll_sublist others).length_le
      omega
  · rintro ⟨t, tried, others⟩
    show EStateM.bind _ _ s = _
    simp only [EStateM.bind, tried]
    show EStateM.bind _ _ t = _
    simp only [EStateM.bind, others]
    rfl

/-- If no item adds anything, all is as before. -/
theorem attemptAll_cells (h : attemptAll catalog resolver pending s = .ok pending s') :
    s'.cells = s.cells ∨ ∃ before item after, pending = before ++ item :: after ∧
      AddsInVain catalog resolver s before item := by
  induction pending generalizing s with
  | nil =>
    obtain ⟨_, rfl⟩ := pure_ok h
    exact .inl rfl
  | cons item rest ih =>
    obtain ⟨t, tried, others⟩ := attemptAll_cons_iff.1 h
    by_cases same : t.cells = s.cells
    · rcases ih others with unchanged | ⟨before, other, after, rfl, u, v, reached, added⟩
      · exact .inl (unchanged.trans same)
      · exact .inr ⟨item :: before, other, after, rfl, u, v,
          attemptAll_cons_iff.2 ⟨t, tried, reached⟩, added⟩
    · exact .inr ⟨[], item, rest, rfl, s, t, rfl, tried, same⟩

/-- After a round in which nothing was done, an item is stuck unless it, or one that was tried after
it, added to what is known. -/
theorem stuck_of_attemptAll (builtIn : resolver.BuiltIn)
    (h : attemptAll catalog resolver pending s = .ok pending s') :
    ∀ item ∈ pending, Stuck catalog resolver s' item ∨
      ∃ before other after, pending = before ++ other :: after ∧ item ∈ before ++ [other] ∧
        AddsInVain catalog resolver s before other := by
  induction pending generalizing s with
  | nil => simp
  | cons first rest ih =>
    obtain ⟨t, tried, others⟩ := attemptAll_cons_iff.1 h
    have later {before : List Item} {other : Item} (h : AddsInVain catalog resolver t before other) :
        AddsInVain catalog resolver s (first :: before) other := by
      obtain ⟨u, v, reached, added⟩ := h
      exact ⟨u, v, attemptAll_cons_iff.2 ⟨t, tried, reached⟩, added⟩
    intro item mem
    rcases List.mem_cons.1 mem with rfl | inRest
    · by_cases same : t.cells = s.cells
      · rcases attemptAll_cells others with unchanged | ⟨before, other, after, rfl, added⟩
        · obtain ⟨u, again, cells⟩ := attempt_cells builtIn (unchanged.trans same) tried
          exact .inl ⟨u, again, by rw [cells, unchanged]⟩
        · exact .inr ⟨item :: before, other, after, rfl, List.mem_cons_self, later added⟩
      · exact .inr ⟨[], item, rest, rfl, List.mem_cons_self, s, t, rfl, tried, same⟩
    · rcases ih others item inRest with stuck | ⟨before, other, after, rfl, among, added⟩
      · exact .inl stuck
      · exact .inr ⟨first :: before, other, after, rfl, List.mem_cons_of_mem _ among, later added⟩

/-! Rounds after the first. -/

/-- A state of the work on a query of `n` slots. -/
structure Ready (n : Nat) (pending : List Item) (s : Solver) : Prop where
  inRange : s.InRange
  size : n ≤ s.cells.size
  distinct : s.Distinct n
  items : ∀ item ∈ pending, ∀ i ∈ item.slots, i < n

namespace Ready

theorem inside (ready : Ready n pending s) :
    ∀ item ∈ pending, ∀ i ∈ item.slots, i < s.cells.size := fun item mem i isSlot =>
  Nat.lt_of_lt_of_le (ready.items item mem i isSlot) ready.size

theorem run (ready : Ready n pending s) {log : List (Nat × Constraint)}
    (run : Run catalog ⟨[], s⟩ log ⟨[], s'⟩) (sub : ∀ item ∈ left, item ∈ pending) :
    Ready n left s' := by
  have start : Config.InRange ⟨[], s⟩ := ⟨ready.inRange, by simp⟩
  obtain ⟨atEnd, grows⟩ := run.inRange start
  exact ⟨atEnd.solver, Nat.le_trans ready.size grows, run.distinct start ready.size ready.distinct,
    fun item mem => ready.items item (sub item mem)⟩

/-- Trying items is a run of moves. -/
theorem exists_run (ready : Ready n pending s)
    (h : attemptAll catalog resolver pending s = .ok left s') :
    ∃ log, Run catalog ⟨[], s⟩ log ⟨[], s'⟩ :=
  ((attemptAll_proceeds ready.inRange ready.inside).ok h).1

end Ready

/-- Every item that is left is noted. -/
theorem attemptAll_noted (ready : Ready n pending s)
    (h : attemptAll catalog resolver pending s = .ok left s') :
    ∀ item ∈ left, Noted catalog s' item := by
  induction pending generalizing s left with
  | nil =>
    obtain ⟨rfl, _⟩ := pure_ok h
    simp
  | cons first rest ih =>
    obtain ⟨done, t, tried, h⟩ := bind_ok h
    obtain ⟨more, t', others, h⟩ := bind_ok h
    obtain ⟨rfl, rfl⟩ := pure_ok h
    have firstInside := ready.inside first List.mem_cons_self
    obtain ⟨⟨log, run⟩, _⟩ := (attempt_proceeds ready.inRange firstInside).ok tried
    have readyRest : Ready n rest t := ready.run run fun item mem => List.mem_cons_of_mem _ mem
    have onRest := ih readyRest others
    cases done with
    | true => exact onRest
    | false =>
      obtain ⟨log', run'⟩ := readyRest.exists_run others
      refine List.forall_mem_cons.2 ⟨?_, onRest⟩
      exact (attempt_noted ready.inRange firstInside tried).run readyRest.inRange run'

/-- Items that are noted add nothing when they are tried again in vain. -/
theorem not_addsInVain (ready : Ready n pending s) (noted : ∀ item ∈ pending, Noted catalog s item)
    {before after : List Item} (split : pending = before ++ item :: after) :
    ¬AddsInVain catalog resolver s before item := by
  rintro ⟨t, u, reached, tried, changed⟩
  subst split
  have readyBefore : Ready n before s :=
    ⟨ready.inRange, ready.size, ready.distinct, fun other mem =>
      ready.items other (List.mem_append_left _ mem)⟩
  obtain ⟨log, run⟩ := readyBefore.exists_run reached
  have there : item ∈ before ++ item :: after := by simp
  have readyItem : Ready n [item] t := ready.run run (by simp)
  exact changed (attempt_again readyItem.inRange readyItem.distinct readyItem.size
    (readyItem.items item List.mem_cons_self) ((noted item there).run ready.inRange run) tried)

/-- A round that gets nowhere has only tried every item once more. -/
theorem round_false (ready : Ready n pending s)
    (h : round catalog resolver literals pending s = .ok (left, false) s') :
    left = pending ∧ attemptAll catalog resolver pending s = .ok pending s' := by
  obtain ⟨left', t, tried, h⟩ := bind_ok h
  by_cases fewer : left'.length < pending.length
  · simp only [fewer, if_true] at h
    cases (pure_ok h).1
  · simp only [fewer, if_false] at h
    obtain ⟨moved, t', advanced, h⟩ := bind_ok h
    obtain ⟨same, rfl⟩ := pure_ok h
    cases same
    obtain ⟨log, run⟩ := ready.exists_run tried
    have valid := (ready.run run fun _ mem => (attemptAll_sublist tried).subset mem).inRange.toValid
    cases (advance_learnt catalog.closed_true valid advanced).2 rfl
    obtain rfl := (attemptAll_sublist tried).eq_of_length_le (by omega)
    exact ⟨rfl, tried⟩

/-- After a round, all items that are left are noted. -/
theorem round_noted (ready : Ready n pending s) (literalsInside : ∀ literal ∈ literals, literal.1 < n)
    {progress : Bool} (h : round catalog resolver literals pending s = .ok (left, progress) s') :
    Ready n left s' ∧ ∀ item ∈ left, Noted catalog s' item := by
  obtain ⟨left', t, tried, h⟩ := bind_ok h
  obtain ⟨log, run⟩ := ready.exists_run tried
  have ready' : Ready n left' t := ready.run run fun _ mem =>
    (attemptAll_sublist tried).subset mem
  have noted := attemptAll_noted ready tried
  by_cases fewer : left'.length < pending.length
  · simp only [fewer, if_true] at h
    obtain ⟨same, rfl⟩ := pure_ok h
    cases same
    exact ⟨ready', noted⟩
  · simp only [fewer, if_false] at h
    obtain ⟨moved, t', advanced, h⟩ := bind_ok h
    obtain ⟨same, rfl⟩ := pure_ok h
    cases same
    obtain ⟨⟨log', run'⟩, _⟩ := (advance_proceeds ready'.inRange fun literal mem =>
      Nat.lt_of_lt_of_le (literalsInside literal mem) ready'.size).ok advanced
    exact ⟨ready'.run run' fun _ => id, fun item mem => (noted item mem).run ready'.inRange run'⟩

/-- After the first round, the work stops only when all that is left is stuck. -/
theorem solve_noted (builtIn : resolver.BuiltIn) (ready : Ready n pending s)
    (literalsInside : ∀ literal ∈ literals, literal.1 < n)
    (noted : ∀ item ∈ pending, Noted catalog s item)
    (h : solve catalog resolver literals pending s = .ok left s') :
    ∀ item ∈ left, Stuck catalog resolver s' item := by
  fun_induction solve catalog resolver literals pending s with
  | case1 => cases h
  | case2 pending s left' t rounded =>
    cases h
    obtain ⟨rfl, tried⟩ := round_false ready rounded
    intro item mem
    rcases stuck_of_attemptAll builtIn tried item mem with stuck | ⟨before, other, after, split, _, added⟩
    · exact stuck
    · exact absurd added (not_addsInVain ready noted split)
  | case3 pending s middle t rounded ih =>
    obtain ⟨ready', noted'⟩ := round_noted ready literalsInside rounded
    exact ih ready' noted' h

/-- The first round was the last and did nothing, but the item, or one that was tried after it,
added to what is known. -/
def StoppedEarly (catalog : Catalog) (resolver : Resolver) (literals : List (Nat × String))
    (pending : List Item) (s s' : Solver) (item : Item) : Prop :=
  round catalog resolver literals pending s = .ok (pending, false) s' ∧
    ∃ before other after, pending = before ++ other :: after ∧ item ∈ before ++ [other] ∧
      AddsInVain catalog resolver s before other

theorem solve_stuck (builtIn : resolver.BuiltIn) (ready : Ready n pending s)
    (literalsInside : ∀ literal ∈ literals, literal.1 < n)
    (h : solve catalog resolver literals pending s = .ok left s') :
    ∀ item ∈ left, Stuck catalog resolver s' item ∨
      StoppedEarly catalog resolver literals pending s s' item := by
  rw [solve_eq] at h
  intro item mem
  split at h
  · cases h
  · rename_i rounded
    cases h
    obtain ⟨rfl, tried⟩ := round_false ready rounded
    exact (stuck_of_attemptAll builtIn tried item mem).imp_right fun added => ⟨rounded, added⟩
  · rename_i rounded
    obtain ⟨ready', noted⟩ := round_noted ready literalsInside rounded
    exact .inl (solve_noted builtIn ready' literalsInside noted h item mem)

/-! The work on a query. -/

theorem ready_start {query : Term Span} {root : Ty} {expected : Option Ty} {tasks : List Task}
    (isStart : (query.number .start).1.startTasks? root expected = some tasks)
    (learnt : learn catalog tasks
      (.start (query.number .start).1 (query.number .start).2.next) = .ok () s) :
    Ready (query.number .start).2.next (query.number .start).1.items s := by
  obtain ⟨blank, size⟩ := Solver.blank_start (query.number .start).1 (query.number .start).2.next
  have atStart : Ready (query.number .start).2.next (query.number .start).1.items
      (.start (query.number .start).1 (query.number .start).2.next) := by
    refine ⟨Solver.inRange_start _ _, Nat.le_of_eq size.symm, fun slot lt cs believed => ?_,
      (staysInRange catalog query).items⟩
    cases (blank.belief slot).symm.trans believed
    exact .nil
  have tasksInside := startTasks_inside (query.number_numbered Numbering.settled_start).1 isStart
  rw [← size] at tasksInside
  obtain ⟨⟨log, run⟩, _⟩ := (Proceeds.learn tasksInside).ok learnt
  exact atStart.run run fun _ => id

/-- An error is reported for a call that is left, by the number of candidates it has. -/
theorem report_error {e : TypeError} (h : report resolver left s = .error e t) :
    ∃ slot name args, .call slot name args ∈ left ∧
      ((∃ names, e = s.blame slot (.ambiguousCall name names) ∧
        2 ≤ (resolver.candidates (callRequest s slot name args)).length) ∨
      e = s.blame slot (.noMatchingFunction name (args.map s.hint)) ∧
        (resolver.candidates (callRequest s slot name args)).length ≤ 1) := by
  have looked (f : Solver → Inference Unit) : (get >>= f) s = f s s := rfl
  rw [report, looked] at h
  cases found : s.firstCall? left with
  | none =>
    simp only [found] at h
    cases h
  | some call =>
    obtain ⟨slot, name, args⟩ := call
    refine ⟨slot, name, args, Solver.mem_of_firstCall? found, ?_⟩
    simp only [found] at h
    rcases offered : resolver.candidates (callRequest s slot name args) with _ | ⟨first, _ | _⟩
    · simp only [offered] at h
      cases h
      exact .inr ⟨rfl, by simp⟩
    · simp only [offered] at h
      cases h
      exact .inr ⟨rfl, by simp⟩
    · simp only [offered] at h
      cases h
      exact .inl ⟨_, rfl, by simp⟩

/-- What is not resolved has no candidate or several. -/
theorem length_candidates_of_unresolved (builtIn : resolver.BuiltIn) {r : Request}
    (unresolved : resolver.resolve? r = none) : (resolver.candidates r).length ≠ 1 := by
  have ofOnly {os : List Overload} (h : only? os = none) : os.length ≠ 1 := by
    intro single
    obtain ⟨o, rfl⟩ := List.length_eq_one_iff.1 single
    cases h
  induction builtIn with
  | properties | methods | table | exhaustive =>
    rw [Resolver.resolve?] at unresolved
    rw [Resolver.candidates]
    exact ofOnly unresolved
  | @chain resolvers _ ih =>
    simp only [Resolver.resolve?] at unresolved
    simp only [Resolver.candidates]
    induction resolvers with
    | nil => simp [Resolver.candidatesAll]
    | cons first rest onRest =>
      obtain ⟨onFirst, others⟩ := List.forall_mem_cons.1 ih
      rw [Resolver.resolveFirst?] at unresolved
      split at unresolved
      · cases unresolved
      · rename_i unanswered
        have notOne := onFirst unanswered
        have notOneAfter := onRest (by simp_all) others unresolved
        rw [Resolver.candidatesAll, List.length_append]
        omega
  | observer => simp [Resolver.candidates]

/-- **The work stops when what is left is stuck**, with one exception. Trying any item again gets
nowhere and changes nothing, unless nothing could be done in the first round and the item, or one
that was tried after it, still added to what is known. An error for a call says that there are
several candidates if there are, and that there is none if there is none; in the exceptional case it
says so too when there is exactly one. -/
theorem work_stops_stuck (builtIn : resolver.BuiltIn) {query : Term Span} {root : Ty}
    {expected : Option Ty} {tasks : List Task}
    (isStart : (query.number .start).1.startTasks? root expected = some tasks)
    (learnt : learn catalog tasks
      (.start (query.number .start).1 (query.number .start).2.next) = .ok () s)
    (solved : solve catalog resolver (query.number .start).1.bodyLiterals
      (query.number .start).1.items s = .ok left s') :
    (∀ item ∈ left, Stuck catalog resolver s' item ∨
      StoppedEarly catalog resolver (query.number .start).1.bodyLiterals
        (query.number .start).1.items s s' item) ∧
    ∀ e t, report resolver left s' = .error e t → ∃ slot name args, .call slot name args ∈ left ∧
      ((∃ names, e = s'.blame slot (.ambiguousCall name names) ∧
        2 ≤ (resolver.candidates (callRequest s' slot name args)).length) ∨
      e = s'.blame slot (.noMatchingFunction name (args.map s'.hint)) ∧
        (resolver.candidates (callRequest s' slot name args) = [] ∨
          StoppedEarly catalog resolver (query.number .start).1.bodyLiterals
            (query.number .start).1.items s s' (.call slot name args))) := by
  have literalsInside : ∀ literal ∈ (query.number .start).1.bodyLiterals,
      literal.1 < (query.number .start).2.next := fun literal mem =>
    (staysInRange catalog query).nodes _ (Term.bodyLiterals_mem_slots _ literal mem)
  have stops := solve_stuck builtIn (ready_start isStart learnt) literalsInside solved
  refine ⟨stops, fun e t reported => ?_⟩
  obtain ⟨slot, name, args, isLeft, ambiguous | ⟨blamed, atMost⟩⟩ := report_error reported
  · exact ⟨slot, name, args, isLeft, .inl ambiguous⟩
  · refine ⟨slot, name, args, isLeft, .inr ⟨blamed, ?_⟩⟩
    rcases stops _ isLeft with ⟨u, tried, _⟩ | early
    · have several := length_candidates_of_unresolved builtIn (attemptCall_false tried).1
      exact .inl (List.eq_nil_of_length_eq_zero (by omega))
    · exact .inr early

/-- Whether the work on a query comes to an end with what is left and what is known as described. -/
def worksTo (catalog : Catalog) (resolver : Resolver) (query : Term Span) (root : Ty)
    (ends : List Item → Solver → Bool) : Bool :=
  let (tree, numbering) := query.number .start
  match tree.startTasks? root none with
  | none => false
  | some tasks =>
    match work catalog resolver tree tasks (.start tree numbering.next) with
    | .ok left s => ends left s
    | .error .. => false

theorem exists_of_worksTo {query : Term Span} {root : Ty} {ends : List Item → Solver → Bool}
    (h : worksTo catalog resolver query root ends = true) : ∃ tasks s left s',
    (query.number .start).1.startTasks? root none = some tasks ∧
      learn catalog tasks (.start (query.number .start).1 (query.number .start).2.next) = .ok () s ∧
      solve catalog resolver (query.number .start).1.bodyLiterals (query.number .start).1.items s =
        .ok left s' ∧ ends left s' = true := by
  simp only [worksTo] at h
  split at h
  · cases h
  · rename_i tasks isStart
    split at h
    · rename_i left s' worked
      obtain ⟨_, s, learnt, solved⟩ := bind_ok worked
      exact ⟨tasks, s, left, s', isStart, learnt, solved, h⟩
    · cases h

/-- `p => Foo(p.Low)` -/
def fooQuery : Term Span :=
  .lambda ⟨0, 15⟩ ⟨⟨0, "p"⟩, ⟨0, 1⟩⟩ <| .call ⟨5, 15⟩ "Foo"
    [.member ⟨9, 14⟩ (.ident ⟨9, 10⟩ ⟨0, "p"⟩) "Low"]

theorem worksTo_foo : worksTo rowSchema.catalog
    (Compiler.withOptions rowSchema.catalog .standard).resolver fooQuery (.record "Row")
      (fun left _ => left matches [.call 2 "Foo" [1]]) = true := by
  simp only [worksTo, work, solve_eq_solveBy 4]
  cbv

/-- The member is done in the first round, and the call is stuck. -/
theorem work_stops_stuck_foo : ∃ tasks s s',
    (fooQuery.number .start).1.startTasks? (.record "Row") none = some tasks ∧
      learn rowSchema.catalog tasks
        (.start (fooQuery.number .start).1 (fooQuery.number .start).2.next) = .ok () s ∧
      solve rowSchema.catalog (Compiler.withOptions rowSchema.catalog .standard).resolver
        (fooQuery.number .start).1.bodyLiterals (fooQuery.number .start).1.items s =
          .ok [.call 2 "Foo" [1]] s' ∧
      Stuck rowSchema.catalog (Compiler.withOptions rowSchema.catalog .standard).resolver s'
        (.call 2 "Foo" [1]) := by
  obtain ⟨tasks, s, left, s', isStart, learnt, solved, ends⟩ := exists_of_worksTo worksTo_foo
  split at ends
  · refine ⟨tasks, s, s', isStart, learnt, solved, ?_⟩
    have builtIn := Resolver.builtIn_withOptions rowSchema.catalog .standard
    rcases (work_stops_stuck builtIn isStart learnt solved).1 _ List.mem_cons_self with stuck | early
    · exact stuck
    · rw [solve_eq, early.1] at solved
      cases solved
  · cases ends

/-- A number and a text of the same name. -/
def twins : Resolver :=
  .chain [.properties Schema.empty.catalog, .methods Schema.empty.catalog,
    .table [Resolver.free "f" [] (.concrete .int) (.constant (.int 1)),
      Resolver.free "f" [] (.concrete .string) (.constant (.string "a"))]]

/-- `x => f() - f()` -/
def twinsQuery : Term Span :=
  .lambda ⟨0, 14⟩ ⟨⟨0, "x"⟩, ⟨0, 1⟩⟩ <| .binary ⟨5, 14⟩ .sub (.call ⟨5, 8⟩ "f" [])
    (.call ⟨11, 14⟩ "f" [])

theorem worksTo_twins : worksTo Schema.empty.catalog twins twinsQuery .int (fun left s =>
    match left, attempt Schema.empty.catalog twins (.call 1 "f" []) s, report twins left s with
    | .call 1 "f" [] :: _, .ok true _, .error e _ =>
      (twins.candidates (callRequest s 1 "f" [])).length == 1 && e.fault.code == "T0013"
    | _, _, _ => false) = true := by
  simp only [worksTo, work, solve_eq_solveBy 4]
  cbv

/-- Both calls are tried before the operator asks them to be numbers. That leaves one candidate for
each, but they are not tried again, and the error says that there is none. -/
theorem report_hides_candidate : ∃ tasks s left s' e t u,
    (twinsQuery.number .start).1.startTasks? .int none = some tasks ∧
      learn Schema.empty.catalog tasks
        (.start (twinsQuery.number .start).1 (twinsQuery.number .start).2.next) = .ok () s ∧
      solve Schema.empty.catalog twins (twinsQuery.number .start).1.bodyLiterals
        (twinsQuery.number .start).1.items s = .ok left s' ∧
      .call 1 "f" [] ∈ left ∧
      attempt Schema.empty.catalog twins (.call 1 "f" []) s' = .ok true u ∧
      (twins.candidates (callRequest s' 1 "f" [])).length = 1 ∧
      report twins left s' = .error e t ∧ e.fault.code = "T0013" := by
  obtain ⟨tasks, s, left, s', isStart, learnt, solved, ends⟩ := exists_of_worksTo worksTo_twins
  split at ends
  · rename_i tried reported
    simp only [Bool.and_eq_true, beq_iff_eq] at ends
    exact ⟨tasks, s, _, s', _, _, _, isStart, learnt, solved, List.mem_cons_self, tried, ends.1,
      reported, ends.2⟩
  · cases ends

end Inference

end LambdaQuery
