import LambdaQuery.Proofs.Inference.Canonical
import LambdaQuery.Proofs.Inference.FirstCall
import LambdaQuery.Proofs.Lowering.Renaming
import LambdaQuery.Proofs.Lowering.Success
import Mathlib

/-!
# Equal queries compile equally

Two queries that are equal up to the names of their parameters, the case of other names, and the
places of their nodes are worked on in the same steps: both do what is done on their common plain
spelling. Only the report of a call that cannot be done looks at places, to find the call that comes
first, and that is the same one in both. So both compile to the same lambda or fail with the same code.
-/

namespace LambdaQuery

open Inference Respelling

variable {catalog : Catalog} {resolver : Resolver} {root : Ty} {expected : Option Ty}

/-- A typed query compiled, or the code of the error. -/
def lowerOrCode (catalog : Catalog) (t : Term Typed) : Except String LambdaExpr :=
  (LambdaExpr.ofTyped catalog t).mapError LoweringError.code

/-- A query compiled, or the code of the error. -/
def compileOrCode (catalog : Catalog) (resolver : Resolver) (query : Term Span) (root : Ty)
    (expected : Option Ty) : Except String LambdaExpr :=
  (infer catalog resolver query root expected).outcome.mapError TypeError.code >>=
    lowerOrCode catalog

/-- What comes of a tree after the work on it. -/
def finishOrCode (catalog : Catalog) (resolver : Resolver) (tree : Term Slotted)
    (binders : List (Symbol × Nat)) :
    EStateM.Result TypeError Solver (List Item) → Except String LambdaExpr
  | .error e _ => .error e.code
  | .ok left s =>
    match failure? (report resolver left s) with
    | some code => .error code
    | none => (s.typed catalog binders tree).mapError TypeError.code >>= lowerOrCode catalog

theorem Inference.bind_eq {α β : Type} (x : Inference α) (k : α → Inference β) (s : Solver) :
    (x >>= k) s =
      match x s with
      | .ok a t => k a t
      | .error e t => .error e t := by
  show EStateM.bind x k s = _
  unfold EStateM.bind
  cases x s <;> rfl

/-- What inference makes of a tree, and what is compiled from that. -/
theorem finishOrCode_work (tree : Term Slotted) (binders : List (Symbol × Nat)) (tasks : List Task)
    (s : Solver) : finishOrCode catalog resolver tree binders (work catalog resolver tree tasks s) =
      match run catalog resolver tree binders tasks s with
      | .ok t _ => lowerOrCode catalog t
      | .error e _ => .error e.code := by
  rw [run, bind_eq]
  cases work catalog resolver tree tasks s with
  | error e t => rfl
  | ok left t =>
    simp only [finishOrCode, bind_eq]
    cases isReport : report resolver left t with
    | error e t' => rfl
    | ok _ t' =>
      obtain rfl := report_ok isReport
      have looked : (get : Inference Solver) t = .ok t t := rfl
      simp only [failure?, looked]
      cases t.typed catalog binders tree <;> rfl

theorem compileOrCode_eq (query : Term Span) :
    compileOrCode catalog resolver query root expected =
      match (query.number .start).1.startTasks? root expected with
      | none => .error TypeFault.notALambda.code
      | some tasks =>
        finishOrCode catalog resolver (query.number .start).1 (query.number .start).2.binders
          (work catalog resolver (query.number .start).1 tasks
            (.start (query.number .start).1 (query.number .start).2.next)) := by
  cases isStart : (query.number .start).1.startTasks? root expected with
  | none =>
    simp only [compileOrCode, infer, isStart]
    rfl
  | some tasks =>
    simp only [compileOrCode, infer, isStart, finishOrCode_work]
    cases run catalog resolver (query.number .start).1 (query.number .start).2.binders tasks
      (.start (query.number .start).1 (query.number .start).2.next) <;> rfl

/-! Queries with the same plain spelling. -/

/-- Results that are spelt the same are both errors, with one code, or both are not. -/
theorem Respelling.cases_of_result_eq {v : Respelling} {α β : Type} {f : α → β}
    {x y : EStateM.Result TypeError Solver α} (same : v.result f x = v.result f y) :
    (∃ e s e' s', x = .error e s ∧ y = .error e' s' ∧ e.code = e'.code) ∨
      ∃ a s a' s', x = .ok a s ∧ y = .ok a' s' ∧ f a = f a' ∧ v.solver s = v.solver s' := by
  cases x with
  | error e s =>
    cases y with
    | error e' s' =>
      have sameError : v.error e = v.error e' := (EStateM.Result.error.inj same).1
      have sameFault : v.fault e.fault = v.fault e'.fault := congrArg TypeError.fault sameError
      refine .inl ⟨e, s, e', s', rfl, rfl, ?_⟩
      rw [TypeError.code, ← v.code_fault, sameFault, v.code_fault]
    | ok a' s' => cases same
  | ok a s =>
    cases y with
    | error e' s' => cases same
    | ok a' s' =>
      obtain ⟨sameValue, sameSolver⟩ := EStateM.Result.ok.inj same
      exact .inr ⟨a, s, a', s', rfl, rfl, sameValue, sameSolver⟩

theorem work_plain (catalog : Catalog) (builtIn : resolver.BuiltIn) (tree : Term Slotted)
    (tasks : List Task) (slots : Nat) :
    plain.result (List.map plain.item) (work catalog resolver tree tasks (.start tree slots)) =
      work catalog resolver (plain.term tree) (tasks.map plain.task)
        (.start (plain.term tree) slots) := by
  rw [start_term rfl]
  exact (work_follows catalog builtIn tree tasks _).symm

/-- What is compiled can be told from the plain spelling. -/
theorem lower_plain {query : Term Span} {high : Nat} (inScope : Scoped [] 0 query high)
    (s : Solver) :
    (s.typed catalog (query.number .start).2.binders (query.number .start).1).mapError
        TypeError.code >>= lowerOrCode catalog =
      ((plain.solver s).typed catalog [] (plain.term (query.number .start).1)).mapError
        TypeError.code >>= lowerOrCode catalog := by
  have settled := (query.number_numbered Numbering.settled_start).2
  have falling := query.number_falling Numbering.settled_start .nil
  have typed : Alike TypeError.code (plain.typedTerm (query.number .start).2.symbol)
      (s.typed ..) _ :=
    typed_alike catalog Numbering.symbol_of_lookup inScope.bound_number
  rw [typed]
  cases s.typed catalog (query.number .start).2.binders (query.number .start).1 with
  | error e => rfl
  | ok t =>
    exact (lambda_alike catalog (Numbering.symbol_injective settled falling) t).codes_eq.symm

/-- After the work on a query that was read from a text, what is left is work of the tree, and the
calls of the tree start one behind another. -/
theorem calls_rising_of_work {limit : Nat} {text : String} {query : Term Span}
    (read : Term.ofText limit text = .ok query) {tasks : List Task}
    (isStart : (query.number .start).1.startTasks? root expected = some tasks)
    {left : List Item} {s : Solver}
    (worked : work catalog resolver (query.number .start).1 tasks
      (.start (query.number .start).1 (query.number .start).2.next) = .ok left s) :
    (((query.number .start).1.calls.map Slotted.slot).map fun slot =>
        (s.origin slot).span.start).Pairwise (· < ·) ∧
      ∀ slot name args, .call slot name args ∈ left →
        slot ∈ (query.number .start).1.calls.map Slotted.slot := by
  have inRange := staysInRange catalog query
  have size := (Solver.blank_start (query.number .start).1 (query.number .start).2.next).2
  have tasksInside := startTasks_inside (query.number_numbered Numbering.settled_start).1 isStart
  have proceeds : Proceeds catalog (work catalog resolver (query.number .start).1 tasks)
      (.start (query.number .start).1 (query.number .start).2.next) _ :=
    work_proceeds (Solver.inRange_start _ _) (by rwa [size]) (by rw [size]; exact inRange.items)
      (by rw [size]; exact inRange.nodes)
  obtain ⟨⟨log, run⟩, ofTree⟩ := proceeds.ok worked
  exact ⟨run.calls_rising read, fun slot name args mem =>
    Term.mem_calls_of_items _ (ofTree _ mem)⟩

section

variable {limit limit' : Nat} {text text' : String} {q q' : Term Span}
  (read : Term.ofText limit text = .ok q) (read' : Term.ofText limit' text' = .ok q')
  (equal : q.alphaEq q' = true)

include read read' equal

/-- The same call is reported, if any. -/
theorem failure?_report_eq (builtIn : resolver.BuiltIn) {tasks tasks' : List Task}
    (isStart : (q.number .start).1.startTasks? root expected = some tasks)
    (isStart' : (q'.number .start).1.startTasks? root expected = some tasks')
    {left left' : List Item} {s s' : Solver}
    (worked : work catalog resolver (q.number .start).1 tasks
      (.start (q.number .start).1 (q.number .start).2.next) = .ok left s)
    (worked' : work catalog resolver (q'.number .start).1 tasks'
      (.start (q'.number .start).1 (q'.number .start).2.next) = .ok left' s')
    (sameLeft : left.map plain.item = left'.map plain.item)
    (sameSolver : plain.solver s = plain.solver s') :
    failure? (report resolver left s) = failure? (report resolver left' s') := by
  obtain ⟨_, inScope⟩ := Term.scoped_of_ofText read
  obtain ⟨_, inScope'⟩ := Term.scoped_of_ofText read'
  have sameTree := (Term.plain_eq_of_alphaEq inScope inScope' equal).1
  obtain ⟨rising, within⟩ := calls_rising_of_work read isStart worked
  obtain ⟨rising', _⟩ := calls_rising_of_work read' isStart' worked'
  have sameCalls : (q'.number .start).1.calls.map Slotted.slot =
      (q.number .start).1.calls.map Slotted.slot := by
    rw [← calls_term (v := plain), ← sameTree, calls_term]
  rw [sameCalls] at rising'
  have first : s.firstCall? left = s'.firstCall? left :=
    Solver.firstCall?_congr
      (fun a memA b memB => lt_iff_lt_of_rising (f := fun slot => (s.origin slot).span.start)
        (g := fun slot => (s'.origin slot).span.start) rising rising' memA memB) within
  rw [failure?_report_respelt plain builtIn, failure?_report_respelt plain builtIn, ← sameLeft,
    ← sameSolver, Solver.firstCall?_item, Solver.firstCall?_item, first]

theorem finishOrCode_eq_of_alphaEq (builtIn : resolver.BuiltIn) {tasks tasks' : List Task}
    (isStart : (q.number .start).1.startTasks? root expected = some tasks)
    (isStart' : (q'.number .start).1.startTasks? root expected = some tasks')
    (sameTasks : tasks.map plain.task = tasks'.map plain.task) :
    finishOrCode catalog resolver (q.number .start).1 (q.number .start).2.binders
        (work catalog resolver (q.number .start).1 tasks
          (.start (q.number .start).1 (q.number .start).2.next)) =
      finishOrCode catalog resolver (q'.number .start).1 (q'.number .start).2.binders
        (work catalog resolver (q'.number .start).1 tasks'
          (.start (q'.number .start).1 (q'.number .start).2.next)) := by
  obtain ⟨_, inScope⟩ := Term.scoped_of_ofText read
  obtain ⟨_, inScope'⟩ := Term.scoped_of_ofText read'
  obtain ⟨sameTree, sameSlots⟩ := Term.plain_eq_of_alphaEq inScope inScope' equal
  -- Both works are that of the plain spelling.
  have same : plain.result (List.map plain.item) (work catalog resolver (q.number .start).1 tasks
        (.start (q.number .start).1 (q.number .start).2.next)) =
      plain.result (List.map plain.item) (work catalog resolver (q'.number .start).1 tasks'
        (.start (q'.number .start).1 (q'.number .start).2.next)) := by
    rw [work_plain catalog builtIn, work_plain catalog builtIn, sameTree, sameTasks, sameSlots]
  rcases cases_of_result_eq same with ⟨e, s, e', s', failed, failed', sameCode⟩ |
    ⟨left, s, left', s', worked, worked', sameLeft, sameSolver⟩
  · rw [failed, failed']
    exact congrArg Except.error sameCode
  · have reports := failure?_report_eq read read' equal builtIn isStart isStart' worked worked'
      sameLeft sameSolver
    simp only [worked, worked', finishOrCode, reports]
    cases failure? (report resolver left' s') with
    | some code => rfl
    | none => rw [lower_plain inScope, lower_plain inScope', sameTree, sameSolver]

/-- Equal queries compile to the same lambda, or fail with the same code. -/
theorem compileOrCode_eq_of_alphaEq (builtIn : resolver.BuiltIn) :
    compileOrCode catalog resolver q root expected =
      compileOrCode catalog resolver q' root expected := by
  obtain ⟨_, inScope⟩ := Term.scoped_of_ofText read
  obtain ⟨_, inScope'⟩ := Term.scoped_of_ofText read'
  have sameTree := (Term.plain_eq_of_alphaEq inScope inScope' equal).1
  have starts := startTasks?_term (v := plain) root expected (q.number .start).1
  rw [sameTree, startTasks?_term] at starts
  rw [compileOrCode_eq, compileOrCode_eq]
  cases isStart : (q.number .start).1.startTasks? root expected with
  | none =>
    rw [isStart] at starts
    rw [Option.map_eq_none_iff.1 starts]
  | some tasks =>
    rw [isStart] at starts
    obtain ⟨tasks', isStart', sameTasks⟩ := Option.map_eq_some_iff.1 starts
    rw [isStart']
    exact finishOrCode_eq_of_alphaEq read read' equal builtIn isStart isStart' sameTasks.symm

end

namespace Compiler

theorem build_codes {c : Compiler} {text : String} {query : Term Span}
    (parsed : c.parse text = .ok query) (root : Ty) (expected : Option Ty) :
    (c.build text root expected).mapError QueryError.code =
      compileOrCode c.catalog c.resolver query root expected := by
  have checked : c.check text root expected =
      (LambdaQuery.infer c.catalog c.resolver query root expected).outcome.mapError
        fun e => ⟨.typing e, text, some root⟩ := by
    rw [check, infer, parsed]
    rfl
  rw [build, checked, compileOrCode]
  cases (LambdaQuery.infer c.catalog c.resolver query root expected).outcome with
  | error e => rfl
  | ok t =>
    show ((LambdaExpr.ofTyped c.catalog t).mapError _).mapError _ = lowerOrCode c.catalog t
    rw [lowerOrCode]
    cases LambdaExpr.ofTyped c.catalog t <;> rfl

/-- **Equal queries compile equally.** Two texts of queries that are equal up to the names of their
parameters compile to the same lambda, which prints the same, has the same types and does the same,
or both fail with errors of the same code. -/
theorem build_alphaEq (catalog : Catalog) (options : Options) {text text' : String}
    {q q' : Term Span} (parsed : (withOptions catalog options).parse text = .ok q)
    (parsed' : (withOptions catalog options).parse text' = .ok q') (equal : q.alphaEq q' = true)
    (root : Ty) (expected : Option Ty) :
    (∀ l, (withOptions catalog options).build text root expected = .ok l ↔
        (withOptions catalog options).build text' root expected = .ok l) ∧
      ∀ e e', (withOptions catalog options).build text root expected = .error e →
        (withOptions catalog options).build text' root expected = .error e' → e.code = e'.code := by
  have same : ((withOptions catalog options).build text root expected).mapError QueryError.code =
      ((withOptions catalog options).build text' root expected).mapError QueryError.code := by
    rw [build_codes parsed, build_codes parsed']
    exact compileOrCode_eq_of_alphaEq (ofText_of_parse parsed) (ofText_of_parse parsed') equal
      (Resolver.builtIn_withOptions catalog options)
  refine ⟨fun l => ⟨fun built => ?_, fun built => ?_⟩, fun e e' failed failed' => ?_⟩
  · rw [built] at same
    exact ok_of_mapError same.symm
  · rw [built] at same
    exact ok_of_mapError same
  · rw [failed, failed'] at same
    exact Except.error.inj same

/-- Whether two texts are those of queries that are equal up to the names of their parameters. -/
def sameQuery (c : Compiler) (text text' : String) : Bool :=
  match c.parse text, c.parse text' with
  | .ok q, .ok q' => q.alphaEq q'
  | _, _ => false

theorem exists_of_sameQuery {c : Compiler} {text text' : String}
    (h : c.sameQuery text text' = true) : ∃ q q',
      c.parse text = .ok q ∧ c.parse text' = .ok q' ∧ q.alphaEq q' = true := by
  unfold sameQuery at h
  split at h
  · exact ⟨_, _, ‹_›, ‹_›, h⟩
  · cases h

def rowCompiler : Compiler :=
  .withOptions rowSchema.catalog .standard

theorem isOk_build_any : (rowCompiler.build "p => Any(p.Tags, t => t > p.Low)" (.record "Row")
    none).isOk = true := by
  simp only [build, check, infer, LambdaQuery.infer, Inference.run, Inference.work,
    Inference.solve_eq_solveBy 4]
  cbv

theorem isOk_build_foo : (rowCompiler.build "p => Foo(p.Low) + Bar(p.Low)" (.record "Row")
    none).isOk = false := by
  simp only [build, check, infer, LambdaQuery.infer, Inference.run, Inference.work,
    Inference.solve_eq_solveBy 4]
  cbv

/-- The names of parameters, the case of other names and parentheses do not matter, neither to a
query that compiles nor to one that calls functions that are not there. -/
theorem build_alphaEq_row :
    (∃ l, rowCompiler.build "p => Any(p.Tags, t => t > p.Low)" (.record "Row") none = .ok l ∧
      rowCompiler.build "row => any((row.tags), x => (x > row.LOW))" (.record "Row") none = .ok l) ∧
    ∃ e e', rowCompiler.build "p => Foo(p.Low) + Bar(p.Low)" (.record "Row") none = .error e ∧
      rowCompiler.build "row => (foo((row.LOW)) + bar(row.low))" (.record "Row") none = .error e' ∧
      e.code = e'.code := by
  constructor
  · have equal : rowCompiler.sameQuery "p => Any(p.Tags, t => t > p.Low)"
        "row => any((row.tags), x => (x > row.LOW))" = true := by cbv
    obtain ⟨q, q', parsed, parsed', equal⟩ := exists_of_sameQuery equal
    have same := build_alphaEq rowSchema.catalog .standard parsed parsed' equal (.record "Row") none
    obtain ⟨l, built⟩ := exists_ok_of_isOk isOk_build_any
    exact ⟨l, built, (same.1 l).1 built⟩
  · have equal : rowCompiler.sameQuery "p => Foo(p.Low) + Bar(p.Low)"
        "row => (foo((row.LOW)) + bar(row.low))" = true := by cbv
    obtain ⟨q, q', parsed, parsed', equal⟩ := exists_of_sameQuery equal
    have same := build_alphaEq rowSchema.catalog .standard parsed parsed' equal (.record "Row") none
    have fails (l : LambdaExpr) :
        rowCompiler.build "p => Foo(p.Low) + Bar(p.Low)" (.record "Row") none ≠ .ok l := by
      intro built
      have notOk := isOk_build_foo
      rw [built] at notOk
      cases notOk
    cases failed : rowCompiler.build "p => Foo(p.Low) + Bar(p.Low)" (.record "Row") none with
    | ok l => exact absurd failed (fails l)
    | error e =>
      cases failed' : rowCompiler.build "row => (foo((row.LOW)) + bar(row.low))" (.record "Row")
          none with
      | ok l' => exact absurd ((same.1 l').2 failed') (fails l')
      | error e' => exact ⟨e, e', rfl, rfl, same.2 e e' failed failed'⟩

end Compiler

end LambdaQuery
