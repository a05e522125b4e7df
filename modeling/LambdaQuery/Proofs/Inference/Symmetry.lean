import LambdaQuery.Proofs.Inference.Exchange
import LambdaQuery.Proofs.Inference.Verdicts
import LambdaQuery.Proofs.Lowering.ResultType
import Mathlib

/-!
# Equality in either order

An equality gets a type in either order of its operands, if one of them can be worked on apart from
the rest of the query. Otherwise the order can matter: an operand takes the type that was found
first, and keeps it.
-/

namespace LambdaQuery

namespace Solver

/-! Where the work starts. -/

section

variable {q : Pairing} {s s' : Solver}

/-- When nothing is known but the type of the root, solvers look alike from slots that belong to the
same kinds of node. -/
theorem alike_of_blank (blank : Blank s.cells) (blank' : Blank s'.cells)
    (ranks : ∀ i, s.rank i = 0) (ranks' : ∀ i, s'.rank i = 0)
    (order : ∀ {a a' b b' : Nat}, q a a' → q b b' → (a < b ↔ a' < b'))
    (inside : ∀ {a a' : Nat}, q a a' → a < s.cells.size ∧ a' < s'.cells.size)
    (first : ∀ {a a' : Nat}, q a a' → (a = 0 ↔ a' = 0))
    (tags : ∀ {a a' : Nat}, q a a' → (s.origin a).tag = (s'.origin a').tag) (root : Ty) :
    LookAlike q (s.setBelief 0 (.known root)) (s'.setBelief 0 (.known root)) where
  order := order
  view {a a'} paired := by
    obtain ⟨lt, lt'⟩ := inside paired
    have led := blank.leader? lt
    have led' := blank'.leader? lt'
    by_cases isRoot : a = 0
    · have isRoot' := (first paired).1 isRoot
      subst isRoot isRoot'
      exact .known (belief_setBelief led _) (belief_setBelief led' _)
    · have notRoot' : a' ≠ 0 := fun isRoot' => isRoot ((first paired).2 isRoot')
      refine .unknown ((leader?_setBelief ..).trans led) ((leader?_setBelief ..).trans led') paired
        (by simp [ranks, ranks']) ?_ ?_ .nil
      · rw [belief_setBelief_of_ne (by rw [led]; simpa using isRoot), blank.belief]
      · rw [belief_setBelief_of_ne (by rw [led']; simpa using notRoot'), blank'.belief]
  tag paired := by simpa using tags paired
  overload {a a'} _ := by
    rw [overload?_setBelief, overload?_setBelief, blank.overload?, blank'.overload?]

end

open Term

theorem joint_start {query query' : Term Span} (wellBound : query.WellBound)
    (wellBound' : query'.WellBound) {g : Gap} (exchanges : g.Exchanges 0 query.tags query'.tags)
    (positive : 0 < g.start) (root : Ty) :
    Joint (g.outer query.tags.length) g.inner ((startOf query).setBelief 0 (.known root))
      ((startOf query').setBelief 0 (.known root)) := by
  obtain ⟨-, fits, same⟩ := exchanges.bounds
  rw [Nat.zero_add] at fits
  have size := size_startOf wellBound
  have size' := (size_startOf wellBound').trans same.symm
  have blank : Blank (startOf query).cells := (blank_start _ _).1
  have blank' : Blank (startOf query').cells := (blank_start _ _).1
  have inside {a a' : Nat} (paired : g.outer query.tags.length a a' ∨ g.inner a a') :
      a < (startOf query).cells.size ∧ a' < (startOf query').cells.size := by
    rw [size, size']
    exact g.lt_size positive fits paired
  have tags {a a' : Nat} (paired : g.outer query.tags.length a a' ∨ g.inner a a') :
      ((startOf query).origin a).tag = ((startOf query').origin a').tag := by
    obtain ⟨lt, lt'⟩ := g.lt_size positive fits paired
    apply Option.some.inj
    rw [tag_startOf wellBound lt, tag_startOf wellBound' (same ▸ lt')]
    exact paired.elim exchanges.outer_tag (exchanges.inner_tag positive)
  have root₀ {s : Solver} (blank : Blank s.cells) (there : 0 < s.cells.size) :
      (s.setBelief 0 (.known root)).belief 0 = .known root :=
    belief_setBelief (blank.leader? there) _
  have here : g.outer query.tags.length 0 0 := ⟨by omega, .inl ⟨positive, rfl⟩⟩
  constructor
  · exact alike_of_blank blank blank' (rank_start _ _) (rank_start _ _) g.outer_order
      (fun paired => inside (.inl paired)) (fun paired => g.zero_iff positive (.inl paired))
      (fun paired => tags (.inl paired)) root
  · exact alike_of_blank blank blank' (rank_start _ _) (rank_start _ _) (g.inner_order positive)
      (fun paired => inside (.inr paired))
      (fun paired => g.zero_iff positive (.inr paired : g.outer 0 _ _ ∨ _))
      (fun paired => tags (.inr paired)) root
  · exact ⟨root, root₀ blank (inside (.inl here)).1⟩
  · exact ⟨root, root₀ blank' (inside (.inl here)).2⟩
  · exact g.zero_iff positive
  · rintro a ⟨_, inOuter⟩ ⟨_, inInner⟩
    exact g.apart inOuter inInner
  · rintro a ⟨_, inOuter⟩ ⟨_, inInner⟩
    exact g.apart' inOuter inInner
  · intro a lt
    rw [size_setBelief, size] at lt
    exact g.covers lt
  · intro a lt
    rw [size_setBelief, size'] at lt
    exact g.covers' fits lt

end Solver

namespace Inference

open Solver Term

/-- Whether a computation ended well. -/
def succeeds {α : Type} : EStateM.Result TypeError Solver α → Bool
  | .ok .. => true
  | .error .. => false

theorem Matched.succeeds_eq {α β : Type} {R : α → Solver → β → Solver → Prop}
    {x : EStateM.Result TypeError Solver α} {y : EStateM.Result TypeError Solver β}
    (h : Matched R x y) : succeeds x = succeeds y := by
  cases h <;> rfl

/-- A first task that leaves nothing else to do may be done in advance. -/
theorem succeeds_run_cons {catalog : Catalog} {resolver : Resolver} {tree : Term Slotted}
    {binders : List (Symbol × Nat)} {task : Task} {tasks : List Task} {s t : Solver}
    (stepped : s.step catalog task = .ok ([], t)) :
    succeeds (run catalog resolver tree binders (task :: tasks) s) =
      succeeds (run catalog resolver tree binders tasks t) := by
  have same : s.narrow catalog (task :: tasks) = t.narrow catalog tasks := narrow_of_step stepped
  cases narrowed : t.narrow catalog tasks with
  | error e =>
    have failed : learn catalog (task :: tasks) s = .error e s := by rw [learn, same, narrowed]
    have failed' : learn catalog tasks t = .error e t := by rw [learn, narrowed]
    have stops : work catalog resolver tree (task :: tasks) s = .error e s := bind_error failed
    have stops' : work catalog resolver tree tasks t = .error e t := bind_error failed'
    rw [run, run, bind_error stops, bind_error stops']
    rfl
  | ok u =>
    have learnt : learn catalog (task :: tasks) s = .ok () u := by rw [learn, same, narrowed]
    have learnt' : learn catalog tasks t = .ok () u := by rw [learn, narrowed]
    have worked : work catalog resolver tree (task :: tasks) s =
        solve catalog resolver tree.bodyLiterals tree.items u := bind_eq_of_ok learnt
    have worked' : work catalog resolver tree tasks t =
        solve catalog resolver tree.bodyLiterals tree.items u := bind_eq_of_ok learnt'
    show succeeds (EStateM.bind (work catalog resolver tree (task :: tasks)) _ s) =
      succeeds (EStateM.bind (work catalog resolver tree tasks) _ t)
    simp only [EStateM.bind, worked, worked']

end Inference

open Term Solver Inference

theorem isOk_infer {catalog : Catalog} {resolver : Resolver} {query : Term Span} {root : Ty}
    {expected : Option Ty} {tasks : List Task}
    (isStart : (query.number .start).1.startTasks? root expected = some tasks) :
    (infer catalog resolver query root expected).outcome.isOk =
      succeeds (run catalog resolver (query.number .start).1 (query.number .start).2.binders tasks
        (startOf query)) := by
  simp only [infer, isStart]
  generalize run catalog resolver (query.number .start).1 (query.number .start).2.binders tasks
    (startOf query) = x
  cases x <;> rfl

/-- The type of the root is known at once. -/
theorem step_assign_start (catalog : Catalog) (t : Term Slotted) {slots : Nat} (there : 0 < slots)
    (root : Ty) : (start t slots).step catalog (.assign 0 root) =
      .ok ([], (start t slots).setBelief 0 (.known root)) := by
  obtain ⟨blank, size⟩ := blank_start t slots
  exact Untouched.step_assign ⟨blank.leader? (by rw [size]; exact there), blank.belief 0⟩ catalog
    root

/-- Inside the lambda of a query only its parameter is in scope. -/
theorem around_root {span : Span} {param : Binder Span} {body body' : Term Span}
    (wellBound : WellBound (.lambda span param body))
    (wellBound' : WellBound (.lambda span param body')) :
    Around (number (.lambda span param body) .start).2.binders
      (number (.lambda span param body') .start).2.binders param.symbol [param.symbol]
      (Numbering.start.bind param.symbol) where
  knows := .bind (.nil .start) param.symbol
  inScope := List.mem_singleton_self _
  first := wellBound.bound_number.1
  first' := wellBound'.bound_number.1
  fixed symbol mem := by
    obtain rfl := List.mem_singleton.1 mem
    exact ⟨0, Nat.one_pos, wellBound.bound_number.1, wellBound'.bound_number.1⟩

/-- The separate operand stands second. -/
theorem isOk_infer_of_second (catalog : Catalog) (resolver : Resolver) {query query' : Term Span}
    (wellBound : query.WellBound) (h : ExchangedWhere SecondSeparate none query query') (root : Ty)
    (expected : Option Ty) : (infer catalog resolver query root expected).outcome.isOk =
      (infer catalog resolver query' root expected).outcome.isOk := by
  have wellBound' := h.wellBound wellBound
  cases h with
  -- only a lambda is a query
  | here | left | right | args | receiver => rfl
  | @body _ span param body body' inside =>
    have bound := wellBound.bound_number
    have bound' := wellBound'.bound_number
    have inBody : body.InScope [param.symbol] := wellBound.inScope
    have around := around_root wellBound wellBound'
    have fits : 0 + 1 + body.tags.length < (tags (.lambda span param body)).length := by
      simp only [tags, List.length_cons, List.length_append, List.length_nil]
      omega
    obtain ⟨g, exchanges, crossedBody⟩ := number_crossed inside inBody around bound.2 bound'.2
      (Nat.le_of_lt fits)
    have crossed : Crossed (g.outer (tags (.lambda span param body)).length) g.inner
        (number (.lambda span param body) .start).1 (number (.lambda span param body') .start).1 :=
      number_crossed_body inBody (inside.inScope inBody) around.knows exchanges crossedBody fits
    have joint := joint_start wellBound wellBound'
      (.prepend [.parameter] (exchanges.append [.lambda])) exchanges.bounds.1 root
    have onExpected : Task.PairedAll (g.outer (tags (.lambda span param body)).length)
        (expected.toList.map fun ty =>
          .expect (body.number (Numbering.start.bind param.symbol)).1.slot ty .into)
        (expected.toList.map fun ty =>
          .expect (body'.number (Numbering.start.bind param.symbol)).1.slot ty .into) := by
      cases expected with
      | none => exact .nil
      | some ty => exact .cons (.expect crossedBody.slot ty .into) .nil
    have onLambdas := crossed.collected lambdaTasks_collects (ownTasks_crossed _ _)
    have both := run_together catalog resolver crossed bound bound' (onLambdas.append onExpected)
      (.refl _) (.refl _) joint
    calc (infer catalog resolver (.lambda span param body) root expected).outcome.isOk
        = _ := isOk_infer rfl
      _ = _ := succeeds_run_cons (step_assign_start catalog _ (Nat.succ_pos _) root)
      _ = _ := both.succeeds_eq
      _ = _ := (succeeds_run_cons (step_assign_start catalog _ (Nat.succ_pos _) root)).symm
      _ = (infer catalog resolver (.lambda span param body') root expected).outcome.isOk :=
        (isOk_infer rfl).symm

/-- A query gets types just if it does with the operands of an equality the other way round,
provided that one of them is a parameter or uses no parameter from outside but that of the query. -/
theorem infer_exchanged (catalog : Catalog) (resolver : Resolver) {query query' : Term Span}
    (wellBound : query.WellBound) (exchanged : query.Exchanged query') (root : Ty)
    (expected : Option Ty) : (infer catalog resolver query root expected).outcome.isOk =
      (infer catalog resolver query' root expected).outcome.isOk := by
  rcases exchanged.oriented with second | first
  · exact isOk_infer_of_second catalog resolver wellBound second root expected
  · exact (isOk_infer_of_second catalog resolver (exchanged.wellBound wellBound) first root
      expected).symm

/-- Whether an equality holds of a number of a row. -/
def tagQuery (left right : Term Span) : Term Span :=
  .lambda ⟨0, 44⟩ ⟨⟨0, "p"⟩, ⟨0, 1⟩⟩ <| .call ⟨5, 44⟩ "Any"
    [.member ⟨9, 15⟩ (.ident ⟨9, 10⟩ ⟨0, "p"⟩) "Tags",
      .lambda ⟨17, 43⟩ ⟨⟨17, "t"⟩, ⟨17, 18⟩⟩ <| .binary ⟨22, 43⟩ .eq left right]

def nextTag : Term Span :=
  .binary ⟨22, 27⟩ .add (.ident ⟨22, 23⟩ ⟨17, "t"⟩) (.literal ⟨26, 27⟩ (some "1"))

/-- It uses the row only. -/
def tagCount : Term Span :=
  .call ⟨30, 43⟩ "Count" [.member ⟨36, 42⟩ (.ident ⟨36, 37⟩ ⟨0, "p"⟩) "Tags"]

theorem infer_exchanged_count :
    Term.ofText 64 "p => Any(p.Tags, t => t + 1 = Count(p.Tags))" =
        .ok (tagQuery nextTag tagCount) ∧
      (tagQuery nextTag tagCount).Exchanged (tagQuery tagCount nextTag) ∧
      (infer rowSchema.catalog (Compiler.withOptions rowSchema.catalog .standard).resolver
        (tagQuery tagCount nextTag) (.record "Row") none).outcome.isOk = true := by
  have parsed : Term.ofText 64 "p => Any(p.Tags, t => t + 1 = Count(p.Tags))" =
      .ok (tagQuery nextTag tagCount) := by cbv
  have separate : tagCount.Separate (some ⟨0, "p"⟩) :=
    .inr ⟨⟨⟨0, "p"⟩, List.mem_singleton_self _, rfl⟩, trivial⟩
  have exchanged : (tagQuery nextTag tagCount).Exchanged (tagQuery tagCount nextTag) :=
    .body (.args (.tail (.head (.body (.here rfl (.inr separate))))))
  obtain ⟨high, inScope⟩ := Term.scoped_of_ofText parsed
  refine ⟨parsed, exchanged, ?_⟩
  rw [← infer_exchanged rowSchema.catalog
    (Compiler.withOptions rowSchema.catalog .standard).resolver inScope.wellBound exchanged]
  simp only [infer, Inference.run, Inference.work, Inference.solve_eq_solveBy 6]
  cbv

/-- Two lists of numbers, whole ones and others. -/
def listsSchema : Schema :=
  Schema.empty.addRecord "R" [("H", .list .int), ("G", .list .float)]

/-- Whether an equality holds of a member of the first list. -/
def listsQuery (left right : Term Span) : Term Span :=
  .lambda ⟨0, 55⟩ ⟨⟨0, "x"⟩, ⟨0, 1⟩⟩ <| .call ⟨5, 55⟩ "Any"
    [.member ⟨9, 12⟩ (.ident ⟨9, 10⟩ ⟨0, "x"⟩) "H",
      .lambda ⟨14, 54⟩ ⟨⟨14, "y"⟩, ⟨14, 15⟩⟩ <| .binary ⟨19, 54⟩ .eq left right]

def inFloats : Term Span :=
  .call ⟨19, 35⟩ "Contains" [.member ⟨28, 31⟩ (.ident ⟨28, 29⟩ ⟨0, "x"⟩) "G",
    .ident ⟨33, 34⟩ ⟨14, "y"⟩]

def inInts : Term Span :=
  .call ⟨38, 54⟩ "Contains" [.member ⟨47, 50⟩ (.ident ⟨47, 48⟩ ⟨0, "x"⟩) "H",
    .ident ⟨52, 53⟩ ⟨14, "y"⟩]

/-- Both operands use the inner parameter, which takes its type from the first of them. -/
theorem equality_order_matters :
    Term.ofText 64 "x => Any(x.H, y => Contains(x.G, y) = Contains(x.H, y))" =
        .ok (listsQuery inFloats inInts) ∧
      ExchangedWhere (fun _ _ _ => True) none (listsQuery inFloats inInts)
        (listsQuery inInts inFloats) ∧
      (infer listsSchema.catalog (Compiler.withOptions listsSchema.catalog .standard).resolver
        (listsQuery inFloats inInts) (.record "R") none).outcome.isOk = false ∧
      (infer listsSchema.catalog (Compiler.withOptions listsSchema.catalog .standard).resolver
        (listsQuery inInts inFloats) (.record "R") none).outcome.isOk = true := by
  refine ⟨by cbv, .body (.args (.tail (.head (.body (.here rfl trivial))))), ?_, ?_⟩
  · simp only [infer, Inference.run, Inference.work, Inference.solve_eq_solveBy 6]
    cbv
  · simp only [infer, Inference.run, Inference.work, Inference.solve_eq_solveBy 6]
    cbv

/-- Truth values in lists, arrays and other sequences. -/
def flagsSchema : Schema :=
  (Schema.empty.addRecord "Row" [("A", .list .bool)]).addRecord "R"
    [("B", .array .bool), ("C", .list .int), ("D", .list (.enumerable .bool)),
      ("E", .list (.record "Row"))]

def flagsQuery (left right : Term Span) : Term Span :=
  .lambda ⟨0, 89⟩ ⟨⟨0, "x"⟩, ⟨0, 1⟩⟩ <| .lambda ⟨5, 89⟩ ⟨⟨6, "y"⟩, ⟨6, 7⟩⟩ <|
    .binary ⟨11, 88⟩ .eq left right

/-- `y.A` -/
def rowFlags : Term Span :=
  .member ⟨11, 14⟩ (.ident ⟨11, 12⟩ ⟨6, "y"⟩) "A"

/-- `Coalesce(x.B, Select(x.C, z => Contains(x.D, y.A) && Contains(x.E, y)))` -/
def foundFlags : Term Span :=
  .call ⟨17, 88⟩ "Coalesce" [.member ⟨26, 29⟩ (.ident ⟨26, 27⟩ ⟨0, "x"⟩) "B",
    .call ⟨31, 87⟩ "Select" [.member ⟨38, 41⟩ (.ident ⟨38, 39⟩ ⟨0, "x"⟩) "C",
      .lambda ⟨43, 86⟩ ⟨⟨43, "z"⟩, ⟨43, 44⟩⟩ <| .binary ⟨48, 86⟩ .and
        (.call ⟨48, 66⟩ "Contains" [.member ⟨57, 60⟩ (.ident ⟨57, 58⟩ ⟨0, "x"⟩) "D",
          .member ⟨62, 65⟩ (.ident ⟨62, 63⟩ ⟨6, "y"⟩) "A"])
        (.call ⟨70, 86⟩ "Contains" [.member ⟨79, 82⟩ (.ident ⟨79, 80⟩ ⟨0, "x"⟩) "E",
          .ident ⟨84, 85⟩ ⟨6, "y"⟩])]]

-- Nor need one operand be more than a member of the inner parameter. If it is tried first it is
-- taken for the same as the member in the other operand, an enumerable, which compares with an
-- array. If it is tried last the type of the parameter is known, and the member is a list, which
-- does not.
example :
    let resolver := (Compiler.withOptions flagsSchema.catalog .standard).resolver
    (infer flagsSchema.catalog resolver (flagsQuery rowFlags foundFlags) (.record "R")
      none).outcome.isOk = true ∧
    (infer flagsSchema.catalog resolver (flagsQuery foundFlags rowFlags) (.record "R")
      none).outcome.isOk = false := by
  intro resolver
  constructor
  · simp only [infer, Inference.run, Inference.work, Inference.solve_eq_solveBy 6]
    cbv
  · simp only [infer, Inference.run, Inference.work, Inference.solve_eq_solveBy 6]
    cbv

end LambdaQuery
