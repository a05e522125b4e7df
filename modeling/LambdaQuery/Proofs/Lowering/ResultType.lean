import LambdaQuery.Proofs.Safety.Queries

/-!
# The type that is asked for

A query that compiles for an expected type gives exactly that type, unless it is the identity. When
the expected type is imposed on the body, only the parameter of the query has a type: lambdas have
said what they are made of, and nothing else is known. So the body takes the expected type as its
own, and what it computes is converted. Only a body that is the parameter itself has its type by
then, and keeps it.
-/

namespace LambdaQuery

/-- Whether a query gives its parameter back. -/
def Term.isIdentity {α : Type} : Term α → Bool
  | .lambda _ _ (.ident ..) => true
  | _ => false

/-- The type that a query over the root type gives when another is asked for. -/
def Term.deliveredTy {α : Type} (query : Term α) (root requested : Ty) : Ty :=
  if query.isIdentity then root else requested

theorem Term.isIdentity_map {α β : Type} (f : α → β) (t : Term α) :
    (t.map f).isIdentity = t.isIdentity := by
  cases t with
  | lambda _ _ body => cases body <;> rfl
  | _ => rfl

section

variable {n : Slotted} {param : Binder Slotted} {body : Term Slotted} {low high : Nat}

/-- The slot of a node is new, unless it is that of a parameter. -/
theorem Numbered.le_slot_of_ne_ident {t : Term Slotted} (h : Numbered low t high)
    (notIdent : t.tag ≠ .ident) : low ≤ t.slot := by
  cases h with
  | lambda _ body => exact Nat.le_of_succ_le body.le_slot.1
  | binary left right => exact Nat.le_trans left.le_slot.1 right.le_slot.1
  | call args => exact args.le
  | member receiver => exact receiver.le_slot.1
  | bound _ | unbound => exact absurd rfl notIdent
  | literal => exact Nat.le_refl _

/-- The slots of a lambda: its parameter comes first, and before its lambdas. -/
theorem Numbered.of_lambda (h : Numbered low (.lambda n param body) high) :
    param.note.slot = low ∧ body.slot < high ∧ low < high ∧
      (∀ l ∈ (Term.lambda n param body).lambdas, low < l.slot) ∧
      (body.tag ≠ .ident → low < body.slot) := by
  cases h with
  | lambda isParam onBody =>
    obtain ⟨le, lt⟩ := onBody.le_slot
    refine ⟨isParam, by omega, by omega, ?_, onBody.le_slot_of_ne_ident⟩
    intro l mem
    simp only [Term.lambdas, List.mem_append, List.mem_singleton] at mem
    rcases mem with inBody | rfl
    · exact (onBody.lambdas_rising.1.within l.slot (List.mem_map_of_mem inBody)).1
    · exact le

end

namespace Solver

variable {catalog : Catalog} {s : Solver} {slot : Nat} {tasks : List Task}

theorem narrow_of_step {task : Task} {left : List Task} {t : Solver}
    (stepped : s.step catalog task = .ok (left, t)) :
    s.narrow catalog (task :: tasks) = t.narrow catalog (left ++ tasks) := by
  rw [narrow]
  split <;> simp_all

/-- The slot has a class of its own, and nothing is known of it. -/
def Untouched (s : Solver) (slot : Nat) : Prop :=
  s.leader? slot = some slot ∧ s.belief slot = .unknown []

theorem Untouched.setBelief (h : s.Untouched slot) {other : Nat} (different : slot ≠ other)
    (b : Belief) : (s.setBelief other b).Untouched slot := by
  obtain ⟨led, unknown⟩ := h
  have notIn : s.leader? slot ≠ some other := by
    rw [led]
    simpa using different
  exact ⟨by simpa using led, by rw [belief_setBelief_of_ne notIn, unknown]⟩

theorem Untouched.step_assign (h : s.Untouched slot) (catalog : Catalog) (ty : Ty) :
    s.step catalog (.assign slot ty) = .ok ([], s.setBelief slot (.known ty)) := by
  simp [step, h.1, h.2]

theorem Untouched.step_constrain (h : s.Untouched slot) (catalog : Catalog) (c : Constraint) :
    s.step catalog (.constrain slot c) = .ok ([], s.setBelief slot (.unknown [c])) := by
  simp [step, h.1, h.2, meetAll]

/-- What lambdas say of themselves makes no type known, so a type that is expected of an unknown
slot is its type. -/
theorem narrow_lambdas_expect {ls : List LambdaSlots} (untouched : ∀ l ∈ ls, s.Untouched l.slot)
    (distinct : (ls.map LambdaSlots.slot).Nodup) (unknown : s.known? slot = none) (ty : Ty)
    (flow : Flow) : s.narrow catalog (ls.map LambdaSlots.task ++ [.expect slot ty flow]) =
      s.narrow catalog (ls.map LambdaSlots.task ++ [.assign slot ty]) := by
  induction ls generalizing s with
  | nil =>
    have expects : s.step catalog (.expect slot ty flow) = .ok ([.assign slot ty], s) := by
      unfold known? at unknown
      split at unknown
      · cases unknown
      · simp only [step, *]
    exact narrow_of_step expects
  | cons l rest ih =>
    obtain ⟨isNew, distinctRest⟩ := List.nodup_cons.1 distinct
    have here := untouched l List.mem_cons_self
    have untouchedRest : ∀ other ∈ rest,
        (s.setBelief l.slot (.unknown [.lambda [l.param] l.body])).Untouched other.slot := by
      intro other mem
      refine (untouched other (List.mem_cons_of_mem _ mem)).setBelief ?_ _
      rintro same
      exact isNew (same ▸ List.mem_map_of_mem mem)
    have unknownStill :
        (s.setBelief l.slot (.unknown [.lambda [l.param] l.body])).known? slot = none :=
      (known?_setBelief_unknown here.1 here.2 slot).trans unknown
    have constrains := here.step_constrain catalog (.lambda [l.param] l.body)
    simp only [List.map_cons, List.cons_append, LambdaSlots.task]
    rw [narrow_of_step constrains, narrow_of_step constrains]
    exact ih untouchedRest distinctRest unknownStill

/-- At the start of a query the expected type becomes the type of the body, if the body is not the
parameter. -/
theorem narrow_start {n : Slotted} {param : Binder Slotted} {body : Term Slotted} {high : Nat}
    (blank : Blank s.cells) (size : s.cells.size = high)
    (numbered : Numbered 0 (.lambda n param body) high) (different : body.slot ≠ param.note.slot)
    (root ty : Ty) : s.narrow catalog (.assign param.note.slot root ::
        (Term.lambda n param body).lambdaTasks ++ [.expect body.slot ty .into]) =
      s.narrow catalog (.assign param.note.slot root ::
        (Term.lambda n param body).lambdaTasks ++ [.assign body.slot ty]) := by
  have rising := numbered.lambdas_rising.1
  have untouched {slot : Nat} (lt : slot < high) : s.Untouched slot :=
    ⟨blank.leader? (size ▸ lt), blank.belief slot⟩
  obtain ⟨isParam, bodyLt, paramLt, lambdasAfter, -⟩ := numbered.of_lambda
  have assigns := (untouched (isParam ▸ paramLt)).step_assign catalog root
  have unknown : (s.setBelief param.note.slot (.known root)).known? body.slot = none := by
    have notIn : s.leader? body.slot ≠ some param.note.slot := by
      rw [blank.leader? (size ▸ bodyLt)]
      simpa using different
    rw [known?, belief_setBelief_of_ne notIn, blank.belief]
  have untouchedStill : ∀ l ∈ (Term.lambda n param body).lambdas,
      (s.setBelief param.note.slot (.known root)).Untouched l.slot := by
    intro l mem
    have within := rising.within l.slot (List.mem_map_of_mem mem)
    have after := lambdasAfter l mem
    exact (untouched within.2).setBelief (by omega) _
  simp only [List.cons_append, Term.lambdaTasks_eq]
  rw [narrow_of_step assigns, narrow_of_step assigns]
  exact narrow_lambdas_expect untouchedStill rising.nodup unknown ty .into

end Solver

namespace Inference

open Solver Term

variable {catalog : Catalog} {P : Ty → Prop} {resolver : Resolver} {n : Slotted}
  {param : Binder Slotted} {body : Term Slotted} {high : Nat} {root ty : Ty} {tasks : List Task}
  {left : List Item} {s' : Solver}

/-- The body has the expected type after all work on the query. -/
theorem known?_body_of_work (closed : catalog.Closed P) (respects : resolver.Respects P)
    (numbered : Numbered 0 (.lambda n param body) high) (different : body.slot ≠ param.note.slot)
    (isStart : startTasks? root (some ty) (.lambda n param body) = some tasks) (properRoot : P root)
    (properTy : P ty)
    (worked : work catalog resolver (.lambda n param body) tasks
      (start (.lambda n param body) high) = .ok left s') : s'.known? body.slot = some ty := by
  obtain ⟨_, s₁, learnt, solved⟩ := bind_ok worked
  obtain ⟨blank, size⟩ := blank_start (.lambda n param body) high
  have within := startTasks_within (P := P) numbered isStart properRoot (by simpa using properTy)
  cases isStart
  have narrowed := learn_ok learnt
  rw [Option.toList_some, List.map_singleton, narrow_start blank size numbered different] at narrowed
  have within' : ∀ t ∈ .assign param.note.slot root ::
      (Term.lambda n param body).lambdaTasks ++ [.assign body.slot ty],
        t.Within P (start (.lambda n param body) high).cells.size := by
    rw [size]
    intro t mem
    rcases List.mem_append.1 mem with before | isLast
    · exact within t (List.mem_append_left _ before)
    · cases List.mem_singleton.1 isLast
      exact within (.expect body.slot ty .into) (by simp)
  obtain ⟨grown, sameSize, -, holds⟩ := narrow_grown closed blank.valid within' narrowed
  have itemsWithin : ∀ item ∈ (Term.lambda n param body).items, ∀ i ∈ item.slots,
      i < s₁.cells.size := by
    intro item mem i inItem
    rw [sameSize, size]
    exact numbered.slots_lt item mem i inItem
  obtain ⟨done, -⟩ :=
    solve_worked closed respects grown.valid itemsWithin numbered.items_rising.nodup solved
  exact holds (done.models (models_known? catalog s')) (.assign body.slot ty) (by simp)

end Inference

section

variable {catalog : Catalog} {P : Ty → Prop} {resolver : Resolver} {query : Term Span} {root ty : Ty}
  {t : Term Typed} {high : Nat}

/-- The body of a query has the expected type, if it is not the parameter. -/
theorem body_ty_of_infer (closed : catalog.Closed P) (respects : resolver.Respects P)
    (inScope : Scoped [] 0 query high) (properRoot : P root) (properTy : P ty)
    (notIdentity : query.isIdentity = false)
    (h : (infer catalog resolver query root (some ty)).outcome = .ok t) :
    ∃ note param body, t = .lambda note param body ∧ body.ty = ty := by
  obtain ⟨tasks, left, s', isStart, worked, typed⟩ := infer_ok h
  have bound := inScope.bound_number
  have numbered := (query.number_numbered Numbering.settled_start).1
  have sameShape : (query.number .start).1.isIdentity = false := by
    rw [← Term.isIdentity_map Slotted.span, query.map_number, notIdentity]
  generalize (query.number .start).1 = tree at *
  cases tree with
  | lambda n param body =>
    obtain ⟨isParam, -, -, -, after⟩ := numbered.of_lambda
    have notIdent : body.tag ≠ .ident := by
      rintro isIdent
      cases body <;> cases isIdent
      cases sameShape
    have different : body.slot ≠ param.note.slot := by
      have := after notIdent
      rw [isParam]
      exact Nat.ne_of_gt this
    have known := Inference.known?_body_of_work closed respects numbered different isStart
      properRoot properTy worked
    obtain ⟨body', paramTy, _, onBody, -, -, rfl⟩ := Solver.typed_lambda typed
    rw [Solver.known?_of_typed bound.2 onBody] at known
    exact ⟨_, _, body', rfl, Option.some.inj known⟩
  | _ => cases isStart

end

/-- The body of the identity has the type of the parameter. -/
theorem WellTyped.body_ty_of_isIdentity {catalog : Catalog} {resolver : Resolver} {note : Typed}
    {param : Binder Typed} {body : Term Typed}
    (h : WellTyped catalog resolver [(param.symbol, param.note.ty)] body)
    (isIdentity : (Term.lambda note param body).isIdentity = true) : body.ty = param.note.ty := by
  cases h with
  | ident found =>
    obtain ⟨bound, isBound, isTy, -⟩ := lookup_mem found
    cases List.mem_singleton.1 isBound
    exact isTy.symm
  | _ => cases isIdentity

section

variable {schema : Schema} {options : Options} {text : String} {root ty : Ty} {l : LambdaExpr}
  {P : Ty → Prop}

/-- What stands behind a query that compiles for an expected type: its parameter has the root type,
and its body becomes what the compiled query computes. -/
theorem Compiler.of_build (closed : schema.catalog.Closed P) (properRoot : P root) (properTy : P ty)
    (built : (withOptions schema.catalog options).build text root (some ty) = .ok l) :
    ∃ query param body, Term.ofText options.maxDepth text = .ok query ∧ l.param.ty = root ∧
      body.ty = query.deliveredTy root ty ∧ ty.assignable body.ty = true ∧ body.TypesIn P ∧
      WellTyped schema.catalog (withOptions schema.catalog options).resolver [(param, root)] body ∧
      Lowers schema.catalog [(param, l.param)] body l.body := by
  obtain ⟨query, t, parsed, inferred, lowered⟩ := build_ok built
  obtain ⟨high, inScope⟩ := Term.scoped_of_ofText parsed
  have respects := Resolver.respects_withOptions closed options
  have sound := soundlyTyped_of_infer closed respects (Resolver.plain_withOptions schema options)
    inScope properRoot (by simpa using properTy) inferred
  obtain ⟨note, binder, body, rfl, isParam, wellTyped, lowers⟩ :=
    LambdaExpr.lowers_of_ofTyped sound.wellTyped (sound.symbols_rising inScope) lowered
  obtain ⟨_, _, _, isLambda, isRoot, converts⟩ := sound.isLambda
  cases isLambda
  have sameShape : (Term.lambda note binder body).isIdentity = query.isIdentity := by
    rw [← Term.isIdentity_map Typed.span, sound.same]
  have delivered : body.ty = query.deliveredTy root ty := by
    unfold Term.deliveredTy
    by_cases isIdentity : query.isIdentity = true
    · rw [if_pos isIdentity, wellTyped.body_ty_of_isIdentity (sameShape.trans isIdentity), isRoot]
    · obtain ⟨_, _, _, isLambda, isTy⟩ := body_ty_of_infer closed respects inScope properRoot
        properTy (by simpa using isIdentity) inferred
      cases isLambda
      rw [if_neg isIdentity, isTy]
  exact ⟨query, binder.symbol, body, parsed, isParam.trans isRoot, delivered, converts ty rfl,
    sound.types.2.2, isRoot ▸ wellTyped, lowers⟩

end

/-- A query that compiles for an expected type has exactly this type, unless it is the identity,
which has the root type; this then converts to the expected one. What the query computes is of the
type it has. A filter always has the type of a filter. -/
theorem requested_type_delivered (schema : Schema) (options : Options) (text : String) (root : Ty) :
    (∀ {ty : Ty} {l : LambdaExpr},
      (Compiler.withOptions schema.catalog options).build text root (some ty) = .ok l →
      ∃ query, Term.ofText options.maxDepth text = .ok query ∧
        l.ty = .lambda [root] (query.deliveredTy root ty) ∧ ty.assignable l.resultTy = true ∧
        (schema.Fields Ty.Proper → root.Proper → ty.Proper → ∀ {v : Value},
          Conforms schema root v →
          Settles (fun depth => l.invoke depth v) (Conforms schema (query.deliveredTy root ty)))) ∧
    ∀ {l : LambdaExpr},
      (Compiler.withOptions schema.catalog options).buildPredicate text root = .ok l →
      l.ty = .lambda [root] .bool := by
  have closed := schema.catalog.closed_true
  constructor
  · intro ty l built
    obtain ⟨query, _, body, parsed, isRoot, isTy, converts, -, -, lowers⟩ :=
      Compiler.of_build closed trivial trivial built
    refine ⟨query, parsed, ?_, ?_, ?_⟩
    · rw [LambdaExpr.ty, LambdaExpr.resultTy, lowers.ty_eq, isRoot, isTy]
    · rwa [LambdaExpr.resultTy, lowers.ty_eq]
    · intro fields properRoot properTy v conforms
      obtain ⟨query', param, body, parsed', isRoot, isTy, -, properBody, wellTyped, lowers⟩ :=
        Compiler.of_build (Schema.closed_proper fields) properRoot properTy built
      cases parsed.symm.trans parsed'
      have context : Parameters.types [(param, l.param)] = [(param, root)] := by
        simp [Parameters.types, isRoot]
      have provided : Parameters.Provided schema [(param, l.param)] [(l.param.id, v)] := by
        have none : Parameters.Provided schema [] [] := fun _ _ found => by cases found
        exact none.cons (by simp) (isRoot ▸ conforms)
      rw [← isTy, ← lowers.ty_eq]
      exact lowers.settled (context ▸ wellTyped) properBody provided
  · intro l built
    obtain ⟨query, _, body, -, isRoot, -, converts, -, -, lowers⟩ :=
      Compiler.of_build closed trivial trivial built
    rw [LambdaExpr.ty, LambdaExpr.resultTy, lowers.ty_eq, isRoot, Ty.eq_bool_of_assignable converts]

theorem build_low : ∃ l, (Compiler.withOptions rowSchema.catalog .standard).build "p => p.Low"
    (.record "Row") (some .float) = .ok l := by
  have succeeds : ((Compiler.withOptions rowSchema.catalog .standard).build "p => p.Low"
      (.record "Row") (some .float)).isOk = true := by
    simp only [Compiler.build, Compiler.check, Compiler.infer, infer, Inference.run, Inference.work,
      Inference.solve_eq_solveBy 4]
    cbv
  cases built : (Compiler.withOptions rowSchema.catalog .standard).build "p => p.Low"
      (.record "Row") (some .float) with
  | ok l => exact ⟨l, rfl⟩
  | error e =>
    rw [built] at succeeds
    cases succeeds

theorem requested_type_delivered_low :
    ∃ l, (Compiler.withOptions rowSchema.catalog .standard).build "p => p.Low" (.record "Row")
        (some .float) = .ok l ∧ rowSchema.Fields Ty.Proper ∧
      Conforms rowSchema (.record "Row") rowValue ∧ l.ty = .lambda [.record "Row"] .float ∧
      Settles (fun depth => l.invoke depth rowValue) (Conforms rowSchema .float) := by
  obtain ⟨l, built⟩ := build_low
  obtain ⟨query, parsed, isTy, -, settles⟩ :=
    (requested_type_delivered rowSchema .standard "p => p.Low" (.record "Row")).1 built
  have notIdentity : query.deliveredTy (.record "Row") .float = .float := by
    have read : Term.ofText Options.standard.maxDepth "p => p.Low" =
        .ok (.lambda ⟨0, 10⟩ ⟨⟨0, "p"⟩, ⟨0, 1⟩⟩
          (.member ⟨5, 10⟩ (.ident ⟨5, 6⟩ ⟨0, "p"⟩) "Low")) := by cbv
    cases read.symm.trans parsed
    rfl
  rw [notIdentity] at isTy settles
  exact ⟨l, built, rowSchema_proper, conforms_rowValue, isTy,
    settles rowSchema_proper trivial trivial conforms_rowValue⟩

/-- The identity over whole numbers compiles where other numbers are asked for, and gives whole
numbers. -/
theorem identity_not_delivered :
    ∃ l, (Compiler.withOptions Schema.empty.catalog .standard).build "x => x" .int (some .float) =
      .ok l ∧ l.ty = .lambda [.int] .int ∧ l.ty ≠ .lambda [.int] .float := by
  have isInt : ((Compiler.withOptions Schema.empty.catalog .standard).build "x => x" .int
      (some .float)).map LambdaExpr.ty = .ok (.lambda [.int] .int) := by
    simp only [Compiler.build, Compiler.check, Compiler.infer, infer, Inference.run, Inference.work,
      Inference.solve_eq_solveBy 4]
    cbv
  cases built : (Compiler.withOptions Schema.empty.catalog .standard).build "x => x" .int
      (some .float) with
  | ok l =>
    rw [built] at isInt
    have isTy : l.ty = .lambda [.int] .int := Except.ok.inj isInt
    exact ⟨l, rfl, isTy, by simp [isTy]⟩
  | error e =>
    rw [built] at isInt
    cases isInt

end LambdaQuery
