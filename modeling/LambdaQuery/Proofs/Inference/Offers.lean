import LambdaQuery.Proofs.Inference.Shapes
import LambdaQuery.Proofs.Inference.Work
import LambdaQuery.Proofs.Resolver

/-!
# The overloads of a schema

Whatever a name stands for, the types in its signature are of any kind that the types of a schema
are of, and its shapes are plain.
-/

namespace LambdaQuery

/-- Optionals stand only around variables, and only in parameters. -/
def Overload.Plain (o : Overload) : Prop :=
  (∀ s ∈ o.params, s.Plain) ∧ o.result.Rigid

namespace Method

/-- The types in the signature of a method are of a kind. -/
def Within (P : Ty → Prop) (m : Method) : Prop :=
  Shape.WithinAll P m.params ∧ m.result.Within P

/-- The signature of a method has no optionals. -/
def Rigid (m : Method) : Prop :=
  Shape.RigidAll m.params ∧ m.result.Rigid

end Method

namespace Members

theorem aggregates_rigid (element : Ty) : ∀ m ∈ aggregates element, m.Rigid := by
  unfold aggregates
  split <;> simp [Method.Rigid, Method.ofBody, Shape.RigidAll, Shape.Rigid]

theorem ofSequence_rigid (element : Ty) : ∀ m ∈ (ofSequence element).methods, m.Rigid := by
  refine List.forall_mem_append.2 ⟨?_, aggregates_rigid element⟩
  simp [Method.Rigid, select, Method.ofBody, Shape.RigidAll, Shape.Rigid]

variable {P : Ty → Prop} {catalog : Catalog}

theorem aggregates_within {element : Ty} (proper : P element) :
    ∀ m ∈ aggregates element, m.Within P := by
  unfold aggregates
  split <;> simp [Method.Within, Method.ofBody, Shape.WithinAll, Shape.Within, proper]

theorem ofSequence_within (closed : catalog.Closed P) {element : Ty} (proper : P element) :
    ∀ m ∈ (ofSequence element).methods, m.Within P := by
  refine List.forall_mem_append.2 ⟨?_, aggregates_within proper⟩
  simp [Method.Within, select, Method.ofBody, Shape.WithinAll, Shape.Within, proper, closed.bool,
    closed.int, closed.enumerable proper]

end Members

namespace Schema

variable {P : Ty → Prop} {catalog : Catalog}

theorem methods_rigid (schema : Schema) (ty : Ty) :
    ∀ m ∈ (schema.members ty).methods, m.Rigid := by
  cases ty with
  | string | optional _ =>
    simp [members, Members.ofString, Members.ofOptional, Method.Rigid, Method.ofBody,
      Shape.RigidAll, Shape.Rigid]
  | list e | array e | enumerable e => exact Members.ofSequence_rigid e
  | _ => simp [members, Members.none, Members.ofDate]

theorem methods_within (closed : catalog.Closed P) (schema : Schema) {ty : Ty} (proper : P ty) :
    ∀ m ∈ (schema.members ty).methods, m.Within P := by
  cases ty with
  | string =>
    simp [members, Members.ofString, Method.Within, Method.ofBody, Shape.WithinAll, Shape.Within,
      closed.string, closed.bool, closed.int]
  | optional inner =>
    have innerProper : P inner := closed.underlying proper
    simp [members, Members.ofOptional, Method.Within, Method.ofBody, Shape.WithinAll, Shape.Within,
      innerProper]
  | list e | array e | enumerable e =>
    exact Members.ofSequence_within closed (closed.element proper rfl)
  | _ => simp [members, Members.none, Members.ofDate]

theorem describe_eq_some {schema : Schema} {ty : Ty} {info : TypeInfo}
    (h : schema.catalog.describe ty = some info) : schema.knows ty = true ∧ info = schema.info ty := by
  simp only [catalog] at h
  split at h
  · cases h
    exact ⟨‹_›, rfl⟩
  · cases h

end Schema

namespace Overload

theorem standard_plain : ∀ o ∈ Resolver.standardFunctions, o.Plain := by
  simp [Resolver.standardFunctions, Resolver.free, Resolver.coalesce, Plain, Shape.Plain, Shape.Rigid]

variable {P : Ty → Prop} {catalog : Catalog} {schema : Schema} {r : Request} {o : Overload}

theorem standard_within (closed : catalog.Closed P) :
    ∀ o ∈ Resolver.standardFunctions, o.Within P := by
  simp [Resolver.standardFunctions, Resolver.free, Resolver.coalesce, Within, Shape.WithinAll,
    Shape.Within, closed.string, closed.int, closed.float]

theorem Offered.plain (h : Offered schema.catalog r o) : o.Plain := by
  cases h with
  | property _ _ _ => simp [Plain, ofProperty, Shape.Plain, Shape.Rigid]
  | @method ty _ info m _ _ described isMethod =>
    obtain ⟨_, rfl⟩ := Schema.describe_eq_some described
    have rigid := schema.methods_rigid ty m isMethod
    refine ⟨?_, rigid.2⟩
    have each : ∀ {shapes : List Shape}, Shape.RigidAll shapes → ∀ s ∈ shapes, s.Rigid := by
      intro shapes all
      induction shapes with
      | nil => simp
      | cons s rest ih => simpa using ⟨all.1, ih all.2⟩
    intro s mem
    rcases List.mem_cons.1 mem with rfl | isParam
    · exact .inl trivial
    · exact .inl (each rigid.1 s isParam)
  | standard _ isStandard => exact standard_plain o isStandard

theorem Offered.within (closed : schema.catalog.Closed P) (h : Offered schema.catalog r o)
    (proper : ∀ ty, .known ty ∈ r.args → P ty) : o.Within P := by
  cases h with
  | @property ty info p isArg described found =>
    have tyProper : P ty := proper ty (by simp [isArg])
    have isProperty : (schema.catalog.describe ty).bind (·.property? r.name) = some p := by
      simp [described, found]
    exact ⟨⟨tyProper, trivial⟩, closed.property tyProper isProperty⟩
  | @method ty rest info m _ isArg described isMethod =>
    have tyProper : P ty := proper ty (by simp [isArg])
    obtain ⟨_, rfl⟩ := Schema.describe_eq_some described
    have within := schema.methods_within closed tyProper m isMethod
    exact ⟨⟨tyProper, within.1⟩, within.2⟩
  | standard _ isStandard => exact standard_within closed o isStandard

end Overload

theorem Resolver.respects_withOptions {P : Ty → Prop} {schema : Schema}
    (closed : schema.catalog.Closed P) (options : Options) :
    (Compiler.withOptions schema.catalog options).resolver.Respects P where
  within proper h := (offered_of_resolve? h).1.within closed proper
  arity h := (offered_of_resolve? h).2.2

/-- Whatever a resolver offers is plain and takes as many arguments as there are. -/
def Resolver.Plain (resolver : Resolver) : Prop :=
  ∀ r o, resolver.resolve? r = some o → o.Plain ∧ o.params.length = r.args.length

theorem Resolver.plain_withOptions (schema : Schema) (options : Options) :
    (Compiler.withOptions schema.catalog options).resolver.Plain := fun _ _ h =>
  ⟨(offered_of_resolve? h).1.plain, (offered_of_resolve? h).2.2⟩

/-- Every type is of the kind of all types. -/
theorem Catalog.closed_true (catalog : Catalog) : catalog.Closed fun _ => True where
  bool := trivial
  int := trivial
  float := trivial
  string := trivial
  array _ := trivial
  enumerable _ := trivial
  orNull _ := trivial
  lambda _ _ := trivial
  common _ _ _ := trivial
  element _ _ := trivial
  underlying _ := trivial
  param _ _ := trivial
  result _ := trivial
  property _ _ := trivial

end LambdaQuery
