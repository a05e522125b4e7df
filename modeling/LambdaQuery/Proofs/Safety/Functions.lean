import LambdaQuery.Proofs.Lowering.Conversions

/-!
# Functions that are there

A function is asked of a value only where the types say that there is one, and a literal is the
only thing of such a type that can fail to be a function: the null. So a query without nulls for
functions never finds anything else in the place of a function, whatever it is applied to.
-/

namespace LambdaQuery

open Evaluation

/-- The outcome is as it should be, or an error other than that there is no function where one was
expected. -/
def Unblocked {α : Type} (Q : α → Prop) : Except EvalError α → Prop
  | .ok a => Q a
  | .error e => ∀ found, e ≠ .typeMismatch .function found

/-- Where the type says that there is a function there is one, which can be applied. Nothing is
said of other parts of the value. -/
def Applicable : Ty → Value → Prop
  | .lambda [param] result, v => ∃ c, v = .function c ∧
      ∀ x, Applicable param x → ∀ depth, Unblocked (Applicable result) (applyClosure depth c x)
  | .lambda _ _, _ => False
  | .optional ty, v => v = .null ∨ Applicable ty v
  | .list element, v | .array element, v | .enumerable element, v =>
    ∀ items, v = .list items → ∀ x ∈ items, Applicable element x
  | .bool, _ | .int, _ | .float, _ | .string, _ | .date, _ | .enum _, _ | .record _, _ => True

namespace Unblocked

variable {α β : Type} {Q : α → Prop} {R : β → Prop} {x : Except EvalError α}

theorem bind {f : α → Except EvalError β} (first : Unblocked Q x)
    (next : ∀ a, Q a → Unblocked R (f a)) : Unblocked R (x >>= f) := by
  cases x with
  | ok a => exact next a first
  | error e => exact first

theorem mono {Q' : α → Prop} (h : Unblocked Q x) (imp : ∀ a, Q a → Q' a) : Unblocked Q' x := by
  cases x with
  | ok a => exact imp a h
  | error e => exact h

end Unblocked

namespace Applicable

variable {ty source target : Ty} {v : Value}

theorem of_firstOrder : ∀ (ty : Ty), ty.FirstOrder → ∀ v, Applicable ty v
  | .optional ty, first, v => .inr (of_firstOrder ty first v)
  | .list element, first, _ | .array element, first, _ | .enumerable element, first, _ =>
    fun _ _ x _ => of_firstOrder element first x
  | .bool, _, _ | .int, _, _ | .float, _, _ | .string, _, _ | .date, _, _ | .enum _, _, _
  | .record _, _, _ => trivial

theorem sequence_iff {element : Ty} (isElement : ty.element? = some element) :
    Applicable ty v ↔ ∀ items, v = .list items → ∀ x ∈ items, Applicable element x := by
  cases ty <;> cases isElement <;> rfl

/-- It does not matter which number a value is. -/
theorem float_of_int {n : Int64} (x : Float) : ∀ (ty : Ty), Applicable ty (.int n) →
    Applicable ty (.float x)
  | .lambda [_] _, ⟨_, isFunction, _⟩ => by cases isFunction
  | .optional _, .inl isNull => by cases isNull
  | .optional ty, .inr inside => .inr (float_of_int x ty inside)
  | .list _, _ | .array _, _ | .enumerable _, _ => fun _ isList => by cases isList
  | .bool, _ | .int, _ | .float, _ | .string, _ | .date, _ | .enum _, _ | .record _, _ => trivial

theorem widen (h : Applicable ty v) (target : Ty) : Applicable ty (v.widen target) := by
  cases v with
  | int n =>
    simp only [Data.widen]
    split
    · exact float_of_int _ ty h
    · exact h
  | _ => exact h

theorem of_orNull (h : Applicable ty.orNull v) : v = .null ∨ Applicable ty v := by
  cases ty with
  | optional _ => exact .inr h
  | _ => exact h

theorem orNull (h : v = .null ∨ Applicable ty v) : Applicable ty.orNull v := by
  cases ty with
  | optional inner => exact h.elim .inl id
  | _ => exact h

/-- A type says the same however often null was added to it. -/
theorem flat : ∀ (ty : Ty) {v : Value}, Applicable ty v → Applicable ty.flat v
  | .optional ty, _, h => orNull (h.imp_right (flat ty))
  | .bool, _, h | .int, _, h | .float, _, h | .string, _, h | .date, _, h | .enum _, _, h
  | .record _, _, h | .list _, _, h | .array _, _, h | .enumerable _, _, h | .lambda .., _, h => h

theorem of_assignable : ∀ (target : Ty) {source : Ty} {v : Value},
    target.assignable source = true → Applicable source v → Applicable target v
  | .optional target, source, v, converts, h => by
    have inside := Ty.optional_assignable_iff.1 converts
    cases source with
    | optional source => exact h.imp_right (of_assignable target inside)
    | _ => exact .inr (of_assignable target inside h)
  | .bool, _, _, converts, h | .int, _, _, converts, h | .float, _, _, converts, h
  | .string, _, _, converts, h | .date, _, _, converts, h | .enum _, _, _, converts, h
  | .record _, _, _, converts, h | .list _, _, _, converts, h | .array _, _, _, converts, h
  | .enumerable _, _, _, converts, h | .lambda .., _, _, converts, h => by
    rcases eq_or_of_assignable rfl converts with rfl | ⟨isFloat, rfl⟩ | ⟨element, isSeq, isElement⟩
    · exact h
    · rw [isFloat]
      trivial
    · rw [isSeq]
      exact (sequence_iff isElement).1 h

/-- A value converts to whatever its type can be used as, and to every sequence with the same
elements. -/
theorem convert (h : Applicable source v) (converts : source.Widens target ∨
    ∃ element, source = .enumerable element ∧ target.element? = some element) :
    Applicable target (v.widen target) := by
  refine widen ?_ target
  rcases converts with widens | ⟨element, rfl, isElement⟩
  · exact of_assignable target widens (flat source h)
  · exact (sequence_iff isElement).2 h

end Applicable

/-! ## Host functions -/

/-- A host function that asks for functions only where its parameters have them, and gives them only
where its result has. -/
def Body.Apt (body : Body Value) (params : List Ty) (result : Ty) : Prop :=
  ∀ (function : String) (args : List Value) (depth : Nat), List.Forall₂ Applicable params args →
    Unblocked (Applicable result) (runBody (applyClosure depth) function body args)

/-- The host functions that ask for a function. -/
def Body.applies : Body Value → Bool
  | anyPasses | allPass | countPassing | filter | map | apply => true
  | _ => false

namespace Body

variable {body : Body Value} {element ty result : Ty} {v : Value}

/-! Taking arguments apart. -/

theorem unblocked_argument (call : Closure → Value → Except EvalError Value) (function : String)
    (args : List Value) (i : Nat) :
    Unblocked (fun _ => True) (runBody call function (.argument i) args) := by
  unfold runBody
  dsimp only
  split
  · trivial
  · nofun

theorem unblocked_asInt (v : Value) : Unblocked (fun _ => True) v.asInt := by
  cases v <;> first | trivial | nofun

theorem unblocked_asFloat (v : Value) : Unblocked (fun _ => True) v.asFloat := by
  cases v <;> first | trivial | nofun

theorem unblocked_asString (v : Value) : Unblocked (fun _ => True) v.asString := by
  cases v <;> first | trivial | nofun

theorem unblocked_asDate (v : Value) : Unblocked (fun _ => True) v.asDate := by
  cases v <;> first | trivial | nofun

theorem unblocked_asBool (v : Value) : Unblocked (fun _ => True) v.asBool := by
  cases v <;> first | trivial | nofun

theorem unblocked_asList (v : Value) : Unblocked (fun items => v = .list items) v.asList := by
  cases v <;> first | rfl | nofun

theorem unblocked_compareTexts (a b : Value) :
    Unblocked (fun _ => True) (Evaluation.compareTexts a b) := by
  unfold Evaluation.compareTexts
  split
  · trivial
  · trivial
  · trivial
  · exact (unblocked_asString a).bind fun _ _ => (unblocked_asString b).bind fun _ _ => trivial

theorem unblocked_concatTexts (vs : List Value) : Unblocked (fun _ => True) (concatTexts vs) := by
  fun_induction concatTexts vs with
  | case1 => trivial
  | case2 _ ih => exact ih
  | case3 v _ _ ih => exact (unblocked_asString v).bind fun _ _ => ih.bind fun _ _ => trivial

theorem unblocked_sumFrom (function : String) (total : Value) (items : List Value) :
    Unblocked (fun _ => True) (sumFrom function total items) := by
  fun_induction sumFrom function total items with
  | case1 => trivial
  | case2 => assumption
  | case3 => nofun
  | case4 =>
    rename_i ih
    exact (unblocked_asFloat _).bind fun x _ => (unblocked_asFloat _).bind fun y _ => ih x y

theorem unblocked_wholeOr {e : EvalError} (h : ∀ found, e ≠ .typeMismatch .function found)
    (n : Option Int64) : Unblocked (fun _ => True) (wholeOr e n : Except EvalError Value) := by
  cases n with
  | none => exact h
  | some n => trivial

/-- A host function that asks for no function is not stopped for the lack of one. -/
theorem unblocked_of_not_applies (h : body.applies = false) (function : String) (args : List Value)
    (call : Closure → Value → Except EvalError Value) :
    Unblocked (fun _ => True) (runBody call function body args) := by
  have argument := unblocked_argument call function args
  have text (f : List Char → List Char) : Unblocked (fun _ => True)
      (runBody call function (.argument 0) args >>= fun v => v.asString >>= fun s =>
        Except.ok (.string (String.ofList (f s.toList)) : Value)) :=
    (argument 0).bind fun v _ => (unblocked_asString v).bind fun _ _ => trivial
  cases body with
  | anyPasses | allPass | countPassing | filter | map | apply => cases h
  | length => exact (argument 0).bind fun v _ => (unblocked_asString v).bind fun _ _ => trivial
  | startsWith | endsWith | includes | indexOf =>
    exact (argument 0).bind fun v _ => (unblocked_asString v).bind fun _ _ =>
      (argument 1).bind fun w _ => (unblocked_asString w).bind fun _ _ => trivial
  | toLower => exact text Text.lower
  | toUpper => exact text Text.upper
  | trim => exact text Text.trim
  | compareTexts =>
    exact (argument 0).bind fun a _ => (argument 1).bind fun b _ =>
      (unblocked_compareTexts a b).bind fun _ _ => trivial
  | concat => exact (unblocked_concatTexts args).bind fun _ _ => trivial
  | year | month | day =>
    exact (argument 0).bind fun v _ => (unblocked_asDate v).bind fun _ _ => trivial
  | hasValue => exact (argument 0).bind fun v _ => trivial
  | valueOf =>
    refine (argument 0).bind fun v _ => ?_
    split
    · nofun
    · trivial
  | orElse =>
    refine (argument 0).bind fun v _ => ?_
    split
    · exact argument 1
    · trivial
  | count | isNonempty =>
    exact (argument 0).bind fun v _ => (unblocked_asList v).bind fun _ _ => trivial
  | member =>
    exact (argument 1).bind fun _ _ => (argument 0).bind fun v _ =>
      (unblocked_asList v).bind fun _ _ => trivial
  | sumWhole | sumFloat =>
    exact (argument 0).bind fun v _ => (unblocked_asList v).bind fun items _ =>
      unblocked_sumFrom function _ items
  | least | greatest =>
    refine (argument 0).bind fun v _ => (unblocked_asList v).bind fun items _ => ?_
    cases items with
    | nil => nofun
    | cons => trivial
  | absWhole =>
    refine (argument 0).bind fun v _ => ?_
    split
    · trivial
    · exact (unblocked_asInt _).bind fun n _ => unblocked_wholeOr (by nofun) _
  | absFloat =>
    refine (argument 0).bind fun v _ => ?_
    split
    · trivial
    · exact (unblocked_asFloat _).bind fun n _ => trivial
  | constant v => trivial
  | argument i => exact argument i
  | pack => trivial
  | double => exact (argument 0).bind fun v _ => (unblocked_asInt v).bind fun _ _ => trivial
  | fail => nofun

/-- Such a function is apt if there are no functions in its result. -/
theorem apt_of_not_applies (h : body.applies = false) {params : List Ty} (first : result.FirstOrder) :
    body.Apt params result :=
  fun function args depth _ =>
    (unblocked_of_not_applies h function args (applyClosure depth)).mono fun v _ =>
      .of_firstOrder result first v

theorem apt_one {first : Ty} (h : ∀ function v depth, Applicable first v →
      Unblocked (Applicable result) (runBody (applyClosure depth) function body [v])) :
    body.Apt [first] result := by
  intro function args depth applicable
  cases applicable with
  | cons onFirst rest =>
    cases rest
    exact h function _ depth onFirst

theorem apt_two {first second : Ty} (h : ∀ function v w depth, Applicable first v →
      Applicable second w →
      Unblocked (Applicable result) (runBody (applyClosure depth) function body [v, w])) :
    body.Apt [first, second] result := by
  intro function args depth applicable
  cases applicable with
  | cons onFirst rest =>
    cases rest with
    | cons onSecond rest =>
      cases rest
      exact h function _ _ depth onFirst onSecond

theorem apt_valueOf : (valueOf : Body Value).Apt [.optional ty] ty := by
  refine apt_one fun function v depth h => ?_
  rcases h with rfl | inside
  · nofun
  · cases v with
    | null => nofun
    | _ => exact inside

/-- The second argument takes the place of a first one that is null. -/
theorem apt_orElse {first : Ty} (given : ∀ v, Applicable first v → v = .null ∨ Applicable ty v) :
    (orElse : Body Value).Apt [first, ty] ty := by
  refine apt_two fun function v w depth h h' => ?_
  rcases given v h with rfl | inside
  · exact h'
  · cases v with
    | null => exact h'
    | _ => exact inside

/-! Functions among the arguments. -/

section

variable {items : List Value} {depth : Nat}

theorem unblocked_items (isElement : ty.element? = some element) (h : Applicable ty v) :
    Unblocked (fun items => ∀ x ∈ items, Applicable element x) v.asList :=
  (unblocked_asList v).mono fun items isList => (Applicable.sequence_iff isElement).1 h items isList

theorem unblocked_call {param : Ty} {f : Value} (h : Applicable (.lambda [param] result) f)
    (onArgument : Applicable param v) :
    Unblocked (Applicable result) (f.asFunction >>= fun c => applyClosure depth c v) := by
  obtain ⟨c, rfl, applies⟩ := h
  exact applies v onArgument depth

theorem unblocked_mapValues {param : Ty} {c : Closure}
    (h : Applicable (.lambda [param] result) (.function c))
    (each : ∀ x ∈ items, Applicable param x) :
    Unblocked (fun made => ∀ x ∈ made, Applicable result x)
      (mapValues (applyClosure depth) c items) := by
  induction items with
  | nil => exact fun _ mem => by cases mem
  | cons x rest ih =>
    obtain ⟨onFirst, onRest⟩ := List.forall_mem_cons.1 each
    exact (unblocked_call h onFirst).bind fun r onResult => (ih onRest).bind fun made onMade =>
      List.forall_mem_cons.2 ⟨onResult, onMade⟩

variable {test : Value} (isTest : Applicable (.lambda [element] .bool) test)

include isTest

theorem unblocked_passes (h : Applicable element v) :
    Unblocked (fun _ => True) (passes (applyClosure depth) test v) := by
  obtain ⟨c, rfl, applies⟩ := isTest
  exact (applies v h depth).bind fun r _ => unblocked_asBool r

theorem unblocked_anyPasses (each : ∀ x ∈ items, Applicable element x) :
    Unblocked (fun _ => True) (Evaluation.anyPasses (applyClosure depth) test items) := by
  induction items with
  | nil => trivial
  | cons x rest ih =>
    obtain ⟨onFirst, onRest⟩ := List.forall_mem_cons.1 each
    refine (unblocked_passes isTest onFirst).bind fun passed _ => ?_
    cases passed with
    | true => trivial
    | false => exact ih onRest

theorem unblocked_allPass (each : ∀ x ∈ items, Applicable element x) :
    Unblocked (fun _ => True) (Evaluation.allPass (applyClosure depth) test items) := by
  induction items with
  | nil => trivial
  | cons x rest ih =>
    obtain ⟨onFirst, onRest⟩ := List.forall_mem_cons.1 each
    refine (unblocked_passes isTest onFirst).bind fun passed _ => ?_
    cases passed with
    | true => exact ih onRest
    | false => trivial

theorem unblocked_passing (each : ∀ x ∈ items, Applicable element x) :
    Unblocked (fun kept => ∀ x ∈ kept, Applicable element x)
      (passing (applyClosure depth) test items) := by
  induction items with
  | nil => exact fun _ mem => by cases mem
  | cons x rest ih =>
    obtain ⟨onFirst, onRest⟩ := List.forall_mem_cons.1 each
    refine (unblocked_passes isTest onFirst).bind fun keep _ => (ih onRest).bind fun kept onKept => ?_
    cases keep with
    | true => exact List.forall_mem_cons.2 ⟨onFirst, onKept⟩
    | false => exact onKept

end

section

variable (isElement : ty.element? = some element)

include isElement

theorem apt_anyPasses : (anyPasses : Body Value).Apt [ty, .lambda [element] .bool] .bool :=
  apt_two fun _ _ _ _ h isTest => (unblocked_items isElement h).bind fun _ each =>
    (unblocked_anyPasses isTest each).bind fun _ _ => trivial

theorem apt_allPass : (allPass : Body Value).Apt [ty, .lambda [element] .bool] .bool :=
  apt_two fun _ _ _ _ h isTest => (unblocked_items isElement h).bind fun _ each =>
    (unblocked_allPass isTest each).bind fun _ _ => trivial

theorem apt_countPassing : (countPassing : Body Value).Apt [ty, .lambda [element] .bool] .int :=
  apt_two fun _ _ _ _ h isTest => (unblocked_items isElement h).bind fun _ each =>
    (unblocked_passing isTest each).bind fun _ _ => trivial

theorem apt_filter :
    (filter : Body Value).Apt [ty, .lambda [element] .bool] (.enumerable element) :=
  apt_two fun _ _ _ _ h isTest => (unblocked_items isElement h).bind fun _ each =>
    (unblocked_passing isTest each).bind fun kept onKept items isKept => by
      cases isKept
      exact onKept

theorem apt_map : (map : Body Value).Apt [ty, .lambda [element] result] (.enumerable result) := by
  refine apt_two fun function v f depth h isFunction => ?_
  obtain ⟨c, rfl, applies⟩ := isFunction
  exact (unblocked_items isElement h).bind fun _ each =>
    (unblocked_mapValues ⟨c, rfl, applies⟩ each).bind fun made onMade items isMade => by
      cases isMade
      exact onMade

end

end Body

/-! ## Overloads -/

/-- What is run asks for functions only where the parameters have them, and gives them only where the
result has. -/
def Lowering.Apt (params : List Ty) (result : Ty) : Lowering → Prop
  | property p => p.ty = result ∧ ∃ instanceTy, params = [instanceTy] ∧
      ∀ v depth, Applicable instanceTy v →
        Unblocked (Applicable result) (readProperty (applyClosure depth) p v)
  | function f => f.body.Apt params result
  | custom _ => False

/-- An overload is apt wherever it is well typed. -/
def Overload.Apt (o : Overload) : Prop :=
  ∀ ⦃resolver : Resolver⦄ ⦃site : Site⦄ ⦃name : String⦄ ⦃args : List Ty⦄ ⦃ty : Ty⦄,
    o.WellTyped resolver site name args ty →
      o.lowering.Apt (o.paramTys args) ((o.resultTy? args).getD ty)

/-- The method asks for no function and gives none. -/
def Method.Plain (m : Method) : Prop :=
  m.function.body.applies = false ∧ ∃ result, m.result = .concrete result ∧ result.FirstOrder

namespace Overload

open Shape

variable {receiver element result : Ty} {name : String} {body : Body Value}

theorem map_instantiate {shapes : List Shape} {types args : List Ty}
    (fixed : List.Forall₂ (fun shape ty => ∀ b, shape.instantiate? b = some ty) shapes types)
    (arity : shapes.length = args.length) (b : Bindings) :
    (shapes.zip args).map (fun (shape, ty) => (shape.instantiate? b).getD ty) = types := by
  induction fixed generalizing args with
  | nil => rfl
  | cons first _ ih =>
    cases args with
    | nil => cases arity
    | cons arg args => simp [first, ih (Nat.succ.inj arity)]

/-- A signature without variables is the same wherever it is used. -/
theorem apt_of_fixed {o : Overload} {types : List Ty}
    (fixed : List.Forall₂ (fun shape ty => ∀ b, shape.instantiate? b = some ty) o.params types)
    (isResult : o.result = .concrete result) (apt : o.lowering.Apt types result) : o.Apt := by
  intro _ _ _ args ty wellTyped
  have params : o.paramTys args = types := map_instantiate fixed wellTyped.arity _
  have results : o.resultTy? args = some result := by
    rw [resultTy?, isResult]
    rfl
  rwa [params, results]

/-- What asks for no function and gives none is apt, whatever it is used with. -/
theorem apt_of_not_applies {o : Overload} {f : HostFunction Value}
    (isFunction : o.lowering = .function f) (h : f.body.applies = false)
    (isResult : o.result = .concrete result) (first : result.FirstOrder) : o.Apt := by
  intro _ _ _ args ty _
  have results : o.resultTy? args = some result := by
    rw [resultTy?, isResult]
    rfl
  rw [isFunction, results]
  exact Body.apt_of_not_applies h first

theorem apt_plain {m : Method} (h : m.Plain) : (ofMethod receiver m).Apt := by
  obtain ⟨notApplies, result, isResult, first⟩ := h
  exact apt_of_not_applies rfl notApplies isResult first

theorem apt_test (apt : body.Apt [receiver, .lambda [element] .bool] result) :
    (ofMethod receiver (.ofBody name [.lambda [.concrete element] (.concrete .bool)]
      (.concrete result) body)).Apt :=
  apt_of_fixed (.cons (fun _ => rfl) (.cons (fun _ => rfl) .nil)) rfl apt

theorem apt_select (isElement : receiver.element? = some element) :
    (ofMethod receiver (Members.select element)).Apt := by
  intro _ _ _ args ty wellTyped
  obtain ⟨b, accepted, _⟩ := wellTyped.fits
  have arity := wellTyped.arity
  match args with
  | [first, second] =>
    obtain ⟨_, onSecond⟩ : _ ∧ _ := by
      simpa [ofMethod, Members.select, Method.ofBody] using accepted
    obtain ⟨result, rfl, _⟩ := lambda_accepts onSecond
    rw [paramTys_select, resultTy?_select]
    exact Body.apt_map isElement
  | [] => cases arity
  | [_] => cases arity
  | _ :: _ :: _ :: _ => cases arity

theorem apt_coalesce : Resolver.coalesce.Apt := by
  intro _ _ _ args ty wellTyped
  obtain ⟨b, accepted, _⟩ := wellTyped.fits
  have arity := wellTyped.arity
  match args with
  | [first, second] =>
    obtain ⟨onFirst, onSecond⟩ : _ ∧ _ := by
      simpa [Resolver.coalesce, Resolver.free] using accepted
    have isFirst : b.get? 0 = some first.underlying := by
      cases first <;> exact get?_of_bind onFirst
    have same : first.underlying = second :=
      Option.some.inj (isFirst.symm.trans (get?_of_bind onSecond))
    rw [paramTys_coalesce same, resultTy?_coalesce same]
    exact Body.apt_orElse fun _ => Applicable.of_orNull
  | [] => cases arity
  | [_] => cases arity
  | _ :: _ :: _ :: _ => cases arity

theorem apt_computed {ty : Ty} (apt : body.Apt [ty] result) :
    (ofProperty ty (.ofBody name result body)).Apt :=
  apt_of_fixed (.cons (fun _ => rfl) .nil) rfl
    ⟨rfl, ty, rfl, fun _ depth applicable => apt name _ depth (.cons applicable .nil)⟩

/-- A field is read, or it is not there. -/
theorem apt_field {record name : String} {ty : Ty} (first : ty.FirstOrder) :
    (ofProperty (.record record) (.ofField name ty)).Apt := by
  refine apt_of_fixed (.cons (fun _ => rfl) .nil) rfl
    ⟨rfl, .record record, rfl, fun v depth _ => ?_⟩
  have reads : Unblocked (fun _ => True)
      (readProperty (applyClosure depth) (.ofField name ty) v) := by
    simp only [readProperty, Property.ofField]
    cases v with
    | record r =>
      dsimp only
      split
      · trivial
      · intro found same
        cases same
    | _ =>
      intro found same
      cases same
  exact reads.mono fun v _ => .of_firstOrder ty first v

end Overload

namespace Schema

open Overload

variable {s : Schema}

theorem aggregates_plain (element : Ty) : ∀ m ∈ Members.aggregates element, m.Plain := by
  unfold Members.aggregates
  split <;> simp [Method.Plain, Method.ofBody, Body.applies, Ty.FirstOrder]

theorem sequence_methods_apt {ty element : Ty} (isElement : ty.element? = some element) :
    ∀ m ∈ (Members.ofSequence element).methods, (ofMethod ty m).Apt := by
  refine List.forall_mem_append.2 ⟨?_, fun m mem => apt_plain (aggregates_plain element m mem)⟩
  have plain {name : String} {params : List Shape} {result : Ty} {body : Body Value}
      (h : body.applies = false) (first : result.FirstOrder) :
      (ofMethod ty (.ofBody name params (.concrete result) body)).Apt :=
    apt_plain ⟨h, result, rfl, first⟩
  simp only [List.forall_mem_cons]
  exact ⟨plain rfl trivial, apt_test (Body.apt_anyPasses isElement),
    apt_test (Body.apt_allPass isElement), plain rfl trivial,
    apt_test (Body.apt_countPassing isElement), plain rfl trivial,
    apt_test (Body.apt_filter isElement), apt_select isElement, by simp⟩

theorem methods_apt (ty : Ty) : ∀ m ∈ (s.members ty).methods, (ofMethod ty m).Apt := by
  cases ty with
  | string =>
    have plain : ∀ m ∈ Members.ofString.methods, m.Plain := by
      simp [Members.ofString, Method.Plain, Method.ofBody, Body.applies, Ty.FirstOrder]
    exact fun m mem => apt_plain (plain m mem)
  | optional inner =>
    simp only [members, Members.ofOptional, List.forall_mem_cons]
    exact ⟨apt_of_fixed (.cons (fun _ => rfl) (.cons (fun _ => rfl) .nil)) rfl
      (Body.apt_orElse fun _ => id), by simp⟩
  | list e | array e | enumerable e => exact sequence_methods_apt rfl
  | _ => simp [members, Members.none, Members.ofDate]

theorem properties_apt (fields : s.Fields Ty.FirstOrder) (ty : Ty) :
    ∀ p ∈ (s.members ty).properties, (ofProperty ty p).Apt := by
  have plain {name : String} {result : Ty} {body : Body Value} (h : body.applies = false)
      (first : result.FirstOrder) : (ofProperty ty (.ofBody name result body)).Apt :=
    apt_computed (Body.apt_of_not_applies h first)
  cases ty with
  | string =>
    simp only [members, Members.ofString, List.forall_mem_cons]
    exact ⟨plain rfl trivial, by simp⟩
  | date =>
    simp only [members, Members.ofDate, List.forall_mem_cons]
    exact ⟨plain rfl trivial, plain rfl trivial, plain rfl trivial, by simp⟩
  | optional inner =>
    simp only [members, Members.ofOptional, List.forall_mem_cons]
    exact ⟨plain rfl trivial, apt_computed Body.apt_valueOf, by simp⟩
  | list e | array e | enumerable e =>
    simp only [members, Members.ofSequence, List.forall_mem_cons]
    exact ⟨plain rfl trivial, by simp⟩
  | record name =>
    intro p mem
    obtain ⟨field, isField, rfl⟩ := List.mem_map.1 mem
    exact apt_field (fields name field isField)
  | _ => simp [members, Members.none]

end Schema

namespace Overload

/-- Whatever a name stands for is apt. -/
theorem Offered.apt {s : Schema} (fields : s.Fields Ty.FirstOrder) {r : Request} {o : Overload}
    (h : Offered s.catalog r o) : o.Apt := by
  cases h with
  | property _ described found =>
    obtain ⟨_, rfl⟩ := Schema.describe_eq_some described
    exact Schema.properties_apt fields _ _ (List.mem_of_find?_eq_some found)
  | method _ _ described isMethod =>
    obtain ⟨_, rfl⟩ := Schema.describe_eq_some described
    exact Schema.methods_apt _ _ isMethod
  | standard _ isStandard =>
    have each : ∀ o ∈ Resolver.standardFunctions, o.Apt := by
      simp only [Resolver.standardFunctions, List.forall_mem_cons]
      exact ⟨apt_of_not_applies rfl rfl rfl trivial, apt_of_not_applies rfl rfl rfl trivial,
        apt_of_not_applies rfl rfl rfl trivial, apt_coalesce, by simp⟩
    exact each o isStandard

end Overload

end LambdaQuery
