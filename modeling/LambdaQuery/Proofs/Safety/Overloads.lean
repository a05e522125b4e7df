import LambdaQuery.Proofs.Inference.Typed
import LambdaQuery.Proofs.Resolver
import LambdaQuery.Proofs.Safety.Natives

/-!
# Overloads keep to their signatures

Whatever a name stands for where it is used, the arguments convert to its parameters, what it runs
takes values of the parameter types to values of its result type, and these convert to the type
that the use was given.
-/

namespace LambdaQuery

open Evaluation

variable {s : Schema}

/-- Every value of one type converts to a value of another. -/
def Ty.Converts (s : Schema) (source target : Ty) : Prop :=
  ∀ v, Conforms s source v → Conforms s target (v.widen target)

theorem Ty.converts_of_assignable {source target : Ty} (proper : target.Proper)
    (h : target.assignable source = true) : source.Converts s target :=
  fun _ conforms => conforms.widen proper h

/-- What is run takes values of the parameter types to values of the result type. -/
def Lowering.Sound (s : Schema) (params : List Ty) (result : Ty) : Lowering → Prop
  | property p => p.ty = result ∧ ∃ instanceTy, params = [instanceTy] ∧ ∀ v, Conforms s instanceTy v →
      Settles (fun depth => readProperty (applyClosure depth) p v) (Conforms s result)
  | function f => f.body.Sound s params result
  | custom _ => False

/-- An overload can be used with arguments of these types for a result of the given type. -/
structure Overload.Runs (s : Schema) (o : Overload) (args : List Ty) (ty : Ty) : Prop where
  converts : List.Forall₂ (Ty.Converts s) args (o.paramTys args)
  lowering : o.lowering.Sound s (o.paramTys args) ((o.resultTy? args).getD ty)
  result : ((o.resultTy? args).getD ty).Converts s ty

/-- An overload can be used wherever it is well typed. -/
def Overload.Sound (s : Schema) (o : Overload) : Prop :=
  ∀ {resolver : Resolver} {site : Site} {name : String} {args : List Ty} {ty : Ty},
    o.WellTyped resolver site name args ty → (∀ arg ∈ args, arg.Proper) → ty.Proper →
      o.Runs s args ty

/-! Signatures without variables. -/

/-- A shape is a type, whatever the variables stand for, and what it accepts converts to it. -/
structure Shape.Fixed (s : Schema) (shape : Shape) (ty : Ty) : Prop where
  instantiate : ∀ b, shape.instantiate? b = some ty
  accepts : ∀ {source : Ty} {b b' : Bindings}, shape.accepts source b = (true, b') →
    source.Converts s ty

namespace Shape

theorem fixed_concrete {ty : Ty} (proper : ty.Proper) : (concrete ty).Fixed s ty where
  instantiate _ := rfl
  accepts h := Ty.converts_of_assignable proper (Prod.mk.inj h).1

/-- What a function of one parameter accepts. -/
theorem lambda_accepts {param source : Ty} {result : Shape} {b b' : Bindings}
    (h : (lambda [.concrete param] result).accepts source b = (true, b')) :
    ∃ given, source = .lambda [param] given ∧ result.accepts given b = (true, b') := by
  cases source with
  | lambda types given =>
    cases types with
    | nil => cases h
    | cons first rest =>
      cases rest with
      | nil =>
        by_cases same : param = first
        · subst same
          exact ⟨given, rfl, by simpa [accepts, fits, fitsAll] using h⟩
        · have different : (param == first) = false := beq_eq_false_iff_ne.2 same
          simp [accepts, fits, fitsAll, different] at h
      | cons => simp [accepts, fits] at h
  | _ => cases h

theorem converts_self (ty : Ty) : ty.Converts s ty := fun v conforms => by
  rwa [widen_of_conforms conforms]

theorem fixed_test (element : Ty) :
    (lambda [.concrete element] (.concrete .bool)).Fixed s (.lambda [element] .bool) where
  instantiate _ := rfl
  accepts h := by
    obtain ⟨given, rfl, isBool⟩ := lambda_accepts h
    cases Ty.eq_bool_of_assignable (Prod.mk.inj isBool).1
    exact converts_self _

theorem fixed_all {shapes : List Shape} {types args : List Ty} {b : Bindings}
    (fixed : List.Forall₂ (Fixed s) shapes types) (arity : shapes.length = args.length)
    (accepted : ∀ p ∈ shapes.zip args, p.1.accepts p.2 b = (true, b)) (b' : Bindings) :
    (shapes.zip args).map (fun (shape, ty) => (shape.instantiate? b').getD ty) = types ∧
      List.Forall₂ (Ty.Converts s) args types := by
  induction fixed generalizing args with
  | nil =>
    cases args with
    | nil => exact ⟨rfl, .nil⟩
    | cons => cases arity
  | cons first rest ih =>
    cases args with
    | nil => cases arity
    | cons arg args =>
      obtain ⟨onFirst, onRest⟩ := List.forall_mem_cons.1 accepted
      obtain ⟨same, converts⟩ := ih (Nat.succ.inj arity) onRest
      exact ⟨by simp [first.instantiate, same], .cons (first.accepts onFirst) converts⟩

end Shape

namespace Overload

open Shape

theorem sound_of_fixed {o : Overload} {types : List Ty} {result : Ty}
    (fixed : List.Forall₂ (Fixed s) o.params types) (isResult : o.result = .concrete result)
    (runs : o.lowering.Sound s types result) : o.Sound s := by
  intro _ _ _ args ty wellTyped _ proper
  obtain ⟨b, accepted, given⟩ := wellTyped.fits
  obtain ⟨isTypes, converts⟩ :=
    fixed_all fixed wellTyped.arity accepted (bindArgs o.params args .empty)
  have params : o.paramTys args = types := isTypes
  have results : o.resultTy? args = some result := by
    rw [resultTy?, isResult]
    rfl
  have assignable : ty.assignable result = true := by
    rw [isResult] at given
    rcases given with exact | ⟨_, same, assignable⟩
    · have : result = ty := by simpa [isMatch, fits] using exact
      rw [this]
      exact Ty.assignable_refl ty
    · cases same
      exact assignable
  exact {
    converts := by rwa [params]
    lowering := by rwa [params, results]
    result := by
      rw [results]
      exact Ty.converts_of_assignable proper assignable }

/-- A method is sound if what it runs is, with the value it is called on in front. -/
theorem sound_ofMethod {receiver result : Ty} {m : Method} {types : List Ty}
    (proper : receiver.Proper) (fixed : List.Forall₂ (Fixed s) m.params types)
    (isResult : m.result = .concrete result)
    (runs : m.function.body.Sound s (receiver :: types) result) : (ofMethod receiver m).Sound s :=
  sound_of_fixed (o := ofMethod receiver m) (.cons (fixed_concrete proper) fixed) isResult runs

/-! Signatures with a variable. -/

theorem get?_of_bind {b : Bindings} {index : Nat} {ty : Ty} (h : b.bind index ty = (true, b)) :
    b.get? index = some ty := by
  unfold Bindings.bind at h
  split at h
  · rename_i bound isBound
    rw [isBound]
    exact congrArg some (by simpa using h)
  · have entries := congrArg (fun r : Bool × Bindings => r.2.entries.length) h
    simp at entries

/-- A sequence converts to every type of sequences with the same elements. -/
theorem enumerable_converts {element ty : Ty} (h : ty.element? = some element) :
    (Ty.enumerable element).Converts s ty := by
  intro v conforms
  have same : Conforms s ty v := (conforms_sequence h).2 ((conforms_sequence rfl).1 conforms)
  rwa [widen_of_conforms same]

section

variable {first second element receiver result : Ty}

theorem paramTys_select : (ofMethod receiver (Members.select element)).paramTys
    [first, .lambda [element] result] = [receiver, .lambda [element] result] := by
  simp [paramTys, ofMethod, Members.select, Method.ofBody, bindArgs, accepts, fits, fitsAll,
    Bindings.bind, Bindings.get?, Bindings.empty, instantiate?, instantiateAll?]

theorem resultTy?_select : (ofMethod receiver (Members.select element)).resultTy?
    [first, .lambda [element] result] = some (.enumerable result) := by
  simp [resultTy?, ofMethod, Members.select, Method.ofBody, bindArgs, accepts, fits, fitsAll,
    Bindings.bind, Bindings.get?, Bindings.empty, instantiate?]

theorem paramTys_coalesce (same : first.underlying = second) :
    Resolver.coalesce.paramTys [first, second] = [second.orNull, second] := by
  subst same
  cases first <;> simp [paramTys, Resolver.coalesce, Resolver.free, bindArgs, accepts, fits,
    Bindings.bind, Bindings.get?, Bindings.empty, instantiate?, Ty.underlying]

theorem resultTy?_coalesce (same : first.underlying = second) :
    Resolver.coalesce.resultTy? [first, second] = some second := by
  subst same
  cases first <;> simp [resultTy?, Resolver.coalesce, Resolver.free, bindArgs, accepts, fits,
    Bindings.bind, Bindings.get?, Bindings.empty, instantiate?, Ty.underlying]

end

/-- Each element is mapped, and whatever the function gives are the elements of the result. -/
theorem sound_select {receiver element : Ty} (isSequence : receiver.element? = some element)
    (proper : receiver.Proper) : (ofMethod receiver (Members.select element)).Sound s := by
  intro _ _ _ args ty wellTyped _ tyProper
  obtain ⟨b, accepted, given⟩ := wellTyped.fits
  have arity := wellTyped.arity
  match args with
  | [first, second] =>
    obtain ⟨onFirst, onSecond⟩ : _ ∧ _ := by
      simpa [ofMethod, Members.select, Method.ofBody] using accepted
    obtain ⟨result, rfl, bound⟩ := lambda_accepts onSecond
    have isResult : b.get? 0 = some result := get?_of_bind bound
    refine ⟨?_, ?_, ?_⟩
    · rw [paramTys_select]
      exact .cons ((fixed_concrete proper).accepts onFirst) (.cons (converts_self _) .nil)
    · rw [paramTys_select, resultTy?_select]
      exact Body.sound_map isSequence
    · rw [resultTy?_select]
      rcases given with exact | ⟨_, same, assignable⟩
      · cases isElement : ty.element? with
        | none => simp [ofMethod, Members.select, Method.ofBody, isMatch, fits, isElement] at exact
        | some given =>
          have bound' : b.bind 0 given = (true, b) := by
            simpa [ofMethod, Members.select, Method.ofBody, isMatch, fits, isElement] using exact
          have same := (get?_of_bind bound').symm.trans isResult
          exact enumerable_converts (isElement.trans same)
      · simp only [ofMethod, Members.select, Method.ofBody, instantiate?, isResult] at same
        cases same
        exact Ty.converts_of_assignable tyProper assignable
  | [] => cases arity
  | [_] => cases arity
  | _ :: _ :: _ :: _ => cases arity

/-- The first argument may be null, and the second has its type without null. -/
theorem sound_coalesce : Resolver.coalesce.Sound s := by
  intro _ _ _ args ty wellTyped argsProper tyProper
  obtain ⟨b, accepted, given⟩ := wellTyped.fits
  have arity := wellTyped.arity
  match args with
  | [first, second] =>
    obtain ⟨onFirst, onSecond⟩ : _ ∧ _ := by
      simpa [Resolver.coalesce, Resolver.free] using accepted
    have isSecond : b.get? 0 = some second := get?_of_bind onSecond
    have isFirst : b.get? 0 = some first.underlying := by
      cases first <;> exact get?_of_bind onFirst
    have same : first.underlying = second := Option.some.inj (isFirst.symm.trans isSecond)
    obtain ⟨secondProper, notOptional⟩ := (argsProper first List.mem_cons_self).underlying
    rw [same] at secondProper notOptional
    have orNull : second.orNull = .optional second := by
      cases second <;> first | rfl | cases notOptional
    refine ⟨?_, ?_, ?_⟩
    · rw [paramTys_coalesce same, orNull]
      refine .cons (fun v conforms => ?_) (.cons (converts_self _) .nil)
      have inside : Conforms s (.optional second) v := same ▸ conforms.underlying
      rwa [widen_of_conforms inside]
    · rw [paramTys_coalesce same, resultTy?_coalesce same, orNull]
      exact Body.sound_orElse
    · rw [resultTy?_coalesce same]
      rcases given with exact | ⟨_, isResult, assignable⟩
      · have isTy : b.get? 0 = some ty := get?_of_bind exact
        cases isSecond.symm.trans isTy
        exact converts_self _
      · cases isSecond.symm.trans isResult
        exact Ty.converts_of_assignable tyProper assignable
  | [] => cases arity
  | [_] => cases arity
  | _ :: _ :: _ :: _ => cases arity

end Overload

/-! The members of the types of a schema. -/

namespace Members

open Shape Overload

variable {receiver element : Ty}

theorem sound_aggregates (isSequence : receiver.element? = some element) (proper : receiver.Proper) :
    ∀ m ∈ aggregates element, (ofMethod receiver m).Sound s := by
  unfold aggregates
  split
  · simp only [List.forall_mem_cons]
    exact ⟨sound_ofMethod proper .nil rfl (Body.sound_sumWhole isSequence),
      sound_ofMethod proper .nil rfl (Body.sound_least isSequence),
      sound_ofMethod proper .nil rfl (Body.sound_greatest isSequence), by simp⟩
  · simp only [List.forall_mem_cons]
    exact ⟨sound_ofMethod proper .nil rfl (Body.sound_sumFloat isSequence),
      sound_ofMethod proper .nil rfl (Body.sound_least isSequence),
      sound_ofMethod proper .nil rfl (Body.sound_greatest isSequence), by simp⟩
  · simp

theorem sound_ofSequence (isSequence : receiver.element? = some element)
    (proper : receiver.Proper) (elementProper : element.Proper) :
    ∀ m ∈ (ofSequence element).methods, (ofMethod receiver m).Sound s := by
  have test : List.Forall₂ (Fixed s) [.lambda [.concrete element] (.concrete .bool)]
      [.lambda [element] .bool] := .cons (fixed_test element) .nil
  refine List.forall_mem_append.2 ⟨?_, sound_aggregates isSequence proper⟩
  simp only [List.forall_mem_cons]
  exact ⟨sound_ofMethod proper .nil rfl (Body.sound_isNonempty isSequence),
    sound_ofMethod proper test rfl (Body.sound_anyPasses isSequence),
    sound_ofMethod proper test rfl (Body.sound_allPass isSequence),
    sound_ofMethod proper .nil rfl (Body.sound_count isSequence),
    sound_ofMethod proper test rfl (Body.sound_countPassing isSequence),
    sound_ofMethod proper (.cons (fixed_concrete elementProper) .nil) rfl
      (Body.sound_member isSequence),
    sound_ofMethod proper test rfl (Body.sound_filter isSequence),
    sound_select isSequence proper, by simp⟩

theorem sound_ofString : ∀ m ∈ ofString.methods, (ofMethod .string m).Sound s := by
  have proper : Ty.string.Proper := trivial
  have text : List.Forall₂ (Fixed s) [.concrete .string] [.string] :=
    .cons (fixed_concrete proper) .nil
  simp only [ofString, List.forall_mem_cons]
  exact ⟨sound_ofMethod proper text rfl Body.sound_startsWith,
    sound_ofMethod proper text rfl Body.sound_endsWith,
    sound_ofMethod proper text rfl Body.sound_includes,
    sound_ofMethod proper .nil rfl Body.sound_toLower,
    sound_ofMethod proper .nil rfl Body.sound_toUpper,
    sound_ofMethod proper .nil rfl Body.sound_trim,
    sound_ofMethod proper text rfl Body.sound_indexOf, by simp⟩

end Members

namespace Schema

open Shape Overload

variable {ty : Ty}

theorem methods_sound (proper : ty.Proper) :
    ∀ m ∈ (s.members ty).methods, (ofMethod ty m).Sound s := by
  cases ty with
  | string => exact Members.sound_ofString
  | optional inner =>
    simp only [members, Members.ofOptional, List.forall_mem_cons]
    exact ⟨sound_ofMethod proper (.cons (fixed_concrete proper.2) .nil) rfl Body.sound_orElse,
      by simp⟩
  | list e | array e | enumerable e => exact Members.sound_ofSequence rfl proper proper
  | _ => simp [members, Members.none, Members.ofDate]

/-- A computed property is sound if its function is. -/
theorem sound_computed {name : String} {result : Ty} {body : Body Value} (proper : ty.Proper)
    (sound : body.Sound s [ty] result) : (ofProperty ty (.ofBody name result body)).Sound s :=
  sound_of_fixed (o := ofProperty ty (.ofBody name result body))
    (.cons (fixed_concrete proper) .nil) rfl
    ⟨rfl, ty, rfl, fun _ conforms => sound name _ (.cons conforms .nil)⟩

/-- Records that conform to their type have every declared field. -/
theorem sound_field {record : String} {field : String × Ty} (mem : field ∈ s.declared record) :
    (ofProperty (.record record) (.ofField field.1 field.2)).Sound s := by
  refine sound_of_fixed (o := ofProperty (.record record) (.ofField field.1 field.2))
    (.cons (fixed_concrete trivial) .nil) rfl ⟨rfl, .record record, rfl, fun v conforms => ?_⟩
  rcases conforms with rfl | ⟨r, rfl, stored⟩
  · exact .error trivial
  · obtain ⟨x, isField, stores⟩ := stored field mem
    have read (call : Closure → Value → Except EvalError Value) :
        readProperty call (.ofField field.1 field.2) (.record r) = .ok x := by
      simp [readProperty, Property.ofField, isField]
    simp only [read]
    exact .pure stores.conforms

theorem properties_sound (proper : ty.Proper) :
    ∀ p ∈ (s.members ty).properties, (ofProperty ty p).Sound s := by
  cases ty with
  | string =>
    simp only [members, Members.ofString, List.forall_mem_cons]
    exact ⟨sound_computed proper Body.sound_length, by simp⟩
  | date =>
    simp only [members, Members.ofDate, List.forall_mem_cons]
    exact ⟨sound_computed proper Body.sound_year, sound_computed proper Body.sound_month,
      sound_computed proper Body.sound_day, by simp⟩
  | optional inner =>
    simp only [members, Members.ofOptional, List.forall_mem_cons]
    exact ⟨sound_computed proper Body.sound_hasValue, sound_computed proper Body.sound_valueOf,
      by simp⟩
  | list e | array e | enumerable e =>
    simp only [members, Members.ofSequence, List.forall_mem_cons]
    exact ⟨sound_computed proper (Body.sound_count rfl), by simp⟩
  | record name =>
    intro p mem
    obtain ⟨field, isField, rfl⟩ := List.mem_map.1 mem
    exact sound_field isField
  | _ => simp [members, Members.none]

end Schema

namespace Overload

open Shape

theorem sound_free {name : String} {params : List Shape} {types : List Ty} {result : Ty}
    {body : Body Value} (fixed : List.Forall₂ (Fixed s) params types)
    (sound : body.Sound s types result) :
    (Resolver.free name params (.concrete result) body).Sound s :=
  sound_of_fixed (o := Resolver.free name params (.concrete result) body) fixed rfl sound

theorem standard_sound : ∀ o ∈ Resolver.standardFunctions, o.Sound s := by
  have text : (concrete .string).Fixed s .string := fixed_concrete trivial
  have whole : (concrete .int).Fixed s .int := fixed_concrete trivial
  have number : (concrete .float).Fixed s .float := fixed_concrete trivial
  simp only [Resolver.standardFunctions, List.forall_mem_cons]
  exact ⟨sound_free (.cons text (.cons text .nil)) Body.sound_concat,
    sound_free (.cons whole .nil) Body.sound_absWhole,
    sound_free (.cons number .nil) Body.sound_absFloat, sound_coalesce, by simp⟩

/-- Whatever a name stands for is sound. -/
theorem Offered.sound {r : Request} {o : Overload} (h : Offered s.catalog r o)
    (proper : ∀ ty, .known ty ∈ r.args → ty.Proper) : o.Sound s := by
  cases h with
  | @property ty _ _ isArg described found =>
    obtain ⟨_, rfl⟩ := Schema.describe_eq_some described
    exact Schema.properties_sound (proper ty (by simp [isArg])) _ (List.mem_of_find?_eq_some found)
  | @method ty _ _ _ _ isArg described isMethod =>
    obtain ⟨_, rfl⟩ := Schema.describe_eq_some described
    exact Schema.methods_sound (proper ty (by simp [isArg])) _ isMethod
  | standard _ isStandard => exact standard_sound _ isStandard

/-- A name that is well typed where it is used can be used there. -/
theorem WellTyped.runs {o : Overload} {options : Options} {site : Site} {name : String}
    {args : List Ty} {ty : Ty}
    (h : o.WellTyped (Compiler.withOptions s.catalog options).resolver site name args ty)
    (argsProper : ∀ arg ∈ args, arg.Proper) (proper : ty.Proper) : o.Runs s args ty := by
  obtain ⟨r, about, resolved⟩ := h.offered
  refine (Resolver.offered_of_resolve? resolved).1.sound (fun given mem => ?_) h argsProper proper
  obtain ⟨i, inHints, isGiven⟩ := List.getElem_of_mem mem
  have inArgs : i < args.length := about.arity ▸ inHints
  have isArg : (Hint.known given, args[i]) ∈ r.args.zip args :=
    List.mem_iff_getElem.2 ⟨i, by rw [List.length_zip]; omega, by simp [isGiven]⟩
  have same : args[i] = given := about.known _ isArg given rfl
  exact same ▸ argsProper args[i] (List.getElem_mem inArgs)

end Overload

end LambdaQuery
