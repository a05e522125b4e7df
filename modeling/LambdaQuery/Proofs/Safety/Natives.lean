import Mathlib.Data.List.Forall2
import LambdaQuery.Proofs.Safety.Conformance

/-!
# Host functions keep to their signatures

Each host function takes values of its parameter types to a value of its result type, or to a
harmless error. Functions among the arguments are applied only to what they are for.
-/

namespace LambdaQuery

open Evaluation

/-- A host function takes values of the parameter types to a value of the result type. -/
def Body.Sound (s : Schema) (body : Body Value) (params : List Ty) (result : Ty) : Prop :=
  ∀ (function : String) (args : List Value), List.Forall₂ (Conforms s) params args →
    Settles (fun depth => runBody (applyClosure depth) function body args) (Conforms s result)

namespace Body

variable {s : Schema} {body : Body Value} {first second result element ty : Ty} {v : Value}

theorem sound_one
    (h : ∀ function v, Conforms s first v →
      Settles (fun depth => runBody (applyClosure depth) function body [v]) (Conforms s result)) :
    body.Sound s [first] result := by
  intro function args conform
  cases conform with
  | cons onFirst rest =>
    cases rest
    exact h function _ onFirst

theorem sound_two
    (h : ∀ function v w, Conforms s first v → Conforms s second w →
      Settles (fun depth => runBody (applyClosure depth) function body [v, w])
        (Conforms s result)) :
    body.Sound s [first, second] result := by
  intro function args conform
  cases conform with
  | cons onFirst rest =>
    cases rest with
    | cons onSecond rest =>
      cases rest
      exact h function _ _ onFirst onSecond

/-! Taking arguments apart. -/

theorem settles_asString (h : Conforms s .string v) :
    Settles (fun _ => v.asString) fun _ => True := by
  rcases h with rfl | ⟨text, rfl⟩
  · exact .error trivial
  · exact .pure trivial

theorem settles_asList (isSequence : ty.element? = some element) (h : Conforms s ty v) :
    Settles (fun _ => v.asList) fun items => ∀ x ∈ items, Conforms s element x := by
  rcases (conforms_sequence isSequence).1 h with rfl | ⟨items, rfl, each⟩
  · exact .error trivial
  · exact .pure each

/-! Texts and dates. -/

theorem sound_length : (length : Body Value).Sound s [.string] .int :=
  sound_one fun _ _ h => (settles_asString h).map fun _ _ => ⟨_, rfl⟩

theorem sound_startsWith : (startsWith : Body Value).Sound s [.string, .string] .bool :=
  sound_two fun _ _ _ h h' => (settles_asString h).bind fun _ _ =>
    (settles_asString h').map fun _ _ => ⟨_, rfl⟩

theorem sound_endsWith : (endsWith : Body Value).Sound s [.string, .string] .bool :=
  sound_two fun _ _ _ h h' => (settles_asString h).bind fun _ _ =>
    (settles_asString h').map fun _ _ => ⟨_, rfl⟩

theorem sound_includes : (includes : Body Value).Sound s [.string, .string] .bool :=
  sound_two fun _ _ _ h h' => (settles_asString h).bind fun _ _ =>
    (settles_asString h').map fun _ _ => ⟨_, rfl⟩

theorem sound_indexOf : (indexOf : Body Value).Sound s [.string, .string] .int :=
  sound_two fun _ _ _ h h' => (settles_asString h).bind fun text _ =>
    (settles_asString h').map fun part _ => by
      cases found : indexOf? part.toList text.toList with
      | none => exact ⟨-1, by simp only [found]⟩
      | some i => exact ⟨Int64.ofNat i, by simp only [found]⟩

theorem sound_toLower : (toLower : Body Value).Sound s [.string] .string :=
  sound_one fun _ _ h => (settles_asString h).map fun _ _ => .inr ⟨_, rfl⟩

theorem sound_toUpper : (toUpper : Body Value).Sound s [.string] .string :=
  sound_one fun _ _ h => (settles_asString h).map fun _ _ => .inr ⟨_, rfl⟩

theorem sound_trim : (trim : Body Value).Sound s [.string] .string :=
  sound_one fun _ _ h => (settles_asString h).map fun _ _ => .inr ⟨_, rfl⟩

theorem sound_compareTexts : (compareTexts : Body Value).Sound s [.string, .string] .int := by
  refine sound_two fun function v w h h' => ?_
  have compares : Settles (fun _ => Evaluation.compareTexts v w) fun _ => True := by
    rcases h with rfl | ⟨text, rfl⟩ <;> rcases h' with rfl | ⟨text', rfl⟩ <;> exact .pure trivial
  exact compares.map fun _ _ => ⟨_, rfl⟩

theorem sound_concat : (concat : Body Value).Sound s [.string, .string] .string := by
  refine sound_two fun function v w h h' => ?_
  have joins : Settles (fun _ => concatTexts [v, w]) fun _ => True := by
    rcases h with rfl | ⟨text, rfl⟩ <;> rcases h' with rfl | ⟨text', rfl⟩ <;> exact .pure trivial
  exact joins.map fun _ _ => .inr ⟨_, rfl⟩

theorem sound_year : (year : Body Value).Sound s [.date] .int := by
  refine sound_one fun function v h => ?_
  obtain ⟨d, rfl⟩ := h
  exact .pure ⟨_, rfl⟩

theorem sound_month : (month : Body Value).Sound s [.date] .int := by
  refine sound_one fun function v h => ?_
  obtain ⟨d, rfl⟩ := h
  exact .pure ⟨_, rfl⟩

theorem sound_day : (day : Body Value).Sound s [.date] .int := by
  refine sound_one fun function v h => ?_
  obtain ⟨d, rfl⟩ := h
  exact .pure ⟨_, rfl⟩

/-! Optionals. -/

theorem eq_null_of_isNull (h : v.isNull = true) : v = .null := by
  cases v <;> first | rfl | cases h

theorem Conforms.of_optional (h : Conforms s (.optional ty) v) (notNull : v.isNull = false) :
    Conforms s ty v := by
  rcases h with rfl | inside
  · cases notNull
  · exact inside

theorem sound_hasValue : (hasValue : Body Value).Sound s [.optional ty] .bool :=
  sound_one fun _ _ _ => .pure ⟨_, rfl⟩

theorem sound_valueOf : (valueOf : Body Value).Sound s [.optional ty] ty := by
  refine sound_one fun function v h => ?_
  cases isNull : v.isNull with
  | true =>
    cases eq_null_of_isNull isNull
    exact .error trivial
  | false =>
    have run (call : Closure → Value → Except EvalError Value) :
        runBody call function valueOf [v] = if v.isNull then _ else .ok v := rfl
    simp only [run, isNull]
    exact .pure (Conforms.of_optional h isNull)

theorem sound_orElse : (orElse : Body Value).Sound s [.optional ty, ty] ty := by
  refine sound_two fun function v w h h' => ?_
  cases isNull : v.isNull with
  | true =>
    cases eq_null_of_isNull isNull
    exact .pure h'
  | false =>
    have run (call : Closure → Value → Except EvalError Value) :
        runBody call function orElse [v, w] = if v.isNull then .ok w else .ok v := rfl
    simp only [run, isNull]
    exact .pure (Conforms.of_optional h isNull)

/-! Sequences. -/

section

variable {items : List Value} (isSequence : ty.element? = some element)

include isSequence

theorem sound_count : (count : Body Value).Sound s [ty] .int :=
  sound_one fun _ _ h => (settles_asList isSequence h).map fun _ _ => ⟨_, rfl⟩

theorem sound_isNonempty : (isNonempty : Body Value).Sound s [ty] .bool :=
  sound_one fun _ _ h => (settles_asList isSequence h).map fun _ _ => ⟨_, rfl⟩

theorem sound_member : (member : Body Value).Sound s [ty, element] .bool :=
  sound_two fun _ _ _ h _ => (settles_asList isSequence h).map fun _ _ => ⟨_, rfl⟩

end

/-- Applying a function value of the right type. -/
theorem settles_call {param : Ty} {f v : Value} (isFunction : Conforms s (.lambda [param] result) f)
    (h : Conforms s param v) :
    Settles (fun depth => f.asFunction >>= fun c => applyClosure depth c v) (Conforms s result) := by
  rcases isFunction with rfl | ⟨c, rfl, sends⟩
  · exact .error ⟨rfl, rfl⟩
  · exact sends v h

/-- A test of the right type says whether a value passes. -/
theorem settles_passes {test : Value} (isTest : Conforms s (.lambda [element] .bool) test)
    (h : Conforms s element v) :
    Settles (fun depth => passes (applyClosure depth) test v) fun _ => True := by
  have answers := settles_call isTest h
  rcases isTest with rfl | ⟨c, rfl, _⟩
  · exact .error ⟨rfl, rfl⟩
  · refine answers.bind (g := fun r _ => r.asBool) fun r isBool => ?_
    obtain ⟨b, rfl⟩ := isBool
    exact .pure trivial

section

variable {test : Value} (isTest : Conforms s (.lambda [element] .bool) test) {items : List Value}

include isTest

theorem settles_anyPasses (each : ∀ x ∈ items, Conforms s element x) :
    Settles (fun depth => Evaluation.anyPasses (applyClosure depth) test items) fun _ => True := by
  induction items with
  | nil => exact .pure trivial
  | cons x rest ih =>
    obtain ⟨onFirst, onRest⟩ := List.forall_mem_cons.1 each
    refine (settles_passes isTest onFirst).bind
      (g := fun b depth =>
        if b then .ok true else Evaluation.anyPasses (applyClosure depth) test rest) fun b _ => ?_
    cases b with
    | true => exact .pure trivial
    | false => exact ih onRest

theorem settles_allPass (each : ∀ x ∈ items, Conforms s element x) :
    Settles (fun depth => Evaluation.allPass (applyClosure depth) test items) fun _ => True := by
  induction items with
  | nil => exact .pure trivial
  | cons x rest ih =>
    obtain ⟨onFirst, onRest⟩ := List.forall_mem_cons.1 each
    refine (settles_passes isTest onFirst).bind
      (g := fun b depth =>
        if b then Evaluation.allPass (applyClosure depth) test rest else .ok false) fun b _ => ?_
    cases b with
    | true => exact ih onRest
    | false => exact .pure trivial

theorem settles_passing (each : ∀ x ∈ items, Conforms s element x) :
    Settles (fun depth => passing (applyClosure depth) test items)
      fun kept => ∀ x ∈ kept, Conforms s element x := by
  induction items with
  | nil => exact .pure (by simp)
  | cons x rest ih =>
    obtain ⟨onFirst, onRest⟩ := List.forall_mem_cons.1 each
    refine (settles_passes isTest onFirst).bind
      (g := fun keep depth => passing (applyClosure depth) test rest >>= fun kept =>
        .ok (if keep then x :: kept else kept)) fun keep _ => ?_
    refine (ih onRest).map fun kept onKept => ?_
    cases keep with
    | true => exact List.forall_mem_cons.2 ⟨onFirst, onKept⟩
    | false => exact onKept

end

theorem settles_mapValues {param : Ty} {c : Closure} {items : List Value}
    (isFunction : Conforms s (.lambda [param] result) (.function c))
    (each : ∀ x ∈ items, Conforms s param x) :
    Settles (fun depth => mapValues (applyClosure depth) c items)
      fun made => ∀ x ∈ made, Conforms s result x := by
  induction items with
  | nil => exact .pure (by simp)
  | cons x rest ih =>
    obtain ⟨onFirst, onRest⟩ := List.forall_mem_cons.1 each
    refine (settles_call isFunction onFirst).bind
      (g := fun r depth => mapValues (applyClosure depth) c rest >>= fun made => .ok (r :: made))
      fun r onResult => ?_
    exact (ih onRest).map fun made onMade => List.forall_mem_cons.2 ⟨onResult, onMade⟩

section

variable (isSequence : ty.element? = some element)

include isSequence

theorem sound_anyPasses :
    (anyPasses : Body Value).Sound s [ty, .lambda [element] .bool] .bool :=
  sound_two fun _ _ _ h isTest => (settles_asList isSequence h).bind fun _ each =>
    (settles_anyPasses isTest each).map fun _ _ => ⟨_, rfl⟩

theorem sound_allPass : (allPass : Body Value).Sound s [ty, .lambda [element] .bool] .bool :=
  sound_two fun _ _ _ h isTest => (settles_asList isSequence h).bind fun _ each =>
    (settles_allPass isTest each).map fun _ _ => ⟨_, rfl⟩

theorem sound_countPassing :
    (countPassing : Body Value).Sound s [ty, .lambda [element] .bool] .int :=
  sound_two fun _ _ _ h isTest => (settles_asList isSequence h).bind fun _ each =>
    (settles_passing isTest each).map fun _ _ => ⟨_, rfl⟩

theorem sound_filter :
    (filter : Body Value).Sound s [ty, .lambda [element] .bool] (.enumerable element) :=
  sound_two fun _ _ _ h isTest => (settles_asList isSequence h).bind fun _ each =>
    (settles_passing isTest each).map fun _ onKept => .inr ⟨_, rfl, onKept⟩

/-- The elements of the new sequence have the type of what the function gives. -/
theorem sound_map : (map : Body Value).Sound s [ty, .lambda [element] result] (.enumerable result) := by
  refine sound_two fun function v f h isFunction => ?_
  rcases isFunction with rfl | ⟨c, rfl, sends⟩
  · exact .error ⟨rfl, rfl⟩
  · exact (settles_asList isSequence h).bind fun _ each =>
      (settles_mapValues (.inr ⟨c, rfl, sends⟩) each).map fun _ onMade => .inr ⟨_, rfl, onMade⟩

end

/-! Numbers. -/

theorem safe_wholeOr {e : EvalError} (harmless : e.Harmless) (r : Option Int64) :
    Safe (Conforms s .int) (wholeOr e r) := by
  cases r with
  | none => exact harmless
  | some n => exact ⟨n, rfl⟩

theorem safe_sumFrom_int {function : String} {items : List Value} (total : Int64)
    (each : ∀ x ∈ items, Conforms s .int x) :
    Safe (Conforms s .int) (sumFrom function (.int total) items) := by
  induction items generalizing total with
  | nil => exact ⟨total, rfl⟩
  | cons x rest ih =>
    obtain ⟨⟨n, rfl⟩, onRest⟩ := List.forall_mem_cons.1 each
    unfold sumFrom
    cases Number.add? total n with
    | none => exact trivial
    | some sum => exact ih sum onRest

theorem safe_sumFrom_float {function : String} {items : List Value} (total : Float)
    (each : ∀ x ∈ items, Conforms s .float x) :
    Safe (Conforms s .float) (sumFrom function (.float total) items) := by
  induction items generalizing total with
  | nil => exact ⟨total, rfl⟩
  | cons x rest ih =>
    obtain ⟨⟨y, rfl⟩, onRest⟩ := List.forall_mem_cons.1 each
    exact ih (total + y) onRest

/-- The extreme of some values is one of them. -/
theorem extreme_mem (ahead : Ordering) (best : Value) (items : List Value) :
    extreme ahead best items ∈ best :: items := by
  induction items generalizing best with
  | nil => exact List.mem_singleton_self best
  | cons v rest ih =>
    unfold extreme
    split
    · exact List.mem_cons_of_mem _ (ih v)
    · rcases List.mem_cons.1 (ih best) with isBest | isRest
      · exact List.mem_cons.2 (.inl isBest)
      · exact List.mem_cons_of_mem _ (List.mem_cons_of_mem _ isRest)

theorem sound_sumWhole (isSequence : ty.element? = some .int) :
    (sumWhole : Body Value).Sound s [ty] .int :=
  sound_one fun _ _ h => (settles_asList isSequence h).bind fun _ each =>
    .const (safe_sumFrom_int 0 each)

theorem sound_sumFloat (isSequence : ty.element? = some .float) :
    (sumFloat : Body Value).Sound s [ty] .float :=
  sound_one fun _ _ h => (settles_asList isSequence h).bind fun _ each =>
    .const (safe_sumFrom_float 0.0 each)

theorem sound_least (isSequence : ty.element? = some element) :
    (least : Body Value).Sound s [ty] element :=
  sound_one fun _ _ h => (settles_asList isSequence h).bind fun items each => by
    cases items with
    | nil => exact .error trivial
    | cons v rest => exact .pure (each _ (extreme_mem .lt v rest))

theorem sound_greatest (isSequence : ty.element? = some element) :
    (greatest : Body Value).Sound s [ty] element :=
  sound_one fun _ _ h => (settles_asList isSequence h).bind fun items each => by
    cases items with
    | nil => exact .error trivial
    | cons v rest => exact .pure (each _ (extreme_mem .gt v rest))

theorem sound_absWhole : (absWhole : Body Value).Sound s [.int] .int := by
  refine sound_one fun function v h => ?_
  obtain ⟨n, rfl⟩ := h
  exact .const (safe_wholeOr (e := .functionOverflow function) trivial (Number.abs? n))

theorem sound_absFloat : (absFloat : Body Value).Sound s [.float] .float := by
  refine sound_one fun function v h => ?_
  obtain ⟨x, rfl⟩ := h
  exact .pure ⟨x.abs, rfl⟩

end Body

/-! Operators. -/

section

variable {s : Schema} {ty : Ty} {v w : Value}

theorem safe_wholeArithmetic (op : Operator) (a b : Int64) :
    Safe (Conforms s .int) (wholeArithmetic op a b) := by
  unfold wholeArithmetic
  cases op with
  | add | sub | mul => exact Body.safe_wholeOr (e := .overflow _) trivial _
  | _ =>
    dsimp only
    split
    · exact trivial
    · exact Body.safe_wholeOr (e := .overflow _) trivial _

/-- Arithmetic stays in the type of its operands. -/
theorem safe_arithmetic (op : Operator) (number : ty.isArithmetic = true) (h : Conforms s ty v)
    (h' : Conforms s ty w) : Safe (Conforms s ty) (arithmetic op v w) := by
  cases ty with
  | int =>
    obtain ⟨a, rfl⟩ := h
    obtain ⟨b, rfl⟩ := h'
    exact safe_wholeArithmetic op a b
  | float =>
    obtain ⟨x, rfl⟩ := h
    obtain ⟨y, rfl⟩ := h'
    exact ⟨floatArithmetic op x y, rfl⟩
  | optional inner =>
    rcases h with rfl | inside
    · exact .inl rfl
    rcases h' with rfl | inside'
    · cases v <;> exact .inl rfl
    cases inner with
    | int =>
      obtain ⟨a, rfl⟩ := inside
      obtain ⟨b, rfl⟩ := inside'
      exact (safe_wholeArithmetic op a b).mono fun _ => .inr
    | float =>
      obtain ⟨x, rfl⟩ := inside
      obtain ⟨y, rfl⟩ := inside'
      exact .inr ⟨floatArithmetic op x y, rfl⟩
    | _ => cases number
  | _ => cases number

end

end LambdaQuery
