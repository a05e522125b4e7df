import LambdaQuery.Proofs.Inference.Typed
import Mathlib

/-!
# Inference is sound

A query that inference gives types to is well typed, and no work on it was left undone: an item is
left only if a type that it needs is missing, and then the tree cannot be typed.
-/

namespace LambdaQuery

namespace Solver

/-! At the start nothing is known. -/

/-- Cells of which nothing is known, each the leader of its own class. -/
def Blank (cells : Array Cell) : Prop :=
  ∀ (i : Nat) (cell : Cell), cells[i]? = some cell →
    cell.leader = i ∧ cell.belief = .unknown [] ∧ cell.overload = none

theorem blank_own {cells : Array Cell} (h : Blank cells) (slot : Nat) (tag : NodeTag)
    (span : Span) : Blank (own cells slot tag span) := by
  intro i cell there
  unfold own at there
  rw [Array.getElem?_modify] at there
  split at there
  · obtain ⟨old, isOld, rfl⟩ := Option.map_eq_some_iff.1 there
    exact h i old isOld
  · exact h i cell there

mutual
theorem blank_ownSlots : ∀ (t : Term Slotted) {cells : Array Cell}, Blank cells →
    Blank (ownSlots cells t) ∧ (ownSlots cells t).size = cells.size
  | .lambda _ _ body, cells, h => by
    obtain ⟨blank, size⟩ := blank_ownSlots body (blank_own h _ _ _)
    exact ⟨blank_own blank _ _ _, by simpa [ownSlots, own] using size⟩
  | .binary _ _ left right, cells, h => by
    obtain ⟨blank, size⟩ := blank_ownSlots left h
    obtain ⟨blank', size'⟩ := blank_ownSlots right blank
    exact ⟨blank_own blank' _ _ _, by simpa [ownSlots, own] using size'.trans size⟩
  | .call _ _ args, cells, h => by
    obtain ⟨blank, size⟩ := blank_ownSlotsAll args h
    exact ⟨blank_own blank _ _ _, by simpa [ownSlots, own] using size⟩
  | .member _ receiver _, cells, h => by
    obtain ⟨blank, size⟩ := blank_ownSlots receiver h
    exact ⟨blank_own blank _ _ _, by simpa [ownSlots, own] using size⟩
  | .ident .., cells, h => ⟨h, rfl⟩
  | .literal .., cells, h => ⟨blank_own h _ _ _, by simp [ownSlots, own]⟩

theorem blank_ownSlotsAll : ∀ (ts : List (Term Slotted)) {cells : Array Cell}, Blank cells →
    Blank (ownSlotsAll cells ts) ∧ (ownSlotsAll cells ts).size = cells.size
  | [], cells, h => ⟨h, rfl⟩
  | t :: rest, cells, h => by
    obtain ⟨blank, size⟩ := blank_ownSlots t h
    obtain ⟨blank', size'⟩ := blank_ownSlotsAll rest blank
    exact ⟨blank', size'.trans size⟩
end

theorem blank_start (t : Term Slotted) (slots : Nat) :
    Blank (start t slots).cells ∧ (start t slots).cells.size = slots := by
  have blank : Blank ((Array.range slots).map fun i =>
      ⟨i, 0, .unknown [], ⟨.lambda, t.note.span⟩, none⟩) := by
    intro i cell there
    simp only [Array.getElem?_map, Option.map_eq_some_iff, Array.getElem?_range] at there
    obtain ⟨j, isIndex, rfl⟩ := there
    split at isIndex
    · cases isIndex
      exact ⟨rfl, rfl, rfl⟩
    · cases isIndex
  obtain ⟨owned, size⟩ := blank_ownSlots t blank
  exact ⟨owned, by simpa [start] using size⟩

section

variable {catalog : Catalog} {P : Ty → Prop} {s : Solver} (blank : Blank s.cells)

include blank

theorem Blank.leader? {slot : Nat} (lt : slot < s.cells.size) : s.leader? slot = some slot := by
  have there : s.cells[slot]? = some s.cells[slot] := Array.getElem?_eq_getElem lt
  have isOwn := (blank slot _ there).1
  simp [Solver.leader?, there, isOwn]

theorem Blank.belief (slot : Nat) : s.belief slot = .unknown [] := by
  cases led : s.leader? slot with
  | none => exact belief_of_leader?_eq_none led
  | some leader =>
    have lt := slot_lt_of_leader? led
    cases (blank.leader? lt).symm.trans led
    have there : s.cells[slot]? = some s.cells[slot] := Array.getElem?_eq_getElem lt
    simp [Solver.belief, led, there, (blank slot _ there).2.1]

theorem Blank.overload? (slot : Nat) : s.overload? slot = none := by
  unfold Solver.overload?
  split
  · exact (blank slot _ (by assumption)).2.2
  · rfl

theorem Blank.valid : s.Valid P where
  leads lt := ⟨_, blank.leader? lt⟩
  beliefs slot := by simp [blank.belief slot, Belief.Within]

theorem Blank.plain : s.Plain where
  flat led := by
    cases (blank.leader? (slot_lt_of_leader? led)).symm.trans led
    rfl
  simple {slot cs c} believed mem := by
    cases (blank.belief slot).symm.trans believed
    cases mem

end

end Solver

namespace Inference

open Solver Term

variable {catalog : Catalog} {P : Ty → Prop} {resolver : Resolver}

theorem report_ok {left : List Item} {s s' : Solver} {u : Unit}
    (h : report resolver left s = .ok u s') : s = s' := by
  obtain ⟨_, _, got, h⟩ := bind_ok h
  obtain ⟨rfl, rfl⟩ := get_ok got
  cases found : s.firstCall? left with
  | none =>
    simp only [found] at h
    exact (pure_ok h).2
  | some call =>
    obtain ⟨slot, name, args⟩ := call
    rcases offered : resolver.candidates (callRequest s slot name args) with _ | ⟨_, _ | _⟩ <;>
      · simp only [found, offered] at h
        exact absurd h fail_ne_ok

/-- A tree that comes out was typed by what the work came to. -/
theorem run_ok {tree : Term Slotted} {binders : List (Symbol × Nat)} {tasks : List Task}
    {s s' : Solver} {t : Term Typed}
    (h : run catalog resolver tree binders tasks s = .ok t s') :
    ∃ left, work catalog resolver tree tasks s = .ok left s' ∧
      s'.typed catalog binders tree = .ok t := by
  obtain ⟨left, s₁, worked, h⟩ := bind_ok h
  obtain ⟨_, s₂, reported, h⟩ := bind_ok h
  obtain rfl := report_ok reported
  obtain ⟨_, _, got, h⟩ := bind_ok h
  obtain ⟨rfl, rfl⟩ := get_ok got
  cases typed : s₁.typed catalog binders tree with
  | ok t' =>
    simp only [typed] at h
    obtain ⟨rfl, rfl⟩ := pure_ok h
    exact ⟨left, worked, typed⟩
  | error e =>
    simp only [typed] at h
    have thrown : EStateM.Result.error _ _ = EStateM.Result.ok _ _ := h
    cases thrown

section

variable {n : Slotted} {param : Binder Slotted} {body : Term Slotted} {high : Nat} {root : Ty}
  {expected : Option Ty} {tasks : List Task} {s s' : Solver}

/-- What is learnt at the start speaks of slots of the tree. -/
theorem startTasks_within (numbered : Numbered 0 (.lambda n param body) high)
    (isStart : startTasks? root expected (.lambda n param body) = some tasks) (properRoot : P root)
    (properExpected : ∀ ty ∈ expected, P ty) : ∀ t ∈ tasks, t.Within P high := by
  cases isStart
  obtain ⟨rising, parts⟩ := numbered.lambdas_rising
  have inside : ∀ l ∈ (Term.lambda n param body).lambdas, l.slot < high := fun l mem =>
    (rising.within l.slot (List.mem_map_of_mem mem)).2
  have here : ⟨n.slot, param.note.slot, body.slot⟩ ∈ (Term.lambda n param body).lambdas := by
    simp [lambdas]
  obtain ⟨paramLt, bodyLt⟩ := parts _ here
  have slotLt := inside _ here
  intro t mem
  rw [lambdaTasks_eq] at mem
  simp only [List.cons_append, List.mem_cons, List.mem_append, List.mem_map] at mem
  rcases mem with rfl | ⟨l, isLambda, rfl⟩ | ⟨ty, isExpected, rfl⟩
  · exact ⟨Nat.lt_trans paramLt slotLt, properRoot⟩
  · refine ⟨inside l isLambda, fun e part => ?_⟩
    obtain ⟨paramLt, bodyLt⟩ := parts l isLambda
    have slotLt := inside l isLambda
    simp only [Constraint.components, List.cons_append, List.nil_append, List.mem_cons,
      List.not_mem_nil, or_false] at part
    rcases part with rfl | rfl
    · exact Nat.lt_trans paramLt slotLt
    · exact Nat.lt_trans bodyLt slotLt
  · exact ⟨Nat.lt_trans bodyLt slotLt, properExpected ty (by simpa using isExpected)⟩

/-- What is learnt at the start puts at most one constraint on a slot. -/
theorem startTasks_calm (numbered : Numbered 0 (.lambda n param body) high)
    (isStart : startTasks? root expected (.lambda n param body) = some tasks)
    (blank : Blank s.cells) : Calm tasks s := by
  cases isStart
  rw [lambdaTasks_eq]
  have constrained : List.filterMap constrained?
      (.assign param.note.slot root :: (Term.lambda n param body).lambdas.map LambdaSlots.task ++
        expected.toList.map fun ty => Task.expect body.slot ty .into) =
      (Term.lambda n param body).lambdas.map LambdaSlots.slot := by
    rw [List.filterMap_append, List.filterMap_cons, List.filterMap_map, List.filterMap_map]
    have none : List.filterMap (constrained? ∘ fun ty => Task.expect body.slot ty .into)
        expected.toList = [] := List.filterMap_eq_nil_iff.2 fun _ _ => rfl
    have some : constrained? ∘ LambdaSlots.task = Option.some ∘ LambdaSlots.slot := rfl
    rw [none, List.append_nil, some, List.filterMap_eq_map]
    rfl
  refine ⟨blank.plain, ?_, ?_, ?_⟩
  · intro t mem
    simp only [List.cons_append, List.mem_cons, List.mem_append, List.mem_map] at mem
    rcases mem with rfl | ⟨l, _, rfl⟩ | ⟨ty, _, rfl⟩
    · trivial
    · exact .inr ⟨_, _, rfl⟩
    · trivial
  · rw [constrained]
    exact numbered.lambdas_rising.1.nodup
  · intro slot _ cs believed
    cases (blank.belief slot).symm.trans believed
    rfl

/-- What the work of a query comes to, if the tree can be typed then. -/
theorem work_sound {binders : List (Symbol × Nat)} {left : List Item} {t : Term Typed}
    (closed : catalog.Closed P) (respects : resolver.Respects P)
    (numbered : Numbered 0 (.lambda n param body) high)
    (bound : Bound binders [] (.lambda n param body))
    (isStart : startTasks? root expected (.lambda n param body) = some tasks) (properRoot : P root)
    (properExpected : ∀ ty ∈ expected, P ty)
    (worked : work catalog resolver (.lambda n param body) tasks
      (start (.lambda n param body) high) = .ok left s')
    (typed : s'.typed catalog binders (.lambda n param body) = .ok t) :
    left = [] ∧ s'.Valid P ∧ (∀ task ∈ tasks, task.Holds catalog s'.known?) ∧
      ∀ item ∈ (Term.lambda n param body).items, item.Done catalog resolver s' := by
  obtain ⟨_, s₁, learnt, solved⟩ := bind_ok worked
  obtain ⟨blank, size⟩ := blank_start (.lambda n param body) high
  have within := startTasks_within (P := P) numbered isStart properRoot properExpected
  have first := learn_learnt closed (blank.valid (P := P)) (by rwa [size]) learnt
  have itemsWithin : ∀ item ∈ (Term.lambda n param body).items, ∀ i ∈ item.slots,
      i < s₁.cells.size := fun item mem i inItem =>
    Nat.lt_of_lt_of_le (numbered.slots_lt item mem i inItem) (size ▸ first.size)
  have rising := numbered.items_rising
  obtain ⟨done, s₂, grown, last, ends⟩ :=
    solve_worked closed respects first.valid itemsWithin rising.nodup solved
  have supplied := supplied_of_typed bound typed
  -- Names that were resolved are recorded, so what is left are operators.
  have binary : ∀ item ∈ left, IsBinary item := by
    intro item mem
    rcases (supplied item (done.sublist.subset mem)).2 with isBinary | ⟨o, recorded⟩
    · exact isBinary
    · rw [done.kept item mem, first.overloads, blank.overload?] at recorded
      cases recorded
  have calm : s₂.Plain ∨ ∀ item ∈ left, Asked s₂ item := by
    rcases ends with ⟨rfl, _⟩ | asked
    · exact .inl (narrow_calm (startTasks_calm numbered isStart blank) (learn_ok learnt))
    · exact .inr asked
  have stalled := (attemptAll_stalled closed respects grown.valid
    (fun item mem i inItem => Nat.lt_of_lt_of_le
      (itemsWithin item (done.sublist.subset mem) i inItem) grown.size)
    (rising.sorted.sublist (done.sublist.map Item.slot))
    (fun item mem => numbered.operands_lt item (done.sublist.subset mem)) binary calm rfl last).2
  have nothing : left = [] := by
    refine List.eq_nil_iff_forall_not_mem.2 fun item mem => ?_
    obtain ⟨i, isOperand, unknown⟩ := stalled item mem
    obtain ⟨ty, known⟩ := (supplied item (done.sublist.subset mem)).1 i isOperand
    rw [unknown] at known
    cases known
  refine ⟨nothing, done.valid, first.fact (done.models (models_known? catalog s')), ?_⟩
  intro item mem
  rcases done.each item mem with isLeft | isDone
  · rw [nothing] at isLeft
    cases isLeft
  · exact isDone

end

end Inference

/-! The tree stays the same. -/

namespace Term

mutual
theorem map_number : ∀ (t : Term Span) (n : Numbering), (t.number n).1.map Slotted.span = t
  | lambda _ _ body, n => by simp [number, map, map_number body]
  | binary _ _ left right, n => by simp [number, map, map_number left, map_number right]
  | call _ _ args, n => by simp [number, map, mapAll_numberAll args]
  | member _ receiver _, n => by simp [number, map, map_number receiver]
  | ident _ symbol, n => by
    unfold number
    cases n.binders.lookup symbol <;> rfl
  | literal .., n => rfl

theorem mapAll_numberAll : ∀ (ts : List (Term Span)) (n : Numbering),
    mapAll Slotted.span (numberAll ts n).1 = ts
  | [], _ => rfl
  | t :: rest, n => by simp [numberAll, mapAll, map_number t, mapAll_numberAll rest]
end

mutual
theorem symbols_map {α β : Type} (f : α → β) : ∀ t : Term α, (t.map f).symbols = t.symbols
  | lambda _ _ body => by simp [map, symbols, symbols_map f body]
  | binary _ _ left right => by simp [map, symbols, symbols_map f left, symbols_map f right]
  | call _ _ args => by simp [map, symbols, symbolsAll_map f args]
  | member _ receiver _ => by simp [map, symbols, symbols_map f receiver]
  | ident .. => rfl
  | literal .. => rfl

theorem symbolsAll_map {α β : Type} (f : α → β) : ∀ ts : List (Term α), symbolsAll (mapAll f ts) = symbolsAll ts
  | [] => rfl
  | t :: rest => by simp [mapAll, symbolsAll, symbols_map f t, symbolsAll_map f rest]
end

end Term

namespace Solver

open Term

variable {catalog : Catalog} {P : Ty → Prop} {s : Solver} {binders : List (Symbol × Nat)}

mutual
theorem map_typed (v : s.Valid P) : ∀ {t : Term Slotted} {scope : List Symbol} {t' : Term Typed},
    t.Bound binders scope → s.typed catalog binders t = .ok t' →
      t'.map Typed.span = t.map Slotted.span ∧ t'.TypesIn P
  | .lambda .., _, _, bound, h => by
    obtain ⟨body', _, _, onBody, knownParam, known, rfl⟩ := typed_lambda h
    obtain ⟨same, inside⟩ := map_typed v bound.2 onBody
    exact ⟨by simp [map, same], v.known? known, v.known? knownParam, inside⟩
  | .binary .., _, _, bound, h => by
    obtain ⟨left', right', _, onLeft, onRight, _, known, rfl⟩ := typed_binary h
    obtain ⟨sameLeft, inLeft⟩ := map_typed v bound.1 onLeft
    obtain ⟨sameRight, inRight⟩ := map_typed v bound.2 onRight
    exact ⟨by simp [map, sameLeft, sameRight], v.known? known, inLeft, inRight⟩
  | .call .., _, _, bound, h => by
    obtain ⟨args', _, _, onArgs, known, _, rfl⟩ := typed_call h
    obtain ⟨same, inside⟩ := mapAll_typedAll v bound onArgs
    exact ⟨by simp [map, same], v.known? known, inside⟩
  | .member _ receiver _, _, _, bound, h => by
    obtain ⟨receiver', _, _, onReceiver, known, _, rfl⟩ := typed_member h
    obtain ⟨same, inside⟩ := map_typed (t := receiver) v bound onReceiver
    exact ⟨by simp [map, same], v.known? known, inside⟩
  | .ident .., _, _, bound, h => by
    obtain ⟨_, known, rfl⟩ := typed_ident bound.1 h
    exact ⟨rfl, v.known? known⟩
  | .literal .., _, _, _, h => by
    obtain ⟨_, _, known, _, rfl⟩ := typed_literal h
    exact ⟨rfl, v.known? known⟩

theorem mapAll_typedAll (v : s.Valid P) : ∀ {ts : List (Term Slotted)} {scope : List Symbol}
    {ts' : List (Term Typed)}, BoundAll binders scope ts →
    s.typedAll catalog binders ts = .ok ts' →
      mapAll Typed.span ts' = mapAll Slotted.span ts ∧ TypesInAll P ts'
  | [], _, _, _, h => by
    cases h
    exact ⟨rfl, trivial⟩
  | _ :: _, _, _, bound, h => by
    obtain ⟨t', rest', first, others, rfl⟩ := typedAll_cons h
    obtain ⟨same, inside⟩ := map_typed v bound.1 first
    obtain ⟨sameRest, insideRest⟩ := mapAll_typedAll v bound.2 others
    exact ⟨by simp [mapAll, same, sameRest], inside, insideRest⟩
end

end Solver

/-! The whole of inference. -/

section

variable {catalog : Catalog} {P : Ty → Prop} {resolver : Resolver} {query : Term Span} {root : Ty}
  {expected : Option Ty}

/-- The items of a query that inference leaves undone, unless it fails before. -/
def undone? (catalog : Catalog) (resolver : Resolver) (query : Term Span) (root : Ty)
    (expected : Option Ty) : Option (List Item) :=
  let (tree, numbering) := query.number .start
  (tree.startTasks? root expected).bind fun tasks =>
    match Inference.work catalog resolver tree tasks (.start tree numbering.next) with
    | .ok left _ => some left
    | .error .. => none

/-- Each symbol of a parsed query leads to the slot of its parameter. -/
theorem Scoped.bound_number {high : Nat} (inScope : Scoped [] 0 query high) :
    (query.number .start).1.Bound (query.number .start).2.binders [] :=
  inScope.wellBound.bound_number

/-- A query with types that inference found. -/
structure SoundlyTyped (P : Ty → Prop) (catalog : Catalog) (resolver : Resolver)
    (query : Term Span) (root : Ty) (expected : Option Ty) (t : Term Typed) : Prop where
  finished : undone? catalog resolver query root expected = some []
  same : t.map Typed.span = query
  wellTyped : WellTyped catalog resolver [] t
  isLambda : ∃ note param body, t = .lambda note param body ∧ param.note.ty = root ∧
    ∀ ty ∈ expected, ty.assignable body.ty = true
  types : t.TypesIn P

/-- Types do not change the symbols of a query. -/
theorem SoundlyTyped.symbols_rising {t : Term Typed} {high : Nat}
    (h : SoundlyTyped P catalog resolver query root expected t) (inScope : Scoped [] 0 query high) :
    Rising 0 (t.symbols.map Symbol.id) high := by
  rw [← Term.symbols_map Typed.span t, h.same]
  exact inScope.symbols_rising

/-- Inference gives types to a query if the work on it can be done and all its slots have types. -/
theorem infer_ok {t : Term Typed}
    (h : (infer catalog resolver query root expected).outcome = .ok t) :
    ∃ tasks left s', (query.number .start).1.startTasks? root expected = some tasks ∧
      Inference.work catalog resolver (query.number .start).1 tasks
        (.start (query.number .start).1 (query.number .start).2.next) = .ok left s' ∧
      s'.typed catalog (query.number .start).2.binders (query.number .start).1 = .ok t := by
  unfold infer at h
  cases isStart : (query.number .start).1.startTasks? root expected with
  | none =>
    simp only [isStart] at h
    cases h
  | some tasks =>
    simp only [isStart] at h
    cases ran : Inference.run catalog resolver (query.number .start).1
        (query.number .start).2.binders tasks
        (.start (query.number .start).1 (query.number .start).2.next) with
    | error e s =>
      simp only [ran] at h
      cases h
    | ok t' s' =>
      simp only [ran] at h
      cases h
      obtain ⟨left, worked, typed⟩ := Inference.run_ok ran
      exact ⟨tasks, left, s', rfl, worked, typed⟩

theorem soundlyTyped_of_infer (closed : catalog.Closed P) (respects : resolver.Respects P)
    (plain : resolver.Plain) {high : Nat} (inScope : Scoped [] 0 query high) (properRoot : P root)
    (properExpected : ∀ ty ∈ expected, P ty) {t : Term Typed}
    (h : (infer catalog resolver query root expected).outcome = .ok t) :
    SoundlyTyped P catalog resolver query root expected t := by
  obtain ⟨tasks, left, s', isStart, worked, typed⟩ := infer_ok h
  have bound := inScope.bound_number
  have numbered := (query.number_numbered Numbering.settled_start).1
  have same := query.map_number .start
  have finished : undone? catalog resolver query root expected = some left := by
    simp [undone?, isStart, worked]
  generalize (query.number .start).1 = tree at *
  cases tree with
  | lambda n param body =>
    obtain ⟨rfl, valid, holds, done⟩ := Inference.work_sound closed respects numbered bound
      isStart properRoot properExpected worked typed
    obtain ⟨sameTree, inside⟩ := Solver.map_typed valid bound typed
    have lambdas : ∀ l ∈ (Term.lambda n param body).lambdas, l.task.Holds catalog s'.known? := by
      intro l mem
      refine holds l.task ?_
      cases isStart
      rw [Term.lambdaTasks_eq]
      simp only [List.cons_append, List.mem_cons, List.mem_append]
      exact .inr (.inl (List.mem_map_of_mem mem))
    have wellTyped := Solver.wellTyped_of_typed plain (Γ := []) bound (by simp [Solver.Agrees])
      done lambdas typed
    refine ⟨finished, sameTree.trans same, wellTyped, ?_, inside⟩
    obtain ⟨body', paramTy, ty, onBody, knownParam, _, rfl⟩ := Solver.typed_lambda typed
    refine ⟨_, _, _, rfl, ?_, fun expectedTy isExpected => ?_⟩
    · have assigned : s'.known? param.note.slot = some root := by
        cases isStart
        exact holds (.assign param.note.slot root) (by simp)
      rw [knownParam] at assigned
      exact Option.some.inj assigned
    · have asked : Task.Holds catalog s'.known? (.expect body.slot expectedTy .into) := by
        cases isStart
        exact holds _ (by simp [Option.mem_def.1 isExpected])
      obtain ⟨given, known, converts⟩ := asked
      rw [Solver.known?_of_typed bound.2 onBody] at known
      cases known
      simpa using converts
  | _ => cases isStart

end

/-- If inference gives types to a query that was read from a text, then nothing was left undone, and
the typed query is the query with a type at every node, each of which satisfies the rule for its
node. The parameter has the root type, and the body converts to the type expected of it. -/
theorem infer_sound (schema : Schema) (options : Options) {limit : Nat} {text : String}
    {query : Term Span} (parsed : Term.ofText limit text = .ok query) (root : Ty)
    (expected : Option Ty) {t : Term Typed}
    (inferred : (infer schema.catalog (Compiler.withOptions schema.catalog options).resolver query
      root expected).outcome = .ok t) :
    undone? schema.catalog (Compiler.withOptions schema.catalog options).resolver query root
        expected = some [] ∧
      t.map Typed.span = query ∧
      WellTyped schema.catalog (Compiler.withOptions schema.catalog options).resolver [] t ∧
      ∃ note param body, t = .lambda note param body ∧ param.note.ty = root ∧
        ∀ ty ∈ expected, ty.assignable body.ty = true := by
  obtain ⟨high, inScope⟩ := Term.scoped_of_ofText parsed
  have closed := schema.catalog.closed_true
  have sound := soundlyTyped_of_infer closed (Resolver.respects_withOptions closed options)
    (Resolver.plain_withOptions schema options) inScope trivial (fun _ _ => trivial) inferred
  exact ⟨sound.finished, sound.same, sound.wellTyped, sound.isLambda⟩

/-- Rows with some numbers and a limit to them. -/
def rowSchema : Schema :=
  Schema.empty.addRecord "Row" [("Low", .int), ("Tags", .list .int)]

/-- Whether a number of a row is above its limit. -/
def rowQuery : Term Span :=
  .lambda ⟨0, 32⟩ ⟨⟨0, "p"⟩, ⟨0, 1⟩⟩ <| .call ⟨5, 32⟩ "Any"
    [.member ⟨9, 15⟩ (.ident ⟨9, 10⟩ ⟨0, "p"⟩) "Tags",
      .lambda ⟨17, 31⟩ ⟨⟨17, "t"⟩, ⟨17, 18⟩⟩ <| .binary ⟨22, 31⟩ .gt (.ident ⟨22, 23⟩ ⟨17, "t"⟩)
        (.member ⟨26, 31⟩ (.ident ⟨26, 27⟩ ⟨0, "p"⟩) "Low")]

theorem ofText_row : Term.ofText 64 "p => Any(p.Tags, t => t > p.Low)" = .ok rowQuery := by
  cbv

theorem infer_row : ∃ t, (infer rowSchema.catalog
    (Compiler.withOptions rowSchema.catalog .standard).resolver rowQuery (.record "Row")
      (some .bool)).outcome = .ok t := by
  have succeeds : (infer rowSchema.catalog
      (Compiler.withOptions rowSchema.catalog .standard).resolver rowQuery (.record "Row")
        (some .bool)).outcome.isOk = true := by
    simp only [infer, Inference.run, Inference.work, Inference.solve_eq_solveBy 4]
    cbv
  cases outcome : (infer rowSchema.catalog
      (Compiler.withOptions rowSchema.catalog .standard).resolver rowQuery (.record "Row")
        (some .bool)).outcome with
  | ok t => exact ⟨t, rfl⟩
  | error e =>
    rw [outcome] at succeeds
    cases succeeds

theorem infer_sound_row : ∃ t,
    Term.ofText 64 "p => Any(p.Tags, t => t > p.Low)" = .ok rowQuery ∧
      (infer rowSchema.catalog (Compiler.withOptions rowSchema.catalog .standard).resolver rowQuery
        (.record "Row") (some .bool)).outcome = .ok t ∧
      undone? rowSchema.catalog (Compiler.withOptions rowSchema.catalog .standard).resolver
        rowQuery (.record "Row") (some .bool) = some [] ∧
      t.map Typed.span = rowQuery ∧
      WellTyped rowSchema.catalog (Compiler.withOptions rowSchema.catalog .standard).resolver [] t ∧
      ∃ note param body, t = .lambda note param body ∧ param.note.ty = .record "Row" ∧
        ∀ ty ∈ some Ty.bool, ty.assignable body.ty = true := by
  obtain ⟨t, inferred⟩ := infer_row
  exact ⟨t, ofText_row, inferred,
    infer_sound rowSchema .standard ofText_row (.record "Row") (some .bool) inferred⟩

end LambdaQuery
