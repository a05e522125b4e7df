import LambdaQuery.Proofs.Inference.Respelt
import LambdaQuery.Proofs.Inference.Termination
import LambdaQuery.Proofs.Term.CallOrder

/-!
# The call that is reported

Of the calls that could not be done, the one that starts first in the text is reported. The slot of
a call belongs to the call all the time, and the calls of a query that was read start in the order
of the tree. So which call is the first can be told from the tree, however the query is spelt.
-/

namespace LambdaQuery

/-! Slots stay with the nodes they belong to. -/

namespace Solver

variable {catalog : Catalog} {s s' : Solver}

@[simp] theorem origin_setBelief (s : Solver) (leader : Nat) (b : Belief) (slot : Nat) :
    (s.setBelief leader b).origin slot = s.origin slot := by
  simp only [origin, setBelief, Array.getElem?_modify]
  by_cases h : leader = slot <;> cases s.cells[slot]? <;> simp [h]

@[simp] theorem origin_union (s : Solver) (x y : Nat) (b : Belief) (slot : Nat) :
    (s.union x y b).2.origin slot = s.origin slot := by
  have merged (winner loser rank : Nat) :
      (s.merge winner loser rank b).origin slot = s.origin slot := by
    simp only [origin, getElem?_merge]
    cases s.cells[slot]? with
    | none => rfl
    | some cell =>
      by_cases isWinner : slot = winner
      · simp [isWinner]
      · by_cases moved : cell.leader = loser <;> simp [isWinner, moved]
  unfold union
  split
  · exact merged ..
  · split <;> exact merged ..

@[simp] theorem origin_setOverload (s : Solver) (slot : Nat) (o : Overload) (other : Nat) :
    (s.setOverload slot o).origin other = s.origin other := by
  simp only [origin, setOverload, Array.getElem?_modify]
  by_cases h : slot = other <;> cases s.cells[other]? <;> simp [h]

theorem origin_fresh {like slot : Nat} {b : Belief} (there : slot < s.cells.size) :
    (s.fresh like b).2.origin slot = s.origin slot := by
  simp [origin, fresh, Array.getElem?_push, Nat.ne_of_lt there]

theorem Stepped.origin {task : Task} {left : List Task} (stepped : Stepped catalog s task left s')
    (slot : Nat) : s'.origin slot = s.origin slot := by
  cases stepped <;> simp

end Solver

theorem Move.origin {catalog : Catalog} {first second : Config} (moved : Move catalog first second)
    (inRange : first.InRange) {slot : Nat} (there : slot < first.solver.cells.size) :
    second.solver.origin slot = first.solver.origin slot := by
  cases moved with
  | task done => exact (inRange.stepped done).origin slot
  | fresh => exact Solver.origin_fresh there
  | record => exact Solver.origin_setOverload ..
  | learn | ask => rfl

theorem Run.origin {catalog : Catalog} {first last : Config} {log : List (Nat × Constraint)}
    (run : Run catalog first log last) (inRange : first.InRange) {slot : Nat}
    (there : slot < first.solver.cells.size) :
    last.solver.origin slot = first.solver.origin slot := by
  induction run with
  | refl => rfl
  | move moved _ ih =>
    obtain ⟨next, grows⟩ := moved.inRange inRange
    exact (ih next (Nat.lt_of_lt_of_le there grows)).trans (moved.origin inRange there)

/-! The slots of calls. -/

open Term

mutual
theorem Numbered.calls_within : ∀ {low high : Nat} {t : Term Slotted}, Numbered low t high →
    ∀ n ∈ t.calls, low ≤ n.slot ∧ n.slot < high
  | _, _, _, .lambda _ body => fun n mem => by
    have := body.calls_within n mem
    omega
  | _, _, _, .binary left right => fun n mem => by
    have := left.le_slot
    have := right.le_slot
    rcases List.mem_append.1 mem with inLeft | inRight
    · have := left.calls_within n inLeft
      omega
    · have := right.calls_within n inRight
      omega
  | _, _, _, .call args => fun n mem => by
    have := args.le
    rcases List.mem_cons.1 mem with rfl | inArgs
    · exact ⟨this, Nat.lt_succ_self _⟩
    · have := args.calls_within n inArgs
      omega
  | _, _, _, .member receiver => fun n mem => by
    have := receiver.calls_within n mem
    omega
  | _, _, _, .bound _ | _, _, _, .unbound | _, _, _, .literal => by simp [calls]

theorem NumberedAll.calls_within : ∀ {low high : Nat} {ts : List (Term Slotted)},
    NumberedAll low ts high → ∀ n ∈ callsAll ts, low ≤ n.slot ∧ n.slot < high
  | _, _, _, .nil => by simp [callsAll]
  | _, _, _, .cons first rest => fun n mem => by
    have := first.le_slot
    have := rest.le
    rcases List.mem_append.1 mem with inFirst | inRest
    · have := first.calls_within n inFirst
      omega
    · have := rest.calls_within n inRest
      omega
end

namespace Solver

theorem getElem?_own_of_ne {cells : Array Cell} {slot i : Nat} {tag : NodeTag} {span : Span}
    (h : slot ≠ i) : (own cells slot tag span)[i]? = cells[i]? := by
  simp [own, Array.getElem?_modify, h]

theorem getElem?_own_self {cells : Array Cell} {slot : Nat} (there : slot < cells.size)
    (tag : NodeTag) (span : Span) :
    ∃ cell, (own cells slot tag span)[slot]? = some cell ∧ cell.origin = ⟨tag, span⟩ := by
  rw [own, Array.getElem?_modify, if_pos rfl, Array.getElem?_eq_getElem there]
  exact ⟨_, rfl, rfl⟩

mutual
theorem size_ownSlots : ∀ (t : Term Slotted) (cells : Array Cell),
    (ownSlots cells t).size = cells.size
  | .lambda _ _ body, cells => by simp [ownSlots, own, size_ownSlots body]
  | .binary _ _ left right, cells => by
    simp [ownSlots, own, size_ownSlots left, size_ownSlots right]
  | .call _ _ args, cells => by simp [ownSlots, own, size_ownSlotsAll args]
  | .member _ receiver _, cells => by simp [ownSlots, own, size_ownSlots receiver]
  | .ident .., _ => rfl
  | .literal .., cells => by simp [ownSlots, own]

theorem size_ownSlotsAll : ∀ (ts : List (Term Slotted)) (cells : Array Cell),
    (ownSlotsAll cells ts).size = cells.size
  | [], _ => rfl
  | t :: rest, cells => by simp [ownSlotsAll, size_ownSlots t, size_ownSlotsAll rest]
end

mutual
/-- A tree owns no slots but its own. -/
theorem getElem?_ownSlots : ∀ {low high : Nat} {t : Term Slotted}, Numbered low t high →
    ∀ (cells : Array Cell) {i : Nat}, i < low ∨ high ≤ i → (ownSlots cells t)[i]? = cells[i]?
  | _, _, _, .lambda isParam body, cells, i, outside => by
    have := body.le_slot
    rw [ownSlots, getElem?_own_of_ne (by simp only; omega), getElem?_ownSlots body _ (by omega),
      getElem?_own_of_ne (by rw [isParam]; omega)]
  | _, _, _, .binary left right, cells, i, outside => by
    have := left.le_slot
    have := right.le_slot
    rw [ownSlots, getElem?_own_of_ne (by simp only; omega), getElem?_ownSlots right _ (by omega),
      getElem?_ownSlots left _ (by omega)]
  | _, _, _, .call args, cells, i, outside => by
    have := args.le
    rw [ownSlots, getElem?_own_of_ne (by simp only; omega), getElem?_ownSlotsAll args _ (by omega)]
  | _, _, _, .member receiver, cells, i, outside => by
    have := receiver.le_slot
    rw [ownSlots, getElem?_own_of_ne (by simp only; omega), getElem?_ownSlots receiver _ (by omega)]
  | _, _, _, .bound _, _, _, _ => rfl
  | _, _, _, .unbound, _, _, _ => rfl
  | _, _, _, .literal, cells, i, outside => by
    rw [ownSlots, getElem?_own_of_ne (by simp only; omega)]

theorem getElem?_ownSlotsAll : ∀ {low high : Nat} {ts : List (Term Slotted)},
    NumberedAll low ts high → ∀ (cells : Array Cell) {i : Nat}, i < low ∨ high ≤ i →
      (ownSlotsAll cells ts)[i]? = cells[i]?
  | _, _, _, .nil, _, _, _ => rfl
  | _, _, _, .cons first rest, cells, i, outside => by
    have := first.le_slot
    have := rest.le
    rw [ownSlotsAll, getElem?_ownSlotsAll rest _ (by omega), getElem?_ownSlots first _ (by omega)]
end

mutual
/-- The slot of a call belongs to the call. -/
theorem calls_owned : ∀ {low high : Nat} {t : Term Slotted}, Numbered low t high →
    ∀ {cells : Array Cell}, high ≤ cells.size → ∀ n ∈ t.calls,
      ∃ cell, (ownSlots cells t)[n.slot]? = some cell ∧ cell.origin.span = n.span
  | _, _, _, .lambda isParam body, cells, size, n, mem => by
    have within := body.calls_within n mem
    rw [ownSlots, getElem?_own_of_ne (by simp only; omega)]
    exact calls_owned body (by simp only [own, Array.size_modify]; omega) n mem
  | _, _, _, .binary left right, cells, size, n, mem => by
    have := right.le_slot
    rcases List.mem_append.1 mem with inLeft | inRight
    · have within := left.calls_within n inLeft
      rw [ownSlots, getElem?_own_of_ne (by simp only; omega), getElem?_ownSlots right _ (by omega)]
      exact calls_owned left (by omega) n inLeft
    · have within := right.calls_within n inRight
      rw [ownSlots, getElem?_own_of_ne (by simp only; omega)]
      exact calls_owned right (by rw [size_ownSlots]; omega) n inRight
  | _, _, _, .call args, cells, size, n, mem => by
    rw [ownSlots]
    rcases List.mem_cons.1 mem with rfl | inArgs
    · have there := Nat.lt_of_lt_of_le (Nat.lt_succ_self _) size
      rw [← size_ownSlotsAll _ cells] at there
      obtain ⟨cell, isCell, owner⟩ := getElem?_own_self there .call _
      exact ⟨cell, isCell, by rw [owner]⟩
    · have within := args.calls_within n inArgs
      rw [getElem?_own_of_ne (by simp only; omega)]
      exact callsAll_owned args (by omega) n inArgs
  | _, _, _, .member receiver, cells, size, n, mem => by
    have within := receiver.calls_within n mem
    rw [ownSlots, getElem?_own_of_ne (by simp only; omega)]
    exact calls_owned receiver (by omega) n mem
  | _, _, _, .bound _, _, _, _, mem => by cases mem
  | _, _, _, .unbound, _, _, _, mem => by cases mem
  | _, _, _, .literal, _, _, _, mem => by cases mem

theorem callsAll_owned : ∀ {low high : Nat} {ts : List (Term Slotted)}, NumberedAll low ts high →
    ∀ {cells : Array Cell}, high ≤ cells.size → ∀ n ∈ callsAll ts,
      ∃ cell, (ownSlotsAll cells ts)[n.slot]? = some cell ∧ cell.origin.span = n.span
  | _, _, _, .nil, _, _, _, mem => by cases mem
  | _, _, _, .cons first rest, cells, size, n, mem => by
    have := rest.le
    rw [ownSlotsAll]
    rcases List.mem_append.1 mem with inFirst | inRest
    · have within := first.calls_within n inFirst
      rw [getElem?_ownSlotsAll rest _ (by omega)]
      exact calls_owned first (by omega) n inFirst
    · exact callsAll_owned rest (by rw [size_ownSlots]; omega) n inRest
end

theorem origin_start {t : Term Slotted} {slots : Nat} (numbered : Numbered 0 t slots) {n : Slotted}
    (mem : n ∈ t.calls) : ((start t slots).origin n.slot).span = n.span := by
  have size : slots ≤ ((Array.range slots).map fun i =>
      (⟨i, 0, .unknown [], ⟨.lambda, t.note.span⟩, none⟩ : Cell)).size := by simp
  obtain ⟨cell, there, isSpan⟩ := calls_owned numbered size n mem
  rw [origin, start, there]
  exact isSpan

end Solver

namespace Term

mutual
theorem calls_map {α β : Type} (f : α → β) : ∀ t : Term α, (t.map f).calls = t.calls.map f
  | lambda _ _ body => by simp [map, calls, calls_map f body]
  | binary _ _ left right => by simp [map, calls, calls_map f left, calls_map f right]
  | call _ _ args => by simp [map, calls, callsAll_map f args]
  | member _ receiver _ => by simp [map, calls, calls_map f receiver]
  | ident .. => rfl
  | literal .. => rfl

theorem callsAll_map {α β : Type} (f : α → β) : ∀ ts : List (Term α),
    callsAll (mapAll f ts) = (callsAll ts).map f
  | [] => rfl
  | t :: rest => by simp [mapAll, callsAll, calls_map f t, callsAll_map f rest]
end

mutual
/-- The items for calls are those of the calls of the tree. -/
theorem mem_calls_of_items {slot : Nat} {name : String} {args : List Nat} : ∀ t : Term Slotted,
    .call slot name args ∈ t.items → slot ∈ t.calls.map Slotted.slot
  | lambda _ _ body, mem => mem_calls_of_items body mem
  | binary _ _ left right, mem => by
    simp only [items, List.mem_append, List.mem_singleton, reduceCtorEq, or_false] at mem
    rw [calls, List.map_append]
    exact List.mem_append.2 (mem.imp (mem_calls_of_items left) (mem_calls_of_items right))
  | call _ _ args, mem => by
    simp only [items, List.mem_append, List.mem_singleton, Item.call.injEq] at mem
    rw [calls, List.map_cons]
    rcases mem with inArgs | ⟨rfl, _⟩
    · exact List.mem_cons_of_mem _ (mem_callsAll_of_items args inArgs)
    · exact List.mem_cons_self
  | member _ receiver _, mem => by
    simp only [items, List.mem_append, List.mem_singleton, reduceCtorEq, or_false] at mem
    exact mem_calls_of_items receiver mem
  | ident .., mem | literal .., mem => by cases mem

theorem mem_callsAll_of_items {slot : Nat} {name : String} {args : List Nat} :
    ∀ ts : List (Term Slotted),
      .call slot name args ∈ itemsAll ts → slot ∈ (callsAll ts).map Slotted.slot
  | [], mem => by cases mem
  | t :: rest, mem => by
    rw [callsAll, List.map_append]
    exact List.mem_append.2 ((List.mem_append.1 mem).imp (mem_calls_of_items t)
      (mem_callsAll_of_items rest))
end

end Term

/-! The first of the calls that are left. -/

namespace Respelling

variable {v : Respelling}

mutual
theorem calls_term : ∀ t : Term Slotted,
    (v.term t).calls.map Slotted.slot = t.calls.map Slotted.slot
  | .lambda _ _ body => calls_term body
  | .binary _ _ left right => by
    simp only [term, calls, List.map_append, calls_term left, calls_term right]
  | .call _ _ args => by simp only [term, calls, List.map_cons, callsAll_term args]
  | .member _ receiver _ => calls_term receiver
  | .ident .. => rfl
  | .literal .. => rfl

theorem callsAll_term : ∀ ts : List (Term Slotted),
    (callsAll (v.termAll ts)).map Slotted.slot = (callsAll ts).map Slotted.slot
  | [] => rfl
  | t :: rest => by
    simp only [termAll, callsAll, List.map_append, calls_term t, callsAll_term rest]
end

end Respelling

/-- Numbers that rise together are in the same order. -/
theorem lt_iff_lt_of_rising {l : List Nat} {f g : Nat → Nat} (onF : (l.map f).Pairwise (· < ·))
    (onG : (l.map g).Pairwise (· < ·)) {a b : Nat} (memA : a ∈ l) (memB : b ∈ l) :
    f a < f b ↔ g a < g b := by
  have rising := (List.pairwise_map.1 onF).and (List.pairwise_map.1 onG)
  have same : ∀ ⦃a⦄, a ∈ l → ∀ ⦃b⦄, b ∈ l → (f a < f b ↔ g a < g b) := by
    refine List.Pairwise.forall_of_forall_of_flip ?_ (rising.imp ?_) (rising.imp ?_)
    · intro _ _
      simp
    · rintro a b ⟨less, less'⟩
      omega
    · rintro a b ⟨less, less'⟩
      unfold flip
      omega
  exact same memA memB

namespace Solver

variable {s s' : Solver}

/-- Which call is the first depends on the order of the calls only. -/
theorem firstCall?_congr {items : List Item} {slots : List Nat}
    (order : ∀ a ∈ slots, ∀ b ∈ slots, (s.origin a).span.start < (s.origin b).span.start ↔
      (s'.origin a).span.start < (s'.origin b).span.start)
    (within : ∀ slot name args, .call slot name args ∈ items → slot ∈ slots) :
    s.firstCall? items = s'.firstCall? items := by
  induction items with
  | nil => rfl
  | cons item rest ih =>
    have onRest := ih fun slot name args mem => within slot name args (List.mem_cons_of_mem _ mem)
    cases item with
    | member | binary => exact onRest
    | call slot name args =>
      simp only [firstCall?, ← onRest]
      cases found : s.firstCall? rest with
      | none => rfl
      | some other =>
        obtain ⟨slot', name', args'⟩ := other
        have isThere := within slot' name' args' (List.mem_cons_of_mem _ (mem_of_firstCall? found))
        have earlier := order slot' isThere slot (within slot name args List.mem_cons_self)
        simp only [earlier]

theorem firstCall?_item (v : Respelling) (s : Solver) (items : List Item) :
    s.firstCall? (items.map v.item) =
      (s.firstCall? items).map fun (slot, name, args) => (slot, v.name name, args) := by
  induction items with
  | nil => rfl
  | cons item rest ih =>
    cases item with
    | member | binary => exact ih
    | call slot name args =>
      simp only [List.map_cons, Respelling.item, firstCall?, ih]
      cases s.firstCall? rest with
      | none => rfl
      | some other =>
        simp only [Option.map_some]
        split <;> rfl

end Solver

namespace Inference

variable {resolver : Resolver}

/-- The code of the error that a computation stops with. -/
def failure? {α : Type} : EStateM.Result TypeError Solver α → Option String
  | .ok .. => none
  | .error e _ => some e.fault.code

/-- The code of the error that is reported for a call. -/
def callCode (resolver : Resolver) (s : Solver) (call : Nat × String × List Nat) : String :=
  match resolver.candidates (callRequest s call.1 call.2.1 call.2.2) with
  | _ :: _ :: _ => (TypeFault.ambiguousCall call.2.1 []).code
  | _ => (TypeFault.noMatchingFunction call.2.1 []).code

theorem failure?_report (resolver : Resolver) (left : List Item) (s : Solver) :
    failure? (report resolver left s) = (s.firstCall? left).map (callCode resolver s) := by
  have looked (f : Solver → Inference Unit) : (get >>= f) s = f s s := rfl
  rw [report, looked]
  cases s.firstCall? left with
  | none => rfl
  | some call =>
    obtain ⟨slot, name, args⟩ := call
    rcases offered : resolver.candidates (callRequest s slot name args) with _ | ⟨_, _ | _⟩ <;>
      · simp only [Option.map_some, callCode, offered]
        rfl

/-- The code of the report is found in the respelt knowledge, if one knows which call is first. -/
theorem failure?_report_respelt (v : Respelling) (builtIn : resolver.BuiltIn) (left : List Item)
    (s : Solver) : failure? (report resolver left s) =
      (s.firstCall? (left.map v.item)).map (callCode resolver (v.solver s)) := by
  rw [failure?_report, Solver.firstCall?_item, Option.map_map]
  congr 1
  funext ⟨slot, name, args⟩
  simp only [callCode, Function.comp_apply, Respelling.callRequest_solver,
    (v.resolver_request builtIn _).1]
  rfl

end Inference

/-- While inference works on a query that was read from a text, the calls of the tree start one
behind another. -/
theorem Run.calls_rising {catalog : Catalog} {limit : Nat} {text : String} {query : Term Span}
    (read : Term.ofText limit text = .ok query) {log : List (Nat × Constraint)} {last : Config}
    (run : Run catalog
      ⟨[], .start (query.number .start).1 (query.number .start).2.next⟩ log last) :
    (((query.number .start).1.calls.map Slotted.slot).map fun slot =>
      (last.solver.origin slot).span.start).Pairwise (· < ·) := by
  have numbered := (query.number_numbered Numbering.settled_start).1
  have isOwn : ∀ n ∈ (query.number .start).1.calls, (last.solver.origin n.slot).span = n.span := by
    intro n mem
    have size := (Solver.blank_start (query.number .start).1 (query.number .start).2.next).2
    have there := (numbered.calls_within n mem).2
    rw [run.origin ⟨Solver.inRange_start _ _, by simp⟩ (by rwa [size])]
    exact Solver.origin_start numbered mem
  have starts := Term.calls_rising_of_ofText read
  rw [← query.map_number .start, Term.calls_map, List.map_map] at starts
  rw [List.map_map]
  refine (List.map_congr_left fun n mem => ?_) ▸ starts
  exact congrArg Span.start (isOwn n mem).symm

end LambdaQuery
