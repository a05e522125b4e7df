import LambdaQuery.Proofs.Inference.Moves
import LambdaQuery.Proofs.Inference.Work

/-!
# Inference proceeds by moves

Every computation of inference is a run of moves. If it ends well the run has no tasks left; if
not, the run ends in front of a task that cannot be done, or with a slot that is blamed.
-/

namespace LambdaQuery

/-- What inference can stop at: a task that cannot be done, or a slot that is blamed. -/
inductive Config.Fails (catalog : Catalog) : Config → TypeError → Prop
  | task {s : Solver} {task : Task} {rest : List Task} {e : TypeError}
    (failed : s.step catalog task = .error e) : Config.Fails catalog ⟨task :: rest, s⟩ e
  | blame {s : Solver} {slot : Nat} (there : slot < s.cells.size) (fault : TypeFault) :
    Config.Fails catalog ⟨[], s⟩ (s.blame slot fault)

/-- Narrowing does the tasks one by one, and adds the constraints that it is asked to add. -/
theorem Solver.run_of_narrow {catalog : Catalog} {tasks : List Task} {s s' : Solver}
    (h : s.narrow catalog tasks = .ok s') :
    ∃ log, Run catalog ⟨tasks, s⟩ log ⟨[], s'⟩ ∧
      ∀ slot c, .constrain slot c ∈ tasks → (slot, c) ∈ log := by
  fun_induction narrow catalog tasks s with
  | case1 s =>
    cases h
    exact ⟨[], .refl _, by simp⟩
  | case2 => cases h
  | case3 s task rest left t stepped ih =>
    obtain ⟨log, run, adds⟩ := ih h
    refine ⟨_, .move (.task stepped) run, fun slot c mem => ?_⟩
    rcases List.mem_cons.1 mem with rfl | isRest
    · exact List.mem_append_left _ List.mem_cons_self
    · exact List.mem_append_right _ (adds slot c (List.mem_append_right _ isRest))

theorem Solver.fails_of_narrow {catalog : Catalog} {tasks : List Task} {s : Solver} {e : TypeError}
    (h : s.narrow catalog tasks = .error e) :
    ∃ log config, Run catalog ⟨tasks, s⟩ log config ∧ config.Fails catalog e := by
  fun_induction narrow catalog tasks s with
  | case1 => cases h
  | case2 s task rest e' failed =>
    cases h
    exact ⟨[], _, .refl _, .task failed⟩
  | case3 s task rest left t stepped ih =>
    obtain ⟨log, config, run, fails⟩ := ih h
    exact ⟨_, config, .move (.task stepped) run, fails⟩

namespace Inference

variable {α β : Type} {catalog : Catalog} {resolver : Resolver} {s : Solver}

/-- A computation is a run of moves, and what it gives is as described. -/
def Proceeds (catalog : Catalog) (x : Inference α) (s : Solver) (Q : α → Solver → Prop) : Prop :=
  match x s with
  | .ok a s' => (∃ log, Run catalog ⟨[], s⟩ log ⟨[], s'⟩) ∧ Q a s'
  | .error e _ => ∃ log config, Run catalog ⟨[], s⟩ log config ∧ config.Fails catalog e

namespace Proceeds

variable {x : Inference α} {f : α → Inference β} {Q : α → Solver → Prop} {R : β → Solver → Prop}

theorem ok (h : Proceeds catalog x s Q) {a : α} {s' : Solver} (isOk : x s = .ok a s') :
    (∃ log, Run catalog ⟨[], s⟩ log ⟨[], s'⟩) ∧ Q a s' := by
  simpa only [Proceeds, isOk] using h

theorem error (h : Proceeds catalog x s Q) {e : TypeError} {s' : Solver}
    (isError : x s = .error e s') :
    ∃ log config, Run catalog ⟨[], s⟩ log config ∧ config.Fails catalog e := by
  simpa only [Proceeds, isError] using h

theorem mono (h : Proceeds catalog x s Q) {Q' : α → Solver → Prop}
    (imp : ∀ a s', Q a s' → Q' a s') : Proceeds catalog x s Q' := by
  unfold Proceeds
  cases done : x s with
  | ok a s' =>
    obtain ⟨run, given⟩ := h.ok done
    exact ⟨run, imp a s' given⟩
  | error e s' => exact h.error done

theorem pure {a : α} (h : Q a s) : Proceeds catalog (Pure.pure a) s Q :=
  ⟨⟨[], .refl _⟩, h⟩

/-- A computation may begin with moves, and be another one from there. -/
theorem of_run {x y : Inference α} {log : List (Nat × Constraint)} {t : Solver}
    (run : Run catalog ⟨[], s⟩ log ⟨[], t⟩) (same : x s = y t) (rest : Proceeds catalog y t Q) :
    Proceeds catalog x s Q := by
  unfold Proceeds
  rw [same]
  cases ended : y t with
  | ok a s' =>
    obtain ⟨⟨log', run'⟩, given⟩ := rest.ok ended
    exact ⟨⟨_, run.trans run'⟩, given⟩
  | error e s' =>
    obtain ⟨log', config, run', fails⟩ := rest.error ended
    exact ⟨_, config, run.trans run', fails⟩

/-- What follows a computation starts where no slot is out of range and no slot was lost. -/
theorem bind (inRange : s.InRange) (first : Proceeds catalog x s Q)
    (next : ∀ a s', s'.InRange → s.cells.size ≤ s'.cells.size → Q a s' →
      Proceeds catalog (f a) s' R) : Proceeds catalog (x >>= f) s R := by
  have unfolded : (x >>= f) s = EStateM.bind x f s := rfl
  cases done : x s with
  | error e s' =>
    unfold Proceeds
    rw [unfolded, EStateM.bind, done]
    exact first.error done
  | ok a t =>
    obtain ⟨⟨log, run⟩, given⟩ := first.ok done
    obtain ⟨atEnd, grows⟩ := run.inRange ⟨inRange, by simp⟩
    refine of_run run ?_ (next a t atEnd.solver grows given)
    rw [unfolded, EStateM.bind, done]

/-- A computation whose answer is dropped. -/
theorem bind_pure (inRange : s.InRange) (h : Proceeds catalog x s Q) (b : β) :
    Proceeds catalog (x >>= fun _ => Pure.pure b) s fun _ _ => True :=
  .bind inRange h fun _ _ _ _ _ => .pure trivial

theorem get_bind {f : Solver → Inference β} (h : Proceeds catalog (f s) s R) :
    Proceeds catalog (get >>= f) s R := h

theorem known?_bind {slot : Nat} {f : Option Ty → Inference β}
    (h : Proceeds catalog (f (s.known? slot)) s R) :
    Proceeds catalog (known? slot >>= f) s R := h

theorem throw {slot : Nat} (there : slot < s.cells.size) (fault : TypeFault) :
    Proceeds catalog (MonadExcept.throw (s.blame slot fault)) s Q :=
  ⟨[], _, .refl _, .blame there fault⟩

theorem fail {slot : Nat} (there : slot < s.cells.size) (fault : TypeFault) :
    Proceeds catalog (Inference.fail slot fault) s Q :=
  get_bind (throw there fault)

theorem learn {tasks : List Task} (inside : ∀ t ∈ tasks, ∀ i ∈ t.slots, i < s.cells.size) :
    Proceeds catalog (Inference.learn catalog tasks) s fun _ _ => True := by
  unfold Proceeds Inference.learn
  cases narrowed : s.narrow catalog tasks with
  | ok s' =>
    obtain ⟨log, run, _⟩ := Solver.run_of_narrow narrowed
    exact ⟨⟨_, .move (.learn inside) run⟩, trivial⟩
  | error e =>
    obtain ⟨log, config, run, fails⟩ := Solver.fails_of_narrow narrowed
    exact ⟨_, config, .move (.learn inside) run, fails⟩

theorem fresh {like : Nat} {b : Belief} (there : like < s.cells.size)
    (inside : ∀ i ∈ b.slots, i < s.cells.size) :
    Proceeds catalog (Inference.fresh like b) s fun slot s' => slot < s'.cells.size := by
  refine ⟨⟨_, .move (.fresh there inside) (.refl _)⟩, ?_⟩
  show s.cells.size < (s.fresh like b).2.cells.size
  rw [Solver.size_fresh]
  exact Nat.lt_succ_self _

theorem ask (r : Request) :
    Proceeds catalog (Inference.ask resolver r) s fun _ _ => True :=
  ⟨⟨_, .move (.ask r) (.refl _)⟩, trivial⟩

theorem record {slot : Nat} (there : slot < s.cells.size) (o : Overload) :
    Proceeds catalog (modify (·.setOverload slot o)) s fun _ _ => True :=
  ⟨⟨_, .move (.record there o) (.refl _)⟩, trivial⟩

end Proceeds

/-! Shapes. -/

section

variable {generics : List Nat} {shape : Shape} {shapes : List Shape} {slot : Nat}

theorem freshSlots_proceeds {like : Nat} (inRange : s.InRange) (there : like < s.cells.size)
    (count : Nat) :
    Proceeds catalog (freshSlots like count) s fun slots s' => ∀ i ∈ slots, i < s'.cells.size := by
  induction count generalizing s with
  | zero => exact .pure (by simp)
  | succ count ih =>
    refine .bind inRange (.fresh there (by simp)) ?_
    intro slot t inRange' grows made
    refine .bind inRange' (ih inRange' (by omega)) ?_
    intro slots t' _ grows' more
    refine .pure (List.forall_mem_cons.2 ⟨by omega, more⟩)

/-- A shape can be applied to any slot that is there, whatever slots that are there stand for the
variables of the signature. -/
structure Applies (catalog : Catalog) (generics : List Nat) (shape : Shape) : Prop where
  apply : ∀ {slot : Nat} {flow : Flow} {s : Solver}, s.InRange →
    (∀ g ∈ generics, g < s.cells.size) → slot < s.cells.size →
    Proceeds catalog (applyShape catalog generics shape slot flow) s fun _ _ => True

theorem generic_applies (index : Nat) (arithmetic : Bool) :
    Applies catalog generics (.generic index arithmetic) := by
  constructor
  intro slot flow s inRange inside there
  unfold applyShape
  split
  · exact .pure trivial
  · rename_i generic found
    have genericThere := inside generic (List.mem_of_getElem? found)
    cases arithmetic with
    | true =>
      refine .bind inRange (.learn (by simpa [Task.slots, Constraint.components])) ?_
      intro _ t _ grows _
      apply Proceeds.learn
      simpa [Task.slots] using ⟨by omega, by omega⟩
    | false =>
      apply Proceeds.learn
      simpa [Task.slots] using ⟨there, genericThere⟩

/-- A part of a known type is narrowed through a slot of its own. -/
theorem known_part_proceeds (applies : Applies catalog generics shape) (inRange : s.InRange)
    (inside : ∀ g ∈ generics, g < s.cells.size) {like : Nat} (there : like < s.cells.size)
    (part : Ty) :
    Proceeds catalog (do applyShape catalog generics shape (← fresh like (.known part)) .exact)
      s fun _ _ => True := by
  refine .bind inRange (.fresh there (by simp)) ?_
  intro inner t inRange' grows made
  exact applies.apply inRange' (fun g mem => Nat.lt_of_lt_of_le (inside g mem) grows) made

/-- A part of an unknown type is a new slot that a constraint ties to the whole. -/
theorem unknown_part_proceeds (applies : Applies catalog generics shape) (inRange : s.InRange)
    (inside : ∀ g ∈ generics, g < s.cells.size) (there : slot < s.cells.size)
    {constraint : Nat → Constraint} (component : ∀ e, (constraint e).components = [e]) :
    Proceeds catalog (do
      let inner ← fresh slot (.unknown [])
      learn catalog [.constrain slot (constraint inner)]
      applyShape catalog generics shape inner .exact) s fun _ _ => True := by
  refine .bind inRange (.fresh there (by simp)) ?_
  intro inner t inRange' grows made
  refine .bind inRange' (.learn ?_) ?_
  · simpa [Task.slots, component] using ⟨by omega, made⟩
  · intro _ t' inRange'' grows' _
    exact applies.apply inRange'' (fun g mem => by have := inside g mem; omega) (by omega)

theorem enumerable_applies (applies : Applies catalog generics shape) :
    Applies catalog generics (.enumerable shape) := by
  constructor
  intro slot flow s inRange inside there
  unfold applyShape
  apply Proceeds.known?_bind
  cases s.known? slot with
  | none => exact unknown_part_proceeds applies inRange inside there fun _ => rfl
  | some ty =>
    dsimp only
    split
    · exact known_part_proceeds applies inRange inside there _
    · exact .fail there _

theorem array_applies (applies : Applies catalog generics shape) :
    Applies catalog generics (.array shape) := by
  constructor
  intro slot flow s inRange inside there
  unfold applyShape
  apply Proceeds.known?_bind
  split
  · exact known_part_proceeds applies inRange inside there _
  · exact .fail there _
  · exact unknown_part_proceeds applies inRange inside there fun _ => rfl

theorem optional_applies (applies : Applies catalog generics shape) :
    Applies catalog generics (.optional shape) := by
  constructor
  intro slot flow s inRange inside there
  unfold applyShape
  apply Proceeds.known?_bind
  split
  · exact known_part_proceeds applies inRange inside there _
  · exact applies.apply inRange inside there
  · exact unknown_part_proceeds applies inRange inside there fun _ => rfl

theorem applyTypes_proceeds (applies : ∀ shape ∈ shapes, Applies catalog generics shape)
    (inRange : s.InRange) (inside : ∀ g ∈ generics, g < s.cells.size) (types : List Ty) {like : Nat}
    (there : like < s.cells.size) :
    Proceeds catalog (applyTypes catalog generics shapes types like) s fun _ _ => True := by
  induction shapes generalizing types s with
  | nil =>
    unfold applyTypes
    exact .pure trivial
  | cons shape shapes ih => cases types with
    | nil =>
      unfold applyTypes
      exact .pure trivial
    | cons ty types =>
      unfold applyTypes
      refine .bind inRange (.fresh there (by simp)) ?_
      intro inner t inRange' grows made
      have inside' : ∀ g ∈ generics, g < t.cells.size := fun g mem =>
        Nat.lt_of_lt_of_le (inside g mem) grows
      refine .bind inRange' ((applies shape List.mem_cons_self).apply inRange' inside' made) ?_
      intro _ t' inRange'' grows' _
      exact ih (fun s mem => applies s (List.mem_cons_of_mem _ mem)) inRange''
        (fun g mem => Nat.lt_of_lt_of_le (inside' g mem) grows') types (by omega)

theorem applySlots_proceeds (applies : ∀ shape ∈ shapes, Applies catalog generics shape)
    (inRange : s.InRange) (inside : ∀ g ∈ generics, g < s.cells.size) {slots : List Nat}
    (there : ∀ slot ∈ slots, slot < s.cells.size) :
    Proceeds catalog (applySlots catalog generics shapes slots) s fun _ _ => True := by
  induction shapes generalizing slots s with
  | nil =>
    unfold applySlots
    exact .pure trivial
  | cons shape shapes ih => cases slots with
    | nil =>
      unfold applySlots
      exact .pure trivial
    | cons slot slots =>
      unfold applySlots
      have first := there slot List.mem_cons_self
      refine .bind inRange ((applies shape List.mem_cons_self).apply inRange inside first) ?_
      intro _ t inRange' grows _
      exact ih (fun s mem => applies s (List.mem_cons_of_mem _ mem)) inRange'
        (fun g mem => Nat.lt_of_lt_of_le (inside g mem) grows)
        (fun i mem => Nat.lt_of_lt_of_le (there i (List.mem_cons_of_mem _ mem)) grows)

theorem lambda_applies {params : List Shape} {result : Shape}
    (onParams : ∀ shape ∈ params, Applies catalog generics shape)
    (onResult : Applies catalog generics result) :
    Applies catalog generics (.lambda params result) := by
  constructor
  intro slot flow s inRange inside there
  unfold applyShape
  apply Proceeds.known?_bind
  split
  · rename_i types ty _
    split
    · refine .bind inRange (applyTypes_proceeds onParams inRange inside types there) ?_
      intro _ t inRange' grows _
      exact known_part_proceeds onResult inRange'
        (fun g mem => Nat.lt_of_lt_of_le (inside g mem) grows) (by omega) ty
    · exact .fail there _
  · exact .fail there _
  · refine .bind inRange (freshSlots_proceeds inRange there _) ?_
    intro slots t inRange₁ grows₁ made
    refine .bind inRange₁ (.fresh (by omega) (by simp)) ?_
    intro inner t inRange₂ grows₂ madeInner
    have slotsThere : ∀ i ∈ slots, i < t.cells.size := fun i mem =>
      Nat.lt_of_lt_of_le (made i mem) grows₂
    refine .bind inRange₂ (.learn ?_) ?_
    · intro task isOne i mem
      cases List.mem_singleton.1 isOne
      simp only [Task.slots, Constraint.components, List.mem_cons, List.mem_append,
        List.not_mem_nil, or_false] at mem
      rcases mem with rfl | ofParams | rfl
      · omega
      · exact slotsThere i ofParams
      · exact madeInner
    intro _ t' inRange₃ grows₃ _
    have inside' : ∀ g ∈ generics, g < t'.cells.size := fun g mem => by
      have := inside g mem
      omega
    refine .bind inRange₃ (applySlots_proceeds onParams inRange₃ inside' fun i mem =>
      Nat.lt_of_lt_of_le (slotsThere i mem) grows₃) ?_
    intro _ t'' inRange₄ grows₄ _
    exact onResult.apply inRange₄ (fun g mem => Nat.lt_of_lt_of_le (inside' g mem) grows₄)
      (by omega)

mutual
theorem applyShape_proceeds (catalog : Catalog) (generics : List Nat) :
    ∀ shape : Shape, Applies catalog generics shape
  | .concrete ty => by
    constructor
    intro slot flow s inRange inside there
    unfold applyShape
    exact .learn (by simpa [Task.slots])
  | .generic index arithmetic => generic_applies index arithmetic
  | .enumerable shape => enumerable_applies (applyShape_proceeds catalog generics shape)
  | .array shape => array_applies (applyShape_proceeds catalog generics shape)
  | .optional shape => optional_applies (applyShape_proceeds catalog generics shape)
  | .lambda params result =>
    lambda_applies (applyShape_proceeds_all catalog generics params)
      (applyShape_proceeds catalog generics result)

theorem applyShape_proceeds_all (catalog : Catalog) (generics : List Nat) :
    ∀ shapes : List Shape, ∀ shape ∈ shapes, Applies catalog generics shape
  | [] => by simp
  | first :: rest => by
    have onFirst := applyShape_proceeds catalog generics first
    have onRest := applyShape_proceeds_all catalog generics rest
    intro shape mem
    rcases List.mem_cons.1 mem with rfl | isRest
    · exact onFirst
    · exact onRest shape isRest
end

theorem applyArgs_proceeds (inRange : s.InRange) (inside : ∀ g ∈ generics, g < s.cells.size)
    (shapes : List Shape) {args : List Nat} (there : ∀ arg ∈ args, arg < s.cells.size) :
    Proceeds catalog (applyArgs catalog generics shapes args) s fun _ _ => True := by
  induction shapes generalizing args s with
  | nil =>
    unfold applyArgs
    exact .pure trivial
  | cons shape shapes ih => cases args with
    | nil =>
      unfold applyArgs
      exact .pure trivial
    | cons arg args =>
      unfold applyArgs
      refine .bind inRange ((applyShape_proceeds catalog generics shape).apply inRange inside
        (there arg List.mem_cons_self)) ?_
      intro _ t inRange' grows _
      exact ih inRange' (fun g mem => Nat.lt_of_lt_of_le (inside g mem) grows)
        (fun i mem => Nat.lt_of_lt_of_le (there i (List.mem_cons_of_mem _ mem)) grows)

theorem applyOverload_proceeds (inRange : s.InRange) (there : slot < s.cells.size) (o : Overload)
    {args : List Nat} (argsThere : ∀ arg ∈ args, arg < s.cells.size) :
    Proceeds catalog (applyOverload catalog slot o args) s fun _ _ => True := by
  refine .bind inRange (freshSlots_proceeds inRange there _) ?_
  intro generics t inRange₁ grows₁ made
  refine .bind inRange₁ (applyArgs_proceeds inRange₁ made o.params fun arg mem =>
    Nat.lt_of_lt_of_le (argsThere arg mem) grows₁) ?_
  intro _ t inRange₂ grows₂ _
  refine .bind inRange₂ ((applyShape_proceeds catalog generics o.result).apply inRange₂
    (fun g mem => Nat.lt_of_lt_of_le (made g mem) grows₂) (by omega)) ?_
  intro _ t inRange₃ grows₃ _
  exact .record (by omega) o

end

/-! Items of work. -/

section

variable {slot left right : Nat}

theorem attemptMember_proceeds (inRange : s.InRange) (slotThere : slot < s.cells.size)
    {receiver : Nat} (receiverThere : receiver < s.cells.size) (name : String) :
    Proceeds catalog (attemptMember catalog resolver slot receiver name) s fun _ _ => True := by
  apply Proceeds.get_bind
  split
  · refine .bind_pure inRange (.learn ?_) _
    simpa [Task.slots, Constraint.components] using ⟨receiverThere, slotThere⟩
  · rename_i ty _
    have asked : Proceeds catalog (askMember resolver ty name (s.hint slot)) s
        fun _ _ => True := by
      refine .bind inRange (.ask _) ?_
      intro found t _ _ _
      split
      · exact .pure trivial
      · exact .ask _
    refine .bind inRange asked ?_
    intro found t inRange' grows _
    split
    · exact .fail (by omega) _
    · rename_i o
      refine .bind_pure inRange' (applyOverload_proceeds inRange' (by omega) o ?_) _
      intro arg mem
      cases List.mem_singleton.1 mem
      omega

theorem operands_proceeds (inRange : s.InRange) (slotThere : slot < s.cells.size) (op : Operator)
    (leftThere : left < s.cells.size) (rightThere : right < s.cells.size) :
    Proceeds catalog (operands catalog slot op left right) s fun _ _ => True := by
  apply Proceeds.get_bind
  split
  · split
    · exact .fail slotThere _
    · exact .pure trivial
  · split
    · exact .bind_pure inRange (.learn (by simpa [Task.slots])) _
    · exact .pure trivial
  · split
    · exact .bind_pure inRange (.learn (by simpa [Task.slots])) _
    · exact .pure trivial
  · exact .pure trivial

theorem numbersOnly_proceeds (op : Operator) (slotThere : slot < s.cells.size)
    (leftThere : left < s.cells.size) (rightThere : right < s.cells.size) :
    Proceeds catalog (numbersOnly catalog op slot left right) s fun _ _ => True := by
  unfold numbersOnly
  split
  · exact .pure trivial
  · apply Proceeds.learn
    simpa [Task.slots, Constraint.components] using ⟨leftThere, rightThere, slotThere⟩

theorem arithmeticResult_proceeds (inRange : s.InRange) (slotThere : slot < s.cells.size)
    (left right : Nat) :
    Proceeds catalog (arithmeticResult catalog slot left right) s fun _ _ => True := by
  apply Proceeds.get_bind
  split
  · split
    · exact .bind_pure inRange (.learn (by simpa [Task.slots])) _
    · exact .pure trivial
  · exact .pure trivial

theorem presetOperands_proceeds (inRange : s.InRange) (slot : Nat) (leftThere : left < s.cells.size)
    (rightThere : right < s.cells.size) :
    Proceeds catalog (presetOperands catalog slot left right) s fun _ _ => True := by
  apply Proceeds.get_bind
  split
  · split
    · refine .bind_pure inRange (.learn ?_) _
      simpa [Task.slots] using ⟨leftThere, rightThere⟩
    · exact .pure trivial
  · exact .pure trivial

theorem attemptBinary_proceeds (inRange : s.InRange) (slotThere : slot < s.cells.size)
    (op : Operator) (leftThere : left < s.cells.size) (rightThere : right < s.cells.size) :
    Proceeds catalog (attemptBinary catalog slot op left right) s fun _ _ => True := by
  have compares : Proceeds catalog (do
      learn catalog [.expect slot .bool .outOf]
      operands catalog slot op left right) s fun _ _ => True := by
    refine .bind inRange (.learn (by simpa [Task.slots])) ?_
    intro _ t inRange' grows _
    exact operands_proceeds inRange' (by omega) op (by omega) (by omega)
  unfold attemptBinary
  split
  · refine .bind_pure inRange (.learn ?_) _
    simpa [Task.slots] using ⟨leftThere, rightThere, slotThere⟩
  · exact compares
  · exact compares
  · refine .bind inRange (numbersOnly_proceeds op slotThere leftThere rightThere) ?_
    intro _ t inRange₁ grows₁ _
    refine .bind inRange₁ (operands_proceeds inRange₁ (by omega) op (by omega) (by omega)) ?_
    intro ready t inRange₂ grows₂ _
    split
    · exact arithmeticResult_proceeds inRange₂ (by omega) _ _
    refine .bind inRange₂ (presetOperands_proceeds inRange₂ slot (by omega) (by omega)) ?_
    intro preset t inRange₃ grows₃ _
    split
    · refine .bind inRange₃ (numbersOnly_proceeds op (by omega) (by omega) (by omega)) ?_
      intro _ t inRange₄ grows₄ _
      refine .bind inRange₄ (operands_proceeds inRange₄ (by omega) op (by omega) (by omega)) ?_
      intro ready t inRange₅ grows₅ _
      split
      · exact arithmeticResult_proceeds inRange₅ (by omega) _ _
      · exact .pure trivial
    · exact .pure trivial

theorem attemptCall_proceeds (inRange : s.InRange) (slotThere : slot < s.cells.size) (name : String)
    {args : List Nat} (argsThere : ∀ arg ∈ args, arg < s.cells.size) :
    Proceeds catalog (attemptCall catalog resolver slot name args) s fun _ _ => True := by
  apply Proceeds.get_bind
  refine .bind inRange (.ask _) ?_
  intro found t inRange' grows _
  split
  · exact .pure trivial
  · rename_i o
    exact .bind_pure inRange' (applyOverload_proceeds inRange' (by omega) o fun arg mem =>
      Nat.lt_of_lt_of_le (argsThere arg mem) grows) _

theorem attempt_proceeds (inRange : s.InRange) {item : Item}
    (inside : ∀ i ∈ item.slots, i < s.cells.size) :
    Proceeds catalog (attempt catalog resolver item) s fun _ _ => True := by
  cases item with
  | member slot receiver name =>
    exact attemptMember_proceeds inRange (inside slot (by simp [Item.slots, Item.slot]))
      (inside receiver (by simp [Item.slots, Item.operands])) name
  | binary slot op left right =>
    exact attemptBinary_proceeds inRange (inside slot (by simp [Item.slots, Item.slot])) op
      (inside left (by simp [Item.slots, Item.operands]))
      (inside right (by simp [Item.slots, Item.operands]))
  | call slot name args =>
    exact attemptCall_proceeds inRange (inside slot (by simp [Item.slots, Item.slot])) name
      fun arg mem => inside arg (List.mem_cons_of_mem _ mem)

end

/-! Rounds. -/

section

variable {pending : List Item} {literals : List (Nat × String)}

theorem attemptAll_proceeds (inRange : s.InRange)
    (inside : ∀ item ∈ pending, ∀ i ∈ item.slots, i < s.cells.size) :
    Proceeds catalog (attemptAll catalog resolver pending) s
      fun left _ => ∀ item ∈ left, item ∈ pending := by
  induction pending generalizing s with
  | nil => exact .pure (by simp)
  | cons item rest ih =>
    refine .bind inRange (attempt_proceeds inRange (inside item List.mem_cons_self)) ?_
    intro done t inRange' grows _
    refine .bind inRange' (ih inRange' fun other mem i isSlot => ?_) ?_
    · exact Nat.lt_of_lt_of_le (inside other (List.mem_cons_of_mem _ mem) i isSlot) grows
    intro left t' _ _ sub
    refine .pure fun other mem => ?_
    split at mem
    · exact List.mem_cons_of_mem _ (sub other mem)
    · rcases List.mem_cons.1 mem with rfl | isLeft
      · exact List.mem_cons_self
      · exact List.mem_cons_of_mem _ (sub other isLeft)

theorem settle_proceeds (inRange : s.InRange) {slots : List Nat}
    (inside : ∀ slot ∈ slots, slot < s.cells.size) :
    Proceeds catalog (settle catalog slots) s fun _ _ => True := by
  induction slots generalizing s with
  | nil => exact .pure trivial
  | cons slot rest ih =>
    have slotThere := inside slot List.mem_cons_self
    apply Proceeds.get_bind
    split
    · refine .bind inRange (.learn (by simpa [Task.slots])) ?_
      intro _ t inRange' grows _
      exact .bind_pure inRange' (ih inRange' fun i mem =>
        Nat.lt_of_lt_of_le (inside i (List.mem_cons_of_mem _ mem)) grows) _
    · exact ih inRange fun i mem => inside i (List.mem_cons_of_mem _ mem)

theorem defaultLiterals_proceeds (inRange : s.InRange)
    (inside : ∀ literal ∈ literals, literal.1 < s.cells.size) :
    Proceeds catalog (defaultLiterals catalog literals) s fun _ _ => True := by
  induction literals generalizing s with
  | nil => exact .pure trivial
  | cons literal rest ih =>
    obtain ⟨slot, text⟩ := literal
    have slotThere : slot < s.cells.size := inside _ List.mem_cons_self
    have later := ih inRange fun literal mem => inside literal (List.mem_cons_of_mem _ mem)
    apply Proceeds.get_bind
    split
    · split
      · refine .bind inRange (.learn (by simpa [Task.slots])) ?_
        intro _ t inRange' grows _
        exact .bind_pure inRange' (ih inRange' fun literal mem =>
          Nat.lt_of_lt_of_le (inside literal (List.mem_cons_of_mem _ mem)) grows) _
      · exact later
    · exact later

theorem advance_proceeds (inRange : s.InRange)
    (inside : ∀ literal ∈ literals, literal.1 < s.cells.size) :
    Proceeds catalog (advance catalog literals) s fun _ _ => True := by
  apply Proceeds.get_bind
  refine .bind inRange (settle_proceeds inRange fun slot mem => List.mem_range.1 mem) ?_
  intro settled t inRange' grows _
  split
  · exact .pure trivial
  · exact defaultLiterals_proceeds inRange' fun literal mem =>
      Nat.lt_of_lt_of_le (inside literal mem) grows

theorem round_proceeds (inRange : s.InRange)
    (inside : ∀ item ∈ pending, ∀ i ∈ item.slots, i < s.cells.size)
    (literalsInside : ∀ literal ∈ literals, literal.1 < s.cells.size) :
    Proceeds catalog (round catalog resolver literals pending) s
      fun answer _ => ∀ item ∈ answer.1, item ∈ pending := by
  refine .bind inRange (attemptAll_proceeds inRange inside) ?_
  intro left t inRange₁ grows₁ sub
  split
  · exact .pure sub
  · exact .bind inRange₁ (advance_proceeds inRange₁ fun literal mem =>
      Nat.lt_of_lt_of_le (literalsInside literal mem) grows₁) fun _ _ _ _ _ => .pure sub

/-- The work as a whole is a run of moves, and what is left was there to do. -/
theorem solve_proceeds (inRange : s.InRange)
    (inside : ∀ item ∈ pending, ∀ i ∈ item.slots, i < s.cells.size)
    (literalsInside : ∀ literal ∈ literals, literal.1 < s.cells.size) :
    Proceeds catalog (solve catalog resolver literals pending) s
      fun left _ => ∀ item ∈ left, item ∈ pending := by
  -- By the recursion of the work itself: a round that did something comes before the rest.
  unfold Proceeds
  fun_induction solve catalog resolver literals pending s with
  | case1 pending s e s' failed => exact (round_proceeds inRange inside literalsInside).error failed
  | case2 pending s left s' done => exact (round_proceeds inRange inside literalsInside).ok done
  | case3 pending s left t worked ih =>
    obtain ⟨⟨log, run⟩, sub⟩ := (round_proceeds inRange inside literalsInside).ok worked
    obtain ⟨atEnd, grows⟩ := run.inRange ⟨inRange, by simp⟩
    have rest : Proceeds catalog (solve catalog resolver literals left) t
        fun undone _ => ∀ item ∈ undone, item ∈ left :=
      ih atEnd.solver
        (fun item mem i isSlot => Nat.lt_of_lt_of_le (inside item (sub item mem) i isSlot) grows)
        (fun literal mem => Nat.lt_of_lt_of_le (literalsInside literal mem) grows)
    exact Proceeds.of_run (x := fun _ => solve catalog resolver literals left t) run rfl
      (rest.mono fun undone _ more item mem => sub item (more item mem))

end

end Inference

end LambdaQuery
