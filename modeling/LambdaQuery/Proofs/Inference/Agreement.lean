import LambdaQuery.Proofs.Inference.Lockstep

/-!
# Computations that agree

From solvers that look alike from some slots, the same computation on these slots either fails on
both sides, or gives the same on both sides and leaves solvers that look alike again, from the same
slots and the new ones. On neither side does it change anything elsewhere.
-/

namespace LambdaQuery

/-- The same work, on slots that are paired. What a call or a member stands for is not recorded with
the parameter of the query, whose slot is the first. -/
inductive Item.Paired (r : Pairing) : Item → Item → Prop
  | member {slot slot' receiver receiver' : Nat} (onSlot : r slot slot') (notRoot : slot ≠ 0)
    (notRoot' : slot' ≠ 0) (onReceiver : r receiver receiver') (name : String) :
    Item.Paired r (.member slot receiver name) (.member slot' receiver' name)
  | binary {slot slot' left left' right right' : Nat} (onSlot : r slot slot') (op : Operator)
    (onLeft : r left left') (onRight : r right right') :
    Item.Paired r (.binary slot op left right) (.binary slot' op left' right')
  | call {slot slot' : Nat} (onSlot : r slot slot') (notRoot : slot ≠ 0) (notRoot' : slot' ≠ 0)
    (name : String) {args args' : List Nat} (onArgs : List.Forall₂ r args args') :
    Item.Paired r (.call slot name args) (.call slot' name args')

theorem Item.Paired.mono {r q : Pairing} {item item' : Item} (h : item.Paired r item')
    (le : r.Le q) : item.Paired q item' := by
  cases h with
  | member onSlot notRoot notRoot' onReceiver name =>
    exact .member (le onSlot) notRoot notRoot' (le onReceiver) name
  | binary onSlot op onLeft onRight => exact .binary (le onSlot) op (le onLeft) (le onRight)
  | call onSlot notRoot notRoot' name onArgs =>
    exact .call (le onSlot) notRoot notRoot' name (onArgs.imp le)

namespace Inference

open Solver

variable {α β γ δ : Type}

/-- Both computations fail, or both give something and leave something that is related. -/
inductive Matched (R : α → Solver → β → Solver → Prop) :
    EStateM.Result TypeError Solver α → EStateM.Result TypeError Solver β → Prop
  | ok {a : α} {b : β} {t t' : Solver} (related : R a t b t') : Matched R (.ok a t) (.ok b t')
  | error {e e' : TypeError} {t t' : Solver} : Matched R (.error e t) (.error e' t')

namespace Matched

variable {R : α → Solver → β → Solver → Prop} {R' : γ → Solver → δ → Solver → Prop}

theorem bind {x : Inference α} {x' : Inference β} {f : α → Inference γ} {f' : β → Inference δ}
    {s s' : Solver} (first : Matched R (x s) (x' s'))
    (next : ∀ {a : α} {b : β} {t t' : Solver}, R a t b t' → Matched R' (f a t) (f' b t')) :
    Matched R' ((x >>= f) s) ((x' >>= f') s') := by
  show Matched R' (EStateM.bind x f s) (EStateM.bind x' f' s')
  unfold EStateM.bind
  generalize x s = y, x' s' = y' at first
  cases first with
  | ok related => exact next related
  | error => exact .error

theorem imp {Q : α → Solver → β → Solver → Prop} {y : EStateM.Result TypeError Solver α}
    {y' : EStateM.Result TypeError Solver β} (h : Matched R y y')
    (implies : ∀ {a : α} {b : β} {t t' : Solver}, R a t b t' → Q a t b t') : Matched Q y y' := by
  cases h with
  | ok related => exact .ok (implies related)
  | error => exact .error

section

variable {y : EStateM.Result TypeError Solver α} {y' : EStateM.Result TypeError Solver β}

theorem of_ok (h : Matched R y y') {a : α} {t : Solver} (isOk : y = .ok a t) :
    ∃ b t', y' = .ok b t' ∧ R a t b t' := by
  cases h with
  | ok related =>
    cases isOk
    exact ⟨_, _, rfl, related⟩
  | error => cases isOk

theorem of_ok' (h : Matched R y y') {b : β} {t' : Solver} (isOk : y' = .ok b t') :
    ∃ a t, y = .ok a t ∧ R a t b t' := by
  cases h with
  | ok related =>
    cases isOk
    exact ⟨_, _, rfl, related⟩
  | error => cases isOk

theorem of_error (h : Matched R y y') {e : TypeError} {t : Solver} (isError : y = .error e t) :
    ∃ e' t', y' = .error e' t' := by
  cases h with
  | ok => cases isError
  | error => exact ⟨_, _, rfl⟩

end

end Matched

/-- From solvers that look alike, two computations fail together or give something related, and
leave solvers that look alike. -/
def Agree (r : Pairing) (x : Inference α) (x' : Inference β) (R : Pairing → α → β → Prop) : Prop :=
  ∀ ⦃q : Pairing⦄ ⦃s s' : Solver⦄, r.Le q → LookAlike q s s' →
    Matched (fun a t b t' => ∃ q', Grows q s s' q' t t' ∧ R q' a b) (x s) (x' s')

/-- Two computations that give the same. -/
abbrev AgreeOn (r : Pairing) (x x' : Inference α) : Prop :=
  Agree r x x' fun _ a b => a = b

namespace Agree

variable {r : Pairing} {R : Pairing → α → β → Prop} {R' : Pairing → γ → δ → Prop}

theorem pure {a : α} {b : β} (related : ∀ {q : Pairing}, r.Le q → R q a b) :
    Agree r (Pure.pure a) (Pure.pure b) R :=
  fun _ _ _ le alike => .ok ⟨_, .refl alike, related le⟩

theorem bind {x : Inference α} {x' : Inference β} {f : α → Inference γ} {f' : β → Inference δ}
    (first : Agree r x x' R)
    (next : ∀ {q : Pairing} {a : α} {b : β}, r.Le q → R q a b → Agree q (f a) (f' b) R') :
    Agree r (x >>= f) (x' >>= f') R' := by
  intro q s s' le alike
  refine (first le alike).bind ?_
  rintro a b t t' ⟨q', grows, related⟩
  refine (next (le.trans grows.old) related (.refl _) grows.alike).imp ?_
  rintro c d u u' ⟨q'', grows', related'⟩
  exact ⟨q'', grows.trans grows', related'⟩

theorem get_bind {f f' : Solver → Inference α} {Q : Pairing → α → α → Prop}
    (next : ∀ {q : Pairing} {s s' : Solver}, r.Le q → LookAlike q s s' → Agree q (f s) (f' s') Q) :
    Agree r (get >>= f) (get >>= f') Q :=
  fun _ _ _ le alike => next le alike (.refl _) alike

theorem known? {a a' : Nat} (onSlot : r a a') :
    AgreeOn r (Inference.known? a) (Inference.known? a') :=
  .get_bind fun le alike => .pure fun _ => alike.known?_eq (le onSlot)

theorem fail (a a' : Nat) (fault fault' : TypeFault) :
    Agree r (Inference.fail a fault) (Inference.fail a' fault') R :=
  fun _ _ _ _ _ => .error

theorem learn (catalog : Catalog) {tasks tasks' : List Task}
    (paired : Task.PairedAll r tasks tasks') :
    AgreeOn r (Inference.learn catalog tasks) (Inference.learn catalog tasks') := by
  intro q s s' le alike
  have narrowed := narrow_matched catalog alike (paired.imp fun _ _ one => one.mono le)
  unfold Inference.learn
  generalize s.narrow catalog tasks = n, s'.narrow catalog tasks' = n' at narrowed
  cases narrowed with
  | ok grows => exact .ok ⟨q, grows, rfl⟩
  | error => exact .error

theorem fresh {a a' : Nat} (like : r a a') {b b' : Belief}
    (believed : ∀ {q : Pairing}, r.Le q → b.Paired q b') :
    Agree r (Inference.fresh a b) (Inference.fresh a' b') fun q c c' => q c c' :=
  fun _ _ _ le alike => .ok ⟨_, .fresh alike (le like) (believed le), .inr ⟨rfl, rfl⟩⟩

theorem ask (resolver : Resolver) (request : Request) :
    AgreeOn r (Inference.ask resolver request) (Inference.ask resolver request) :=
  fun _ s s' _ alike => .ok ⟨_, .intact alike (.asked s _) (.asked s' _) rfl rfl, rfl⟩

theorem record {a a' : Nat} (paired : r a a') (notRoot : a ≠ 0) (notRoot' : a' ≠ 0)
    (o : Overload) : AgreeOn r (modify (·.setOverload a o) : Inference PUnit)
      (modify (·.setOverload a' o)) :=
  fun _ _ _ le alike => .ok ⟨_, .setOverload alike (le paired) notRoot notRoot' o, rfl⟩

theorem freshSlots {a a' : Nat} (like : r a a') (n : Nat) :
    Agree r (Inference.freshSlots a n) (Inference.freshSlots a' n) fun q => List.Forall₂ q := by
  induction n generalizing r with
  | zero => exact .pure fun _ => .nil
  | succ n ih =>
    refine .bind (.fresh like fun _ => .unknown .nil) fun le first => ?_
    refine .bind (ih (le like)) fun le' rest => ?_
    exact .pure fun le'' => .cons (le'' (le' first)) (rest.imp fun _ _ paired => le'' paired)

end Agree

/-! Signatures. -/

section

variable (catalog : Catalog)

theorem forall₂_getElem? {r : Pairing} {as as' : List Nat} (paired : List.Forall₂ r as as')
    (i : Nat) : Option.Rel r as[i]? as'[i]? := by
  induction paired generalizing i with
  | nil => exact .none
  | cons first _ ih => cases i with
    | zero => exact .some first
    | succ i => exact ih i

/-- A part of an unknown type is a new slot that a constraint ties to the whole. -/
theorem unknown_part_agree {r : Pairing} {slot slot' : Nat} (onSlot : r slot slot')
    {constraint : Nat → Constraint}
    (paired : ∀ {q : Pairing} {a a' : Nat}, q a a' → (constraint a).Paired q (constraint a'))
    {f f' : Nat → Inference Unit}
    (next : ∀ {q : Pairing} {a a' : Nat}, r.Le q → q a a' → AgreeOn q (f a) (f' a')) :
    AgreeOn r
      (do
        let inner ← fresh slot (.unknown [])
        learn catalog [.constrain slot (constraint inner)]
        f inner)
      (do
        let inner ← fresh slot' (.unknown [])
        learn catalog [.constrain slot' (constraint inner)]
        f' inner) := by
  refine .bind (.fresh onSlot fun _ => .unknown .nil) fun le inner => ?_
  refine .bind (.learn catalog (.cons (.constrain (le onSlot) (paired inner)) .nil)) fun le' _ => ?_
  exact next (le.trans le') (le' inner)

mutual
theorem applyShape_agree : ∀ (shape : Shape) {r : Pairing} {generics generics' : List Nat}
    {slot slot' : Nat} (flow : Flow), List.Forall₂ r generics generics' → r slot slot' →
    AgreeOn r (applyShape catalog generics shape slot flow)
      (applyShape catalog generics' shape slot' flow)
  | .concrete ty, r, generics, generics', slot, slot', flow, onGenerics, onSlot => by
    simp only [applyShape]
    exact .learn catalog (.cons (.expect onSlot ty flow) .nil)
  | .generic index arithmetic, r, generics, generics', slot, slot', flow, onGenerics, onSlot => by
    simp only [applyShape]
    have found := forall₂_getElem? onGenerics index
    generalize generics[index]? = generic, generics'[index]? = generic' at found
    cases found with
    | none => exact .pure fun _ => rfl
    | some onGeneric =>
      cases arithmetic with
      | true =>
        refine .bind (.learn catalog (.cons (.constrain onGeneric .arithmetic) .nil)) fun le _ => ?_
        exact .learn catalog (.cons (.unify (le onSlot) (le onGeneric)) .nil)
      | false => exact .learn catalog (.cons (.unify onSlot onGeneric) .nil)
  | .enumerable element, r, generics, generics', slot, slot', flow, onGenerics, onSlot => by
    have inside {q : Pairing} {a a' : Nat} (le : r.Le q) (onPart : q a a') :=
      applyShape_agree element .exact (onGenerics.imp le) onPart
    simp only [applyShape]
    refine .bind (.known? onSlot) ?_
    rintro q found _ le rfl
    split
    · split
      · exact .bind (.fresh (le onSlot) fun _ => .known _) fun le' onPart =>
          inside (le.trans le') onPart
      · exact .fail ..
    · exact unknown_part_agree catalog (le onSlot) .enumerableOf fun le' onPart =>
        inside (le.trans le') onPart
  | .array element, r, generics, generics', slot, slot', flow, onGenerics, onSlot => by
    have inside {q : Pairing} {a a' : Nat} (le : r.Le q) (onPart : q a a') :=
      applyShape_agree element .exact (onGenerics.imp le) onPart
    simp only [applyShape]
    refine .bind (.known? onSlot) ?_
    rintro q found _ le rfl
    split
    · exact .bind (.fresh (le onSlot) fun _ => .known _) fun le' onPart =>
        inside (le.trans le') onPart
    · exact .fail ..
    · exact unknown_part_agree catalog (le onSlot) .arrayOf fun le' onPart =>
        inside (le.trans le') onPart
  | .optional shape, r, generics, generics', slot, slot', flow, onGenerics, onSlot => by
    have inside {q : Pairing} {a a' : Nat} (flow : Flow) (le : r.Le q) (onPart : q a a') :=
      applyShape_agree shape flow (onGenerics.imp le) onPart
    simp only [applyShape]
    refine .bind (.known? onSlot) ?_
    rintro q found _ le rfl
    split
    · exact .bind (.fresh (le onSlot) fun _ => .known _) fun le' onPart =>
        inside .exact (le.trans le') onPart
    · exact inside flow le (le onSlot)
    · exact unknown_part_agree catalog (le onSlot) .optionalOf fun le' onPart =>
        inside .exact (le.trans le') onPart
  | .lambda params result, r, generics, generics', slot, slot', flow, onGenerics, onSlot => by
    have inside {q : Pairing} {a a' : Nat} (le : r.Le q) (onPart : q a a') :=
      applyShape_agree result .exact (onGenerics.imp le) onPart
    simp only [applyShape]
    refine .bind (.known? onSlot) ?_
    rintro q found _ le rfl
    split
    · split
      · refine .bind (applyTypes_agree params _ (onGenerics.imp le) (le onSlot)) fun le' _ => ?_
        exact .bind (.fresh (le' (le onSlot)) fun _ => .known _) fun le'' onPart =>
          inside ((le.trans le').trans le'') onPart
      · exact .fail ..
    · exact .fail ..
    · refine .bind (.freshSlots (le onSlot) params.length) fun le' onSlots => ?_
      refine .bind (.fresh (le' (le onSlot)) fun _ => .unknown .nil) fun le'' onInner => ?_
      have onSlots' := onSlots.imp le''
      have onWhole := le'' (le' (le onSlot))
      refine .bind (.learn catalog (.cons (.constrain onWhole (.lambda onSlots' onInner)) .nil))
        fun le₃ _ => ?_
      have old := ((le.trans le').trans le'').trans le₃
      refine .bind (applySlots_agree params (onGenerics.imp old) (onSlots'.imp le₃)) fun le₄ _ => ?_
      exact inside (old.trans le₄) (le₄ (le₃ onInner))

theorem applyTypes_agree : ∀ (shapes : List Shape) (types : List Ty) {r : Pairing}
    {generics generics' : List Nat} {like like' : Nat}, List.Forall₂ r generics generics' →
    r like like' → AgreeOn r (applyTypes catalog generics shapes types like)
      (applyTypes catalog generics' shapes types like')
  | [], _, _, _, _, _, _, _, _ => by
    simp only [applyTypes]
    exact .pure fun _ => rfl
  | _ :: _, [], _, _, _, _, _, _, _ => by
    simp only [applyTypes]
    exact .pure fun _ => rfl
  | shape :: shapes, ty :: types, _, _, _, _, _, onGenerics, onLike => by
    simp only [applyTypes]
    refine .bind (.fresh onLike fun _ => .known ty) fun le onPart => ?_
    refine .bind (applyShape_agree shape .exact (onGenerics.imp le) onPart) fun le' _ => ?_
    exact applyTypes_agree shapes types (onGenerics.imp (le.trans le')) (le' (le onLike))

theorem applySlots_agree : ∀ (shapes : List Shape) {r : Pairing}
    {generics generics' slots slots' : List Nat}, List.Forall₂ r generics generics' →
    List.Forall₂ r slots slots' → AgreeOn r (applySlots catalog generics shapes slots)
      (applySlots catalog generics' shapes slots')
  | [], _, _, _, _, _, _, _ => by
    simp only [applySlots]
    exact .pure fun _ => rfl
  | _ :: _, _, _, _, _, _, _, .nil => by
    simp only [applySlots]
    exact .pure fun _ => rfl
  | shape :: shapes, _, _, _, _, _, onGenerics, .cons first rest => by
    simp only [applySlots]
    exact .bind (applyShape_agree shape .exact onGenerics first) fun le _ =>
      applySlots_agree shapes (onGenerics.imp le) (rest.imp le)
end

theorem applyArgs_agree (shapes : List Shape) {r : Pairing}
    {generics generics' slots slots' : List Nat} (onGenerics : List.Forall₂ r generics generics')
    (onSlots : List.Forall₂ r slots slots') :
    AgreeOn r (applyArgs catalog generics shapes slots)
      (applyArgs catalog generics' shapes slots') := by
  induction shapes generalizing r slots slots' with
  | nil => exact .pure fun _ => rfl
  | cons shape shapes ih => cases onSlots with
    | nil => exact .pure fun _ => rfl
    | cons first rest =>
      exact .bind (applyShape_agree catalog shape .into onGenerics first) fun le _ =>
        ih (onGenerics.imp le) (rest.imp le)

theorem applyOverload_agree {r : Pairing} {slot slot' : Nat} (onSlot : r slot slot')
    (notRoot : slot ≠ 0) (notRoot' : slot' ≠ 0) (o : Overload) {args args' : List Nat}
    (onArgs : List.Forall₂ r args args') :
    AgreeOn r (applyOverload catalog slot o args) (applyOverload catalog slot' o args') := by
  refine .bind (.freshSlots onSlot o.genericCount) fun le onGenerics => ?_
  refine .bind (applyArgs_agree catalog o.params onGenerics (onArgs.imp le)) fun le' _ => ?_
  refine .bind (applyShape_agree catalog o.result .outOf (onGenerics.imp le') (le' (le onSlot)))
    fun le'' _ => ?_
  exact .record (le'' (le' (le onSlot))) notRoot notRoot' o

/-! The items of work. -/

variable (resolver : Resolver) {r : Pairing}

theorem askMember_agree (ty : Ty) (name : String) (h : Hint) :
    AgreeOn r (askMember resolver ty name h) (askMember resolver ty name h) := by
  refine .bind (.ask resolver _) ?_
  rintro q found _ le rfl
  cases found with
  | some o => exact .pure fun _ => rfl
  | none => exact .ask resolver _

theorem attemptMember_agree {slot slot' receiver receiver' : Nat} (onSlot : r slot slot')
    (notRoot : slot ≠ 0) (notRoot' : slot' ≠ 0) (onReceiver : r receiver receiver')
    (name : String) : AgreeOn r (attemptMember catalog resolver slot receiver name)
      (attemptMember catalog resolver slot' receiver' name) := by
  refine .get_bind fun le alike => ?_
  simp only [alike.known?_eq (le onReceiver), alike.hint_eq (le onSlot)]
  split
  · refine .bind (.learn catalog ?_) fun _ _ => .pure fun _ => rfl
    exact .cons (.constrain (le onReceiver) (.property name (le onSlot))) .nil
  · refine .bind (askMember_agree resolver _ name _) ?_
    rintro q found _ le' rfl
    cases found with
    | none => exact .fail ..
    | some o =>
      refine .bind (applyOverload_agree catalog (le' (le onSlot)) notRoot notRoot' o ?_)
        fun _ _ => .pure fun _ => rfl
      exact .cons (le' (le onReceiver)) .nil

section

variable {slot slot' left left' right right' : Nat} (onSlot : r slot slot') (onLeft : r left left')
  (onRight : r right right')

include onLeft onRight

theorem operands_agree (op : Operator) : AgreeOn r (operands catalog slot op left right)
    (operands catalog slot' op left' right') := by
  refine .get_bind fun le alike => ?_
  simp only [alike.known?_eq (le onLeft), alike.known?_eq (le onRight),
    alike.presettable_eq (le onLeft), alike.presettable_eq (le onRight)]
  split
  · split
    · exact .fail ..
    · exact .pure fun _ => rfl
  · split
    · exact .bind (.learn catalog (.cons (.assign (le onRight) _) .nil))
        fun _ _ => .pure fun _ => rfl
    · exact .pure fun _ => rfl
  · split
    · exact .bind (.learn catalog (.cons (.assign (le onLeft) _) .nil))
        fun _ _ => .pure fun _ => rfl
    · exact .pure fun _ => rfl
  · exact .pure fun _ => rfl

include onSlot

theorem numbersOnly_agree (op : Operator) : AgreeOn r (numbersOnly catalog op slot left right)
    (numbersOnly catalog op slot' left' right') := by
  unfold numbersOnly
  split
  · exact .pure fun _ => rfl
  · exact .learn catalog (.cons (.constrain onLeft .arithmetic)
      (.cons (.constrain onRight .arithmetic) (.cons (.constrain onSlot .arithmetic) .nil)))

theorem arithmeticResult_agree : AgreeOn r (arithmeticResult catalog slot left right)
    (arithmeticResult catalog slot' left' right') := by
  refine .get_bind fun le alike => ?_
  simp only [alike.known?_eq (le onLeft), alike.known?_eq (le onRight)]
  split
  · split
    · exact .bind (.learn catalog (.cons (.expect (le onSlot) _ .outOf) .nil))
        fun _ _ => .pure fun _ => rfl
    · exact .pure fun _ => rfl
  · exact .pure fun _ => rfl

theorem presetOperands_agree : AgreeOn r (presetOperands catalog slot left right)
    (presetOperands catalog slot' left' right') := by
  refine .get_bind fun le alike => ?_
  simp only [alike.known?_eq (le onSlot), alike.presettable_eq (le onLeft),
    alike.presettable_eq (le onRight)]
  split
  · split
    · exact .bind (.learn catalog (.cons (.assign (le onLeft) _)
        (.cons (.assign (le onRight) _) .nil))) fun _ _ => .pure fun _ => rfl
    · exact .pure fun _ => rfl
  · exact .pure fun _ => rfl

theorem attemptBinary_agree (op : Operator) : AgreeOn r (attemptBinary catalog slot op left right)
    (attemptBinary catalog slot' op left' right') := by
  unfold attemptBinary
  split
  · refine .bind (.learn catalog ?_) fun _ _ => .pure fun _ => rfl
    exact .cons (.expect onLeft .bool .into) (.cons (.expect onRight .bool .into)
      (.cons (.expect onSlot .bool .outOf) .nil))
  · exact .bind (.learn catalog (.cons (.expect onSlot .bool .outOf) .nil))
      fun le _ => operands_agree catalog (le onLeft) (le onRight) op
  · exact .bind (.learn catalog (.cons (.expect onSlot .bool .outOf) .nil))
      fun le _ => operands_agree catalog (le onLeft) (le onRight) op
  · refine .bind (numbersOnly_agree catalog onSlot onLeft onRight op) fun le _ => ?_
    refine .bind (operands_agree catalog (le onLeft) (le onRight) op) ?_
    rintro q ready _ le' rfl
    have older := le.trans le'
    split
    · exact arithmeticResult_agree catalog (older onSlot) (older onLeft) (older onRight)
    · refine .bind (presetOperands_agree catalog (older onSlot) (older onLeft) (older onRight)) ?_
      rintro q preset _ le'' rfl
      have old := older.trans le''
      split
      · refine .bind (numbersOnly_agree catalog (old onSlot) (old onLeft) (old onRight) op)
          fun le₃ _ => ?_
        refine .bind (operands_agree catalog (le₃ (old onLeft)) (le₃ (old onRight)) op) ?_
        rintro q ready' _ le₄ rfl
        split
        · exact arithmeticResult_agree catalog (le₄ (le₃ (old onSlot))) (le₄ (le₃ (old onLeft)))
            (le₄ (le₃ (old onRight)))
        · exact .pure fun _ => rfl
      · exact .pure fun _ => rfl

end

theorem attemptCall_agree {slot slot' : Nat} (onSlot : r slot slot') (notRoot : slot ≠ 0)
    (notRoot' : slot' ≠ 0) (name : String) {args args' : List Nat}
    (onArgs : List.Forall₂ r args args') : AgreeOn r (attemptCall catalog resolver slot name args)
      (attemptCall catalog resolver slot' name args') := by
  refine .get_bind fun le alike => ?_
  have sameArgs := List.forall₂_eq_eq_eq ▸ List.forall₂_map_left_iff.2
    (List.forall₂_map_right_iff.2 (onArgs.imp fun _ _ paired => alike.hint_eq (le paired)))
  simp only [callRequest, sameArgs, alike.hint_eq (le onSlot)]
  refine .bind (.ask resolver _) ?_
  rintro q found _ le' rfl
  cases found with
  | none => exact .pure fun _ => rfl
  | some o =>
    exact .bind (applyOverload_agree catalog (le' (le onSlot)) notRoot notRoot' o
      (onArgs.imp (le.trans le'))) fun _ _ => .pure fun _ => rfl

theorem attempt_agree {item item' : Item} (paired : item.Paired r item') :
    AgreeOn r (attempt catalog resolver item) (attempt catalog resolver item') := by
  cases paired with
  | member onSlot notRoot notRoot' onReceiver name =>
    exact attemptMember_agree catalog resolver onSlot notRoot notRoot' onReceiver name
  | binary onSlot op onLeft onRight => exact attemptBinary_agree catalog onSlot onLeft onRight op
  | call onSlot notRoot notRoot' name onArgs =>
    exact attemptCall_agree catalog resolver onSlot notRoot notRoot' name onArgs

/-- Trying the same items leaves the same items. -/
theorem attemptAll_agree {items items' : List Item}
    (paired : List.Forall₂ (Item.Paired r) items items') :
    Agree r (attemptAll catalog resolver items) (attemptAll catalog resolver items')
      fun q => List.Forall₂ (Item.Paired q) := by
  induction items generalizing r items' with
  | nil =>
    cases paired
    exact .pure fun _ => .nil
  | cons item rest ih => cases paired with
    | cons first others =>
      refine .bind (attempt_agree catalog resolver first) ?_
      rintro q done _ le rfl
      refine .bind (ih (others.imp fun _ _ paired => paired.mono le)) fun le' left => ?_
      have kept {q : Pairing} (le'' : Pairing.Le _ q) := left.imp fun _ _ paired => paired.mono le''
      cases done with
      | true => exact .pure kept
      | false => exact .pure fun le'' => .cons (first.mono ((le.trans le').trans le'')) (kept le'')

end

end Inference

end LambdaQuery
