import LambdaQuery.Proofs.Inference.Signatures

/-!
# What doing an item means

An item that is done has left its mark on every model: the types at an operator go together, and a
member or a call stands for an overload whose signature the types meet.
-/

namespace LambdaQuery

section

variable {known other : Ty}

@[simp] theorem Flow.fault?_into : Flow.into.fault? known other = none ↔ other.assignable known := by
  simp [fault?]

@[simp] theorem Flow.fault?_outOf :
    Flow.outOf.fault? known other = none ↔ known.assignable other := by
  simp [fault?]

end

/-- Operators that compare their operands. -/
def Operator.Compares (op : Operator) : Prop :=
  op.kind = .equality ∨ op.kind = .ordering

/-- The types at an operator go together. -/
def Operator.Holds (op : Operator) (σ : Valuation) (slot left right : Nat) : Prop :=
  match op.kind with
  | .logical => (∃ ty, σ left = some ty ∧ Ty.bool.assignable ty) ∧
      (∃ ty, σ right = some ty ∧ Ty.bool.assignable ty) ∧ ∃ ty, σ slot = some ty ∧ ty.assignable .bool
  | .equality | .ordering => ∃ ty, σ slot = some ty ∧ ty.assignable .bool
  | .arithmetic => ∃ l r common ty, σ left = some l ∧ σ right = some r ∧
      l.common? r = some common ∧ σ slot = some ty ∧ ty.assignable common

/-- What a resolver offers has types of a kind if the known arguments have, and as many parameters
as there are arguments. -/
structure Resolver.Respects (P : Ty → Prop) (resolver : Resolver) : Prop where
  within : ∀ {r : Request} {o : Overload}, (∀ ty, .known ty ∈ r.args → P ty) →
    resolver.resolve? r = some o → o.Within P
  arity : ∀ {r : Request} {o : Overload}, resolver.resolve? r = some o →
    o.params.length = r.args.length

namespace Item

def slot : Item → Nat
  | member slot .. | binary slot .. | call slot .. => slot

/-- The slots that an item depends on. -/
def operands : Item → List Nat
  | member _ receiver _ => [receiver]
  | binary _ _ left right => [left, right]
  | call _ _ args => args

/-- The slots that an item speaks of. -/
def slots (item : Item) : List Nat :=
  item.slot :: item.operands

/-- A request is about a name and arguments: what it says of their types is so. -/
structure Requests (s : Solver) (r : Request) (site : Site) (name : String) (args : List Nat) :
    Prop where
  name : r.name = name
  site : r.site = site
  arity : r.args.length = args.length
  known : ∀ p ∈ r.args.zip args, ∀ ty, p.1 = .known ty → s.known? p.2 = some ty

/-- A node stands for an overload that a resolver found for its name, and the types meet the
signature. -/
def Resolved (catalog : Catalog) (resolver : Resolver) (s : Solver) (site : Site) (name : String)
    (slot : Nat) (args : List Nat) : Prop :=
  ∃ o r, s.overload? slot = some o ∧ resolver.resolve? r = some o ∧
    Requests s r site name args ∧ ∀ σ, s.Models catalog σ → o.Meets σ args slot

/-- What is so once an item is done. -/
def Done (catalog : Catalog) (resolver : Resolver) (s : Solver) : Item → Prop
  | member slot receiver name => Resolved catalog resolver s .member name slot [receiver]
  | call slot name args => Resolved catalog resolver s .call name slot args
  | binary slot op left right => ∀ σ, s.Models catalog σ → op.Holds σ slot left right

variable {catalog : Catalog} {P : Ty → Prop} {resolver : Resolver} {s s' : Solver}

theorem Requests.grown {r : Request} {site : Site} {name : String} {args : List Nat}
    (h : Requests s r site name args) (grown : s.Grown catalog P s') :
    Requests s' r site name args :=
  ⟨h.name, h.site, h.arity, fun p mem ty isKnown => grown.known? (h.known p mem ty isKnown)⟩

/-- What is done stays done. -/
theorem Done.grown {item : Item} (h : item.Done catalog resolver s)
    (grown : s.Grown catalog P s') (kept : s'.overload? item.slot = s.overload? item.slot) :
    item.Done catalog resolver s' := by
  have resolved {site : Site} {name : String} {slot : Nat} {args : List Nat}
      (same : s'.overload? slot = s.overload? slot)
      (h : Resolved catalog resolver s site name slot args) :
      Resolved catalog resolver s' site name slot args := by
    obtain ⟨o, r, recorded, found, requests, meets⟩ := h
    exact ⟨o, r, same ▸ recorded, found, requests.grown grown, fun σ m => meets σ (grown.models m)⟩
  cases item with
  | member slot receiver name => exact resolved kept h
  | call slot name args => exact resolved kept h
  | binary slot op left right => exact fun σ m => h σ (grown.models m)

end Item

namespace Inference

open Solver

variable {catalog : Catalog} {P : Ty → Prop} {s s' : Solver} {slot left right : Nat}

/-! Operators. -/

section

theorem operands_learnt (closed : catalog.Closed P) {op : Operator} {ready : Bool} (v : s.Valid P)
    (leftLt : left < s.cells.size) (rightLt : right < s.cells.size)
    (h : operands catalog slot op left right s = .ok ready s') :
    Learnt catalog P s s' fun _ => True := by
  obtain ⟨_, _, got, h⟩ := bind_ok h
  obtain ⟨rfl, rfl⟩ := get_ok got
  have assigned {target : Nat} {ty : Ty} {t : Solver} {u : Unit} (lt : target < s.cells.size) (proper : P ty)
      (h : learn catalog [.assign target ty] s = .ok u t) : Learnt catalog P s t fun _ => True :=
    (learn_learnt closed v (by simpa [Task.Within] using ⟨lt, proper⟩) h).mono (by simp)
  cases knownLeft : s.known? left with
  | some l =>
    cases knownRight : s.known? right with
    | some r =>
      simp only [knownLeft, knownRight] at h
      split at h
      · exact absurd h fail_ne_ok
      · rw [← (pure_ok h).2]
        exact .refl v
    | none =>
      simp only [knownLeft, knownRight] at h
      split at h
      · obtain ⟨_, t, learnt, h⟩ := bind_ok h
        rw [← (pure_ok h).2]
        exact assigned rightLt (v.known? knownLeft) learnt
      · rw [← (pure_ok h).2]
        exact .refl v
  | none =>
    cases knownRight : s.known? right with
    | some r =>
      simp only [knownLeft, knownRight] at h
      split at h
      · obtain ⟨_, t, learnt, h⟩ := bind_ok h
        rw [← (pure_ok h).2]
        exact assigned leftLt (v.known? knownRight) learnt
      · rw [← (pure_ok h).2]
        exact .refl v
    | none =>
      simp only [knownLeft, knownRight] at h
      rw [← (pure_ok h).2]
      exact .refl v

theorem numbersOnly_learnt (closed : catalog.Closed P) {op : Operator} {u : Unit} (v : s.Valid P)
    (slotLt : slot < s.cells.size) (leftLt : left < s.cells.size) (rightLt : right < s.cells.size)
    (h : numbersOnly catalog op slot left right s = .ok u s') :
    Learnt catalog P s s' fun _ => True := by
  unfold numbersOnly at h
  split at h
  · rw [← (pure_ok h).2]
    exact .refl v
  · refine (learn_learnt closed v ?_ h).mono (by simp)
    simp [Task.Within, Constraint.components, slotLt, leftLt, rightLt]

theorem presetOperands_learnt (closed : catalog.Closed P) {preset : Bool} (v : s.Valid P)
    (leftLt : left < s.cells.size) (rightLt : right < s.cells.size)
    (h : presetOperands catalog slot left right s = .ok preset s') :
    Learnt catalog P s s' fun _ => True := by
  obtain ⟨_, _, got, h⟩ := bind_ok h
  obtain ⟨rfl, rfl⟩ := get_ok got
  cases known : s.known? slot with
  | none =>
    simp only [known] at h
    rw [← (pure_ok h).2]
    exact .refl v
  | some ty =>
    simp only [known] at h
    split at h
    · obtain ⟨_, t, learnt, h⟩ := bind_ok h
      rw [← (pure_ok h).2]
      refine (learn_learnt closed v ?_ learnt).mono (by simp)
      simp [Task.Within, leftLt, rightLt, v.known? known]
    · rw [← (pure_ok h).2]
      exact .refl v

theorem arithmeticResult_learnt (closed : catalog.Closed P) {op : Operator} {done : Bool}
    (isArithmetic : op.kind = .arithmetic) (v : s.Valid P) (slotLt : slot < s.cells.size)
    (h : arithmeticResult catalog slot left right s = .ok done s') :
    Learnt catalog P s s' fun σ => done = true → op.Holds σ slot left right := by
  obtain ⟨_, _, got, h⟩ := bind_ok h
  obtain ⟨rfl, rfl⟩ := get_ok got
  have notDone (h : (Pure.pure false : Inference Bool) s = .ok done s') :
      Learnt catalog P s s' fun σ => done = true → op.Holds σ slot left right := by
    obtain ⟨rfl, rfl⟩ := pure_ok h
    exact (Learnt.refl v).mono (by simp)
  cases knownLeft : s.known? left with
  | none =>
    simp only [knownLeft] at h
    exact notDone h
  | some l =>
    cases knownRight : s.known? right with
    | none =>
      simp only [knownLeft, knownRight] at h
      exact notDone h
    | some r =>
      simp only [knownLeft, knownRight] at h
      cases common : l.common? r with
      | none =>
        simp only [common] at h
        exact notDone h
      | some ty =>
        simp only [common] at h
        obtain ⟨_, t, learnt, h⟩ := bind_ok h
        obtain ⟨rfl, rfl⟩ := pure_ok h
        have proper : P ty := closed.common (v.known? knownLeft) (v.known? knownRight) common
        refine (learn_learnt closed v (by simpa [Task.Within] using ⟨slotLt, proper⟩) learnt).mono ?_
        intro σ m holds _
        obtain ⟨given, has, fits⟩ := holds (.expect slot ty .outOf) (by simp)
        simp only [Operator.Holds, isArithmetic]
        exact ⟨l, r, ty, given, m.eq_some knownLeft, m.eq_some knownRight, common, has,
          Flow.fault?_outOf.1 fits⟩

theorem attemptBinary_learnt (closed : catalog.Closed P) {op : Operator} {done : Bool}
    (v : s.Valid P) (slotLt : slot < s.cells.size) (leftLt : left < s.cells.size)
    (rightLt : right < s.cells.size)
    (h : attemptBinary catalog slot op left right s = .ok done s') :
    Learnt catalog P s s' fun σ => done = true ∨ op.Compares → op.Holds σ slot left right := by
  -- An operator that compares asks for a truth value before it looks at its operands.
  have compares {t : Solver} {u : Unit} (isTruth : op.Compares)
      (learnt : learn catalog [.expect slot .bool .outOf] s = .ok u t)
      (h : operands catalog slot op left right t = .ok done s') :
      Learnt catalog P s s' fun σ => done = true ∨ op.Compares → op.Holds σ slot left right := by
    have first := learn_learnt closed v (by simpa [Task.Within] using ⟨slotLt, closed.bool⟩) learnt
    have second := operands_learnt closed first.valid (Nat.lt_of_lt_of_le leftLt first.size)
      (Nat.lt_of_lt_of_le rightLt first.size) h
    refine (first.trans second).mono ?_
    rintro σ _ ⟨holds, _⟩ _
    obtain ⟨ty, has, fits⟩ := holds (.expect slot .bool .outOf) (by simp)
    rcases isTruth with kind | kind <;>
      simpa [Operator.Holds, kind] using ⟨ty, has, Flow.fault?_outOf.1 fits⟩
  unfold attemptBinary at h
  cases kind : op.kind with
  | logical =>
    simp only [kind] at h
    obtain ⟨_, t, learnt, h⟩ := bind_ok h
    rw [← (pure_ok h).2]
    refine (learn_learnt closed v ?_ learnt).mono ?_
    · simp [Task.Within, slotLt, leftLt, rightLt, closed.bool]
    · intro σ _ holds _
      obtain ⟨l, hasLeft, fitsLeft⟩ := holds (.expect left .bool .into) (by simp)
      obtain ⟨r, hasRight, fitsRight⟩ := holds (.expect right .bool .into) (by simp)
      obtain ⟨ty, has, fits⟩ := holds (.expect slot .bool .outOf) (by simp)
      simp only [Operator.Holds, kind]
      exact ⟨⟨l, hasLeft, Flow.fault?_into.1 fitsLeft⟩, ⟨r, hasRight, Flow.fault?_into.1 fitsRight⟩,
        ty, has, Flow.fault?_outOf.1 fits⟩
  | equality =>
    simp only [kind] at h
    obtain ⟨_, t, learnt, h⟩ := bind_ok h
    exact compares (.inl kind) learnt h
  | ordering =>
    simp only [kind] at h
    obtain ⟨_, t, learnt, h⟩ := bind_ok h
    exact compares (.inr kind) learnt h
  | arithmetic =>
    simp only [kind] at h
    have notDone {t : Solver} (sofar : Learnt catalog P s t fun _ => True)
        (h : (Pure.pure false : Inference Bool) t = .ok done s') :
        Learnt catalog P s s' fun σ => done = true ∨ op.Compares → op.Holds σ slot left right := by
      obtain ⟨rfl, rfl⟩ := pure_ok h
      exact sofar.mono (by simp [Operator.Compares, kind])
    -- Whatever was learnt on the way, numbers and operands are looked at in the same way.
    have ready {t t' : Solver} {u : Unit} {both : Bool} (sofar : Learnt catalog P s t fun _ => True)
        (numbers : numbersOnly catalog op slot left right t = .ok u t') {t'' : Solver}
        (looked : operands catalog slot op left right t' = .ok both t'') :
        Learnt catalog P s t'' fun _ => True := by
      have first := numbersOnly_learnt closed sofar.valid (Nat.lt_of_lt_of_le slotLt sofar.size)
        (Nat.lt_of_lt_of_le leftLt sofar.size) (Nat.lt_of_lt_of_le rightLt sofar.size) numbers
      have sofar' := (sofar.trans first).mono (R := fun _ => True) (by simp)
      have second := operands_learnt closed sofar'.valid (Nat.lt_of_lt_of_le leftLt sofar'.size)
        (Nat.lt_of_lt_of_le rightLt sofar'.size) looked
      exact (sofar'.trans second).mono (by simp)
    have finish {t : Solver} (sofar : Learnt catalog P s t fun _ => True)
        (h : arithmeticResult catalog slot left right t = .ok done s') :
        Learnt catalog P s s' fun σ => done = true ∨ op.Compares → op.Holds σ slot left right :=
      (sofar.trans (arithmeticResult_learnt closed kind sofar.valid
        (Nat.lt_of_lt_of_le slotLt sofar.size) h)).mono (by simp [Operator.Compares, kind])
    obtain ⟨_, t₁, numbers, h⟩ := bind_ok h
    obtain ⟨both, t₂, looked, h⟩ := bind_ok h
    have sofar := ready (.refl v) numbers looked
    cases both with
    | true => exact finish sofar h
    | false =>
      obtain ⟨preset, t₃, presetting, h⟩ := bind_ok h
      have sofar' := (sofar.trans (presetOperands_learnt closed sofar.valid
        (Nat.lt_of_lt_of_le leftLt sofar.size) (Nat.lt_of_lt_of_le rightLt sofar.size)
        presetting)).mono (R := fun _ => True) (by simp)
      cases preset with
      | true =>
        obtain ⟨_, t₄, numbers, h⟩ := bind_ok h
        obtain ⟨both, t₅, looked, h⟩ := bind_ok h
        have sofar'' := ready sofar' numbers looked
        cases both with
        | true => exact finish sofar'' h
        | false => exact notDone sofar'' h
      | false => exact notDone sofar' h

end

/-! Members and calls. -/

section

variable {resolver : Resolver}

/-- Asking changes nothing but the record of what was asked. -/
theorem ask_learnt (catalog : Catalog) {r : Request} {answer : Option Overload} (v : s.Valid P)
    (h : ask resolver r s = .ok answer s') :
    Learnt catalog P s s' (fun _ => True) ∧ answer = resolver.resolve? r := by
  have asked : EStateM.Result.ok (resolver.resolve? r) { s with asked := r :: s.asked } =
      .ok answer s' := h
  cases asked
  exact ⟨⟨⟨⟨v.leads, v.beliefs⟩, Nat.le_refl _, fun m => ⟨m.classes, m.beliefs⟩⟩,
    fun _ => rfl, fun _ => trivial⟩, rfl⟩

/-- A member is asked for with its receiver as only argument. -/
theorem askMember_ok {ty : Ty} {name : String} {result : Hint} {o : Overload} (v : s.Valid P)
    (h : askMember resolver ty name result s = .ok (some o) s') :
    Learnt catalog P s s' (fun _ => True) ∧
      ∃ hint, resolver.resolve? ⟨name, .member, [.known ty], hint⟩ = some o := by
  obtain ⟨answer, t, asked, h⟩ := bind_ok h
  obtain ⟨first, isAnswer⟩ := ask_learnt catalog v asked
  cases answer with
  | some o' =>
    obtain ⟨same, rfl⟩ := pure_ok h
    cases same
    exact ⟨first, result, isAnswer.symm⟩
  | none =>
    obtain ⟨second, isAnswer⟩ := ask_learnt catalog first.valid h
    exact ⟨(first.trans second).mono (by simp), .nothing, isAnswer.symm⟩

/-- An overload that was found is taken. -/
theorem resolved_of_applyOverload (closed : catalog.Closed P) (respects : resolver.Respects P)
    {t : Solver} {site : Site} {name : String} {args : List Nat} {o : Overload} {r : Request}
    {u : Unit} (sofar : Learnt catalog P s t fun _ => True) (slotLt : slot < s.cells.size)
    (argsLt : ∀ arg ∈ args, arg < s.cells.size) (found : resolver.resolve? r = some o)
    (proper : ∀ ty, .known ty ∈ r.args → P ty) (requests : Item.Requests s r site name args)
    (h : applyOverload catalog slot o args t = .ok u s') :
    s.Grown catalog P s' ∧ (∀ i, i ≠ slot → s'.overload? i = s.overload? i) ∧
      Item.Resolved catalog resolver s' site name slot args := by
  obtain ⟨t', learnt, rfl⟩ := applyOverload_ok closed (respects.within proper found) sofar.valid
    (Nat.lt_of_lt_of_le slotLt sofar.size)
    (fun arg mem => Nat.lt_of_lt_of_le (argsLt arg mem) sofar.size) h
  have whole := sofar.trans learnt
  have recorded := setOverload_grown catalog whole.valid slot o
  have grown := whole.toGrown.trans recorded
  refine ⟨grown, ?_, o, r, ?_, found, requests.grown grown, ?_⟩
  · intro i other
    rw [overload?_setOverload_of_ne other, whole.overloads]
  · exact overload?_setOverload_self (Nat.lt_of_lt_of_le slotLt whole.size) o
  · exact fun σ m => learnt.fact (recorded.models m)

theorem attemptMember_ok (closed : catalog.Closed P) (respects : resolver.Respects P)
    {receiver : Nat} {name : String} {done : Bool} (v : s.Valid P) (slotLt : slot < s.cells.size)
    (receiverLt : receiver < s.cells.size)
    (h : attemptMember catalog resolver slot receiver name s = .ok done s') :
    s.Grown catalog P s' ∧ (∀ i, i ≠ slot ∨ done = false → s'.overload? i = s.overload? i) ∧
      (done = true → Item.Resolved catalog resolver s' .member name slot [receiver]) := by
  obtain ⟨_, _, got, h⟩ := bind_ok h
  obtain ⟨rfl, rfl⟩ := get_ok got
  cases known : s.known? receiver with
  | none =>
    simp only [known] at h
    obtain ⟨_, t, learnt, h⟩ := bind_ok h
    obtain ⟨rfl, rfl⟩ := pure_ok h
    have noted := learn_learnt closed v
      (by simp [Task.Within, Constraint.components, slotLt, receiverLt]) learnt
    exact ⟨noted.toGrown, fun i _ => noted.overloads i, by simp⟩
  | some ty =>
    simp only [known] at h
    obtain ⟨answer, t, asked, h⟩ := bind_ok h
    cases answer with
    | none => exact absurd h fail_ne_ok
    | some o =>
      obtain ⟨_, t', applied, h⟩ := bind_ok h
      obtain ⟨rfl, rfl⟩ := pure_ok h
      obtain ⟨learnt, hint, found⟩ := askMember_ok v asked
      have requests : Item.Requests s ⟨name, .member, [.known ty], hint⟩ .member name [receiver] :=
        ⟨rfl, rfl, rfl, by simp [known]⟩
      obtain ⟨grown, others, resolved⟩ := resolved_of_applyOverload closed respects learnt slotLt
        (by simpa using receiverLt) found (by simpa using v.known? known) requests applied
      exact ⟨grown, fun i other => others i (by simpa using other), fun _ => resolved⟩

theorem known_of_hint {i : Nat} {ty : Ty} (h : s.hint i = .known ty) : s.known? i = some ty := by
  rw [known?_eq_some_iff]
  unfold hint hintDepth hintAt at h
  split at h
  · cases h
    assumption
  · cases h

theorem attemptCall_ok (closed : catalog.Closed P) (respects : resolver.Respects P)
    {name : String} {args : List Nat} {done : Bool} (v : s.Valid P) (slotLt : slot < s.cells.size)
    (argsLt : ∀ arg ∈ args, arg < s.cells.size)
    (h : attemptCall catalog resolver slot name args s = .ok done s') :
    s.Grown catalog P s' ∧ (∀ i, i ≠ slot ∨ done = false → s'.overload? i = s.overload? i) ∧
      (done = true → Item.Resolved catalog resolver s' .call name slot args) := by
  obtain ⟨_, _, got, h⟩ := bind_ok h
  obtain ⟨rfl, rfl⟩ := get_ok got
  obtain ⟨answer, t, asked, h⟩ := bind_ok h
  obtain ⟨learnt, isAnswer⟩ := ask_learnt catalog v asked
  cases answer with
  | none =>
    obtain ⟨rfl, rfl⟩ := pure_ok h
    exact ⟨learnt.toGrown, fun i _ => learnt.overloads i, by simp⟩
  | some o =>
    obtain ⟨_, t', applied, h⟩ := bind_ok h
    obtain ⟨rfl, rfl⟩ := pure_ok h
    have proper : ∀ ty, .known ty ∈ (callRequest s slot name args).args → P ty := by
      intro ty mem
      obtain ⟨arg, _, isHint⟩ := List.mem_map.1 mem
      exact v.known? (known_of_hint isHint)
    have requests : Item.Requests s (callRequest s slot name args) .call name args := by
      have pairs : (args.map s.hint).zip args = args.map fun arg => (s.hint arg, arg) := by
        simpa using List.zip_map' (f := s.hint) (g := id) (l := args)
      refine ⟨rfl, rfl, by simp [callRequest], fun p mem ty isKnown => ?_⟩
      obtain ⟨arg, _, rfl⟩ := List.mem_map.1 (pairs ▸ mem)
      exact known_of_hint isKnown
    obtain ⟨grown, others, resolved⟩ := resolved_of_applyOverload closed respects learnt slotLt
      argsLt isAnswer.symm proper requests applied
    exact ⟨grown, fun i other => others i (by simpa using other), fun _ => resolved⟩

/-- What trying an item does. -/
theorem attempt_ok (closed : catalog.Closed P) (respects : resolver.Respects P) {item : Item}
    {done : Bool} (v : s.Valid P) (within : ∀ i ∈ item.slots, i < s.cells.size)
    (h : attempt catalog resolver item s = .ok done s') :
    s.Grown catalog P s' ∧ (∀ i, i ≠ item.slot ∨ done = false → s'.overload? i = s.overload? i) ∧
      (done = true → item.Done catalog resolver s') := by
  cases item with
  | member slot receiver name =>
    simp only [Item.slots, Item.slot, Item.operands, List.forall_mem_cons, List.not_mem_nil,
      false_implies, implies_true, and_true] at within
    exact attemptMember_ok closed respects v within.1 within.2 h
  | call slot name args =>
    simp only [Item.slots, Item.slot, Item.operands, List.forall_mem_cons] at within
    exact attemptCall_ok closed respects v within.1 within.2 h
  | binary slot op left right =>
    simp only [Item.slots, Item.slot, Item.operands, List.forall_mem_cons, List.not_mem_nil,
      false_implies, implies_true, and_true] at within
    have learnt := attemptBinary_learnt closed v within.1 within.2.1 within.2.2 h
    exact ⟨learnt.toGrown, fun i _ => learnt.overloads i, fun isDone σ m => learnt.fact m (.inl isDone)⟩

end

end Inference

end LambdaQuery
