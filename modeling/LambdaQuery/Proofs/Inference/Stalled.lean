import LambdaQuery.Proofs.Inference.Rounds
import LambdaQuery.Proofs.Inference.Slots

/-!
# A round that gets nowhere

If a round does nothing and only operators are left, an operand of each has no type. Trying an
operator in vain may still give the operator itself a type, but only in the first round, and then
nothing else has one because of it.
-/

namespace LambdaQuery

namespace Solver

variable {catalog : Catalog} {P : Ty → Prop} {s s' : Solver} {tasks left : List Task}

/-- Slots share no type, and only lambdas and numbers are asked for. -/
structure Plain (s : Solver) : Prop where
  flat : ∀ {slot leader : Nat}, s.leader? slot = some leader → leader = slot
  simple : ∀ {slot : Nat} {cs : List Constraint} {c : Constraint}, s.belief slot = .unknown cs →
    c ∈ cs → c = .arithmetic ∨ ∃ params result, c = .lambda params result

/-! Asking for numbers makes no type known. -/

/-- Tasks that only ask for numbers. -/
def AsksNumber : Task → Prop
  | .constrain _ c | .discharge _ _ c => c = .arithmetic
  | _ => False

theorem known?_setBelief_unknown {slot leader : Nat} {cs ds : List Constraint}
    (led : s.leader? slot = some leader) (before : s.belief slot = .unknown cs) (i : Nat) :
    (s.setBelief leader (.unknown ds)).known? i = s.known? i := by
  unfold known?
  by_cases inClass : s.leader? i = some leader
  · rw [belief_setBelief inClass, belief_congr inClass led, before]
  · rw [belief_setBelief_of_ne inClass]

theorem Plain.setBelief (plain : s.Plain) {leader : Nat} {b : Belief}
    (simple : ∀ {cs : List Constraint} {c : Constraint}, b = .unknown cs → c ∈ cs →
      c = .arithmetic ∨ ∃ params result, c = .lambda params result) :
    (s.setBelief leader b).Plain where
  flat led := plain.flat (by simpa using led)
  simple {slot _ _} believed mem := by
    by_cases inClass : s.leader? slot = some leader
    · rw [belief_setBelief inClass] at believed
      exact simple believed mem
    · rw [belief_setBelief_of_ne inClass] at believed
      exact plain.simple believed mem

theorem step_asksNumber {task : Task} (asks : AsksNumber task)
    (h : s.step catalog task = .ok (left, s')) :
    (∀ t ∈ left, AsksNumber t) ∧ (∀ i, s'.known? i = s.known? i) ∧ (s.Plain → s'.Plain) := by
  cases task with
  | discharge slot ty c =>
    obtain rfl : c = .arithmetic := asks
    simp only [step, discharge] at h
    by_cases number : ty.isArithmetic = true
    · simp only [number, if_true] at h
      cases h
      exact ⟨by simp, fun _ => rfl, id⟩
    · simp only [number] at h
      cases h
  | constrain slot c =>
    obtain rfl : c = .arithmetic := asks
    simp only [step] at h
    cases led : s.leader? slot with
    | none =>
      simp only [led] at h
      cases h
      exact ⟨by simp, fun _ => rfl, id⟩
    | some leader =>
      simp only [led] at h
      cases believed : s.belief slot with
      | known ty =>
        simp only [believed] at h
        cases h
        exact ⟨by simp [AsksNumber], fun _ => rfl, id⟩
      | unknown old =>
        simp only [believed] at h
        split at h <;> cases h
        rename_i there pairs met
        obtain rfl : pairs = [] := by
          refine List.eq_nil_iff_forall_not_mem.2 fun p mem => ?_
          simpa [Constraint.components] using ((meetAll_ok met).1 p.1 p.2 mem).2
        cases there with
        | true => exact ⟨by simp, fun _ => rfl, id⟩
        | false =>
          refine ⟨by simp, known?_setBelief_unknown led believed, fun plain => ?_⟩
          refine plain.setBelief fun isUnknown mem => ?_
          cases isUnknown
          rcases List.mem_append.1 mem with inOld | isNew
          · exact plain.simple believed inOld
          · exact .inl (List.mem_singleton.1 isNew)
  | assign _ _ => cases asks
  | expect _ _ _ => cases asks
  | unify _ _ => cases asks

theorem narrow_asksNumber (asks : ∀ t ∈ tasks, AsksNumber t)
    (h : s.narrow catalog tasks = .ok s') :
    (∀ i, s'.known? i = s.known? i) ∧ (s.Plain → s'.Plain) := by
  fun_induction narrow catalog tasks s with
  | case1 =>
    cases h
    exact ⟨fun _ => rfl, id⟩
  | case2 => cases h
  | case3 s task rest left t stepped ih =>
    obtain ⟨leftAsks, same, plain⟩ := step_asksNumber (asks task List.mem_cons_self) stepped
    have allAsk : ∀ t ∈ left ++ rest, AsksNumber t := by
      intro t mem
      rcases List.mem_append.1 mem with inLeft | inRest
      · exact leftAsks t inLeft
      · exact asks t (List.mem_cons_of_mem _ inRest)
    obtain ⟨same', plain'⟩ := ih allAsk h
    exact ⟨fun i => (same' i).trans (same i), fun isPlain => plain' (plain isPlain)⟩

/-! A truth value where nothing is asked for. -/

theorem narrow_nil (catalog : Catalog) (s : Solver) : s.narrow catalog [] = .ok s := by
  rw [narrow]

theorem narrow_cons {task : Task} (h : s.narrow catalog (task :: tasks) = .ok s') :
    ∃ left t, s.step catalog task = .ok (left, t) ∧ t.narrow catalog (left ++ tasks) = .ok s' := by
  rw [narrow] at h
  split at h
  · cases h
  · exact ⟨_, _, ‹_›, h⟩

theorem narrow_expect_known {slot : Nat} {old ty : Ty} {flow : Flow}
    (known : s.known? slot = some old) (h : s.narrow catalog [.expect slot ty flow] = .ok s') :
    s' = s := by
  obtain ⟨left, t, stepped, h⟩ := narrow_cons h
  simp only [step, known?_eq_some_iff.1 known] at stepped
  split at stepped <;> cases stepped
  have done := narrow_nil catalog s
  cases done.symm.trans h
  rfl

/-- In a plain solver a truth value for one slot has no further consequences. -/
theorem narrow_expect_bool (plain : s.Plain) {slot : Nat}
    (h : s.narrow catalog [.expect slot .bool .outOf] = .ok s') :
    s'.Plain ∧ ∀ i, i ≠ slot → s'.known? i = s.known? i := by
  cases believed : s.belief slot with
  | known old =>
    rw [narrow_expect_known (known?_eq_some_iff.2 believed) h]
    exact ⟨plain, fun _ _ => rfl⟩
  | unknown cs =>
    obtain ⟨left, t, stepped, h⟩ := narrow_cons h
    simp only [step, believed] at stepped
    cases stepped
    obtain ⟨left, t, stepped, h⟩ := narrow_cons h
    simp only [step] at stepped
    cases led : s.leader? slot with
    | none =>
      simp only [led] at stepped
      cases stepped
      cases (narrow_nil catalog s).symm.trans h
      exact ⟨plain, fun _ _ => rfl⟩
    | some leader =>
      obtain rfl := plain.flat led
      simp only [led, believed] at stepped
      cases stepped
      have learnt : (s.setBelief leader (.known .bool)).Plain ∧
          ∀ i, i ≠ leader → (s.setBelief leader (.known .bool)).known? i = s.known? i := by
        refine ⟨plain.setBelief (by simp), fun i other => ?_⟩
        unfold known?
        rw [belief_setBelief_of_ne fun led' => other (plain.flat led').symm]
      cases cs with
      | nil =>
        cases (narrow_nil catalog _).symm.trans h
        exact learnt
      | cons c cs =>
        -- A truth value is neither a number nor a lambda.
        obtain ⟨_, _, stepped, _⟩ := narrow_cons h
        rcases plain.simple believed List.mem_cons_self with rfl | ⟨params, result, rfl⟩
        · simp [step, discharge, Ty.isArithmetic, Ty.underlying] at stepped
        · simp [step, discharge] at stepped

/-! The start of inference is plain. -/

/-- The slot that a task puts a constraint on. -/
def constrained? : Task → Option Nat
  | .constrain slot _ => some slot
  | _ => none

/-- A task that makes no two slots share a type. -/
def Parts : Task → Prop
  | .assign .. | .expect .. => True
  | .discharge _ _ c | .constrain _ c =>
    c = .arithmetic ∨ ∃ params result, c = .lambda params result
  | .unify .. => False

/-- Every slot gets at most one constraint. -/
structure Calm (tasks : List Task) (s : Solver) : Prop where
  plain : s.Plain
  parts : ∀ t ∈ tasks, Parts t
  distinct : (tasks.filterMap constrained?).Nodup
  first : ∀ slot ∈ tasks.filterMap constrained?, ∀ {cs : List Constraint},
    s.belief slot = .unknown cs → cs = []

theorem filterMap_constrained?_discharge {slot : Nat} {ty : Ty} {c : Constraint}
    (h : s.discharge catalog slot ty c = .ok left) : left.filterMap constrained? = [] := by
  have none := (discharge_ok h).1
  rw [List.countP_eq_zero] at none
  refine List.filterMap_eq_nil_iff.2 fun t mem => ?_
  have isNot := none t mem
  cases t <;> simp_all [constrained?, isConstrain]

theorem discharge_parts {slot : Nat} {ty : Ty} {c : Constraint}
    (simple : c = .arithmetic ∨ ∃ params result, c = .lambda params result)
    (h : s.discharge catalog slot ty c = .ok left) : ∀ t ∈ left, Parts t := by
  rcases simple with rfl | ⟨params, result, rfl⟩
  · simp only [discharge] at h
    split at h <;> cases h
    simp
  · simp only [discharge] at h
    split at h
    · split at h <;> cases h
      intro t mem
      rcases List.mem_append.1 mem with onParam | onResult
      · obtain ⟨i, lt, rfl⟩ := List.getElem_of_mem onParam
        simp [Parts]
      · cases List.mem_singleton.1 onResult
        trivial
    · cases h

/-- Tasks that are left in a solver that is as plain as before. -/
theorem Calm.of_left {task : Task} {rest : List Task} (calm : Calm (task :: rest) s)
    (plain : s'.Plain) (parts : ∀ t ∈ left, Parts t) (none : left.filterMap constrained? = [])
    (first : ∀ slot ∈ rest.filterMap constrained?, ∀ {cs : List Constraint},
      s'.belief slot = .unknown cs → cs = []) : Calm (left ++ rest) s' where
  plain := plain
  parts t mem := by
    rcases List.mem_append.1 mem with inLeft | inRest
    · exact parts t inLeft
    · exact calm.parts t (List.mem_cons_of_mem _ inRest)
  distinct := by
    rw [List.filterMap_append, none, List.nil_append]
    have all := calm.distinct
    rw [List.filterMap_cons] at all
    split at all
    · exact all
    · exact (List.nodup_cons.1 all).2
  first slot mem := by
    rw [List.filterMap_append, none, List.nil_append] at mem
    exact first slot mem

theorem step_calm {task : Task} {rest : List Task} (calm : Calm (task :: rest) s)
    (h : s.step catalog task = .ok (left, s')) : Calm (left ++ rest) s' := by
  have restFirst : ∀ slot ∈ rest.filterMap constrained?, ∀ {cs : List Constraint},
      s.belief slot = .unknown cs → cs = [] := by
    intro slot mem cs
    refine calm.first slot ?_
    rw [List.filterMap_cons]
    split
    · exact mem
    · exact List.mem_cons_of_mem _ mem
  have unchanged (parts : ∀ t ∈ left, Parts t) (none : left.filterMap constrained? = [])
      (same : s' = s) : Calm (left ++ rest) s' := by
    subst same
    exact calm.of_left calm.plain parts none restFirst
  have isParts := calm.parts task List.mem_cons_self
  cases task with
  | assign slot ty =>
    simp only [step] at h
    cases led : s.leader? slot with
    | none =>
      simp only [led] at h
      cases h
      exact unchanged (by simp) rfl rfl
    | some leader =>
      simp only [led] at h
      cases believed : s.belief slot with
      | known old =>
        simp only [believed] at h
        split at h <;> cases h
        exact unchanged (by simp) rfl rfl
      | unknown cs =>
        simp only [believed] at h
        cases h
        refine calm.of_left (calm.plain.setBelief (by simp)) ?_ ?_ ?_
        · intro t mem
          obtain ⟨c, inCs, rfl⟩ := List.mem_map.1 mem
          exact calm.plain.simple believed inCs
        · simp [List.filterMap_eq_nil_iff, constrained?]
        · intro slot' mem cs' believed'
          by_cases inClass : s.leader? slot' = some leader
          · rw [belief_setBelief inClass] at believed'
            cases believed'
          · rw [belief_setBelief_of_ne inClass] at believed'
            exact restFirst slot' mem believed'
  | expect slot ty flow =>
    simp only [step] at h
    split at h
    · split at h <;> cases h
      exact unchanged (by simp) rfl rfl
    · cases h
      exact unchanged (by simp [Parts]) rfl rfl
  | discharge slot ty c =>
    simp only [step] at h
    split at h <;> cases h
    rename_i discharged
    exact unchanged (discharge_parts isParts discharged)
      (filterMap_constrained?_discharge discharged) rfl
  | constrain slot c =>
    simp only [step] at h
    cases led : s.leader? slot with
    | none =>
      simp only [led] at h
      cases h
      exact unchanged (by simp) rfl rfl
    | some leader =>
      obtain rfl := calm.plain.flat led
      simp only [led] at h
      cases believed : s.belief leader with
      | known ty =>
        simp only [believed] at h
        cases h
        exact unchanged (by simpa [Parts] using isParts) rfl rfl
      | unknown cs =>
        obtain rfl := calm.first leader (by simp [constrained?]) believed
        simp only [believed, meetAll, Bool.false_eq_true, if_false] at h
        cases h
        refine calm.of_left (calm.plain.setBelief fun isUnknown mem => ?_) (by simp) rfl ?_
        · cases isUnknown
          cases List.mem_singleton.1 mem
          exact isParts
        · intro slot' mem cs' believed'
          have different : slot' ≠ leader := by
            rintro rfl
            exact (List.nodup_cons.1 calm.distinct).1 mem
          rw [belief_setBelief_of_ne fun led' => different (calm.plain.flat led').symm] at believed'
          exact restFirst slot' mem believed'
  | unify a b => cases isParts

theorem narrow_calm (calm : Calm tasks s) (h : s.narrow catalog tasks = .ok s') : s'.Plain := by
  fun_induction narrow catalog tasks s with
  | case1 =>
    cases h
    exact calm.plain
  | case2 => cases h
  | case3 s task rest left t stepped ih => exact ih (step_calm calm stepped) h

end Solver

namespace Inference

open Solver

variable {catalog : Catalog} {P : Ty → Prop} {resolver : Resolver} {s s' : Solver}
  {slot left right : Nat} {op : Operator}

/-! Operators that are tried in vain. -/

theorem operands_false (h : operands catalog slot op left right s = .ok false s') :
    s' = s ∧ (s.known? left = none ∨ s.known? right = none) := by
  obtain ⟨_, _, got, h⟩ := bind_ok h
  obtain ⟨rfl, rfl⟩ := get_ok got
  cases knownLeft : s.known? left with
  | some l =>
    cases knownRight : s.known? right with
    | some r =>
      simp only [knownLeft, knownRight] at h
      split at h
      · exact absurd h fail_ne_ok
      · cases (pure_ok h).1
    | none =>
      simp only [knownLeft, knownRight] at h
      split at h
      · obtain ⟨_, _, _, h⟩ := bind_ok h
        cases (pure_ok h).1
      · exact ⟨(pure_ok h).2.symm, .inr rfl⟩
  | none =>
    cases knownRight : s.known? right with
    | some r =>
      simp only [knownLeft, knownRight] at h
      split at h
      · obtain ⟨_, _, _, h⟩ := bind_ok h
        cases (pure_ok h).1
      · exact ⟨(pure_ok h).2.symm, .inl rfl⟩
    | none =>
      simp only [knownLeft, knownRight] at h
      exact ⟨(pure_ok h).2.symm, .inl rfl⟩

/-- Operands that are ready have types that go together. -/
theorem operands_true (closed : catalog.Closed P) (v : s.Valid P) (leftLt : left < s.cells.size)
    (rightLt : right < s.cells.size)
    (h : operands catalog slot op left right s = .ok true s') :
    ∃ l r common, s'.known? left = some l ∧ s'.known? right = some r ∧
      l.common? r = some common := by
  obtain ⟨_, _, got, h⟩ := bind_ok h
  obtain ⟨rfl, rfl⟩ := get_ok got
  have assigned {target : Nat} {ty : Ty} {t : Solver} {u : Unit} (lt : target < s.cells.size)
      (proper : P ty) (h : learn catalog [.assign target ty] s = .ok u t) :
      Learnt catalog P s t fun σ => σ target = some ty :=
    (learn_learnt closed v (by simpa [Task.Within] using ⟨lt, proper⟩) h).mono
      fun σ _ holds => holds (.assign target ty) (by simp)
  cases knownLeft : s.known? left with
  | some l =>
    cases knownRight : s.known? right with
    | some r =>
      simp only [knownLeft, knownRight] at h
      cases common : l.common? r with
      | none =>
        simp only [common, Option.isNone_none, if_true] at h
        exact absurd h fail_ne_ok
      | some ty =>
        simp only [common, Option.isNone_some, Bool.false_eq_true, if_false] at h
        obtain ⟨_, rfl⟩ := pure_ok h
        exact ⟨l, r, ty, knownLeft, knownRight, common⟩
    | none =>
      simp only [knownLeft, knownRight] at h
      split at h
      · obtain ⟨_, t, learnt, h⟩ := bind_ok h
        obtain ⟨_, rfl⟩ := pure_ok h
        have learnt' := assigned rightLt (v.known? knownLeft) learnt
        exact ⟨l, l, l, learnt'.known? knownLeft, learnt'.fact (models_known? catalog t),
          Ty.common?_self l⟩
      · cases (pure_ok h).1
  | none =>
    cases knownRight : s.known? right with
    | some r =>
      simp only [knownLeft, knownRight] at h
      split at h
      · obtain ⟨_, t, learnt, h⟩ := bind_ok h
        obtain ⟨_, rfl⟩ := pure_ok h
        have learnt' := assigned leftLt (v.known? knownRight) learnt
        exact ⟨r, r, r, learnt'.fact (models_known? catalog t), learnt'.known? knownRight,
          Ty.common?_self r⟩
      · cases (pure_ok h).1
    | none =>
      simp only [knownLeft, knownRight] at h
      cases (pure_ok h).1

theorem arithmeticResult_known {l r common : Ty} {done : Bool}
    (knownLeft : s.known? left = some l) (knownRight : s.known? right = some r)
    (isCommon : l.common? r = some common)
    (h : arithmeticResult catalog slot left right s = .ok done s') : done = true := by
  obtain ⟨_, _, got, h⟩ := bind_ok h
  obtain ⟨rfl, rfl⟩ := get_ok got
  simp only [knownLeft, knownRight, isCommon] at h
  obtain ⟨_, _, _, h⟩ := bind_ok h
  exact (pure_ok h).1.symm

theorem presetOperands_false (h : presetOperands catalog slot left right s = .ok false s') :
    s' = s := by
  obtain ⟨_, _, got, h⟩ := bind_ok h
  obtain ⟨rfl, rfl⟩ := get_ok got
  cases known : s.known? slot with
  | none =>
    simp only [known] at h
    exact (pure_ok h).2.symm
  | some ty =>
    simp only [known] at h
    split at h
    · obtain ⟨_, _, _, h⟩ := bind_ok h
      cases (pure_ok h).1
    · exact (pure_ok h).2.symm

/-- Operands that were given the type of the result have it. -/
theorem presetOperands_true (closed : catalog.Closed P) (v : s.Valid P)
    (leftLt : left < s.cells.size) (rightLt : right < s.cells.size)
    (h : presetOperands catalog slot left right s = .ok true s') :
    ∃ ty, s'.known? left = some ty ∧ s'.known? right = some ty := by
  obtain ⟨_, _, got, h⟩ := bind_ok h
  obtain ⟨rfl, rfl⟩ := get_ok got
  cases known : s.known? slot with
  | none =>
    simp only [known] at h
    cases (pure_ok h).1
  | some ty =>
    simp only [known] at h
    split at h
    · obtain ⟨_, t, learnt, h⟩ := bind_ok h
      obtain ⟨_, rfl⟩ := pure_ok h
      have holds := (learn_learnt closed v
        (by simp [Task.Within, leftLt, rightLt, v.known? known]) learnt).fact
          (models_known? catalog t)
      exact ⟨ty, holds (.assign left ty) (by simp), holds (.assign right ty) (by simp)⟩
    · cases (pure_ok h).1

theorem numbersOnly_known {u : Unit} (h : numbersOnly catalog op slot left right s = .ok u s') :
    (∀ i, s'.known? i = s.known? i) ∧ (s.Plain → s'.Plain) := by
  unfold numbersOnly at h
  split at h
  · obtain ⟨_, rfl⟩ := pure_ok h
    exact ⟨fun _ => rfl, id⟩
  · exact narrow_asksNumber (by simp [AsksNumber]) (learn_ok h)

/-- An arithmetic operator tried in vain has only asked for numbers, and an operand has no type. -/
theorem arithmetic_false (closed : catalog.Closed P) (v : s.Valid P) (leftLt : left < s.cells.size)
    (rightLt : right < s.cells.size) (slotLt : slot < s.cells.size) (kind : op.kind = .arithmetic)
    (h : attemptBinary catalog slot op left right s = .ok false s') :
    numbersOnly catalog op slot left right s = .ok () s' ∧
      (s'.known? left = none ∨ s'.known? right = none) := by
  simp only [attemptBinary, kind] at h
  obtain ⟨_, t₁, numbers, h₁⟩ := bind_ok h
  obtain ⟨ready, t₂, looked, h₂⟩ := bind_ok h₁
  have learnt := numbersOnly_learnt closed v slotLt leftLt rightLt numbers
  have leftLt₁ := Nat.lt_of_lt_of_le leftLt learnt.size
  have rightLt₁ := Nat.lt_of_lt_of_le rightLt learnt.size
  -- Where both operands have types the operator is done.
  have impossible {t t' : Solver} (valid : t.Valid P) (leftLt : left < t.cells.size)
      (rightLt : right < t.cells.size)
      (looked : operands catalog slot op left right t = .ok true t')
      (h : arithmeticResult catalog slot left right t' = .ok false s') : False := by
    obtain ⟨l, r, common, knownLeft, knownRight, isCommon⟩ :=
      operands_true closed valid leftLt rightLt looked
    cases arithmeticResult_known knownLeft knownRight isCommon h
  cases ready with
  | true => exact (impossible learnt.valid leftLt₁ rightLt₁ looked h₂).elim
  | false =>
    obtain ⟨same, missing⟩ := operands_false looked
    subst same
    obtain ⟨preset, t₃, presetting, h₃⟩ := bind_ok h₂
    cases preset with
    | false =>
      obtain ⟨_, rfl⟩ := pure_ok h₃
      rw [presetOperands_false presetting]
      exact ⟨numbers, missing⟩
    | true =>
      obtain ⟨_, t₄, numbers', h₄⟩ := bind_ok h₃
      obtain ⟨ready', t₅, looked', h₅⟩ := bind_ok h₄
      have learnt₃ := learnt.trans
        (presetOperands_learnt closed learnt.valid leftLt₁ rightLt₁ presetting)
      have learnt₄ := learnt₃.trans (numbersOnly_learnt closed learnt₃.valid
        (Nat.lt_of_lt_of_le slotLt learnt₃.size) (Nat.lt_of_lt_of_le leftLt learnt₃.size)
        (Nat.lt_of_lt_of_le rightLt learnt₃.size) numbers')
      cases ready' with
      | true =>
        exact (impossible learnt₄.valid (Nat.lt_of_lt_of_le leftLt learnt₄.size)
          (Nat.lt_of_lt_of_le rightLt learnt₄.size) looked' h₅).elim
      | false =>
        obtain ⟨ty, knownLeft, knownRight⟩ :=
          presetOperands_true closed learnt.valid leftLt₁ rightLt₁ presetting
        have known := (numbersOnly_known numbers').1
        rcases (operands_false looked').2 with noLeft | noRight
        · rw [known, knownLeft] at noLeft
          cases noLeft
        · rw [known, knownRight] at noRight
          cases noRight

/-- An operator tried in vain leaves an operand without a type. It may have got a type itself, if
it had none, but nothing else has. -/
theorem attemptBinary_false (closed : catalog.Closed P) (v : s.Valid P)
    (leftLt : left < s.cells.size) (rightLt : right < s.cells.size)
    (slotLt : slot < s.cells.size)
    (calm : s.Plain ∨ Asked s (.binary slot op left right))
    (h : attemptBinary catalog slot op left right s = .ok false s') :
    (s'.known? left = none ∨ s'.known? right = none) ∧ (s.Plain → s'.Plain) ∧
      ∀ i, i ≠ slot → s'.known? i = s.known? i := by
  have compares {t : Solver} {u : Unit} (isTruth : op.Compares)
      (learnt : learn catalog [.expect slot .bool .outOf] s = .ok u t)
      (h : operands catalog slot op left right t = .ok false s') :
      (s'.known? left = none ∨ s'.known? right = none) ∧ (s.Plain → s'.Plain) ∧
        ∀ i, i ≠ slot → s'.known? i = s.known? i := by
    obtain ⟨rfl, missing⟩ := operands_false h
    refine ⟨missing, fun plain => (narrow_expect_bool plain (learn_ok learnt)).1, fun i other => ?_⟩
    rcases calm with plain | asked
    · exact (narrow_expect_bool plain (learn_ok learnt)).2 i other
    · obtain ⟨ty, known⟩ := asked isTruth
      rw [narrow_expect_known known (learn_ok learnt)]
  cases kind : op.kind with
  | logical =>
    simp only [attemptBinary, kind] at h
    obtain ⟨_, _, _, h⟩ := bind_ok h
    cases (pure_ok h).1
  | equality =>
    simp only [attemptBinary, kind] at h
    obtain ⟨_, t, learnt, h⟩ := bind_ok h
    exact compares (.inl kind) learnt h
  | ordering =>
    simp only [attemptBinary, kind] at h
    obtain ⟨_, t, learnt, h⟩ := bind_ok h
    exact compares (.inr kind) learnt h
  | arithmetic =>
    obtain ⟨numbers, missing⟩ := arithmetic_false closed v leftLt rightLt slotLt kind h
    obtain ⟨same, plain⟩ := numbersOnly_known numbers
    exact ⟨missing, plain, fun i _ => same i⟩

/-! The round. -/

/-- Only operators are left. -/
def IsBinary : Item → Prop
  | .binary .. => True
  | _ => False

/-- If a round does nothing, and only operators are left, an operand of each has no type. -/
theorem attemptAll_stalled (closed : catalog.Closed P) (respects : resolver.Respects P)
    {pending left : List Item} (v : s.Valid P)
    (within : ∀ item ∈ pending, ∀ i ∈ item.slots, i < s.cells.size)
    (sorted : (pending.map Item.slot).Pairwise (· < ·))
    (operandsLt : ∀ item ∈ pending, ∀ i ∈ item.operands, i < item.slot)
    (binary : ∀ item ∈ pending, IsBinary item)
    (calm : s.Plain ∨ ∀ item ∈ pending, Asked s item) (all : left = pending)
    (h : attemptAll catalog resolver pending s = .ok left s') :
    (∀ i, i ∉ pending.map Item.slot → s'.known? i = s.known? i) ∧
      ∀ item ∈ pending, ∃ i ∈ item.operands, s'.known? i = none := by
  induction pending generalizing s left with
  | nil =>
    obtain ⟨_, rfl⟩ := pure_ok h
    simp
  | cons item rest ih =>
    obtain ⟨done, t, tried, h⟩ := bind_ok h
    obtain ⟨more, t', others, h⟩ := bind_ok h
    obtain ⟨isLeft, rfl⟩ := pure_ok h
    obtain ⟨before, sortedRest⟩ := List.pairwise_cons.1 sorted
    obtain rfl : done = false := by
      cases done with
      | false => rfl
      | true =>
        have fewer := attemptAll_ok others
        have length : more.length = rest.length + 1 := by
          have := congrArg List.length (isLeft.trans all)
          simpa using this
        omega
    have moreIsRest : more = rest := by
      have := isLeft.trans all
      simpa using this
    have itemWithin := within item List.mem_cons_self
    have grown := (attempt_ok closed respects v itemWithin tried).1
    cases item with
    | binary slot op left right =>
      have inSlots : left < s.cells.size ∧ right < s.cells.size ∧ slot < s.cells.size :=
        ⟨itemWithin left (by simp [Item.slots, Item.operands]),
          itemWithin right (by simp [Item.slots, Item.operands]),
          itemWithin slot (by simp [Item.slots, Item.slot])⟩
      obtain ⟨missing, plain, same⟩ := attemptBinary_false closed v inSlots.1 inSlots.2.1 inSlots.2.2
        (calm.imp id fun asked => asked _ List.mem_cons_self) tried
      obtain ⟨sameRest, missingRest⟩ := ih grown.valid
        (fun item mem i inItem =>
          Nat.lt_of_lt_of_le (within item (List.mem_cons_of_mem _ mem) i inItem) grown.size)
        sortedRest (fun item mem => operandsLt item (List.mem_cons_of_mem _ mem))
        (fun item mem => binary item (List.mem_cons_of_mem _ mem))
        (calm.imp plain fun asked item mem =>
          (asked item (List.mem_cons_of_mem _ mem)).grown grown) moreIsRest others
      -- Later items have larger slots, so they leave these operands alone.
      have later {i : Nat} (lt : i < slot) : i ∉ rest.map Item.slot := fun mem => by
        have := before i mem
        simp only [Item.slot] at this
        omega
      have operandLt := operandsLt _ List.mem_cons_self
      simp only [Item.operands, Item.slot, List.forall_mem_cons, List.not_mem_nil, false_implies,
        implies_true, and_true] at operandLt
      refine ⟨fun i notMem => ?_, fun item mem => ?_⟩
      · simp only [List.map_cons, List.mem_cons, not_or] at notMem
        rw [sameRest i notMem.2, same i notMem.1]
      · rcases List.mem_cons.1 mem with rfl | inRest
        · rcases missing with noLeft | noRight
          · exact ⟨left, by simp [Item.operands], by rw [sameRest left (later operandLt.1), noLeft]⟩
          · exact ⟨right, by simp [Item.operands],
              by rw [sameRest right (later operandLt.2), noRight]⟩
        · exact missingRest item inRest
    | member _ _ _ => exact (binary _ List.mem_cons_self).elim
    | call _ _ _ => exact (binary _ List.mem_cons_self).elim

end Inference

end LambdaQuery
