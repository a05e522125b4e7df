import LambdaQuery.Proofs.Inference.Models
import LambdaQuery.Proofs.TyOrder

/-!
# Narrowing loses nothing

One task at a time: whatever models the solver after a task, and does what the tasks it leaves ask
for, models the solver before it and does what the task asked for. So it is with a whole run.
-/

namespace LambdaQuery

variable {catalog : Catalog} {P : Ty → Prop} {σ : Valuation}

theorem map_eq_map_of_zip {slots slots' : List Nat} (sameLength : slots.length = slots'.length)
    (agree : ∀ p ∈ slots.zip slots', σ p.1 = σ p.2) : slots.map σ = slots'.map σ := by
  induction slots generalizing slots' with
  | nil => cases slots' with
    | nil => rfl
    | cons => cases sameLength
  | cons slot slots ih => cases slots' with
    | nil => cases sameLength
    | cons slot' slots' =>
      have rest := ih (Nat.succ.inj sameLength) fun p mem => agree p (List.mem_cons_of_mem _ mem)
      have first : σ slot = σ slot' := agree (slot, slot') List.mem_cons_self
      rw [List.map_cons, List.map_cons, first, rest]

theorem Flow.fault?_self (flow : Flow) (ty : Ty) : flow.fault? ty ty = none := by
  cases flow <;> simp [fault?]

namespace Constraint

/-- Constraints that meet as the same say the same of a type, once the paired slots agree. -/
theorem Holds.of_meet {old new : Constraint} {pairs : List (Nat × Nat)} {ty : Ty}
    (met : old.meet new = .same pairs) (agree : ∀ p ∈ pairs, σ p.1 = σ p.2)
    (h : old.Holds catalog σ ty) : new.Holds catalog σ ty := by
  unfold meet at met
  split at met
  case h_7 params result params' result' =>
    split at met
    · cases met
      rename_i sameLength
      obtain ⟨types, resultTy, rfl, onParams, onResult⟩ := h
      refine ⟨types, resultTy, rfl, ?_, ?_⟩
      · rw [← onParams]
        exact (map_eq_map_of_zip sameLength fun p mem =>
          agree p (List.mem_append_left _ mem)).symm
      · rw [← onResult]
        exact (agree (result, result') (by simp)).symm
    · cases met
  case h_8 name a name' b =>
    split at met
    · cases met
      rename_i sameName
      intro p found
      have sameProperty (info : TypeInfo) : info.property? name = info.property? name' := by
        simp only [TypeInfo.property?, Text.sameName, Text.sameName_iff.1 sameName]
      simp only [← sameProperty] at found
      obtain ⟨given, has, fits⟩ := h p found
      exact ⟨given, by rw [← has]; exact (agree (a, b) (by simp)).symm, fits⟩
    · cases met
  all_goals cases met
  case h_1 => exact h
  case h_2 a b =>
    obtain ⟨element, isElement, has⟩ := h
    exact ⟨element, isElement, by rw [← has]; exact (agree (a, b) (by simp)).symm⟩
  case h_3 a b =>
    obtain ⟨element, isArray, has⟩ := h
    exact ⟨element, isArray, by rw [← has]; exact (agree (a, b) (by simp)).symm⟩
  case h_4 a b =>
    have has : σ a = some ty.underlying := h
    show σ b = some ty.underlying
    rw [← has]
    exact (agree (a, b) (by simp)).symm

/-- The slots that are paired when constraints meet are theirs. -/
theorem mem_components_of_meet {old new : Constraint} {pairs : List (Nat × Nat)} {a b : Nat}
    (met : old.meet new = .same pairs ∨ old.meet new = .beside pairs) (mem : (a, b) ∈ pairs) :
    a ∈ old.components ∧ b ∈ new.components := by
  unfold meet at met
  split at met
  case h_7 params result params' result' =>
    split at met
    · simp only [Meeting.same.injEq, reduceCtorEq, or_false] at met
      subst met
      rcases List.mem_append.1 mem with inZip | last
      · exact ⟨List.mem_append_left _ (List.of_mem_zip inZip).1,
          List.mem_append_left _ (List.of_mem_zip inZip).2⟩
      · cases List.mem_singleton.1 last
        simp [components]
    · simp at met
  case h_8 name a name' b =>
    split at met <;> simp at met
    subst met
    simpa [components] using mem
  case h_1 =>
    simp only [Meeting.same.injEq, reduceCtorEq, or_false] at met
    subst met
    cases mem
  all_goals simp at met
  all_goals subst met
  all_goals simpa [components] using mem

end Constraint

namespace Solver

variable {s s' : Solver}

theorem meetAll_ok {new : Constraint} {old : List Constraint} {there : Bool}
    {pairs : List (Nat × Nat)} (h : meetAll new old = .ok (there, pairs)) :
    (∀ a b, (a, b) ∈ pairs → (∃ c ∈ old, a ∈ c.components) ∧ b ∈ new.components) ∧
      (there = true → ∃ c ∈ old, ∃ some, c.meet new = .same some ∧ ∀ p ∈ some, p ∈ pairs) := by
  induction old generalizing there pairs with
  | nil =>
    cases h
    simp
  | cons first rest ih =>
    have later {flag : Bool} {more : List (Nat × Nat)} (h : meetAll new rest = .ok (flag, more))
        {a b : Nat} (mem : (a, b) ∈ more) :
        (∃ c ∈ first :: rest, a ∈ c.components) ∧ b ∈ new.components := by
      obtain ⟨⟨c, inRest, part⟩, ofNew⟩ := (ih h).1 a b mem
      exact ⟨⟨c, List.mem_cons_of_mem _ inRest, part⟩, ofNew⟩
    have paired {some : List (Nat × Nat)} {a b : Nat}
        (met : first.meet new = .same some ∨ first.meet new = .beside some) (mem : (a, b) ∈ some) :
        (∃ c ∈ first :: rest, a ∈ c.components) ∧ b ∈ new.components :=
      have parts := Constraint.mem_components_of_meet met mem
      ⟨⟨first, List.mem_cons_self, parts.1⟩, parts.2⟩
    unfold meetAll at h
    split at h
    · cases h
    · refine ⟨fun a b => later h, fun isThere => ?_⟩
      obtain ⟨c, inRest, found⟩ := (ih h).2 isThere
      exact ⟨c, List.mem_cons_of_mem _ inRest, found⟩
    · rename_i some met
      cases rec : meetAll new rest with
      | error e => simp [rec, Except.map] at h
      | ok answer =>
        simp only [rec, Except.map, Except.ok.injEq, Prod.mk.injEq] at h
        obtain ⟨rfl, rfl⟩ := h
        refine ⟨fun a b mem => ?_, fun _ => ⟨first, List.mem_cons_self, some, met, ?_⟩⟩
        · rcases List.mem_append.1 mem with here | more
          · exact paired (.inl met) here
          · exact later rec more
        · exact fun p mem => List.mem_append_left _ mem
    · rename_i some met
      cases rec : meetAll new rest with
      | error e => simp [rec, Except.map] at h
      | ok answer =>
        simp only [rec, Except.map, Except.ok.injEq, Prod.mk.injEq] at h
        obtain ⟨rfl, rfl⟩ := h
        refine ⟨fun a b mem => ?_, fun isThere => ?_⟩
        · rcases List.mem_append.1 mem with here | more
          · exact paired (.inr met) here
          · exact later rec more
        · obtain ⟨c, inRest, same, met', sub⟩ := (ih rec).2 isThere
          exact ⟨c, List.mem_cons_of_mem _ inRest, same, met',
            fun p mem => List.mem_append_right _ (sub p mem)⟩

/-! One task. -/

section

variable {task : Task} {left : List Task}

/-- What became of a solver that did a task, with those that are left. -/
structure Narrowed (catalog : Catalog) (P : Ty → Prop) (s : Solver) (task : Task)
    (s' : Solver) (left : List Task) : Prop where
  valid : s'.Valid P
  size : s'.cells.size = s.cells.size
  overloads : ∀ slot, s'.overload? slot = s.overload? slot
  within : ∀ task ∈ left, task.Within P s'.cells.size
  models : ∀ {σ : Valuation}, s'.Models catalog σ → (∀ task ∈ left, task.Holds catalog σ) →
    s.Models catalog σ ∧ task.Holds catalog σ

/-- A task that only leaves simpler ones. -/
theorem Narrowed.of_same (v : s.Valid P) (within : ∀ t ∈ left, t.Within P s.cells.size)
    (holds : ∀ {σ : Valuation}, s.Models catalog σ → (∀ t ∈ left, t.Holds catalog σ) →
      task.Holds catalog σ) : Narrowed catalog P s task s left where
  valid := v
  size := rfl
  overloads _ := rfl
  within := within
  models m done := ⟨m, holds m done⟩

/-- What a constraint leaves to do says the same as the constraint. -/
theorem discharge_holds {slot : Nat} {ty : Ty} {c : Constraint}
    (h : s.discharge catalog slot ty c = .ok left) (done : ∀ t ∈ left, t.Holds catalog σ) :
    c.Holds catalog σ ty := by
  unfold discharge at h
  split at h
  case h_1 =>
    split at h <;> cases h
    assumption
  case h_2 e =>
    split at h <;> cases h
    exact ⟨_, ‹_›, done (.assign e _) (by simp)⟩
  case h_3 e =>
    split at h <;> cases h
    exact ⟨_, rfl, done (.assign e _) (by simp)⟩
  case h_4 e =>
    cases h
    exact done (.assign e _) (by simp)
  case h_5 params result =>
    split at h
    · split at h
      · cases h
        rename_i types resultTy sameLength
        refine ⟨types, resultTy, rfl, ?_, done (.assign result resultTy) (by simp)⟩
        have onParams : ∀ t ∈ List.zipWith Task.assign params types, t.Holds catalog σ :=
          fun t mem => done t (List.mem_append_left _ mem)
        clear done
        induction params generalizing types with
        | nil => cases types with
          | nil => rfl
          | cons => cases sameLength
        | cons param params ih => cases types with
          | nil => cases sameLength
          | cons type types =>
            have first : σ param = some type := onParams (.assign param type) (by simp)
            have rest := ih types (Nat.succ.inj sameLength) fun t mem => onParams t (by simp [mem])
            rw [List.map_cons, List.map_cons, first, rest]
      · cases h
    · cases h
  case h_6 name e =>
    split at h <;> cases h
    · rename_i p found
      intro p' found'
      cases found.symm.trans found'
      obtain ⟨given, has, noFault⟩ := done (.expect e p.ty .outOf) (by simp)
      refine ⟨given, has, ?_⟩
      unfold Flow.fault? at noFault
      split at noFault <;> simp_all
    · rename_i missing
      intro p found
      cases missing.symm.trans found

theorem discharge_within (closed : catalog.Closed P) {bound slot : Nat} {ty : Ty} {c : Constraint}
    (h : s.discharge catalog slot ty c = .ok left) (proper : P ty)
    (inside : ∀ e ∈ c.components, e < bound) : ∀ t ∈ left, t.Within P bound := by
  unfold discharge at h
  split at h
  case h_1 =>
    split at h <;> cases h
    simp
  case h_2 e =>
    split at h <;> cases h
    simpa [Task.Within] using ⟨inside e (by simp [Constraint.components]),
      closed.element proper ‹_›⟩
  case h_3 e =>
    split at h <;> cases h
    simpa [Task.Within] using ⟨inside e (by simp [Constraint.components]),
      closed.element proper rfl⟩
  case h_4 e =>
    cases h
    simpa [Task.Within] using ⟨inside e (by simp [Constraint.components]),
      closed.underlying proper⟩
  case h_5 params result =>
    split at h
    · split at h
      · cases h
        rename_i types resultTy _
        intro t mem
        rcases List.mem_append.1 mem with onParam | onResult
        · obtain ⟨i, lt, rfl⟩ := List.getElem_of_mem onParam
          rw [List.getElem_zipWith]
          rw [List.length_zipWith] at lt
          refine ⟨inside _ ?_, closed.param proper (List.getElem_mem (by omega))⟩
          exact List.mem_append_left _ (List.getElem_mem (by omega))
        · cases List.mem_singleton.1 onResult
          exact ⟨inside result (by simp [Constraint.components]), closed.result proper⟩
      · cases h
    · cases h
  case h_6 name e =>
    split at h <;> cases h
    · simpa [Task.Within] using ⟨inside e (by simp [Constraint.components]),
        closed.property proper ‹_›⟩
    · simp

theorem assign_narrowed (v : s.Valid P) {slot : Nat} {ty : Ty} (lt : slot < s.cells.size)
    (proper : P ty) (h : s.step catalog (.assign slot ty) = .ok (left, s')) :
    Narrowed catalog P s (.assign slot ty) s' left := by
  obtain ⟨leader, led⟩ := v.leads lt
  simp only [step, led] at h
  cases believed : s.belief slot with
  | known old =>
    simp only [believed] at h
    split at h <;> cases h
    rename_i same
    subst same
    exact .of_same v (by simp) fun m _ => m.eq_some (known?_eq_some_iff.2 believed)
  | unknown cs =>
    simp only [believed] at h
    cases h
    refine ⟨v.setBelief proper, size_setBelief .., overload?_setBelief _ _ _, ?_, ?_⟩
    · intro t mem
      obtain ⟨c, inCs, rfl⟩ := List.mem_map.1 mem
      have inside := v.beliefs slot
      rw [believed] at inside
      rw [size_setBelief]
      exact ⟨proper, inside c inCs⟩
    · intro σ m done
      have learnt {a : Nat} (ha : s.leader? a = some leader) : σ a = some ty := by
        have after := m.beliefs a
        rwa [belief_setBelief ha] at after
      refine ⟨m.of_setBelief fun a ha => ?_, learnt led⟩
      rw [belief_congr ha led, believed]
      intro c inCs given has
      rw [learnt ha] at has
      cases has
      exact done (.discharge slot ty c) (List.mem_map_of_mem inCs)

theorem expect_narrowed (v : s.Valid P) {slot : Nat} {ty : Ty} {flow : Flow}
    (lt : slot < s.cells.size) (proper : P ty)
    (h : s.step catalog (.expect slot ty flow) = .ok (left, s')) :
    Narrowed catalog P s (.expect slot ty flow) s' left := by
  simp only [step] at h
  cases believed : s.belief slot with
  | known old =>
    simp only [believed] at h
    split at h <;> cases h
    exact .of_same v (by simp) fun m _ => ⟨old, m.eq_some (known?_eq_some_iff.2 believed), ‹_›⟩
  | unknown cs =>
    simp only [believed] at h
    cases h
    refine .of_same v (by simpa [Task.Within] using ⟨lt, proper⟩) fun m done => ?_
    exact ⟨ty, done (.assign slot ty) (by simp), flow.fault?_self ty⟩

theorem constrain_narrowed (v : s.Valid P) {slot : Nat} {c : Constraint} (lt : slot < s.cells.size)
    (inside : ∀ e ∈ c.components, e < s.cells.size)
    (h : s.step catalog (.constrain slot c) = .ok (left, s')) :
    Narrowed catalog P s (.constrain slot c) s' left := by
  obtain ⟨leader, led⟩ := v.leads lt
  simp only [step, led] at h
  cases believed : s.belief slot with
  | known ty =>
    simp only [believed] at h
    cases h
    have known : s.known? slot = some ty := known?_eq_some_iff.2 believed
    refine .of_same v (by simpa [Task.Within] using ⟨v.known? known, inside⟩) fun m done => ?_
    intro given has
    rw [m.eq_some known] at has
    cases has
    exact done (.discharge slot ty c) (by simp)
  | unknown old =>
    simp only [believed] at h
    split at h <;> cases h
    rename_i isThere pairs met
    obtain ⟨ofPairs, ofThere⟩ := meetAll_ok met
    have oldInside := v.beliefs slot
    rw [believed] at oldInside
    have pairsWithin : ∀ t ∈ pairs.map fun p => Task.unify p.1 p.2, t.Within P s.cells.size := by
      intro t mem
      obtain ⟨⟨a, b⟩, inPairs, rfl⟩ := List.mem_map.1 mem
      obtain ⟨⟨c', inOld, part⟩, part'⟩ := ofPairs a b inPairs
      exact ⟨oldInside c' inOld a part, inside b part'⟩
    cases isThere with
    | true =>
      refine .of_same v pairsWithin fun {σ} m done => ?_
      intro ty has
      obtain ⟨c', inOld, same, met', sub⟩ := ofThere rfl
      have believes := m.beliefs slot
      rw [believed] at believes
      refine .of_meet met' (fun p mem => ?_) (believes c' inOld ty has)
      exact done (.unify p.1 p.2) (List.mem_map_of_mem (sub p mem))
    | false =>
      have newInside : Belief.Within P s.cells.size (.unknown (old ++ [c])) := by
        intro c' mem
        rcases List.mem_append.1 mem with inOld | isNew
        · exact oldInside c' inOld
        · cases List.mem_singleton.1 isNew
          exact inside
      simp only [Bool.false_eq_true, if_false]
      refine ⟨v.setBelief newInside, size_setBelief .., overload?_setBelief _ _ _, ?_, ?_⟩
      · rw [size_setBelief]
        exact pairsWithin
      · intro σ m done
        have after {a : Nat} (ha : s.leader? a = some leader) :
            (Belief.unknown (old ++ [c])).Holds catalog σ a := by
          have believes := m.beliefs a
          rwa [belief_setBelief ha] at believes
        refine ⟨m.of_setBelief fun a ha => ?_, fun ty => ?_⟩
        · rw [belief_congr ha led, believed]
          exact fun c' mem => after ha c' (List.mem_append_left _ mem)
        · exact after led c (by simp) ty

/-- Two classes become one, of which everything that was believed of either is believed. -/
theorem union_narrowed (v : s.Valid P) {a b x y : Nat} {belief : Belief}
    (ledA : s.leader? a = some x) (ledB : s.leader? b = some y) (different : x ≠ y)
    (beliefWithin : belief.Within P s.cells.size) (leftWithin : ∀ t ∈ left, t.Within P s.cells.size)
    (ofA : ∀ {σ : Valuation} {slot : Nat}, belief.Holds catalog σ slot →
      σ slot = σ (s.union x y belief).1 → (∀ t ∈ left, t.Holds catalog σ) →
        (s.belief a).Holds catalog σ slot)
    (ofB : ∀ {σ : Valuation} {slot : Nat}, belief.Holds catalog σ slot →
      σ slot = σ (s.union x y belief).1 → (∀ t ∈ left, t.Holds catalog σ) →
        (s.belief b).Holds catalog σ slot) :
    Narrowed catalog P s (.unify a b) (s.union x y belief).2 left := by
  have hx := leader?_self ledA
  have hy := leader?_self ledB
  have size := (union_spec hx hy different belief).2.1
  refine ⟨v.union hx hy different beliefWithin, size, overload?_union _ _ _ _,
    by rwa [size], ?_⟩
  intro σ m done
  obtain ⟨before, merged⟩ := m.of_union hx hy different fun slot either holds same => by
    rcases either with led | led
    · rw [belief_congr led ledA]
      exact ofA holds same done
    · rw [belief_congr led ledB]
      exact ofB holds same done
  exact ⟨before, (merged a (.inl ledA)).2.trans (merged b (.inr ledB)).2.symm⟩

theorem unify_narrowed (v : s.Valid P) {a b : Nat} (ltA : a < s.cells.size)
    (ltB : b < s.cells.size) (h : s.step catalog (.unify a b) = .ok (left, s')) :
    Narrowed catalog P s (.unify a b) s' left := by
  obtain ⟨x, ledA⟩ := v.leads ltA
  obtain ⟨y, ledB⟩ := v.leads ltB
  simp only [step, ledA, ledB] at h
  split at h
  · cases h
    rename_i same
    subst same
    exact .of_same v (by simp) fun m _ => m.classes ledA ledB
  · rename_i different
    have withinA := v.beliefs a
    have withinB := v.beliefs b
    -- A class of known type takes in one of unknown type, whose constraints are then discharged.
    have learnt {σ : Valuation} {slot : Nat} {ty : Ty} {cs : List Constraint}
        (known : (Belief.known ty).Holds catalog σ slot)
        (done : ∀ t ∈ cs.map (Task.discharge b ty), t.Holds catalog σ) :
        (Belief.unknown cs).Holds catalog σ slot := by
      intro c mem given has
      have has' : σ slot = some ty := known
      rw [has'] at has
      cases has
      exact done (.discharge b ty c) (List.mem_map_of_mem mem)
    have discharges {ty : Ty} {cs : List Constraint} (proper : P ty)
        (inside : (Belief.unknown cs).Within P s.cells.size) :
        ∀ t ∈ cs.map (Task.discharge b ty), t.Within P s.cells.size := by
      intro t mem
      obtain ⟨c, inCs, rfl⟩ := List.mem_map.1 mem
      exact ⟨proper, inside c inCs⟩
    split at h
    · rename_i ty ty' knownA knownB
      split at h <;> cases h
      rename_i same
      subst same
      rw [knownA] at withinA
      refine union_narrowed v ledA ledB different withinA (by simp) ?_ ?_
      · exact fun holds _ _ => knownA ▸ holds
      · exact fun holds _ _ => knownB ▸ holds
    · rename_i ty cs knownA unknownB
      cases h
      rw [knownA] at withinA
      rw [unknownB] at withinB
      refine union_narrowed v ledA ledB different withinA (discharges withinA withinB) ?_ ?_
      · exact fun holds _ _ => knownA ▸ holds
      · exact fun holds _ done => unknownB ▸ learnt holds done
    · rename_i cs ty unknownA knownB
      cases h
      rw [unknownA] at withinA
      rw [knownB] at withinB
      refine union_narrowed v ledA ledB different withinB (discharges withinB withinA) ?_ ?_
      · exact fun holds _ done => unknownA ▸ learnt holds done
      · exact fun holds _ _ => knownB ▸ holds
    · rename_i cs cs' unknownA unknownB
      cases h
      rw [unknownA] at withinA
      rw [unknownB] at withinB
      have leaderLt : (s.union x y (.unknown [])).1 < s.cells.size := by
        rcases (union_spec (leader?_self ledA) (leader?_self ledB) different (.unknown [])).1
          with isX | isY
        · rw [isX]
          exact leader?_lt ledA
        · rw [isY]
          exact leader?_lt ledB
      refine union_narrowed v ledA ledB different (by simp [Belief.Within]) ?_ ?_ ?_
      · intro t mem
        obtain ⟨c, inEither, rfl⟩ := List.mem_map.1 mem
        rcases List.mem_append.1 inEither with inA | inB
        · exact ⟨leaderLt, withinA c inA⟩
        · exact ⟨leaderLt, withinB c inB⟩
      · intro σ slot _ same done
        rw [unknownA]
        intro c mem ty has
        exact done (.constrain _ c) (List.mem_map_of_mem (List.mem_append_left _ mem)) ty
          (same ▸ has)
      · intro σ slot _ same done
        rw [unknownB]
        intro c mem ty has
        exact done (.constrain _ c) (List.mem_map_of_mem (List.mem_append_right _ mem)) ty
          (same ▸ has)

/-- What one task does. -/
theorem step_narrowed (closed : catalog.Closed P) (v : s.Valid P)
    (within : task.Within P s.cells.size) (h : s.step catalog task = .ok (left, s')) :
    Narrowed catalog P s task s' left := by
  cases task with
  | assign slot ty => exact assign_narrowed v within.1 within.2 h
  | expect slot ty flow => exact expect_narrowed v within.1 within.2 h
  | constrain slot c => exact constrain_narrowed v within.1 within.2 h
  | unify a b => exact unify_narrowed v within.1 within.2 h
  | discharge slot ty c =>
    simp only [step] at h
    split at h <;> cases h
    rename_i discharged
    exact .of_same v (discharge_within closed discharged within.1 within.2)
      fun _ done => discharge_holds discharged done

end

/-! A whole run. -/

/-- What a solver became: it has no fewer slots, and all that it says of types it says still. -/
structure Grown (catalog : Catalog) (P : Ty → Prop) (s s' : Solver) : Prop where
  valid : s'.Valid P
  size : s.cells.size ≤ s'.cells.size
  models : ∀ {σ : Valuation}, s'.Models catalog σ → s.Models catalog σ

theorem Grown.refl (v : s.Valid P) : Grown catalog P s s := ⟨v, Nat.le_refl _, id⟩

theorem Grown.trans {t : Solver} (first : Grown catalog P s t) (second : Grown catalog P t s') :
    Grown catalog P s s' :=
  ⟨second.valid, Nat.le_trans first.size second.size, fun m => first.models (second.models m)⟩

/-- What is known stays known. -/
theorem Grown.known? (g : Grown catalog P s s') {slot : Nat} {ty : Ty}
    (h : s.known? slot = some ty) : s'.known? slot = some ty :=
  (g.models (models_known? catalog s')).eq_some h

/-- What a run does: everything it was asked to. -/
theorem narrow_grown (closed : catalog.Closed P) {tasks : List Task} (v : s.Valid P)
    (within : ∀ t ∈ tasks, t.Within P s.cells.size) (h : s.narrow catalog tasks = .ok s') :
    Grown catalog P s s' ∧ s'.cells.size = s.cells.size ∧
      (∀ slot, s'.overload? slot = s.overload? slot) ∧
      ∀ {σ : Valuation}, s'.Models catalog σ → ∀ t ∈ tasks, t.Holds catalog σ := by
  fun_induction narrow catalog tasks s with
  | case1 s =>
    cases h
    exact ⟨.refl v, rfl, fun _ => rfl, by simp⟩
  | case2 => cases h
  | case3 s task rest left t stepped ih =>
    have first := step_narrowed closed v (within task List.mem_cons_self) stepped
    have restWithin : ∀ u ∈ left ++ rest, u.Within P t.cells.size := by
      intro u mem
      rcases List.mem_append.1 mem with inLeft | inRest
      · exact first.within u inLeft
      · rw [first.size]
        exact within u (List.mem_cons_of_mem _ inRest)
    obtain ⟨grown, size, overloads, holds⟩ := ih first.valid restWithin h
    have ofModels {σ : Valuation} (m : s'.Models catalog σ) :=
      first.models (grown.models m) fun u mem => holds m u (List.mem_append_left _ mem)
    refine ⟨⟨grown.valid, ?_, fun m => (ofModels m).1⟩, size.trans first.size,
      fun slot => (overloads slot).trans (first.overloads slot), fun m u mem => ?_⟩
    · exact Nat.le_of_eq (size.trans first.size).symm
    · rcases List.mem_cons.1 mem with rfl | inRest
      · exact (ofModels m).2
      · exact holds m u (List.mem_append_right _ inRest)

end Solver

end LambdaQuery
