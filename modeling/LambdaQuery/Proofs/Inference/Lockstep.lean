import LambdaQuery.Proofs.Inference.Views

/-!
# Narrowing does the same on both sides

Narrowing does not look at the numbers of slots. From solvers that look alike from some slots, the
same tasks on these slots either fail on both sides, or leave solvers that look alike again. On
neither side does anything change elsewhere.
-/

namespace LambdaQuery

/-- Both fail, or both give something and the two are related. -/
inductive Except.Matched {ε α β : Type} (R : α → β → Prop) : Except ε α → Except ε β → Prop
  | ok {a : α} {b : β} (related : R a b) : Except.Matched R (.ok a) (.ok b)
  | error {e e' : ε} : Except.Matched R (.error e) (.error e')

theorem Except.Matched.imp {ε α β : Type} {R R' : α → β → Prop} {x : Except ε α} {y : Except ε β}
    (h : Except.Matched R x y) (implies : ∀ {a : α} {b : β}, R a b → R' a b) :
    Except.Matched R' x y := by
  cases h with
  | ok related => exact .ok (implies related)
  | error => exact .error

/-! Tasks. -/

/-- The same task, on slots that are paired. -/
inductive Task.Paired (r : Pairing) : Task → Task → Prop
  | assign {a a' : Nat} (onSlot : r a a') (ty : Ty) : Task.Paired r (.assign a ty) (.assign a' ty)
  | expect {a a' : Nat} (onSlot : r a a') (ty : Ty) (flow : Flow) :
    Task.Paired r (.expect a ty flow) (.expect a' ty flow)
  | discharge {a a' : Nat} (onSlot : r a a') (ty : Ty) {c c' : Constraint}
    (onConstraint : c.Paired r c') : Task.Paired r (.discharge a ty c) (.discharge a' ty c')
  | constrain {a a' : Nat} (onSlot : r a a') {c c' : Constraint} (onConstraint : c.Paired r c') :
    Task.Paired r (.constrain a c) (.constrain a' c')
  | unify {a a' b b' : Nat} (onFirst : r a a') (onSecond : r b b') :
    Task.Paired r (.unify a b) (.unify a' b')

theorem Task.Paired.mono {r r' : Pairing} {task task' : Task} (h : task.Paired r task')
    (le : r.Le r') : task.Paired r' task' := by
  cases h with
  | assign onSlot ty => exact .assign (le onSlot) ty
  | expect onSlot ty flow => exact .expect (le onSlot) ty flow
  | discharge onSlot ty onConstraint => exact .discharge (le onSlot) ty (onConstraint.mono le)
  | constrain onSlot onConstraint => exact .constrain (le onSlot) (onConstraint.mono le)
  | unify onFirst onSecond => exact .unify (le onFirst) (le onSecond)

/-- Tasks that are paired one by one. -/
abbrev Task.PairedAll (r : Pairing) (tasks tasks' : List Task) : Prop :=
  List.Forall₂ (Task.Paired r) tasks tasks'

section

variable {r : Pairing}

/-- Pairs of slots that are paired one by one. -/
abbrev PairsPaired (r : Pairing) (pairs pairs' : List (Nat × Nat)) : Prop :=
  List.Forall₂ (fun p p' => r p.1 p'.1 ∧ r p.2 p'.2) pairs pairs'

inductive Meeting.Paired (r : Pairing) : Meeting → Meeting → Prop
  | same {pairs pairs' : List (Nat × Nat)} (paired : PairsPaired r pairs pairs') :
    Meeting.Paired r (.same pairs) (.same pairs')
  | beside {pairs pairs' : List (Nat × Nat)} (paired : PairsPaired r pairs pairs') :
    Meeting.Paired r (.beside pairs) (.beside pairs')
  | unrelated : Meeting.Paired r .unrelated .unrelated
  | conflict : Meeting.Paired r .conflict .conflict

theorem pairsPaired_zip {as as' bs bs' : List Nat} (onFirst : List.Forall₂ r as as')
    (onSecond : List.Forall₂ r bs bs') : PairsPaired r (as.zip bs) (as'.zip bs') := by
  induction onFirst generalizing bs bs' with
  | nil => exact .nil
  | cons first _ ih => cases onSecond with
    | nil => exact .nil
    | cons second rest => exact .cons ⟨first, second⟩ (ih rest)

theorem Constraint.Paired.meet {c c' d d' : Constraint} (old : c.Paired r c')
    (new : d.Paired r d') : (c.meet d).Paired r (c'.meet d') := by
  cases old with
  | arithmetic => cases new with
    | arithmetic => exact .same .nil
    | enumerableOf | arrayOf | lambda => exact .conflict
    | optionalOf | property => exact .unrelated
  | enumerableOf onOld => cases new with
    | enumerableOf onNew => exact .same (.cons ⟨onOld, onNew⟩ .nil)
    | arrayOf onNew => exact .beside (.cons ⟨onOld, onNew⟩ .nil)
    | arithmetic | optionalOf | lambda => exact .conflict
    | property => exact .unrelated
  | arrayOf onOld => cases new with
    | arrayOf onNew => exact .same (.cons ⟨onOld, onNew⟩ .nil)
    | enumerableOf onNew => exact .beside (.cons ⟨onOld, onNew⟩ .nil)
    | arithmetic | optionalOf | lambda => exact .conflict
    | property => exact .unrelated
  | optionalOf onOld => cases new with
    | optionalOf onNew => exact .same (.cons ⟨onOld, onNew⟩ .nil)
    | enumerableOf | arrayOf | lambda => exact .conflict
    | arithmetic | property => exact .unrelated
  | lambda onOld onOldResult => cases new with
    | lambda onNew onNewResult =>
      simp only [Constraint.meet, onOld.length_eq, onNew.length_eq]
      split
      · exact .same (List.rel_append (pairsPaired_zip onOld onNew)
          (.cons ⟨onOldResult, onNewResult⟩ .nil))
      · exact .conflict
    | arithmetic | enumerableOf | arrayOf | optionalOf | property => exact .conflict
  | property name onOld => cases new with
    | property name' onNew =>
      simp only [Constraint.meet]
      split
      · exact .same (.cons ⟨onOld, onNew⟩ .nil)
      · exact .unrelated
    | lambda => exact .conflict
    | arithmetic | enumerableOf | arrayOf | optionalOf => exact .unrelated

theorem Constraint.Paired.meetAll {c c' : Constraint} {old old' : List Constraint}
    (new : c.Paired r c') (paired : Constraint.PairedAll r old old') :
    Except.Matched (fun p p' => p.1 = p'.1 ∧ PairsPaired r p.2 p'.2) (Solver.meetAll c old)
      (Solver.meetAll c' old') := by
  induction paired with
  | nil => exact .ok ⟨rfl, .nil⟩
  | cons first _ ih =>
    unfold Solver.meetAll
    have met := first.meet new
    generalize Constraint.meet _ c = m, Constraint.meet _ c' = m' at met
    cases met with
    | conflict => exact .error
    | unrelated => exact ih
    | same pairs =>
      generalize Solver.meetAll c _ = rest, Solver.meetAll c' _ = rest' at ih
      cases ih with
      | ok both => exact .ok ⟨rfl, List.rel_append pairs both.2⟩
      | error => exact .error
    | beside pairs =>
      generalize Solver.meetAll c _ = rest, Solver.meetAll c' _ = rest' at ih
      cases ih with
      | ok both => exact .ok ⟨both.1, List.rel_append pairs both.2⟩
      | error => exact .error

theorem pairedAll_discharge {b b' : Nat} (onSlot : r b b') (ty : Ty) {cs cs' : List Constraint}
    (constraints : Constraint.PairedAll r cs cs') :
    Task.PairedAll r (cs.map (.discharge b ty)) (cs'.map (.discharge b' ty)) :=
  List.forall₂_map_left_iff.2 (List.forall₂_map_right_iff.2
    (constraints.imp fun _ _ paired => .discharge onSlot ty paired))

theorem pairedAll_constrain {b b' : Nat} (onSlot : r b b') {cs cs' : List Constraint}
    (constraints : Constraint.PairedAll r cs cs') :
    Task.PairedAll r (cs.map (.constrain b)) (cs'.map (.constrain b')) :=
  List.forall₂_map_left_iff.2 (List.forall₂_map_right_iff.2
    (constraints.imp fun _ _ paired => .constrain onSlot paired))

theorem pairedAll_unify {pairs pairs' : List (Nat × Nat)} (paired : PairsPaired r pairs pairs') :
    Task.PairedAll r (pairs.map fun (a, b) => .unify a b) (pairs'.map fun (a, b) => .unify a b) :=
  List.forall₂_map_left_iff.2 (List.forall₂_map_right_iff.2
    (paired.imp fun _ _ both => .unify both.1 both.2))

theorem pairedAll_assign {slots slots' : List Nat} (paired : List.Forall₂ r slots slots')
    (types : List Ty) : Task.PairedAll r (List.zipWith Task.assign slots types)
      (List.zipWith Task.assign slots' types) := by
  induction paired generalizing types with
  | nil => exact .nil
  | cons first _ ih => cases types with
    | nil => exact .nil
    | cons ty types => exact .cons (.assign first ty) (ih types)

theorem discharge_matched (catalog : Catalog) (s s' : Solver) (a a' : Nat) {c c' : Constraint}
    (paired : c.Paired r c') (ty : Ty) :
    Except.Matched (Task.PairedAll r) (s.discharge catalog a ty c)
      (s'.discharge catalog a' ty c') := by
  cases paired with
  | arithmetic =>
    simp only [Solver.discharge]
    split
    · exact .ok .nil
    · exact .error
  | enumerableOf onElement =>
    simp only [Solver.discharge]
    split
    · exact .ok (.cons (.assign onElement _) .nil)
    · exact .error
  | arrayOf onElement =>
    cases ty with
    | array e => exact .ok (.cons (.assign onElement _) .nil)
    | _ => exact .error
  | optionalOf onInner => exact .ok (.cons (.assign onInner _) .nil)
  | lambda onParams onResult =>
    cases ty with
    | lambda types resultTy =>
      simp only [Solver.discharge, onParams.length_eq]
      split
      · exact .ok (List.rel_append (pairedAll_assign onParams types)
          (.cons (.assign onResult resultTy) .nil))
      · exact .error
    | _ => exact .error
  | property name onSlot =>
    simp only [Solver.discharge]
    split
    · exact .ok (.cons (.expect onSlot _ .outOf) .nil)
    · exact .ok .nil

end

/-! What may happen on both sides. -/

namespace Solver

/-- From solvers that looked alike to solvers that look alike. Slots that were paired still are, new
slots are paired with new ones, and nothing has changed elsewhere. -/
structure Grows (r : Pairing) (s s' : Solver) (r' : Pairing) (t t' : Solver) : Prop where
  alike : LookAlike r' t t'
  old : r.Le r'
  new : ∀ {a a' : Nat}, r' a a' → r a a' ∨ s.cells.size ≤ a ∧ s'.cells.size ≤ a'
  covers : ∀ {a : Nat}, s.cells.size ≤ a → a < t.cells.size → r'.Dom a
  covers' : ∀ {a' : Nat}, s'.cells.size ≤ a' → a' < t'.cells.size → r'.Cod a'
  spares : Spares r.Dom s t
  spares' : Spares r.Cod s' t'

namespace Grows

variable {r r' r'' : Pairing} {s s' t t' u u' : Solver}

theorem trans (first : Grows r s s' r' t t') (second : Grows r' t t' r'' u u') :
    Grows r s s' r'' u u' where
  alike := second.alike
  old _ _ paired := second.old (first.old paired)
  new paired := by
    have size := first.spares.size
    have size' := first.spares'.size
    rcases second.new paired with old | new
    · exact first.new old
    · exact .inr (by omega)
  covers {a} le lt := by
    by_cases old : a < t.cells.size
    · obtain ⟨a', paired⟩ := first.covers le old
      exact ⟨a', second.old paired⟩
    · exact second.covers (by omega) lt
  covers' {a'} le lt := by
    by_cases old : a' < t'.cells.size
    · obtain ⟨a, paired⟩ := first.covers' le old
      exact ⟨a, second.old paired⟩
    · exact second.covers' (by omega) lt
  spares := first.spares.trans second.spares fun a lt ⟨a', paired⟩ => by
    rcases first.new paired with old | new
    · exact ⟨a', old⟩
    · omega
  spares' := first.spares'.trans second.spares' fun a' lt ⟨a, paired⟩ => by
    rcases first.new paired with old | new
    · exact ⟨a, old⟩
    · omega

/-- Without new slots there are no new pairs. -/
theorem of_size_eq (alike : LookAlike r t t') (spares : Spares r.Dom s t)
    (spares' : Spares r.Cod s' t') (size : t.cells.size = s.cells.size)
    (size' : t'.cells.size = s'.cells.size) : Grows r s s' r t t' where
  alike := alike
  old := .refl r
  new := .inl
  covers le lt := by omega
  covers' le lt := by omega
  spares := spares
  spares' := spares'

theorem refl (h : LookAlike r s s') : Grows r s s' r s s' :=
  .of_size_eq h (.refl _ s) (.refl _ s') rfl rfl

/-- Neither side changes in a way that can be seen. -/
theorem intact (h : LookAlike r s s') (first : Intact s t) (second : Intact s' t')
    (size : t.cells.size = s.cells.size) (size' : t'.cells.size = s'.cells.size) :
    Grows r s s' r t t' :=
  .of_size_eq (h.intact first second) (first.mono fun _ none => none.elim)
    (second.mono fun _ none => none.elim) size size'

theorem setBelief (h : LookAlike r s s') {x x' : Nat} {cs : List Constraint} (leaders : r x x')
    (leads : s.leader? x = some x) (leads' : s'.leader? x' = some x')
    (has : s.belief x = .unknown cs) {b b' : Belief} (believed : b.Paired r b') :
    Grows r s s' r (s.setBelief x b) (s'.setBelief x' b') := by
  refine .of_size_eq (h.setBelief leaders leads leads' has believed)
    (.setBelief leads has ⟨x', leaders⟩ b) ?_ (size_setBelief ..) (size_setBelief ..)
  cases h.view leaders with
  | known known => rw [has] at known; cases known
  | unknown _ _ _ _ _ has' => exact .setBelief leads' has' ⟨x, leaders⟩ b'

/-- A type is learnt, and nothing else that can be seen. -/
theorem setBelief_intact (h : LookAlike r s s') {x x' : Nat} {cs : List Constraint}
    (leaders : r x x') (leads : s.leader? x = some x) (leads' : s'.leader? x' = some x')
    (has : s.belief x = .unknown cs) {ty : Ty} (first : Intact (s.setBelief x (.known ty)) t)
    (second : Intact (s'.setBelief x' (.known ty)) t') (size : t.cells.size = s.cells.size)
    (size' : t'.cells.size = s'.cells.size) : Grows r s s' r t t' := by
  have learnt := Grows.setBelief h leaders leads leads' has (.known ty)
  exact learnt.trans (.intact learnt.alike first second (by rw [size, size_setBelief])
    (by rw [size', size_setBelief]))

theorem setOverload (h : LookAlike r s s') {a a' : Nat} (paired : r a a') (notRoot : a ≠ 0)
    (notRoot' : a' ≠ 0) (o : Overload) :
    Grows r s s' r (s.setOverload a o) (s'.setOverload a' o) :=
  .of_size_eq (h.setOverload paired o) (.setOverload ⟨a', paired⟩ notRoot o)
    (.setOverload ⟨a, paired⟩ notRoot' o) (size_setOverload ..) (size_setOverload ..)

theorem fresh (h : LookAlike r s s') {a a' : Nat} (like : r a a') {b b' : Belief}
    (believed : b.Paired r b') :
    Grows r s s' (r.add s.cells.size s'.cells.size) (s.fresh a b).2 (s'.fresh a' b').2 where
  alike := h.fresh like believed
  old _ _ := .inl
  new paired := paired.imp_right fun ⟨isNew, isNew'⟩ => by omega
  covers le lt := ⟨s'.cells.size, .inr ⟨by rw [size_fresh] at lt; omega, rfl⟩⟩
  covers' le lt := ⟨s.cells.size, .inr ⟨rfl, by rw [size_fresh] at lt; omega⟩⟩
  spares := .fresh _ s a b
  spares' := .fresh _ s' a' b'

/-- Without new pairs there are no new slots. -/
theorem size_eq (h : LookAlike r s s') (grows : Grows r s s' r t t') :
    t.cells.size = s.cells.size ∧ t'.cells.size = s'.cells.size := by
  constructor
  · refine Nat.le_antisymm (Nat.le_of_not_lt fun more => ?_) grows.spares.size
    obtain ⟨a', paired⟩ := grows.covers (Nat.le_refl _) more
    exact Nat.lt_irrefl _ (h.lt_size paired).1
  · refine Nat.le_antisymm (Nat.le_of_not_lt fun more => ?_) grows.spares'.size
    obtain ⟨a, paired⟩ := grows.covers' (Nat.le_refl _) more
    exact Nat.lt_irrefl _ (h.lt_size paired).2

end Grows

/-! One task. -/

section

variable (catalog : Catalog) {r : Pairing} {s s' : Solver} {a b x y : Nat} {ty : Ty}

/-- The leaders of different classes. -/
theorem leader_ne_of_belief (ledA : s.leader? a = some x) (ledB : s.leader? b = some y)
    (different : s.belief a ≠ s.belief b) : x ≠ y := by
  rintro rfl
  exact different (belief_congr ledA ledB)

theorem size_union (ledA : s.leader? a = some x) (ledB : s.leader? b = some y) (different : x ≠ y)
    (belief : Belief) : (s.union x y belief).2.cells.size = s.cells.size :=
  (union_spec (leader?_self ledA) (leader?_self ledB) different belief).2.1

/-- Unifying slots of one known type does nothing that can be seen. -/
theorem step_unify_known (hasA : s.belief a = .known ty) (hasB : s.belief b = .known ty) :
    ∃ t, s.step catalog (.unify a b) = .ok ([], t) ∧ Intact s t ∧
      t.cells.size = s.cells.size := by
  obtain ⟨x, ledA⟩ := leader?_of_known hasA
  obtain ⟨y, ledB⟩ := leader?_of_known hasB
  have leadsX := leader?_self ledA
  have leadsY := leader?_self ledB
  by_cases same : x = y
  · exact ⟨s, by simp [step, ledA, ledB, same], .refl _ s, rfl⟩
  · refine ⟨(s.union x y (.known ty)).2, by simp [step, ledA, ledB, same, hasA, hasB], ?_,
      size_union ledA ledB same _⟩
    have hasX : s.belief x = .known ty := (belief_congr leadsX ledA).trans hasA
    have hasY : s.belief y = .known ty := (belief_congr leadsY ledB).trans hasB
    exact (Spares.setBelief_known leadsY hasY).trans
      (.union_known leadsX leadsY same (belief_setBelief_of_known leadsX hasX)) fun _ _ none => none

theorem step_unify_mismatch {ty' : Ty} (hasA : s.belief a = .known ty)
    (hasB : s.belief b = .known ty') (different : ty ≠ ty') :
    ∃ e, s.step catalog (.unify a b) = .error e := by
  obtain ⟨x, ledA⟩ := leader?_of_known hasA
  obtain ⟨y, ledB⟩ := leader?_of_known hasB
  have apart := leader_ne_of_belief ledA ledB (by rw [hasA, hasB]; simpa using different)
  exact ⟨_, by simp [step, ledA, ledB, apart, hasA, hasB, different]; rfl⟩

/-- Unifying a slot of unknown type with one of known type is learning the type. -/
theorem step_unify_right {cs : List Constraint} (ledB : s.leader? b = some y)
    (hasA : s.belief a = .known ty) (hasB : s.belief b = .unknown cs) :
    ∃ t, s.step catalog (.unify a b) = .ok (cs.map (.discharge b ty), t) ∧
      Intact (s.setBelief y (.known ty)) t ∧ t.cells.size = s.cells.size := by
  obtain ⟨x, ledA⟩ := leader?_of_known hasA
  have leadsX := leader?_self ledA
  have apart := leader_ne_of_belief ledA ledB (by rw [hasA, hasB]; simp)
  have hasX : s.belief x = .known ty := (belief_congr leadsX ledA).trans hasA
  refine ⟨(s.union x y (.known ty)).2, by simp [step, ledA, ledB, apart, hasA, hasB], ?_,
    size_union ledA ledB apart _⟩
  exact .union_known leadsX (leader?_self ledB) apart (belief_setBelief_of_known leadsX hasX)

theorem step_unify_left {cs : List Constraint} (ledA : s.leader? a = some x)
    (hasA : s.belief a = .unknown cs) (hasB : s.belief b = .known ty) :
    ∃ t, s.step catalog (.unify a b) = .ok (cs.map (.discharge b ty), t) ∧
      Intact (s.setBelief x (.known ty)) t ∧ t.cells.size = s.cells.size := by
  obtain ⟨y, ledB⟩ := leader?_of_known hasB
  have leadsY := leader?_self ledB
  have apart := leader_ne_of_belief ledA ledB (by rw [hasA, hasB]; simp)
  have hasY : s.belief y = .known ty := (belief_congr leadsY ledB).trans hasB
  refine ⟨(s.union x y (.known ty)).2, by simp [step, ledA, ledB, apart, hasA, hasB], ?_,
    size_union ledA ledB apart _⟩
  refine .union_known (leader?_self ledA) leadsY apart fun a => ?_
  rw [belief_setBelief_of_known leadsY hasY]
  simp only [or_comm]

variable {a' b' : Nat}

/-- What is left of a task is the same on both sides. -/
abbrev StepsAlike (r : Pairing) (s s' : Solver) (p p' : List Task × Solver) : Prop :=
  Task.PairedAll r p.1 p'.1 ∧ Grows r s s' r p.2 p'.2

theorem step_assign_matched (h : LookAlike r s s') (paired : r a a') (ty : Ty) :
    Except.Matched (StepsAlike r s s') (s.step catalog (.assign a ty))
      (s'.step catalog (.assign a' ty)) := by
  cases h.view paired with
  | @known old has has' =>
    obtain ⟨_, led⟩ := leader?_of_known has
    obtain ⟨_, led'⟩ := leader?_of_known has'
    simp only [step, led, led', has, has']
    split
    · exact .ok ⟨.nil, .refl h⟩
    · exact .error
  | unknown led led' leaders ranks has has' constraints =>
    simp only [step, led, led', has, has']
    refine .ok ⟨pairedAll_discharge paired ty constraints, ?_⟩
    have leads := leader?_self led
    exact .setBelief h leaders leads (leader?_self led') ((belief_congr leads led).trans has)
      (.known ty)

theorem step_expect_matched (h : LookAlike r s s') (paired : r a a') (ty : Ty) (flow : Flow) :
    Except.Matched (StepsAlike r s s') (s.step catalog (.expect a ty flow))
      (s'.step catalog (.expect a' ty flow)) := by
  cases h.view paired with
  | @known old has has' =>
    simp only [step, has, has']
    cases flow.fault? old ty with
    | none => exact .ok ⟨.nil, .refl h⟩
    | some fault => exact .error
  | unknown led led' leaders ranks has has' constraints =>
    simp only [step, has, has']
    exact .ok ⟨.cons (.assign paired ty) .nil, .refl h⟩

theorem step_constrain_matched (h : LookAlike r s s') (paired : r a a') {c c' : Constraint}
    (pairedC : c.Paired r c') :
    Except.Matched (StepsAlike r s s') (s.step catalog (.constrain a c))
      (s'.step catalog (.constrain a' c')) := by
  cases h.view paired with
  | @known ty has has' =>
    obtain ⟨_, led⟩ := leader?_of_known has
    obtain ⟨_, led'⟩ := leader?_of_known has'
    simp only [step, led, led', has, has']
    exact .ok ⟨.cons (.discharge paired ty pairedC) .nil, .refl h⟩
  | @unknown old old' _ _ led led' leaders ranks has has' constraints =>
    simp only [step, led, led', has, has']
    have met := pairedC.meetAll constraints
    generalize meetAll c old = m, meetAll c' old' = m' at met
    cases met with
    | error => exact .error
    | @ok p p' both =>
      obtain ⟨there, pairs⟩ := p
      obtain ⟨_, pairs'⟩ := p'
      obtain ⟨rfl, pairedPairs⟩ := both
      refine .ok ⟨pairedAll_unify pairedPairs, ?_⟩
      cases there with
      | true => exact .refl h
      | false =>
        have leads := leader?_self led
        exact .setBelief h leaders leads (leader?_self led') ((belief_congr leads led).trans has)
          (.unknown (List.rel_append constraints (.cons pairedC .nil)))

theorem step_unify_matched (h : LookAlike r s s') (pairedA : r a a') (pairedB : r b b') :
    Except.Matched (StepsAlike r s s') (s.step catalog (.unify a b))
      (s'.step catalog (.unify a' b')) := by
  cases h.view pairedA with
  | @known ty hasA hasA' => cases h.view pairedB with
    | @known ty' hasB hasB' =>
      by_cases same : ty = ty'
      · obtain rfl := same
        obtain ⟨t, stepped, intact, size⟩ := step_unify_known catalog hasA hasB
        obtain ⟨t', stepped', intact', size'⟩ := step_unify_known catalog hasA' hasB'
        rw [stepped, stepped']
        exact .ok ⟨.nil, .intact h intact intact' size size'⟩
      · obtain ⟨e, failed⟩ := step_unify_mismatch catalog hasA hasB same
        obtain ⟨e', failed'⟩ := step_unify_mismatch catalog hasA' hasB' same
        rw [failed, failed']
        exact .error
    | unknown ledB ledB' leaders ranks hasB hasB' constraints =>
      obtain ⟨t, stepped, intact, size⟩ := step_unify_right catalog ledB hasA hasB
      obtain ⟨t', stepped', intact', size'⟩ := step_unify_right catalog ledB' hasA' hasB'
      rw [stepped, stepped']
      refine .ok ⟨pairedAll_discharge pairedB ty constraints, ?_⟩
      have leads := leader?_self ledB
      exact .setBelief_intact h leaders leads (leader?_self ledB')
        ((belief_congr leads ledB).trans hasB) intact intact' size size'
  | unknown ledA ledA' leadersA ranksA hasA hasA' constraintsA => cases h.view pairedB with
    | @known ty hasB hasB' =>
      obtain ⟨t, stepped, intact, size⟩ := step_unify_left catalog ledA hasA hasB
      obtain ⟨t', stepped', intact', size'⟩ := step_unify_left catalog ledA' hasA' hasB'
      rw [stepped, stepped']
      refine .ok ⟨pairedAll_discharge pairedB ty constraintsA, ?_⟩
      have leads := leader?_self ledA
      exact .setBelief_intact h leadersA leads (leader?_self ledA')
        ((belief_congr leads ledA).trans hasA) intact intact' size size'
    | unknown ledB ledB' leadersB ranksB hasB hasB' constraintsB =>
      have same := h.eq_iff leadersA leadersB
      simp only [step, ledA, ledA', ledB, ledB', same]
      split
      · exact .ok ⟨.nil, .refl h⟩
      · rename_i different'
        have different := fun isSame => different' (same.1 isSame)
        have leadsA := leader?_self ledA
        have leadsB := leader?_self ledB
        have leadsA' := leader?_self ledA'
        have leadsB' := leader?_self ledB'
        have ownA := (belief_congr leadsA ledA).trans hasA
        have ownB := (belief_congr leadsB ledB).trans hasB
        simp only [hasA, hasA', hasB, hasB']
        obtain ⟨winners, alike⟩ := h.union_unknown leadersA leadersB leadsA leadsB leadsA' leadsB'
          different ownA ownB
        refine .ok ⟨pairedAll_constrain winners (List.rel_append constraintsA constraintsB), ?_⟩
        have ownA' := (belief_congr leadsA' ledA').trans hasA'
        have ownB' := (belief_congr leadsB' ledB').trans hasB'
        exact .of_size_eq alike
          (.union_unknown leadsA leadsB different ownA ownB ⟨_, leadersA⟩ ⟨_, leadersB⟩ _)
          (.union_unknown leadsA' leadsB' different' ownA' ownB' ⟨_, leadersA⟩ ⟨_, leadersB⟩ _)
          (size_union ledA ledB different _) (size_union ledA' ledB' different' _)

theorem step_matched (h : LookAlike r s s') {task task' : Task} (paired : task.Paired r task') :
    Except.Matched (StepsAlike r s s') (s.step catalog task) (s'.step catalog task') := by
  cases paired with
  | assign onSlot ty => exact step_assign_matched catalog h onSlot ty
  | expect onSlot ty flow => exact step_expect_matched catalog h onSlot ty flow
  | constrain onSlot onConstraint => exact step_constrain_matched catalog h onSlot onConstraint
  | unify onFirst onSecond => exact step_unify_matched catalog h onFirst onSecond
  | @discharge a a' onSlot ty c c' onConstraint =>
    have left := discharge_matched catalog s s' a a' onConstraint ty
    simp only [step]
    generalize s.discharge catalog a ty c = d, s'.discharge catalog a' ty c' = d' at left
    cases left with
    | ok tasks => exact .ok ⟨tasks, .refl h⟩
    | error => exact .error

/-- Narrowing does the same on both sides, task by task. -/
theorem narrow_matched (h : LookAlike r s s') {tasks tasks' : List Task}
    (paired : Task.PairedAll r tasks tasks') :
    Except.Matched (fun t t' => Grows r s s' r t t') (s.narrow catalog tasks)
      (s'.narrow catalog tasks') := by
  fun_induction narrow catalog tasks s generalizing tasks' s' with
  | case1 s =>
    cases paired
    rw [narrow]
    exact .ok (.refl h)
  | case2 s task rest e failed => cases paired with
    | cons first others =>
      have stepped := step_matched catalog h first
      rw [failed] at stepped
      rw [Respelling.narrow_eq]
      generalize s'.step catalog _ = p' at stepped
      cases stepped
      exact .error
  | case3 s task rest left t taken ih => cases paired with
    | cons first others =>
      have stepped := step_matched catalog h first
      rw [taken] at stepped
      rw [Respelling.narrow_eq]
      generalize s'.step catalog _ = p' at stepped
      cases stepped with
      | @ok _ p' both =>
        obtain ⟨left', t'⟩ := p'
        obtain ⟨pairedLeft, grows⟩ := both
        exact (ih grows.alike (List.rel_append pairedLeft others)).imp fun grows' =>
          grows.trans grows'

end

end Solver

end LambdaQuery
