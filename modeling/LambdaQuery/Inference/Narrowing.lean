import LambdaQuery.Inference.Potential

/-!
Narrowing: what follows from learning something about a slot. Each task either settles a question
at once or leaves further tasks, which are done first and in order.

Constraints may form cycles, so the tasks themselves need not get smaller. What gets smaller is
the number of classes and of unknown types; where neither does, the tasks that are left are
simpler than the one that was done.
-/

namespace LambdaQuery

/-- Which way a value goes when a slot meets a type. -/
inductive Flow where
  /-- The slot's value goes where the type is expected. -/
  | into
  /-- A value of the type goes into the slot. -/
  | outOf
  | exact
deriving DecidableEq, Repr

/-- What is wrong, if anything, when a slot of a known type meets another. -/
def Flow.fault? (flow : Flow) (known other : Ty) : Option TypeFault :=
  match flow with
  | into => if other.assignable known then none else some (.mismatch other known)
  | outOf => if known.assignable other then none else some (.mismatch known other)
  | exact => if other = known then none else some (.mismatch other known)

inductive Task where
  /-- The slot has exactly this type. -/
  | assign (slot : Nat) (ty : Ty)
  /-- The slot has this type if its type is unknown; otherwise its type goes with this one. -/
  | expect (slot : Nat) (ty : Ty) (flow : Flow)
  /-- The slot has this type, and so the constraint holds of the type. -/
  | discharge (slot : Nat) (ty : Ty) (constraint : Constraint)
  /-- The constraint holds of the slot. -/
  | constrain (slot : Nat) (constraint : Constraint)
  /-- The slots have the same type. -/
  | unify (a b : Nat)
deriving Repr

namespace Solver

/-- What a constraint means for the slots it speaks of, once the type is known. A property that
the type does not have is left to whoever resolves its name. -/
def discharge (catalog : Catalog) (s : Solver) (slot : Nat) (ty : Ty) :
    Constraint → Except TypeError (List Task)
  | .arithmetic =>
    if ty.isArithmetic then .ok [] else .error (s.blame slot (.notArithmetic ty))
  | .enumerableOf element =>
    match ty.element? with
    | some e => .ok [.assign element e]
    | none => .error (s.blame slot (.shapeMismatch .sequence ty))
  | .arrayOf element =>
    match ty with
    | .array e => .ok [.assign element e]
    | _ => .error (s.blame slot (.shapeMismatch .array ty))
  | .optionalOf inner => .ok [.assign inner ty.underlying]
  | .lambda params result =>
    match ty with
    | .lambda types resultTy =>
      if types.length = params.length then
        .ok (List.zipWith Task.assign params types ++ [.assign result resultTy])
      else
        .error (s.blame slot (.shapeMismatch .lambda ty))
    | _ => .error (s.blame slot (.shapeMismatch .lambda ty))
  | .property name slot' =>
    match (catalog.describe ty).bind (·.property? name) with
    | some p => .ok [.expect slot' p.ty .outOf]
    | none => .ok []

/-- A new constraint among the old ones: whether it is there already, and which slots must then
have the same types. The first conflict is reported by what the old constraint requires. -/
def meetAll (new : Constraint) : List Constraint → Except Requirement (Bool × List (Nat × Nat))
  | [] => .ok (false, [])
  | old :: rest =>
    match old.meet new with
    | .conflict => .error old.requirement
    | .unrelated => meetAll new rest
    | .same pairs => (meetAll new rest).map fun (_, more) => (true, pairs ++ more)
    | .beside pairs => (meetAll new rest).map fun (there, more) => (there, pairs ++ more)

/-- Do one task: the tasks it leaves, and what is known then. -/
def step (catalog : Catalog) (s : Solver) : Task → Except TypeError (List Task × Solver)
  | .assign slot ty =>
    match s.leader? slot with
    | none => .ok ([], s)
    | some leader =>
      match s.belief slot with
      | .known old =>
        if old = ty then .ok ([], s) else .error (s.blame slot (.mismatch old ty))
      | .unknown constraints =>
        .ok (constraints.map (.discharge slot ty), s.setBelief leader (.known ty))
  | .expect slot ty flow =>
    match s.belief slot with
    | .known old =>
      match flow.fault? old ty with
      | none => .ok ([], s)
      | some fault => .error (s.blame slot fault)
    | .unknown _ => .ok ([.assign slot ty], s)
  | .discharge slot ty constraint =>
    match s.discharge catalog slot ty constraint with
    | .ok tasks => .ok (tasks, s)
    | .error e => .error e
  | .constrain slot constraint =>
    match s.leader? slot with
    | none => .ok ([], s)
    | some leader =>
      match s.belief slot with
      | .known ty => .ok ([.discharge slot ty constraint], s)
      | .unknown old =>
        match meetAll constraint old with
        | .error first =>
          .error (s.blame slot (.overconstrained first constraint.requirement))
        | .ok (there, pairs) =>
          let s := if there then s else s.setBelief leader (.unknown (old ++ [constraint]))
          .ok (pairs.map fun (a, b) => .unify a b, s)
  | .unify a b =>
    match s.leader? a, s.leader? b with
    | some x, some y =>
      if x = y then .ok ([], s)
      else
        match s.belief a, s.belief b with
        | .known ty, .known ty' =>
          let (_, s) := s.union x y (.known ty)
          if ty = ty' then .ok ([], s) else .error (s.blame b (.mismatch ty ty'))
        | .known ty, .unknown constraints | .unknown constraints, .known ty =>
          let (_, s) := s.union x y (.known ty)
          .ok (constraints.map (.discharge b ty), s)
        | .unknown constraints, .unknown constraints' =>
          let (leader, s) := s.union x y (.unknown [])
          .ok ((constraints ++ constraints').map (.constrain leader), s)
    | _, _ => .ok ([], s)

/-! Narrowing ends. -/

/-- How much a task that is not a new constraint can leave behind. -/
def effort : Task → Nat
  | .assign .. => 1
  | .expect .. => 2
  | .discharge _ _ c => 3 + c.components.length
  | .constrain .. => 0
  | .unify .. => 1

def efforts (tasks : List Task) : Nat :=
  tasks.foldr (fun task rest => effort task + rest) 0

def isConstrain : Task → Bool
  | .constrain .. => true
  | _ => false

/-- How much there is to do: what is to be learnt counts most, then new constraints. -/
def load (tasks : List Task) (s : Solver) : Nat × Nat × Nat :=
  (s.potential, tasks.countP isConstrain, efforts tasks)

@[simp] theorem efforts_nil : efforts [] = 0 := rfl

@[simp] theorem efforts_cons (task : Task) (tasks : List Task) :
    efforts (task :: tasks) = effort task + efforts tasks := rfl

@[simp] theorem efforts_append (tasks tasks' : List Task) :
    efforts (tasks ++ tasks') = efforts tasks + efforts tasks' := by
  induction tasks with
  | nil => simp
  | cons task tasks ih => simp [ih, Nat.add_assoc]

theorem countP_zipWith_assign (slots : List Nat) (types : List Ty) :
    (List.zipWith Task.assign slots types).countP isConstrain = 0 := by
  induction slots generalizing types with
  | nil => rfl
  | cons slot slots ih =>
    cases types with
    | nil => rfl
    | cons ty types => rw [List.zipWith_cons_cons, List.countP_cons, ih types]; rfl

theorem efforts_zipWith_assign (slots : List Nat) (types : List Ty) :
    efforts (List.zipWith Task.assign slots types) ≤ slots.length := by
  induction slots generalizing types with
  | nil => simp
  | cons slot slots ih =>
    cases types with
    | nil => simp
    | cons ty types =>
      have := ih types
      simp only [List.zipWith_cons_cons, efforts_cons, effort, List.length_cons]
      omega

theorem countP_map_eq_zero {α : Type} {f : α → Task} (h : ∀ a, isConstrain (f a) = false)
    (as : List α) : (as.map f).countP isConstrain = 0 := by
  simp [List.countP_map, Function.comp_def, h]

/-- What is left of a constraint on a known type is simpler than the constraint. -/
theorem discharge_ok {catalog : Catalog} {s : Solver} {slot : Nat} {ty : Ty} {c : Constraint}
    {tasks : List Task} (h : s.discharge catalog slot ty c = .ok tasks) :
    tasks.countP isConstrain = 0 ∧ efforts tasks < 3 + c.components.length := by
  unfold discharge at h
  split at h
  case h_5 params result =>
    split at h
    · split at h
      · cases h
        rename_i types _ _
        have := efforts_zipWith_assign params types
        simp only [List.countP_append, countP_zipWith_assign, List.countP_singleton, isConstrain,
          efforts_append, efforts_cons, efforts_nil, effort, Constraint.components,
          List.length_append, List.length_singleton]
        exact ⟨rfl, by omega⟩
      · cases h
    · cases h
  all_goals
    repeat' split at h
  all_goals cases h
  all_goals simp [effort, isConstrain, Constraint.components]

/-- Every task leaves less to do. -/
theorem step_lt {catalog : Catalog} {s s' : Solver} {task : Task} {tasks rest : List Task}
    (h : s.step catalog task = .ok (tasks, s')) :
    Prod.Lex (· < ·) (Prod.Lex (· < ·) (· < ·)) (load (tasks ++ rest) s')
      (load (task :: rest) s) := by
  have learnt (lt : s'.potential < s.potential) : Prod.Lex (· < ·) (Prod.Lex (· < ·) (· < ·))
      (load (tasks ++ rest) s') (load (task :: rest) s) := .left _ _ lt
  have simpler (same : s' = s) (count : tasks.countP isConstrain = 0)
      (lt : efforts tasks < effort task) (plain : isConstrain task = false) :
      Prod.Lex (· < ·) (Prod.Lex (· < ·) (· < ·)) (load (tasks ++ rest) s')
        (load (task :: rest) s) := by
    subst same
    simp only [load, List.countP_append, count, List.countP_cons, plain, efforts_append,
      efforts_cons, Nat.zero_add, Bool.false_eq_true, if_false, Nat.add_zero]
    exact .right _ (.right _ (by omega))
  cases task with
  | assign slot ty =>
    simp only [step] at h
    split at h
    · cases h
      exact simpler rfl rfl (by simp [effort]) rfl
    · split at h
      · split at h
        · cases h
          exact simpler rfl rfl (by simp [effort]) rfl
        · cases h
      · cases h
        exact learnt (potential_setBelief_known ‹_› ‹_› ty)
  | expect slot ty flow =>
    simp only [step] at h
    split at h
    · split at h
      · cases h
        exact simpler rfl rfl (by simp [effort]) rfl
      · cases h
    · cases h
      exact simpler rfl rfl (by simp [effort]) rfl
  | discharge slot ty c =>
    simp only [step] at h
    split at h
    · cases h
      have := discharge_ok ‹_›
      exact simpler rfl this.1 this.2 rfl
    · cases h
  | constrain slot c =>
    have fewer (le : s'.potential ≤ s.potential) (count : tasks.countP isConstrain = 0) :
        Prod.Lex (· < ·) (Prod.Lex (· < ·) (· < ·)) (load (tasks ++ rest) s')
          (load (.constrain slot c :: rest) s) := by
      rcases Nat.lt_or_eq_of_le le with lt | eq
      · exact learnt lt
      · simp only [load, eq, List.countP_append, count, List.countP_cons, isConstrain, if_true]
        exact .right _ (.left _ _ (by omega))
    simp only [step] at h
    split at h
    · cases h
      exact fewer (Nat.le_refl _) rfl
    · split at h
      · cases h
        exact fewer (Nat.le_refl _) rfl
      · split at h
        · cases h
        · cases h
          refine fewer ?_ (countP_map_eq_zero (fun _ => rfl) _)
          split
          · exact Nat.le_refl _
          · exact potential_setBelief_unknown ‹_› ‹_› _
  | unify a b =>
    simp only [step] at h
    split at h
    · split at h
      · cases h
        exact simpler rfl rfl (by simp [effort]) rfl
      · rename_i hx hy hne
        split at h
        · split at h
          · cases h
            exact learnt (potential_union hx hy hne (by simp [*, slackOf]) (by simp [*, slackOf]))
          · cases h
        · cases h
          exact learnt (potential_union hx hy hne (by simp [*, slackOf]) (by simp [*, slackOf]))
        · cases h
          exact learnt (potential_union hx hy hne (by simp [*, slackOf]) (by simp [*, slackOf]))
        · cases h
          exact learnt (potential_union hx hy hne (by simp [*, slackOf]) (by simp [*, slackOf]))
    · cases h
      exact simpler rfl rfl (by simp [effort]) rfl

/-- Do the tasks, and all that follows from them. -/
def narrow (catalog : Catalog) (tasks : List Task) (s : Solver) : Except TypeError Solver :=
  match tasks with
  | [] => .ok s
  | task :: rest =>
    match _h : s.step catalog task with
    | .error e => .error e
    | .ok (left, s') => narrow catalog (left ++ rest) s'
termination_by load tasks s
decreasing_by exact step_lt ‹_›

theorem step_potential_le {catalog : Catalog} {s s' : Solver} {task : Task} {tasks : List Task}
    (h : s.step catalog task = .ok (tasks, s')) : s'.potential ≤ s.potential := by
  have lt : Prod.Lex _ _ (load (tasks ++ []) s') (load (task :: []) s) := step_lt h
  generalize hl : load (tasks ++ []) s' = l at lt
  generalize hr : load [task] s = r at lt
  cases lt with
  | left _ _ lt =>
    cases hl
    cases hr
    exact Nat.le_of_lt lt
  | right _ lt =>
    cases hl
    injection hr with hr
    exact Nat.le_of_eq hr.symm

/-- After learning something there is no more left to learn than before. -/
theorem narrow_potential_le {catalog : Catalog} {tasks : List Task} {s s' : Solver}
    (h : s.narrow catalog tasks = .ok s') : s'.potential ≤ s.potential := by
  fun_induction narrow catalog tasks s with
  | case1 => cases h; exact Nat.le_refl _
  | case2 => cases h
  | case3 s task rest left s' hs ih => exact Nat.le_trans (ih h) (step_potential_le hs)

/-- Giving a class of unknown type a type leaves less to learn. -/
theorem narrow_assign_lt {catalog : Catalog} {slot leader : Nat} {cs : List Constraint} {ty : Ty}
    {s s' : Solver} (hl : s.leader? slot = some leader) (hb : s.belief slot = .unknown cs)
    (h : s.narrow catalog [.assign slot ty] = .ok s') : s'.potential < s.potential := by
  have first : s.step catalog (.assign slot ty) =
      .ok (cs.map (.discharge slot ty), s.setBelief leader (.known ty)) := by
    simp only [step, hl, hb]
  rw [narrow] at h
  split at h
  · cases h
  · rename_i left t taken
    cases first.symm.trans taken
    exact Nat.lt_of_le_of_lt (narrow_potential_le h) (potential_setBelief_known hl hb ty)

end Solver

end LambdaQuery
