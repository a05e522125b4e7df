import Mathlib.Data.List.Forall2
import LambdaQuery.Proofs.Inference.Traces

/-!
# Nothing that is learnt is lost

A slot of known type keeps it, slots of one class stay together, and a constraint on a slot stays
where it was put: among the constraints of its class as long as the type is not known, and true of
the type from then on.

While tasks are pending a constraint may be nowhere in sight. The class it was kept with has gone
into another, or it was taken for one whose slots are yet to be unified with its own. What holds at
every moment is that it is there up to any equality of slots that agrees with the classes and with
the unifications still to come.
-/

namespace LambdaQuery

/-! Constraints up to their slots. -/

namespace Constraint

/-- The name of the property that is asked for, if it is one. -/
def name : Constraint → String
  | property name _ => name
  | _ => ""

/-- The same predicate, of slots that are related one by one. Names of properties are the same up
to case. -/
structure Matches (R : Nat → Nat → Prop) (c c' : Constraint) : Prop where
  requirement : c.requirement = c'.requirement
  name : Text.sameName c.name c'.name = true
  components : List.Forall₂ R c.components c'.components

namespace Matches

variable {R R' : Nat → Nat → Prop} {c c' c'' : Constraint}

theorem refl (reflexive : ∀ a, R a a) (c : Constraint) : Matches R c c where
  requirement := rfl
  name := Text.sameName_refl _
  components := List.forall₂_same.2 fun a _ => reflexive a

theorem symm (symmetric : ∀ {a b : Nat}, R a b → R b a) (h : Matches R c c') : Matches R c' c where
  requirement := h.requirement.symm
  name := Text.sameName_symm h.name
  components := h.components.flip.imp fun _ _ => symmetric

theorem trans (transitive : ∀ {a b d : Nat}, R a b → R b d → R a d) (first : Matches R c c')
    (second : Matches R c' c'') : Matches R c c'' where
  requirement := first.requirement.trans second.requirement
  name := Text.sameName_trans first.name second.name
  components := by
    have onFirst := first.components
    have onSecond := second.components
    generalize c.components = as, c'.components = bs, c''.components = ds at onFirst onSecond
    induction onFirst generalizing ds with
    | nil => exact onSecond
    | cons related _ ih => cases onSecond with
      | cons related' rest => exact .cons (transitive related related') (ih _ rest)

theorem mono (h : Matches R c c') (imp : ∀ a b, b ∈ c'.components → R a b → R' a b) :
    Matches R' c c' where
  requirement := h.requirement
  name := h.name
  components := by
    obtain ⟨sameLength, related⟩ := List.forall₂_iff_zip.1 h.components
    refine List.forall₂_iff_zip.2 ⟨sameLength, fun mem => ?_⟩
    exact imp _ _ (List.of_mem_zip mem).2 (related mem)

/-- What meets as the same matches, once the slots that are paired are related. -/
theorem of_meet {old new : Constraint} {pairs : List (Nat × Nat)} (met : old.meet new = .same pairs)
    (related : ∀ p ∈ pairs, R p.1 p.2) : Matches R old new := by
  unfold meet at met
  split at met
  case h_7 params result params' result' =>
    split at met <;> cases met
    rename_i sameLength
    refine ⟨rfl, rfl, List.forall₂_iff_zip.2 ⟨by simp [Constraint.components, sameLength], ?_⟩⟩
    intro a b mem
    rw [Constraint.components, Constraint.components, List.zip_append sameLength] at mem
    exact related (a, b) mem
  case h_8 name a name' b =>
    split at met <;> cases met
    exact ⟨rfl, ‹_›, .cons (related (a, b) (by simp)) .nil⟩
  all_goals cases met
  case h_1 => exact ⟨rfl, rfl, .nil⟩
  all_goals exact ⟨rfl, rfl, .cons (related _ List.mem_cons_self) .nil⟩

theorem exists_meet (h : Matches R c c') :
    ∃ pairs, c.meet c' = .same pairs ∧ ∀ p ∈ pairs, R p.1 p.2 := by
  obtain ⟨requirement, sameName, components⟩ := h
  cases c <;> cases c' <;> cases requirement
  case arithmetic => exact ⟨[], rfl, by simp⟩
  case lambda params result params' result' =>
    obtain ⟨sameLength, related⟩ := List.forall₂_iff_zip.1 components
    have sameArity : params.length = params'.length := by
      simpa [Constraint.components] using sameLength
    refine ⟨params.zip params' ++ [(result, result')], if_pos sameArity, fun p mem => ?_⟩
    refine related ?_
    rwa [Constraint.components, Constraint.components, List.zip_append sameArity]
  case property name a name' b =>
    cases components with
    | cons related _ => exact ⟨[(a, b)], if_pos sameName, by simpa using related⟩
  all_goals
    cases components with
    | cons related _ => exact ⟨[(_, _)], rfl, by simpa using related⟩

/-- What a constraint says depends only on the types of its slots. -/
theorem holds {catalog : Catalog} {σ : Valuation} {ty : Ty} (h : Matches R c c')
    (agree : ∀ a b, R a b → σ a = σ b) (holds : c.Holds catalog σ ty) :
    c'.Holds catalog σ ty := by
  obtain ⟨pairs, met, related⟩ := h.exists_meet
  exact .of_meet met (fun p mem => agree _ _ (related p mem)) holds

end Matches

theorem Holds.mono {catalog : Catalog} {σ σ' : Valuation} {ty : Ty} {c : Constraint}
    (h : c.Holds catalog σ ty) (more : ∀ slot ty, σ slot = some ty → σ' slot = some ty) :
    c.Holds catalog σ' ty := by
  cases c with
  | arithmetic => exact h
  | enumerableOf e =>
    obtain ⟨element, isElement, has⟩ := h
    exact ⟨element, isElement, more e element has⟩
  | arrayOf e =>
    obtain ⟨element, isArray, has⟩ := h
    exact ⟨element, isArray, more e element has⟩
  | optionalOf e => exact more e _ h
  | lambda params result =>
    obtain ⟨types, resultTy, rfl, onParams, onResult⟩ := h
    refine ⟨types, resultTy, rfl, ?_, more result resultTy onResult⟩
    induction params generalizing types with
    | nil => exact onParams
    | cons param params ih => cases types with
      | nil => cases onParams
      | cons type types =>
        rw [List.map_cons, List.map_cons, List.cons.injEq] at onParams ⊢
        exact ⟨more param type onParams.1, ih types onParams.2⟩
  | property name e =>
    intro p found
    obtain ⟨given, has, fits⟩ := h p found
    exact ⟨given, more e given has, fits⟩

end Constraint

/-! What is kept. -/

namespace Solver

variable {catalog : Catalog} {s s' : Solver}

/-- Slots that must have the same type. -/
def SameClass (s : Solver) (a b : Nat) : Prop :=
  ∃ leader, s.leader? a = some leader ∧ s.leader? b = some leader

theorem SameClass.belief {a b : Nat} (h : s.SameClass a b) : s.belief a = s.belief b := by
  obtain ⟨leader, ledA, ledB⟩ := h
  exact belief_congr ledA ledB

/-- What was once required of a slot still is. If its type is known, the type is as required; if
not, its class is under a constraint that says the same. -/
def Kept (catalog : Catalog) (s : Solver) (slot : Nat) (c : Constraint) : Prop :=
  match s.belief slot with
  | .known ty => c.Holds catalog s.known? ty
  | .unknown constraints => ∃ c' ∈ constraints, c.Matches s.SameClass c'

/-! One task. -/

/-- What was believed of a slot is not forgotten: a known type stays, and a constraint stays, or the
type is known, or a task is left that adds the constraint to the class again. -/
structure Retains (s s' : Solver) (left : List Task) (slot : Nat) : Prop where
  known : (∃ ty, s.belief slot = .known ty) → ∃ ty, s'.belief slot = .known ty
  held : ∀ c ∈ (s.belief slot).constraints, (∃ ty, s'.belief slot = .known ty) ∨
    c ∈ (s'.belief slot).constraints ∨
    ∃ leader, s'.SameClass slot leader ∧ .constrain leader c ∈ left

theorem Retains.of_eq {left : List Task} {slot : Nat} (same : s'.belief slot = s.belief slot) :
    Retains s s' left slot := by
  constructor
  · rw [same]
    exact id
  · intro c mem
    exact .inr (.inl (same ▸ mem))

theorem Retains.of_known {left : List Task} {slot : Nat} {ty : Ty}
    (known : s'.belief slot = .known ty) : Retains s s' left slot :=
  ⟨fun _ => ⟨ty, known⟩, fun _ _ => .inl ⟨ty, known⟩⟩

section

variable {x y slot : Nat} (leadsX : s.leader? x = some x) (leadsY : s.leader? y = some y)
  (different : x ≠ y)

include leadsX leadsY different

theorem leader?_union (b : Belief) (either : s.leader? slot = some x ∨ s.leader? slot = some y) :
    (s.union x y b).2.leader? slot = some (s.union x y b).1 := by
  rw [((union_spec leadsX leadsY different b).2.2 slot).1, if_pos either]

theorem belief_union (b : Belief) (either : s.leader? slot = some x ∨ s.leader? slot = some y) :
    (s.union x y b).2.belief slot = b := by
  rw [((union_spec leadsX leadsY different b).2.2 slot).2, if_pos either]

theorem belief_union_of_ne (b : Belief)
    (neither : ¬(s.leader? slot = some x ∨ s.leader? slot = some y)) :
    (s.union x y b).2.belief slot = s.belief slot := by
  rw [((union_spec leadsX leadsY different b).2.2 slot).2, if_neg neither]

theorem leader?_union_self (b : Belief) :
    (s.union x y b).2.leader? (s.union x y b).1 = some (s.union x y b).1 := by
  apply leader?_union leadsX leadsY different
  rcases (union_spec leadsX leadsY different b).1 with isX | isY
  · exact .inl (by rw [isX, leadsX])
  · exact .inr (by rw [isY, leadsY])

/-- Slots of one class stay together when two classes become one. -/
theorem SameClass.union {a c : Nat} (h : s.SameClass a c) (b : Belief) :
    (s.union x y b).2.SameClass a c := by
  obtain ⟨leader, ledA, ledC⟩ := h
  by_cases either : s.leader? a = some x ∨ s.leader? a = some y
  · refine ⟨_, leader?_union leadsX leadsY different b either, ?_⟩
    exact leader?_union leadsX leadsY different b (by rwa [ledC, ← ledA])
  · have other : ¬(s.leader? c = some x ∨ s.leader? c = some y) := by rwa [ledC, ← ledA]
    have changed := (union_spec leadsX leadsY different b).2.2
    refine ⟨leader, ?_, ?_⟩
    · rw [(changed a).1, if_neg either, ledA]
    · rw [(changed c).1, if_neg other, ledC]

end

theorem Stepped.sameClass {task : Task} {left : List Task}
    (stepped : Stepped catalog s task left s') {a b : Nat} (h : s.SameClass a b) :
    s'.SameClass a b := by
  cases stepped with
  | assigned | expected | unified | expect | constrained | discharge | again => exact h
  | assign | constrain => simpa [SameClass] using h
  | resolve ledA ledB different | unify ledA ledB different =>
    exact h.union (leader?_self ledA) (leader?_self ledB) different _

theorem Stepped.retains {task : Task} {left : List Task} (stepped : Stepped catalog s task left s')
    (slot : Nat) : Retains s s' left slot := by
  cases stepped with
  | assigned | expected | unified | expect | constrained | discharge | again => exact .of_eq rfl
  | @assign _ leader =>
    by_cases inClass : s.leader? slot = some leader
    · exact .of_known (belief_setBelief inClass _)
    · exact .of_eq (belief_setBelief_of_ne inClass _)
  | @constrain _ leader c old pairs led unknown met =>
    by_cases inClass : s.leader? slot = some leader
    · have before : s.belief slot = .unknown old := (belief_congr inClass led).trans unknown
      constructor
      · rintro ⟨ty, known⟩
        cases before.symm.trans known
      · intro c' mem
        rw [before] at mem
        rw [belief_setBelief inClass]
        exact .inr (.inl (List.mem_append_left _ mem))
    · exact .of_eq (belief_setBelief_of_ne inClass _)
  | @resolve a b x y ty ledA ledB different =>
    have leadsX := leader?_self ledA
    have leadsY := leader?_self ledB
    by_cases either : s.leader? slot = some x ∨ s.leader? slot = some y
    · exact .of_known (belief_union leadsX leadsY different _ either)
    · exact .of_eq (belief_union_of_ne leadsX leadsY different _ either)
  | @unify a b x y cs cs' ledA ledB different unknownA unknownB =>
    have leadsX := leader?_self ledA
    have leadsY := leader?_self ledB
    by_cases either : s.leader? slot = some x ∨ s.leader? slot = some y
    · have before : ∃ mine, s.belief slot = .unknown mine ∧ ∀ c ∈ mine, c ∈ cs ++ cs' := by
        rcases either with isX | isY
        · exact ⟨cs, (belief_congr isX ledA).trans unknownA, by simp +contextual⟩
        · exact ⟨cs', (belief_congr isY ledB).trans unknownB, by simp +contextual⟩
      obtain ⟨mine, believed, sub⟩ := before
      constructor
      · rintro ⟨ty, known⟩
        cases believed.symm.trans known
      · intro c mem
        rw [believed] at mem
        right
        right
        refine ⟨_, ⟨_, leader?_union leadsX leadsY different _ either,
          leader?_union_self leadsX leadsY different _⟩, ?_⟩
        exact List.mem_map_of_mem (sub c mem)
    · exact .of_eq (belief_union_of_ne leadsX leadsY different _ either)

end Solver

/-! What is pending counts. -/

namespace Config

/-- An equality of slots that agrees with the classes and with what is yet to be unified. -/
structure Equates (config : Config) (E : Nat → Nat → Prop) : Prop where
  equiv : Equivalence E
  classes : ∀ {a b : Nat}, config.solver.SameClass a b → E a b
  tasks : ∀ {a b : Nat}, .unify a b ∈ config.tasks → E a b

/-- A constraint on a slot is accounted for, up to an equality of slots: the type is known, or a
constraint that says the same is there or is about to be added. -/
def Accounts (config : Config) (E : Nat → Nat → Prop) (slot : Nat) (c : Constraint) : Prop :=
  ∃ other, E slot other ∧ ((∃ ty, config.solver.belief other = .known ty) ∨
    ∃ c', c.Matches E c' ∧
      (c' ∈ (config.solver.belief other).constraints ∨ .constrain other c' ∈ config.tasks))

end Config

namespace Solver

variable {catalog : Catalog} {s s' : Solver} {task : Task} {left rest tasks : List Task}
  {E : Nat → Nat → Prop} {slot : Nat} {c : Constraint}

theorem Stepped.equates (stepped : Stepped catalog s task left s')
    (equates : Config.Equates ⟨left ++ rest, s'⟩ E) : Config.Equates ⟨task :: rest, s⟩ E where
  equiv := equates.equiv
  classes h := equates.classes (stepped.sameClass h)
  tasks {a b} mem := by
    rcases List.mem_cons.1 mem with rfl | isRest
    · cases stepped with
      | unified ledA ledB => exact equates.classes ⟨_, ledA, ledB⟩
      | resolve ledA ledB different | unify ledA ledB different =>
        have leadsX := leader?_self ledA
        have leadsY := leader?_self ledB
        exact equates.classes ⟨_, leader?_union leadsX leadsY different _ (.inl ledA),
          leader?_union leadsX leadsY different _ (.inr ledB)⟩
    · exact equates.tasks (List.mem_append_right _ isRest)

/-- A constraint that is being added is accounted for afterwards. -/
theorem Stepped.accounts_constrain (stepped : Stepped catalog s (.constrain slot c) left s')
    (equates : Config.Equates ⟨left ++ rest, s'⟩ E) :
    Config.Accounts ⟨left ++ rest, s'⟩ E slot c := by
  have reflexive := equates.equiv.refl
  cases stepped with
  | constrained known => exact ⟨slot, reflexive slot, .inl ⟨_, known⟩⟩
  | @again _ _ old pairs unknown met =>
    obtain ⟨c', isOld, some, same, sub⟩ := (meetAll_ok met).2 rfl
    have related : ∀ p ∈ some, E p.1 p.2 := fun p mem =>
      equates.tasks (List.mem_append_left _ (List.mem_map_of_mem (sub p mem)))
    have matching := (Constraint.Matches.of_meet same related).symm equates.equiv.symm
    refine ⟨slot, reflexive slot, .inr ⟨c', matching, .inl ?_⟩⟩
    show c' ∈ (s.belief slot).constraints
    rw [unknown]
    exact isOld
  | @constrain _ leader _ old pairs led unknown met =>
    refine ⟨slot, reflexive slot, .inr ⟨c, .refl reflexive c, .inl ?_⟩⟩
    show c ∈ ((s.setBelief leader (.unknown (old ++ [c]))).belief slot).constraints
    rw [belief_setBelief led]
    exact List.mem_append_right _ List.mem_cons_self

theorem Stepped.accounts (stepped : Stepped catalog s task left s')
    (equates : Config.Equates ⟨left ++ rest, s'⟩ E)
    (h : Config.Accounts ⟨task :: rest, s⟩ E slot c) :
    Config.Accounts ⟨left ++ rest, s'⟩ E slot c := by
  have transitive {a b d : Nat} (first : E a b) (second : E b d) := equates.equiv.trans first second
  obtain ⟨other, near, known | ⟨c', matching, held | pending⟩⟩ := h
  · exact ⟨other, near, .inl ((stepped.retains other).known known)⟩
  · rcases (stepped.retains other).held c' held with known | still | ⟨leader, same, again⟩
    · exact ⟨other, near, .inl known⟩
    · exact ⟨other, near, .inr ⟨c', matching, .inl still⟩⟩
    · exact ⟨leader, transitive near (equates.classes same),
        .inr ⟨c', matching, .inr (List.mem_append_left _ again)⟩⟩
  · rcases List.mem_cons.1 pending with rfl | isRest
    · obtain ⟨other', near', known | ⟨c'', matching', there⟩⟩ := stepped.accounts_constrain equates
      · exact ⟨other', transitive near near', .inl known⟩
      · exact ⟨other', transitive near near',
          .inr ⟨c'', matching.trans transitive matching', there⟩⟩
    · exact ⟨other, near, .inr ⟨c', matching, .inr (List.mem_append_right _ isRest)⟩⟩

theorem belief_fresh_of_ne {like : Nat} {b : Belief} (h : s.belief slot ≠ .unknown []) :
    (s.fresh like b).2.belief slot = s.belief slot := by
  cases led : s.leader? slot with
  | some leader => exact belief_fresh led
  | none => exact absurd (belief_of_leader?_eq_none led) h

/-- Nothing is lost where classes and what is believed of them stay. -/
theorem accounts_of_belief (stays : ∀ i, s.belief i ≠ .unknown [] → s'.belief i = s.belief i)
    (h : Config.Accounts ⟨[], s⟩ E slot c) : Config.Accounts ⟨tasks, s'⟩ E slot c := by
  obtain ⟨other, near, found⟩ := h
  by_cases blank : s.belief other = .unknown []
  · rcases found with ⟨ty, known⟩ | ⟨c', _, held | pending⟩
    · cases blank.symm.trans known
    · have held' : c' ∈ (s.belief other).constraints := held
      rw [blank] at held'
      cases held'
    · cases pending
  · have same : s'.belief other = s.belief other := stays other blank
    rcases found with ⟨ty, known⟩ | ⟨c', matching, held | pending⟩
    · exact ⟨other, near, .inl ⟨ty, same.trans known⟩⟩
    · refine ⟨other, near, .inr ⟨c', matching, .inl ?_⟩⟩
      show c' ∈ (s'.belief other).constraints
      rwa [same]
    · cases pending

end Solver

/-! Moves and runs. -/

variable {catalog : Catalog} {first second last : Config} {log : List (Nat × Constraint)}

namespace Move

variable (moved : Move catalog first second) (inRange : first.InRange)

include moved inRange

theorem sameClass {a b : Nat} (h : first.solver.SameClass a b) : second.solver.SameClass a b := by
  cases moved with
  | task done => exact (inRange.stepped done).sameClass h
  | learn => exact h
  | fresh =>
    obtain ⟨leader, ledA, ledB⟩ := h
    exact ⟨leader, Solver.leader?_fresh ledA, Solver.leader?_fresh ledB⟩
  | record => simpa [Solver.SameClass] using h
  | ask => exact h

theorem equates {E : Nat → Nat → Prop} (h : second.Equates E) : first.Equates E := by
  have classes {a b : Nat} (same : first.solver.SameClass a b) : E a b :=
    h.classes (moved.sameClass inRange same)
  cases moved with
  | task done => exact (inRange.stepped done).equates h
  | learn | fresh | record | ask => exact ⟨h.equiv, classes, by simp⟩

theorem accounts {E : Nat → Nat → Prop} (equates : second.Equates E) {slot : Nat} {c : Constraint}
    (h : first.Accounts E slot c) : second.Accounts E slot c := by
  cases moved with
  | task done => exact (inRange.stepped done).accounts equates h
  | learn => exact Solver.accounts_of_belief (fun _ _ => rfl) h
  | fresh => exact Solver.accounts_of_belief (fun _ => Solver.belief_fresh_of_ne) h
  | record => exact Solver.accounts_of_belief (fun _ _ => Solver.belief_setOverload ..) h
  | ask => exact Solver.accounts_of_belief (fun _ _ => rfl) h

end Move

/-- A valuation agrees with what is known and with what is yet to be done. -/
structure Config.Models (catalog : Catalog) (σ : Valuation) (config : Config) : Prop where
  solver : config.solver.Models catalog σ
  tasks : ∀ t ∈ config.tasks, t.Holds catalog σ

theorem Move.models (moved : Move catalog first second) (inRange : first.InRange) {σ : Valuation}
    (h : second.Models catalog σ) : first.Models catalog σ := by
  have valid := inRange.solver.toValid
  cases moved with
  | @task s s' task left rest done =>
    have narrowed := Solver.step_narrowed catalog.closed_true valid
      (Task.within_of_slots (inRange.tasks task List.mem_cons_self)) done
    obtain ⟨before, holds⟩ := narrowed.models h.solver fun t mem =>
      h.tasks t (List.mem_append_left _ mem)
    refine ⟨before, List.forall_mem_cons.2 ⟨holds, fun t mem => ?_⟩⟩
    exact h.tasks t (List.mem_append_right _ mem)
  | learn => exact ⟨h.solver, by simp⟩
  | @fresh s like b there inside =>
    have grown := (Solver.fresh_grown catalog valid like (Belief.within_of_slots inside)).1
    exact ⟨grown.models h.solver, by simp⟩
  | record there o =>
    exact ⟨(Solver.setOverload_grown catalog valid _ o).models h.solver, by simp⟩
  | ask => exact ⟨⟨h.solver.classes, h.solver.beliefs⟩, by simp⟩

/-- A constraint on a slot is accounted for whatever slots turn out to be equal, and true of every
type that the slot may turn out to have. -/
structure Config.Ensures (catalog : Catalog) (config : Config) (slot : Nat) (c : Constraint) :
    Prop where
  accounts : ∀ {E : Nat → Nat → Prop}, config.Equates E → config.Accounts E slot c
  holds : ∀ {σ : Valuation}, config.Models catalog σ → ∀ ty, σ slot = some ty →
    c.Holds catalog σ ty

theorem Config.ensures_of_task {config : Config} {slot : Nat} {c : Constraint}
    (pending : .constrain slot c ∈ config.tasks) : config.Ensures catalog slot c where
  accounts equates := by
    have reflexive := equates.equiv.refl
    exact ⟨slot, reflexive slot, .inr ⟨c, .refl reflexive c, .inr pending⟩⟩
  holds m := m.tasks _ pending

theorem Move.ensures (moved : Move catalog first second) (inRange : first.InRange) {slot : Nat}
    {c : Constraint} (h : first.Ensures catalog slot c) : second.Ensures catalog slot c where
  accounts equates := moved.accounts inRange equates (h.accounts (moved.equates inRange equates))
  holds m := h.holds (moved.models inRange m)

namespace Run

variable (run : Run catalog first log last) (inRange : first.InRange)

include run inRange

theorem sameClass {a b : Nat} (h : first.solver.SameClass a b) : last.solver.SameClass a b := by
  induction run with
  | refl => exact h
  | move moved _ ih => exact ih (moved.inRange inRange).1 (moved.sameClass inRange h)

theorem equates {E : Nat → Nat → Prop} (h : last.Equates E) : first.Equates E := by
  induction run with
  | refl => exact h
  | move moved _ ih => exact moved.equates inRange (ih (moved.inRange inRange).1 h)

theorem models {σ : Valuation} (h : last.Models catalog σ) : first.Models catalog σ := by
  induction run with
  | refl => exact h
  | move moved _ ih => exact moved.models inRange (ih (moved.inRange inRange).1 h)

/-- What was ensured stays so, and what is added on the way comes to be. -/
theorem ensures {slot : Nat} {c : Constraint}
    (h : first.Ensures catalog slot c ∨ (slot, c) ∈ log) : last.Ensures catalog slot c := by
  induction run with
  | refl => exact h.resolve_right List.not_mem_nil
  | @move first second last log moved rest ih =>
    apply ih (moved.inRange inRange).1
    rcases h with before | added
    · exact .inl (moved.ensures inRange before)
    · rcases List.mem_append.1 added with now | later
      · have pending := Config.mem_tasks_of_added now
        exact .inl (moved.ensures inRange (Config.ensures_of_task pending))
      · exact .inr later

end Run

/-! At rest. -/

namespace Solver

variable {s : Solver} {slot : Nat} {c : Constraint}

/-- The same slot, or slots of one class. -/
def Identifies (s : Solver) (a b : Nat) : Prop :=
  a = b ∨ s.SameClass a b

theorem SameClass.symm {a b : Nat} (h : s.SameClass a b) : s.SameClass b a := by
  obtain ⟨leader, ledA, ledB⟩ := h
  exact ⟨leader, ledB, ledA⟩

theorem SameClass.trans {a b d : Nat} (first : s.SameClass a b) (second : s.SameClass b d) :
    s.SameClass a d := by
  obtain ⟨leader, ledA, ledB⟩ := first
  obtain ⟨leader', ledB', ledD⟩ := second
  cases ledB.symm.trans ledB'
  exact ⟨leader, ledA, ledD⟩

theorem equates_identifies (s : Solver) : Config.Equates ⟨[], s⟩ s.Identifies where
  equiv := by
    refine ⟨fun _ => .inl rfl, ?_, ?_⟩
    · rintro a b (rfl | same)
      · exact .inl rfl
      · exact .inr same.symm
    · rintro a b d (rfl | same) (rfl | same')
      · exact .inl rfl
      · exact .inr same'
      · exact .inr same
      · exact .inr (same.trans same')
  classes same := .inr same
  tasks mem := by cases mem

theorem InRange.sameClass_of_identifies (inRange : s.InRange) {a b : Nat} (lt : b < s.cells.size)
    (h : s.Identifies a b) : s.SameClass a b := by
  rcases h with rfl | same
  · obtain ⟨leader, led⟩ := inRange.leads lt
    exact ⟨leader, led, led⟩
  · exact same

theorem models_at_rest (catalog : Catalog) (s : Solver) :
    Config.Models catalog s.known? ⟨[], s⟩ :=
  ⟨models_known? catalog s, by simp⟩

/-- With nothing left to do, a constraint that is ensured is kept. -/
theorem kept_of_ensures (inRange : s.InRange) (h : Config.Ensures catalog ⟨[], s⟩ slot c) :
    s.Kept catalog slot c := by
  unfold Kept
  cases believed : s.belief slot with
  | known ty => exact h.holds (s.models_at_rest catalog) ty (known?_eq_some_iff.2 believed)
  | unknown cs =>
    obtain ⟨other, near, found⟩ := h.accounts s.equates_identifies
    have same : s.belief other = .unknown cs := by
      rcases near with rfl | sameClass
      · exact believed
      · rw [← sameClass.belief, believed]
    rcases found with ⟨ty, known⟩ | ⟨c', matching, held | pending⟩
    · cases same.symm.trans known
    · have inside := inRange.slots_belief other
      have isOne : c' ∈ (s.belief other).constraints := held
      rw [same] at isOne
      refine ⟨c', isOne, matching.mono fun a b part related => ?_⟩
      apply inRange.sameClass_of_identifies _ related
      apply inside
      rw [same]
      exact List.mem_flatMap.2 ⟨c', isOne, part⟩
    · cases pending

theorem Kept.ensures (h : s.Kept catalog slot c) : Config.Ensures catalog ⟨[], s⟩ slot c := by
  unfold Kept at h
  cases believed : s.belief slot with
  | known ty =>
    simp only [believed] at h
    refine ⟨fun equates => ⟨slot, equates.equiv.refl slot, .inl ⟨ty, believed⟩⟩, ?_⟩
    intro σ m ty' has
    have isTy : σ slot = some ty := m.solver.eq_some (known?_eq_some_iff.2 believed)
    cases isTy.symm.trans has
    exact h.mono fun _ _ => m.solver.eq_some
  | unknown cs =>
    simp only [believed] at h
    obtain ⟨c', isOne, matching⟩ := h
    constructor
    · intro E equates
      refine ⟨slot, equates.equiv.refl slot, .inr ⟨c', ?_, .inl ?_⟩⟩
      · exact matching.mono fun _ _ _ => equates.classes
      · show c' ∈ (s.belief slot).constraints
        rw [believed]
        exact isOne
    · intro σ m ty has
      have agree (a b : Nat) (same : s.SameClass a b) : σ a = σ b := by
        obtain ⟨leader, ledA, ledB⟩ := same
        exact m.solver.classes ledA ledB
      have held : (s.belief slot).Holds catalog σ slot := m.solver.beliefs slot
      rw [believed] at held
      exact (matching.symm SameClass.symm).holds agree (held c' isOne ty has)

end Solver

end LambdaQuery
