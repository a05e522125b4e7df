import Mathlib.Data.List.Forall2
import Mathlib.Logic.Relation
import LambdaQuery.Proofs.Inference.FirstCall

/-!
# What can be seen of a solver from some of its slots

Slots of one solver are paired with slots of another, in the same order. The two solvers look alike
from there if paired slots are known to have the same type or are under the same constraints, on
slots that are paired again. Of a class whose type is known nothing else can be seen: neither which
slots belong to it nor which of them leads. So a class of known type may be shared by parts of a
query that have nothing else in common.

A change is confined to some slots if every type that is known stays, and every class of unknown
type that none of these slots leads stays as it is.
-/

namespace LambdaQuery

/-- Which slots of one solver stand for which slots of another. -/
abbrev Pairing := Nat → Nat → Prop

/-- Every pair of the one is a pair of the other. -/
def Pairing.Le (r q : Pairing) : Prop :=
  ∀ ⦃a a' : Nat⦄, r a a' → q a a'

theorem Pairing.Le.refl (r : Pairing) : r.Le r := fun _ _ paired => paired

theorem Pairing.Le.trans {r q q' : Pairing} (first : r.Le q) (second : q.Le q') : r.Le q' :=
  fun _ _ paired => second (first paired)

/-- The slots that are paired with others. -/
def Pairing.Dom (r : Pairing) (a : Nat) : Prop :=
  ∃ a', r a a'

/-- The slots that others are paired with. -/
def Pairing.Cod (r : Pairing) (a' : Nat) : Prop :=
  ∃ a, r a a'

/-- One more pair. -/
def Pairing.add (r : Pairing) (a a' : Nat) : Pairing :=
  fun b b' => r b b' ∨ b = a ∧ b' = a'

theorem forall₂_comp {α β γ : Type} {R : α → β → Prop} {R' : β → γ → Prop} {as : List α}
    {bs : List β} {cs : List γ} (first : List.Forall₂ R as bs) (second : List.Forall₂ R' bs cs) :
    List.Forall₂ (Relation.Comp R R') as cs := by
  induction first generalizing cs with
  | nil =>
    cases second
    exact .nil
  | cons related _ ih => cases second with
    | cons related' rest => exact .cons ⟨_, related, related'⟩ (ih rest)

namespace Constraint

/-- The same demand, on slots that are paired. -/
inductive Paired (r : Pairing) : Constraint → Constraint → Prop
  | arithmetic : Paired r .arithmetic .arithmetic
  | enumerableOf {e e' : Nat} (onElement : r e e') : Paired r (.enumerableOf e) (.enumerableOf e')
  | arrayOf {e e' : Nat} (onElement : r e e') : Paired r (.arrayOf e) (.arrayOf e')
  | optionalOf {e e' : Nat} (onInner : r e e') : Paired r (.optionalOf e) (.optionalOf e')
  | lambda {params params' : List Nat} {result result' : Nat}
    (onParams : List.Forall₂ r params params') (onResult : r result result') :
    Paired r (.lambda params result) (.lambda params' result')
  | property (name : String) {slot slot' : Nat} (onSlot : r slot slot') :
    Paired r (.property name slot) (.property name slot')

namespace Paired

variable {r r' : Pairing} {c c' c'' : Constraint}

theorem mono (h : Paired r c c') (le : r.Le r') : Paired r' c c' := by
  cases h with
  | arithmetic => exact .arithmetic
  | enumerableOf onElement => exact .enumerableOf (le onElement)
  | arrayOf onElement => exact .arrayOf (le onElement)
  | optionalOf onInner => exact .optionalOf (le onInner)
  | lambda onParams onResult => exact .lambda (onParams.imp le) (le onResult)
  | property name onSlot => exact .property name (le onSlot)

theorem symm (h : Paired r c c') : Paired (flip r) c' c := by
  cases h with
  | arithmetic => exact .arithmetic
  | enumerableOf onElement => exact .enumerableOf onElement
  | arrayOf onElement => exact .arrayOf onElement
  | optionalOf onInner => exact .optionalOf onInner
  | lambda onParams onResult => exact .lambda onParams.flip onResult
  | property name onSlot => exact .property name onSlot

theorem trans (first : Paired r c c') (second : Paired r' c' c'') :
    Paired (Relation.Comp r r') c c'' := by
  cases first with
  | arithmetic => cases second; exact .arithmetic
  | enumerableOf onFirst => cases second with
    | enumerableOf onSecond => exact .enumerableOf ⟨_, onFirst, onSecond⟩
  | arrayOf onFirst => cases second with
    | arrayOf onSecond => exact .arrayOf ⟨_, onFirst, onSecond⟩
  | optionalOf onFirst => cases second with
    | optionalOf onSecond => exact .optionalOf ⟨_, onFirst, onSecond⟩
  | lambda onParams onResult => cases second with
    | lambda onParams' onResult' =>
      exact .lambda (forall₂_comp onParams onParams') ⟨_, onResult, onResult'⟩
  | property name onFirst => cases second with
    | property _ onSecond => exact .property name ⟨_, onFirst, onSecond⟩

end Paired

end Constraint

/-- Constraints that are paired one by one. -/
abbrev Constraint.PairedAll (r : Pairing) (cs cs' : List Constraint) : Prop :=
  List.Forall₂ (Constraint.Paired r) cs cs'

/-- Beliefs that say the same, of slots that are paired. -/
inductive Belief.Paired (r : Pairing) : Belief → Belief → Prop
  | known (ty : Ty) : Belief.Paired r (.known ty) (.known ty)
  | unknown {cs cs' : List Constraint} (constraints : Constraint.PairedAll r cs cs') :
    Belief.Paired r (.unknown cs) (.unknown cs')

namespace Solver

variable {r : Pairing} {s s' t t' u : Solver}

/-! Ranks of leaders. -/

@[simp] theorem rank_setBelief (s : Solver) (leader : Nat) (b : Belief) (slot : Nat) :
    (s.setBelief leader b).rank slot = s.rank slot := by
  simp only [rank, setBelief, Array.getElem?_modify]
  by_cases h : leader = slot <;> cases s.cells[slot]? <;> simp [h]

@[simp] theorem rank_setOverload (s : Solver) (slot : Nat) (o : Overload) (other : Nat) :
    (s.setOverload slot o).rank other = s.rank other := by
  simp only [rank, setOverload, Array.getElem?_modify]
  by_cases h : slot = other <;> cases s.cells[other]? <;> simp [h]

theorem rank_fresh {slot : Nat} (there : slot < s.cells.size) (like : Nat) (b : Belief) :
    (s.fresh like b).2.rank slot = s.rank slot := by
  simp [rank, fresh, Array.getElem?_push, Nat.ne_of_lt there]

theorem rank_merge_of_ne {winner slot : Nat} (h : slot ≠ winner) (loser n : Nat) (b : Belief) :
    (s.merge winner loser n b).rank slot = s.rank slot := by
  simp only [rank, getElem?_merge]
  cases s.cells[slot]? with
  | none => rfl
  | some cell => by_cases moved : cell.leader = loser <;> simp [h, moved]

theorem rank_merge_self {winner : Nat} (there : winner < s.cells.size) (loser n : Nat)
    (b : Belief) : (s.merge winner loser n b).rank winner = n := by
  simp [rank, getElem?_merge, there]

theorem rank_union_of_ne {x y slot : Nat} (neX : slot ≠ x) (neY : slot ≠ y) (b : Belief) :
    (s.union x y b).2.rank slot = s.rank slot := by
  unfold union
  split
  · exact rank_merge_of_ne neX ..
  · split <;> exact rank_merge_of_ne neY ..

/-- Which of two leaders leads on, and its rank then, depend on the ranks only. -/
theorem union_winner {x x' y y' : Nat} (ltX : x < s.cells.size) (ltX' : x' < s'.cells.size)
    (ltY : y < s.cells.size) (ltY' : y' < s'.cells.size) (sameX : s.rank x = s'.rank x')
    (sameY : s.rank y = s'.rank y') (b b' : Belief) :
    ((s.union x y b).1 = x ∧ (s'.union x' y' b').1 = x' ∨
        (s.union x y b).1 = y ∧ (s'.union x' y' b').1 = y') ∧
      (s.union x y b).2.rank (s.union x y b).1 =
        (s'.union x' y' b').2.rank (s'.union x' y' b').1 := by
  unfold union
  rw [← sameX, ← sameY]
  split
  · exact ⟨.inl ⟨rfl, rfl⟩, by rw [rank_merge_self ltX, rank_merge_self ltX']⟩
  · split <;> exact ⟨.inr ⟨rfl, rfl⟩, by rw [rank_merge_self ltY, rank_merge_self ltY']⟩

theorem leader?_of_known {a : Nat} {ty : Ty} (has : s.belief a = .known ty) :
    ∃ leader, s.leader? a = some leader := by
  cases led : s.leader? a with
  | none =>
    rw [belief_of_leader?_eq_none led] at has
    cases has
  | some leader => exact ⟨leader, rfl⟩

/-- A class learns the type of another. -/
theorem belief_setBelief_of_known {x y : Nat} {ty : Ty} (leads : s.leader? x = some x)
    (has : s.belief x = .known ty) (a : Nat) : (s.setBelief y (.known ty)).belief a =
      if s.leader? a = some x ∨ s.leader? a = some y then .known ty else s.belief a := by
  by_cases ledY : s.leader? a = some y
  · rw [belief_setBelief ledY, if_pos (.inr ledY)]
  · rw [belief_setBelief_of_ne ledY]
    by_cases ledX : s.leader? a = some x
    · rw [if_pos (.inl ledX), belief_congr ledX leads, has]
    · rw [if_neg (by simp [ledX, ledY])]

/-! Changes that are confined to some slots. -/

/-- Known types stay, and so does all that is believed of a class of unknown type that none of the
slots `P` leads. Nothing is recorded for slots other than those. -/
structure Spares (P : Nat → Prop) (s t : Solver) : Prop where
  size : s.cells.size ≤ t.cells.size
  known : ∀ {a : Nat} {ty : Ty}, s.belief a = .known ty → t.belief a = .known ty
  unknown : ∀ {a leader : Nat} {cs : List Constraint}, s.leader? a = some leader →
    s.belief a = .unknown cs → ¬ P leader →
      t.leader? a = some leader ∧ t.belief a = .unknown cs ∧ t.rank leader = s.rank leader
  origin : ∀ {a : Nat}, a < s.cells.size → t.origin a = s.origin a
  overload : ∀ {a : Nat}, a < s.cells.size → a = 0 ∨ ¬ P a → t.overload? a = s.overload? a

/-- Nothing that can be seen changes. -/
abbrev Intact (s t : Solver) : Prop := Spares (fun _ => False) s t

namespace Spares

variable {P P' : Nat → Prop}

theorem refl (P : Nat → Prop) (s : Solver) : Spares P s s where
  size := Nat.le_refl _
  known := id
  unknown led has _ := ⟨led, has, rfl⟩
  origin _ := rfl
  overload _ _ := rfl

theorem mono (h : Spares P s t) (le : ∀ a, P a → P' a) : Spares P' s t where
  size := h.size
  known := h.known
  unknown led has out := h.unknown led has fun inside => out (le _ inside)
  origin := h.origin
  overload there out := h.overload there (out.imp_right fun out inside => out (le _ inside))

/-- A change after which slots are made counts as one of the slots that were there. -/
theorem trans (first : Spares P s t) (second : Spares P' t u)
    (old : ∀ a, a < s.cells.size → P' a → P a) : Spares P s u where
  size := Nat.le_trans first.size second.size
  known has := second.known (first.known has)
  unknown led has out := by
    obtain ⟨led', has', sameRank⟩ := first.unknown led has out
    obtain ⟨led'', has'', sameRank'⟩ :=
      second.unknown led' has' fun inside => out (old _ (leader?_lt led) inside)
    exact ⟨led'', has'', sameRank'.trans sameRank⟩
  origin there :=
    (second.origin (Nat.lt_of_lt_of_le there first.size)).trans (first.origin there)
  overload there out :=
    (second.overload (Nat.lt_of_lt_of_le there first.size)
      (out.imp_right fun out inside => out (old _ there inside))).trans (first.overload there out)

theorem setBelief {leader : Nat} {cs : List Constraint} (leads : s.leader? leader = some leader)
    (has : s.belief leader = .unknown cs) (inside : P leader) (b : Belief) :
    Spares P s (s.setBelief leader b) where
  size := Nat.le_of_eq (size_setBelief s leader b).symm
  known {a ty} known := by
    have other : s.leader? a ≠ some leader := by
      intro led
      rw [belief_congr led leads, has] at known
      cases known
    rw [belief_setBelief_of_ne other, known]
  unknown {a leader' cs'} led has' out := by
    have other : s.leader? a ≠ some leader := by
      intro led'
      cases led.symm.trans led'
      exact out inside
    simp [belief_setBelief_of_ne other, led, has']
  origin _ := by simp
  overload _ _ := by simp

/-- To learn again what is known of a type changes nothing. -/
theorem setBelief_known {leader : Nat} {ty : Ty} (leads : s.leader? leader = some leader)
    (has : s.belief leader = .known ty) : Intact s (s.setBelief leader (.known ty)) where
  size := Nat.le_of_eq (size_setBelief s leader _).symm
  known {a old} known := by
    by_cases led : s.leader? a = some leader
    · rw [belief_setBelief led, ← known, belief_congr led leads, has]
    · rw [belief_setBelief_of_ne led, known]
  unknown {a leader' cs'} led has' _ := by
    have other : s.leader? a ≠ some leader := by
      intro led'
      rw [belief_congr led' leads, has] at has'
      cases has'
    simp [belief_setBelief_of_ne other, led, has']
  origin _ := by simp
  overload _ _ := by simp

/-- That two classes of one known type are one cannot be seen. -/
theorem union_known {x y z : Nat} {ty : Ty} (leadsX : s.leader? x = some x)
    (leadsY : s.leader? y = some y) (different : x ≠ y)
    (believed : ∀ a, (s.setBelief z (.known ty)).belief a =
      if s.leader? a = some x ∨ s.leader? a = some y then .known ty else s.belief a) :
    Intact (s.setBelief z (.known ty)) (s.union x y (.known ty)).2 := by
  obtain ⟨_, size, joined⟩ := union_spec leadsX leadsY different (.known ty)
  constructor
  · exact Nat.le_of_eq (by rw [size_setBelief, size])
  · intro a known has
    rw [(joined a).2, ← believed, has]
  · intro a leader cs led has _
    rw [leader?_setBelief] at led
    rw [believed] at has
    have notX : leader ≠ x := by
      rintro rfl
      simp [led] at has
    have notY : leader ≠ y := by
      rintro rfl
      simp [led] at has
    refine ⟨?_, ?_, ?_⟩
    · rw [(joined a).1, if_neg (by simp [led, notX, notY]), led]
    · rw [(joined a).2, has]
    · simp [rank_union_of_ne notX notY]
  · intro a _
    simp
  · intro a _ _
    simp

theorem union_unknown {x y : Nat} {cs cs' : List Constraint} (leadsX : s.leader? x = some x)
    (leadsY : s.leader? y = some y) (different : x ≠ y) (hasX : s.belief x = .unknown cs)
    (hasY : s.belief y = .unknown cs') (insideX : P x) (insideY : P y) (b : Belief) :
    Spares P s (s.union x y b).2 := by
  obtain ⟨_, size, joined⟩ := union_spec leadsX leadsY different b
  constructor
  · exact Nat.le_of_eq size.symm
  · intro a ty known
    rw [(joined a).2, if_neg, known]
    rintro (led | led)
    · rw [belief_congr led leadsX, hasX] at known
      cases known
    · rw [belief_congr led leadsY, hasY] at known
      cases known
  · intro a leader cs led has out
    have notX : leader ≠ x := fun same => out (same ▸ insideX)
    have notY : leader ≠ y := fun same => out (same ▸ insideY)
    have other : ¬ (s.leader? a = some x ∨ s.leader? a = some y) := by simp [led, notX, notY]
    rw [(joined a).1, (joined a).2, if_neg other, if_neg other]
    exact ⟨led, has, rank_union_of_ne notX notY b⟩
  · intro a _
    simp
  · intro a _ _
    simp

theorem fresh (P : Nat → Prop) (s : Solver) (like : Nat) (b : Belief) :
    Spares P s (s.fresh like b).2 where
  size := by rw [size_fresh]; exact Nat.le_succ _
  known {a ty} known := by
    obtain ⟨_, led⟩ := leader?_of_known known
    rw [belief_fresh led, known]
  unknown led has _ := ⟨leader?_fresh led, by rw [belief_fresh led, has],
    rank_fresh (leader?_lt led) ..⟩
  origin there := origin_fresh there
  overload _ _ := overload?_fresh ..

theorem setOverload {slot : Nat} (inside : P slot) (notRoot : slot ≠ 0) (o : Overload) :
    Spares P s (s.setOverload slot o) where
  size := Nat.le_of_eq (size_setOverload s slot o).symm
  known known := by simpa using known
  unknown led has _ := by simpa using ⟨led, has⟩
  origin _ := by simp
  overload {a} _ out := by
    refine overload?_setOverload_of_ne ?_ o
    rintro rfl
    rcases out with isRoot | outside
    · exact notRoot isRoot
    · exact outside inside

theorem asked (s : Solver) (requests : List Request) : Intact s { s with asked := requests } where
  size := Nat.le_refl _
  known := id
  unknown led has _ := ⟨led, has, rfl⟩
  origin _ := rfl
  overload _ _ := rfl

end Spares

/-! What can be seen from slots that are paired. -/

/-- The same is known of two slots: the type, or the same constraints in classes whose leaders are
paired and have the same rank. -/
inductive View (r : Pairing) (s s' : Solver) (a a' : Nat) : Prop
  | known {ty : Ty} (has : s.belief a = .known ty) (has' : s'.belief a' = .known ty)
  | unknown {cs cs' : List Constraint} {x x' : Nat} (led : s.leader? a = some x)
    (led' : s'.leader? a' = some x') (leaders : r x x') (ranks : s.rank x = s'.rank x')
    (has : s.belief a = .unknown cs) (has' : s'.belief a' = .unknown cs')
    (constraints : Constraint.PairedAll r cs cs')

/-- Two solvers look alike from slots that are paired. -/
structure LookAlike (r : Pairing) (s s' : Solver) : Prop where
  order : ∀ {a a' b b' : Nat}, r a a' → r b b' → (a < b ↔ a' < b')
  view : ∀ {a a' : Nat}, r a a' → View r s s' a a'
  tag : ∀ {a a' : Nat}, r a a' → (s.origin a).tag = (s'.origin a').tag
  overload : ∀ {a a' : Nat}, r a a' → s.overload? a = s'.overload? a'

theorem View.symm {a a' : Nat} (h : View r s s' a a') : View (flip r) s' s a' a := by
  cases h with
  | known has has' => exact .known has' has
  | unknown led led' leaders ranks has has' constraints =>
    exact .unknown led' led leaders ranks.symm has' has
      (constraints.flip.imp fun _ _ paired => paired.symm)

namespace LookAlike

variable {a a' b b' : Nat}

theorem symm (h : LookAlike r s s') : LookAlike (flip r) s' s where
  order first second := (h.order first second).symm
  view paired := (h.view paired).symm
  tag paired := (h.tag paired).symm
  overload paired := (h.overload paired).symm

theorem trans {r' : Pairing} (h : LookAlike r s t) (h' : LookAlike r' t u) :
    LookAlike (Relation.Comp r r') s u where
  order := by
    rintro a a' b b' ⟨c, first, second⟩ ⟨d, first', second'⟩
    exact (h.order first first').trans (h'.order second second')
  view := by
    rintro a a' ⟨c, first, second⟩
    cases h.view first with
    | known has has' => cases h'.view second with
      | known has'' has₃ =>
        cases has'.symm.trans has''
        exact .known has has₃
      | unknown _ _ _ _ has'' => cases has'.symm.trans has''
    | unknown led led' leaders ranks has has' constraints => cases h'.view second with
      | known has'' => cases has'.symm.trans has''
      | unknown led'' led₃ leaders' ranks' has'' has₃ constraints' =>
        cases has'.symm.trans has''
        cases led'.symm.trans led''
        refine .unknown led led₃ ⟨_, leaders, leaders'⟩ (ranks.trans ranks') has has₃ ?_
        exact (forall₂_comp constraints constraints').imp fun _ _ ⟨_, paired, paired'⟩ =>
          paired.trans paired'
  tag := by
    rintro a a' ⟨c, first, second⟩
    exact (h.tag first).trans (h'.tag second)
  overload := by
    rintro a a' ⟨c, first, second⟩
    exact (h.overload first).trans (h'.overload second)

theorem eq_iff (h : LookAlike r s s') (first : r a a') (second : r b b') : a = b ↔ a' = b' := by
  have less := h.order first second
  have more := h.order second first
  omega

theorem lt_size (h : LookAlike r s s') (paired : r a a') :
    a < s.cells.size ∧ a' < s'.cells.size := by
  cases h.view paired with
  | known has has' =>
    obtain ⟨_, led⟩ := leader?_of_known has
    obtain ⟨_, led'⟩ := leader?_of_known has'
    exact ⟨slot_lt_of_leader? led, slot_lt_of_leader? led'⟩
  | unknown led led' => exact ⟨slot_lt_of_leader? led, slot_lt_of_leader? led'⟩

/-- What is done elsewhere cannot be seen. Only slots of known type are shared. -/
theorem spared {P : Nat → Prop} (h : LookAlike r s s') (spares : Spares P s t)
    (apart : ∀ {a a' : Nat}, r a a' → P a → a = 0 ∧ ∃ ty, s.belief a = .known ty) :
    LookAlike r t s' where
  order := h.order
  view {a a'} paired := by
    cases h.view paired with
    | known has has' => exact .known (spares.known has) has'
    | @unknown cs cs' x x' led led' leaders ranks has has' constraints =>
      have out : ¬ P x := by
        intro inside
        obtain ⟨_, ty, known⟩ := apart leaders inside
        rw [← belief_congr led (leader?_self led), has] at known
        cases known
      obtain ⟨stillLed, still, sameRank⟩ := spares.unknown led has out
      exact .unknown stillLed led' leaders (sameRank.trans ranks) still has' constraints
  tag paired := by
    rw [spares.origin (h.lt_size paired).1]
    exact h.tag paired
  overload {a a'} paired := by
    have out : a = 0 ∨ ¬ P a := by
      by_cases inside : P a
      · exact .inl (apart paired inside).1
      · exact .inr inside
    rw [spares.overload (h.lt_size paired).1 out]
    exact h.overload paired

theorem intact (h : LookAlike r s s') (first : Intact s t) (second : Intact s' t') :
    LookAlike r t t' :=
  ((h.spared first fun _ none => none.elim).symm.spared second fun _ none => none.elim).symm

/-! Looking at what is known. -/

theorem known?_eq (h : LookAlike r s s') (paired : r a a') : s.known? a = s'.known? a' := by
  unfold known?
  cases h.view paired with
  | known has has' => rw [has, has']
  | unknown led led' leaders ranks has has' => rw [has, has']

theorem knownAll?_eq (h : LookAlike r s s') {slots slots' : List Nat}
    (paired : List.Forall₂ r slots slots') : s.knownAll? slots = s'.knownAll? slots' := by
  induction paired with
  | nil => rfl
  | cons first _ ih => rw [knownAll?, knownAll?, h.known?_eq first, ih]

theorem presettable_eq (h : LookAlike r s s') (paired : r a a') :
    s.presettable a = s'.presettable a' := by
  unfold presettable
  rw [h.tag paired]

theorem hintAt_eq (h : LookAlike r s s') (depth : Nat) (paired : r a a') :
    s.hintAt depth a = s'.hintAt depth a' := by
  induction depth generalizing a a' with
  | zero =>
    unfold hintAt
    cases h.view paired with
    | known has has' => rw [has, has']
    | unknown led led' leaders ranks has has' => rw [has, has']
  | succ depth ih =>
    unfold hintAt
    cases h.view paired with
    | known has has' => rw [has, has']
    | unknown led led' leaders ranks has has' constraints =>
      simp only [has, has', Hint.unknown.injEq]
      refine List.forall₂_eq_eq_eq ▸ List.forall₂_map_left_iff.2 (List.forall₂_map_right_iff.2 ?_)
      refine constraints.imp fun c c' pairedC => ?_
      cases pairedC with
      | arithmetic => rfl
      | enumerableOf onElement => simp only [ih onElement]
      | arrayOf onElement => simp only [ih onElement]
      | optionalOf onInner => simp only [ih onInner]
      | property name onSlot => simp only [ih onSlot]
      | lambda onParams onResult =>
        simp only [ih onResult, Demand.lambda.injEq, and_true]
        exact List.forall₂_eq_eq_eq ▸ List.forall₂_map_left_iff.2
          (List.forall₂_map_right_iff.2 (onParams.imp fun _ _ => ih))

theorem hint_eq (h : LookAlike r s s') (paired : r a a') : s.hint a = s'.hint a' :=
  h.hintAt_eq hintDepth paired

theorem isOpen_eq (h : LookAlike r s s') (paired : r a a') : s.isOpen a = s'.isOpen a' := by
  unfold isOpen
  rw [h.known?_eq paired]
  cases h.view paired with
  | known has has' =>
    obtain ⟨_, led⟩ := leader?_of_known has
    obtain ⟨_, led'⟩ := leader?_of_known has'
    rw [led, led']
    rfl
  | unknown led led' =>
    rw [led, led']
    rfl

theorem find?_paired {p : Requirement → Bool} {cs cs' : List Constraint}
    (paired : Constraint.PairedAll r cs cs') :
    Option.Rel (Constraint.Paired r) (cs.find? fun c => p c.requirement)
      (cs'.find? fun c => p c.requirement) := by
  induction paired with
  | nil => exact .none
  | @cons c c' _ _ first _ ih =>
    have same : c.requirement = c'.requirement := by cases first <;> rfl
    rw [List.find?_cons, List.find?_cons, same]
    cases p c'.requirement with
    | true => exact .some first
    | false => exact ih

theorem decisive?_paired {cs cs' : List Constraint} (paired : Constraint.PairedAll r cs cs') :
    Option.Rel (Constraint.Paired r) (decisive? cs) (decisive? cs') := by
  have orElse {o o' p p' : Option Constraint} (first : Option.Rel (Constraint.Paired r) o o')
      (second : Option.Rel (Constraint.Paired r) p p') :
      Option.Rel (Constraint.Paired r) (o <|> p) (o' <|> p') := by
    cases first with
    | some both => exact .some both
    | none => exact second
  have found (q : Requirement) := find?_paired (p := (· == q)) paired
  exact orElse (found _) (orElse (found _) (orElse (found _) (found _)))

theorem assemble?_eq (h : LookAlike r s s') {c c' : Constraint} (paired : c.Paired r c') :
    s.assemble? c = s'.assemble? c' := by
  cases paired with
  | arithmetic => rfl
  | enumerableOf onElement => simp only [assemble?, h.known?_eq onElement]
  | arrayOf onElement => simp only [assemble?, h.known?_eq onElement]
  | optionalOf onInner => simp only [assemble?, h.known?_eq onInner]
  | lambda onParams onResult =>
    simp only [assemble?, h.knownAll?_eq onParams, h.known?_eq onResult]
  | property => rfl

theorem settledTy?_eq (h : LookAlike r s s') (paired : r a a') :
    s.settledTy? a = s'.settledTy? a' := by
  unfold settledTy?
  cases h.view paired with
  | known has has' => rw [has, has']
  | @unknown cs cs' _ _ led led' leaders ranks has has' constraints =>
    have leads : s.leader? a = some a ↔ s'.leader? a' = some a' := by
      simpa [led, led'] using h.eq_iff leaders paired
    simp only [has, has', leads]
    split
    · have decisive := decisive?_paired constraints
      generalize decisive? cs = c, decisive? cs' = c' at decisive
      cases decisive with
      | none => rfl
      | some both => exact h.assemble?_eq both
    · rfl

/-! Changing what is known. -/

/-- The type of a class is learnt, or a constraint on it. -/
theorem setBelief (h : LookAlike r s s') {x x' : Nat} {cs : List Constraint} (leaders : r x x')
    (leads : s.leader? x = some x) (leads' : s'.leader? x' = some x')
    (has : s.belief x = .unknown cs) {b b' : Belief} (believed : b.Paired r b') :
    LookAlike r (s.setBelief x b) (s'.setBelief x' b') where
  order := h.order
  view {a a'} paired := by
    have has' : ∃ cs', s'.belief x' = .unknown cs' := by
      cases h.view leaders with
      | known known => rw [has] at known; cases known
      | unknown _ _ _ _ _ has' => exact ⟨_, has'⟩
    obtain ⟨cs', has'⟩ := has'
    cases h.view paired with
    | known known known' =>
      have other : s.leader? a ≠ some x := by
        intro led
        rw [belief_congr led leads, has] at known
        cases known
      have other' : s'.leader? a' ≠ some x' := by
        intro led'
        rw [belief_congr led' leads', has'] at known'
        cases known'
      exact .known (by rw [belief_setBelief_of_ne other, known])
        (by rw [belief_setBelief_of_ne other', known'])
    | @unknown ds ds' y y' led led' leaders' ranks hasA hasA' constraints =>
      have same := h.eq_iff leaders' leaders
      by_cases isX : y = x
      · obtain rfl := isX
        obtain rfl := same.1 rfl
        have now := belief_setBelief led b
        have now' := belief_setBelief led' b'
        cases believed with
        | known ty => exact .known now now'
        | unknown constraints' =>
          exact .unknown (by simpa using led) (by simpa using led') leaders' (by simpa using ranks)
            now now' constraints'
      · have other : s.leader? a ≠ some x := by simpa [led] using isX
        have other' : s'.leader? a' ≠ some x' := by simpa [led'] using fun isX' => isX (same.2 isX')
        exact .unknown (by simpa using led) (by simpa using led') leaders' (by simpa using ranks)
          (by rw [belief_setBelief_of_ne other, hasA])
          (by rw [belief_setBelief_of_ne other', hasA']) constraints
  tag paired := by simpa using h.tag paired
  overload paired := by simpa using h.overload paired

/-- Two classes of unknown type become one. -/
theorem union_unknown (h : LookAlike r s s') {x x' y y' : Nat} {cs ds : List Constraint}
    (pairedX : r x x') (pairedY : r y y') (leadsX : s.leader? x = some x)
    (leadsY : s.leader? y = some y) (leadsX' : s'.leader? x' = some x')
    (leadsY' : s'.leader? y' = some y') (different : x ≠ y) (hasX : s.belief x = .unknown cs)
    (hasY : s.belief y = .unknown ds) :
    r (s.union x y (.unknown [])).1 (s'.union x' y' (.unknown [])).1 ∧
      LookAlike r (s.union x y (.unknown [])).2 (s'.union x' y' (.unknown [])).2 := by
  have different' : x' ≠ y' := fun same => different ((h.eq_iff pairedX pairedY).2 same)
  obtain ⟨ltX, ltX'⟩ := h.lt_size pairedX
  obtain ⟨ltY, ltY'⟩ := h.lt_size pairedY
  have sameRank {z z' : Nat} {es : List Constraint} (paired : r z z')
      (leads : s.leader? z = some z) (leads' : s'.leader? z' = some z')
      (has : s.belief z = .unknown es) :
      s.rank z = s'.rank z' ∧ ∃ es', s'.belief z' = .unknown es' := by
    cases h.view paired with
    | known known => rw [has] at known; cases known
    | unknown led led' _ ranks _ has' =>
      cases leads.symm.trans led
      cases leads'.symm.trans led'
      exact ⟨ranks, _, has'⟩
  obtain ⟨rankX, cs', hasX'⟩ := sameRank pairedX leadsX leadsX' hasX
  obtain ⟨rankY, ds', hasY'⟩ := sameRank pairedY leadsY leadsY' hasY
  obtain ⟨winner, rankAfter⟩ :=
    union_winner ltX ltX' ltY ltY' rankX rankY (.unknown []) (.unknown [])
  obtain ⟨_, _, joined⟩ := union_spec leadsX leadsY different (.unknown [])
  obtain ⟨_, _, joined'⟩ := union_spec leadsX' leadsY' different' (.unknown [])
  have winners : r (s.union x y (.unknown [])).1 (s'.union x' y' (.unknown [])).1 := by
    rcases winner with ⟨isX, isX'⟩ | ⟨isY, isY'⟩
    · rw [isX, isX']
      exact pairedX
    · rw [isY, isY']
      exact pairedY
  refine ⟨winners, h.order, ?_, ?_, ?_⟩
  · intro a a' paired
    cases h.view paired with
    | known known known' =>
      have joins := Spares.union_unknown (P := fun _ => True) leadsX leadsY different hasX hasY
        trivial trivial (.unknown [])
      have joins' := Spares.union_unknown (P := fun _ => True) leadsX' leadsY' different' hasX'
        hasY' trivial trivial (.unknown [])
      exact .known (joins.known known) (joins'.known known')
    | @unknown es es' z z' led led' leaders ranks has has' constraints =>
      have isX := h.eq_iff leaders pairedX
      have isY := h.eq_iff leaders pairedY
      have within : (s.leader? a = some x ∨ s.leader? a = some y) ↔
          (s'.leader? a' = some x' ∨ s'.leader? a' = some y') := by
        simp only [led, led', Option.some.injEq, isX, isY]
      by_cases inside : s.leader? a = some x ∨ s.leader? a = some y
      · have inside' := within.1 inside
        exact .unknown (by rw [(joined a).1, if_pos inside])
          (by rw [(joined' a').1, if_pos inside']) winners rankAfter
          (by rw [(joined a).2, if_pos inside]) (by rw [(joined' a').2, if_pos inside']) .nil
      · have outside' := fun inside' => inside (within.2 inside')
        have notX : z ≠ x := fun same => inside (.inl (same ▸ led))
        have notY : z ≠ y := fun same => inside (.inr (same ▸ led))
        refine .unknown (by rw [(joined a).1, if_neg inside, led])
          (by rw [(joined' a').1, if_neg outside', led']) leaders ?_
          (by rw [(joined a).2, if_neg inside, has])
          (by rw [(joined' a').2, if_neg outside', has']) constraints
        rw [rank_union_of_ne notX notY, ranks,
          rank_union_of_ne (fun same => notX (isX.2 same)) fun same => notY (isY.2 same)]
  · intro a a' paired
    simpa using h.tag paired
  · intro a a' paired
    simpa using h.overload paired

theorem setOverload (h : LookAlike r s s') (paired : r a a') (o : Overload) :
    LookAlike r (s.setOverload a o) (s'.setOverload a' o) where
  order := h.order
  view {b b'} pairedB := by
    cases h.view pairedB with
    | known has has' => exact .known (by simpa using has) (by simpa using has')
    | unknown led led' leaders ranks has has' constraints =>
      exact .unknown (by simpa using led) (by simpa using led') leaders (by simpa using ranks)
        (by simpa using has) (by simpa using has') constraints
  tag pairedB := by simpa using h.tag pairedB
  overload {b b'} pairedB := by
    have same := h.eq_iff pairedB paired
    by_cases isA : b = a
    · obtain rfl := isA
      obtain rfl := same.1 rfl
      rw [overload?_setOverload_self (h.lt_size paired).1,
        overload?_setOverload_self (h.lt_size paired).2]
    · rw [overload?_setOverload_of_ne isA,
        overload?_setOverload_of_ne fun isA' => isA (same.2 isA')]
      exact h.overload pairedB

/-- A new slot on each side, for the same purpose. -/
theorem fresh (h : LookAlike r s s') (like : r a a') {b b' : Belief} (believed : b.Paired r b') :
    LookAlike (r.add s.cells.size s'.cells.size) (s.fresh a b).2 (s'.fresh a' b').2 where
  order {c c' d d'} first second := by
    rcases first with first | ⟨rfl, rfl⟩ <;> rcases second with second | ⟨rfl, rfl⟩
    · exact h.order first second
    · have := h.lt_size first
      omega
    · have := h.lt_size second
      omega
    · omega
  view {c c'} paired := by
    rcases paired with old | ⟨rfl, rfl⟩
    · cases h.view old with
      | known has has' =>
        exact .known ((Spares.fresh (fun _ => False) s a b).known has)
          ((Spares.fresh (fun _ => False) s' a' b').known has')
      | unknown led led' leaders ranks has has' constraints =>
        exact .unknown (leader?_fresh led) (leader?_fresh led') (.inl leaders)
          (by rw [rank_fresh (leader?_lt led), rank_fresh (leader?_lt led'), ranks])
          (by rw [belief_fresh led, has]) (by rw [belief_fresh led', has'])
          (constraints.imp fun _ _ paired => paired.mono fun _ _ => .inl)
    · have has := belief_fresh_self s a b
      have has' := belief_fresh_self s' a' b'
      cases believed with
      | known ty => exact .known has has'
      | unknown constraints =>
        exact .unknown (leader?_fresh_self ..) (leader?_fresh_self ..) (.inr ⟨rfl, rfl⟩)
          (by simp [rank, Solver.fresh]) has has'
          (constraints.imp fun _ _ paired => paired.mono fun _ _ => .inl)
  tag {c c'} paired := by
    rcases paired with old | ⟨rfl, rfl⟩
    · rw [origin_fresh (h.lt_size old).1, origin_fresh (h.lt_size old).2]
      exact h.tag old
    · simpa [origin, Solver.fresh] using h.tag like
  overload {c c'} paired := by
    rw [overload?_fresh, overload?_fresh]
    rcases paired with old | ⟨rfl, rfl⟩
    · exact h.overload old
    · simp [overload?]

end LookAlike

end Solver

end LambdaQuery
