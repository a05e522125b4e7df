import LambdaQuery.Proofs.Inference.Classes

/-!
# What a solver says of types

A valuation gives types to slots. It models a solver if it gives one type to each class, the known
type where there is one, and meets every constraint. Narrowing loses nothing: whatever models the
solver that comes out models the one that went in, and does what the tasks asked for.
-/

namespace LambdaQuery

/-- Types for some of the slots. -/
abbrev Valuation := Nat → Option Ty

/-- What a constraint says of a type, given the types of the slots it speaks of. A property that
the type does not have is no concern of the constraint. -/
def Constraint.Holds (catalog : Catalog) (σ : Valuation) (ty : Ty) : Constraint → Prop
  | arithmetic => ty.isArithmetic = true
  | enumerableOf e => ∃ element, ty.element? = some element ∧ σ e = some element
  | arrayOf e => ∃ element, ty = .array element ∧ σ e = some element
  | optionalOf e => σ e = some ty.underlying
  | lambda params result => ∃ types resultTy, ty = .lambda types resultTy ∧
      params.map σ = types.map some ∧ σ result = some resultTy
  | property name e => ∀ p, (catalog.describe ty).bind (·.property? name) = some p →
      ∃ given, σ e = some given ∧ given.assignable p.ty = true

/-- What a task asks for. -/
def Task.Holds (catalog : Catalog) (σ : Valuation) : Task → Prop
  | assign slot ty => σ slot = some ty
  | expect slot ty flow => ∃ given, σ slot = some given ∧ flow.fault? given ty = none
  | discharge _ ty c => c.Holds catalog σ ty
  | constrain slot c => ∀ ty, σ slot = some ty → c.Holds catalog σ ty
  | unify a b => σ a = σ b

/-- The slots of a task are below a bound, and its types are of a kind. -/
def Task.Within (P : Ty → Prop) (bound : Nat) : Task → Prop
  | assign slot ty => slot < bound ∧ P ty
  | expect slot ty _ => slot < bound ∧ P ty
  | discharge _ ty c => P ty ∧ ∀ e ∈ c.components, e < bound
  | constrain slot c => slot < bound ∧ ∀ e ∈ c.components, e < bound
  | unify a b => a < bound ∧ b < bound

/-- A kind of types that inference does not leave: it holds the parts of its types, the types of
their properties, and the types that are put together from them. -/
structure Catalog.Closed (catalog : Catalog) (P : Ty → Prop) : Prop where
  bool : P .bool
  int : P .int
  float : P .float
  string : P .string
  array : ∀ {element : Ty}, P element → P (.array element)
  enumerable : ∀ {element : Ty}, P element → P (.enumerable element)
  orNull : ∀ {ty : Ty}, P ty → P ty.orNull
  lambda : ∀ {types : List Ty} {result : Ty}, (∀ ty ∈ types, P ty) → P result →
    P (.lambda types result)
  common : ∀ {a b c : Ty}, P a → P b → a.common? b = some c → P c
  element : ∀ {ty element : Ty}, P ty → ty.element? = some element → P element
  underlying : ∀ {ty : Ty}, P ty → P ty.underlying
  param : ∀ {types : List Ty} {result ty : Ty}, P (.lambda types result) → ty ∈ types → P ty
  result : ∀ {types : List Ty} {result : Ty}, P (.lambda types result) → P result
  property : ∀ {ty : Ty} {name : String} {p : Property Value}, P ty →
    (catalog.describe ty).bind (·.property? name) = some p → P p.ty

/-- What a belief says of the type of a slot. -/
def Belief.Holds (catalog : Catalog) (σ : Valuation) (slot : Nat) : Belief → Prop
  | known ty => σ slot = some ty
  | unknown constraints =>
    ∀ c ∈ constraints, ∀ ty, σ slot = some ty → c.Holds catalog σ ty

/-- The type of a belief is of a kind, and its constraints speak of slots below a bound. -/
def Belief.Within (P : Ty → Prop) (bound : Nat) : Belief → Prop
  | known ty => P ty
  | unknown constraints => ∀ c ∈ constraints, ∀ e ∈ c.components, e < bound

namespace Solver

/-- A valuation agrees with what is believed. -/
structure Models (catalog : Catalog) (σ : Valuation) (s : Solver) : Prop where
  classes : ∀ {a b leader : Nat}, s.leader? a = some leader → s.leader? b = some leader → σ a = σ b
  beliefs : ∀ slot, (s.belief slot).Holds catalog σ slot

/-- Every slot has a leader, known types are of a kind, and constraints speak of slots that are
there. -/
structure Valid (P : Ty → Prop) (s : Solver) : Prop where
  leads : ∀ {slot : Nat}, slot < s.cells.size → ∃ leader, s.leader? slot = some leader
  beliefs : ∀ slot, (s.belief slot).Within P s.cells.size

variable {catalog : Catalog} {P : Ty → Prop} {σ : Valuation} {s s' : Solver}

/-- What is known is a model. -/
theorem models_known? (catalog : Catalog) (s : Solver) : s.Models catalog s.known? where
  classes ha hb := by simp only [known?, belief_congr ha hb]
  beliefs slot := by
    cases believed : s.belief slot with
    | known ty => exact known?_eq_some_iff.2 believed
    | unknown cs =>
      intro c _ ty known
      rw [known?_eq_some_iff, believed] at known
      cases known

theorem Models.eq_some (m : s.Models catalog σ) {slot : Nat} {ty : Ty}
    (h : s.known? slot = some ty) : σ slot = some ty := by
  have believed := m.beliefs slot
  rwa [known?_eq_some_iff.1 h] at believed

theorem Valid.known? (v : s.Valid P) {slot : Nat} {ty : Ty} (h : s.known? slot = some ty) :
    P ty := by
  have within := v.beliefs slot
  rwa [known?_eq_some_iff.1 h] at within

/-! What a change of belief, or a union, means for models. -/

section

variable {x y leader : Nat} {b : Belief}

theorem Valid.setBelief (v : s.Valid P) (within : b.Within P s.cells.size) :
    (s.setBelief leader b).Valid P where
  leads lt := by
    rw [size_setBelief] at lt
    simpa using v.leads lt
  beliefs slot := by
    rw [size_setBelief]
    by_cases inClass : s.leader? slot = some leader
    · rwa [belief_setBelief inClass]
    · rw [belief_setBelief_of_ne inClass]
      exact v.beliefs slot

theorem Models.of_setBelief (m : (s.setBelief leader b).Models catalog σ)
    (before : ∀ slot, s.leader? slot = some leader → (s.belief slot).Holds catalog σ slot) :
    s.Models catalog σ where
  classes ha hb := m.classes (by simpa using ha) (by simpa using hb)
  beliefs slot := by
    by_cases inClass : s.leader? slot = some leader
    · exact before slot inClass
    · rw [← belief_setBelief_of_ne inClass b]
      exact m.beliefs slot

theorem Valid.union (v : s.Valid P) (hx : s.leader? x = some x) (hy : s.leader? y = some y)
    (different : x ≠ y) (within : b.Within P s.cells.size) : (s.union x y b).2.Valid P := by
  obtain ⟨_, size, changed⟩ := union_spec hx hy different b
  constructor
  · intro slot lt
    rw [size] at lt
    obtain ⟨old, led⟩ := v.leads lt
    rw [(changed slot).1]
    by_cases either : s.leader? slot = some x ∨ s.leader? slot = some y
    · exact ⟨_, if_pos either⟩
    · exact ⟨old, by rw [if_neg either, led]⟩
  · intro slot
    rw [(changed slot).2, size]
    split
    · exact within
    · exact v.beliefs slot

/-- The two classes are one in a model of their union. -/
theorem Models.of_union (m : (s.union x y b).2.Models catalog σ) (hx : s.leader? x = some x)
    (hy : s.leader? y = some y) (different : x ≠ y)
    (before : ∀ slot, s.leader? slot = some x ∨ s.leader? slot = some y →
      b.Holds catalog σ slot → σ slot = σ (s.union x y b).1 → (s.belief slot).Holds catalog σ slot) :
    s.Models catalog σ ∧ ∀ slot, s.leader? slot = some x ∨ s.leader? slot = some y →
      b.Holds catalog σ slot ∧ σ slot = σ (s.union x y b).1 := by
  obtain ⟨isEither, _, changed⟩ := union_spec hx hy different b
  have led {slot : Nat} (either : s.leader? slot = some x ∨ s.leader? slot = some y) :
      (s.union x y b).2.leader? slot = some (s.union x y b).1 := by
    rw [(changed slot).1, if_pos either]
  have leaderLed : (s.union x y b).2.leader? (s.union x y b).1 = some (s.union x y b).1 := by
    rcases isEither with isX | isY
    · exact led (.inl (by rw [isX, hx]))
    · exact led (.inr (by rw [isY, hy]))
  have merged (slot : Nat) (either : s.leader? slot = some x ∨ s.leader? slot = some y) :
      b.Holds catalog σ slot ∧ σ slot = σ (s.union x y b).1 := by
    have believed := m.beliefs slot
    rw [(changed slot).2, if_pos either] at believed
    exact ⟨believed, m.classes (led either) leaderLed⟩
  refine ⟨⟨?_, ?_⟩, merged⟩
  · intro a c leader ha hc
    by_cases either : s.leader? a = some x ∨ s.leader? a = some y
    · have same : s.leader? c = some x ∨ s.leader? c = some y := by
        rwa [ha, ← hc] at either
      rw [(merged a either).2, (merged c same).2]
    · have other : ¬(s.leader? c = some x ∨ s.leader? c = some y) := by
        rwa [ha, ← hc] at either
      have ledA : (s.union x y b).2.leader? a = some leader := by
        rw [(changed a).1, if_neg either, ha]
      have ledC : (s.union x y b).2.leader? c = some leader := by
        rw [(changed c).1, if_neg other, hc]
      exact m.classes ledA ledC
  · intro slot
    by_cases either : s.leader? slot = some x ∨ s.leader? slot = some y
    · exact before slot either (merged slot either).1 (merged slot either).2
    · have believed := m.beliefs slot
      rwa [(changed slot).2, if_neg either] at believed

end

end Solver

end LambdaQuery
