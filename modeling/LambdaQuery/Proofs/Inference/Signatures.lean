import LambdaQuery.Inference.Rounds
import LambdaQuery.Proofs.Inference.Narrowing

/-!
# What signatures ask of types

Narrowing a slot to a shape gives the slot a type that meets the shape, with one type for each
variable of the signature.
-/

namespace LambdaQuery

namespace Shape

mutual
/-- The types in a shape are of a kind. -/
def Within (P : Ty → Prop) : Shape → Prop
  | concrete ty => P ty
  | generic .. => True
  | enumerable s | array s | optional s => Within P s
  | lambda params result => WithinAll P params ∧ Within P result

def WithinAll (P : Ty → Prop) : List Shape → Prop
  | [] => True
  | s :: rest => Within P s ∧ WithinAll P rest
end

mutual
/-- A type meets a shape whose variables have the given types. Only a type that stands by itself
may be converted; what is inside another has to be as the shape says. -/
def Meets (γ : Nat → Option Ty) : Shape → Flow → Ty → Prop
  | concrete expected, flow, ty => flow.fault? ty expected = none
  | generic index arithmetic, _, ty =>
    γ index = some ty ∧ (arithmetic = true → ty.isArithmetic = true)
  | enumerable s, _, ty => ∃ element, ty.element? = some element ∧ Meets γ s .exact element
  | array s, _, ty => ∃ element, ty = .array element ∧ Meets γ s .exact element
  | optional s, flow, ty =>
    match ty with
    | .optional inner => Meets γ s .exact inner
    | ty => Meets γ s flow ty
  | lambda params result, _, ty => ∃ types resultTy, ty = .lambda types resultTy ∧
      MeetsAll γ params types ∧ Meets γ result .exact resultTy

def MeetsAll (γ : Nat → Option Ty) : List Shape → List Ty → Prop
  | [], [] => True
  | s :: shapes, ty :: types => Meets γ s .exact ty ∧ MeetsAll γ shapes types
  | _, _ => False
end

variable {γ : Nat → Option Ty}

/-- What is as a shape says can also be used as it says. -/
theorem Meets.of_exact (flow : Flow) : ∀ {s : Shape} {ty : Ty}, Meets γ s .exact ty →
    Meets γ s flow ty
  | .concrete expected, ty, h => by
    have same : expected = ty := by simpa [Meets, Flow.fault?] using h
    rw [same]
    exact flow.fault?_self ty
  | .optional s, ty, h => by
    cases ty with
    | optional inner => exact h
    | _ => exact of_exact flow (s := s) h
  | .generic .., _, h | .enumerable _, _, h | .array _, _, h | .lambda .., _, h => h

end Shape

namespace Overload

/-- The types in a signature are of a kind. -/
def Within (P : Ty → Prop) (o : Overload) : Prop :=
  Shape.WithinAll P o.params ∧ o.result.Within P

/-- The types of arguments and of a result, as far as there are any, meet a signature with one type
for each of its variables. -/
def Meets (o : Overload) (σ : Valuation) (args : List Nat) (slot : Nat) : Prop :=
  ∃ b : Bindings,
    (∀ p ∈ o.params.zip args, ∀ ty, σ p.2 = some ty → p.1.Meets b.get? .into ty) ∧
      ∀ ty, σ slot = some ty → o.result.Meets b.get? .outOf ty

end Overload

namespace Solver

variable {catalog : Catalog} {P : Ty → Prop} {s s' : Solver}

theorem leader?_eq_none_of_le {slot : Nat} (h : s.cells.size ≤ slot) : s.leader? slot = none := by
  cases led : s.leader? slot with
  | none => rfl
  | some leader =>
    have := slot_lt_of_leader? led
    omega

/-- A new slot changes nothing for the others. -/
theorem fresh_grown (catalog : Catalog) (v : s.Valid P) (like : Nat) {b : Belief}
    (within : b.Within P s.cells.size) :
    Grown catalog P s (s.fresh like b).2 ∧
      ∀ {σ : Valuation}, (s.fresh like b).2.Models catalog σ → b.Holds catalog σ s.cells.size := by
  have size := size_fresh s like b
  have wider {belief : Belief} (h : belief.Within P s.cells.size) :
      belief.Within P (s.cells.size + 1) := by
    cases belief with
    | known ty => exact h
    | unknown cs => exact fun c mem e part => Nat.lt_succ_of_lt (h c mem e part)
  refine ⟨⟨⟨?_, ?_⟩, by omega, ?_⟩, ?_⟩
  · intro slot lt
    rw [size] at lt
    rcases Nat.lt_or_eq_of_le (Nat.le_of_lt_succ lt) with old | rfl
    · obtain ⟨leader, led⟩ := v.leads old
      exact ⟨leader, leader?_fresh led⟩
    · exact ⟨_, leader?_fresh_self s like b⟩
  · intro slot
    rw [size]
    rcases Nat.lt_trichotomy slot s.cells.size with old | rfl | beyond
    · obtain ⟨leader, led⟩ := v.leads old
      rw [belief_fresh led]
      exact wider (v.beliefs slot)
    · rw [belief_fresh_self]
      exact wider within
    · have none : (s.fresh like b).2.leader? slot = none := leader?_eq_none_of_le (by omega)
      rw [belief_of_leader?_eq_none none]
      simp [Belief.Within]
  · intro σ m
    refine ⟨fun ha hb => m.classes (leader?_fresh ha) (leader?_fresh hb), fun slot => ?_⟩
    cases led : s.leader? slot with
    | none =>
      rw [belief_of_leader?_eq_none led]
      simp [Belief.Holds]
    | some leader =>
      have believed := m.beliefs slot
      rwa [belief_fresh led] at believed
  · intro σ m
    have believed := m.beliefs s.cells.size
    rwa [belief_fresh_self] at believed

/-- What a solver became, with what can be said of every model since. -/
structure Learnt (catalog : Catalog) (P : Ty → Prop) (s s' : Solver) (Q : Valuation → Prop) : Prop
    extends Grown catalog P s s' where
  overloads : ∀ slot, s'.overload? slot = s.overload? slot
  fact : ∀ {σ : Valuation}, s'.Models catalog σ → Q σ

namespace Learnt

variable {t : Solver} {Q R : Valuation → Prop}

theorem trans (first : Learnt catalog P s t Q) (second : Learnt catalog P t s' R) :
    Learnt catalog P s s' fun σ => Q σ ∧ R σ where
  toGrown := first.toGrown.trans second.toGrown
  overloads slot := (second.overloads slot).trans (first.overloads slot)
  fact m := ⟨first.fact (second.models m), second.fact m⟩

theorem mono (h : Learnt catalog P s s' Q) (imp : ∀ σ, s.Models catalog σ → Q σ → R σ) :
    Learnt catalog P s s' R where
  toGrown := h.toGrown
  overloads := h.overloads
  fact m := imp _ (h.models m) (h.fact m)

theorem refl (v : s.Valid P) : Learnt catalog P s s fun _ => True where
  toGrown := .refl v
  overloads _ := rfl
  fact _ := trivial

end Learnt

end Solver

namespace Inference

open Solver

variable {catalog : Catalog} {P : Ty → Prop} {s s' : Solver}

theorem known?_ok {slot : Nat} {found : Option Ty} (h : known? slot s = .ok found s') :
    found = s.known? slot ∧ s' = s := by
  obtain ⟨_, _, got, h⟩ := bind_ok h
  obtain ⟨rfl, rfl⟩ := get_ok got
  obtain ⟨rfl, rfl⟩ := pure_ok h
  exact ⟨rfl, rfl⟩

theorem learn_learnt (closed : catalog.Closed P) {tasks : List Task} {u : Unit} (v : s.Valid P)
    (within : ∀ t ∈ tasks, t.Within P s.cells.size) (h : learn catalog tasks s = .ok u s') :
    Learnt catalog P s s' fun σ => ∀ t ∈ tasks, t.Holds catalog σ := by
  obtain ⟨grown, _, overloads, holds⟩ := narrow_grown closed v within (learn_ok h)
  exact ⟨grown, overloads, holds⟩

theorem fresh_learnt (catalog : Catalog) (v : s.Valid P) {like slot : Nat} {b : Belief}
    (h : fresh like b s = .ok slot s') (within : b.Within P s.cells.size) :
    Learnt catalog P s s' (fun σ => b.Holds catalog σ slot) ∧ s.cells.size ≤ slot ∧
      slot < s'.cells.size := by
  have made : EStateM.Result.ok (s.fresh like b).1 (s.fresh like b).2 = .ok slot s' := h
  cases made
  obtain ⟨grown, holds⟩ := fresh_grown catalog v like within
  refine ⟨⟨grown, overload?_fresh s like b, holds⟩, Nat.le_refl _, ?_⟩
  rw [size_fresh]
  exact Nat.lt_succ_self _

/-- The types of the variables of a signature, which are slots. -/
def variableTys (generics : List Nat) (σ : Valuation) (index : Nat) : Option Ty :=
  (generics[index]?).bind σ

/-- Types for finitely many variables are bindings. -/
theorem exists_bindings (γ : Nat → Option Ty) :
    ∀ n, ∃ b : Bindings, ∀ i, b.get? i = if i < n then γ i else none
  | 0 => ⟨.empty, fun i => by simp [Bindings.get?, Bindings.empty]⟩
  | n + 1 => by
    obtain ⟨b, agrees⟩ := exists_bindings γ n
    cases last : γ n with
    | none =>
      refine ⟨b, fun i => ?_⟩
      rw [agrees i]
      rcases Nat.lt_trichotomy i n with lt | rfl | gt
      · simp [lt, Nat.lt_succ_of_lt lt]
      · simp [last]
      · rw [if_neg (by omega), if_neg (by omega)]
    | some ty =>
      refine ⟨⟨(n, ty) :: b.entries⟩, fun i => ?_⟩
      have step : Bindings.get? ⟨(n, ty) :: b.entries⟩ i = if i = n then some ty else b.get? i := by
        simp only [Bindings.get?, List.lookup_cons]
        by_cases same : i = n
        · simp [same]
        · simp [same, beq_eq_false_iff_ne.2 same]
      rw [step, agrees i]
      rcases Nat.lt_trichotomy i n with lt | rfl | gt
      · rw [if_neg (by omega), if_pos lt, if_pos (by omega)]
      · rw [if_pos rfl, if_pos (by omega), last]
      · rw [if_neg (by omega), if_neg (by omega), if_neg (by omega)]

theorem exists_bindings_variableTys (generics : List Nat) (σ : Valuation) :
    ∃ b : Bindings, b.get? = variableTys generics σ := by
  obtain ⟨b, agrees⟩ := exists_bindings (variableTys generics σ) generics.length
  refine ⟨b, funext fun i => ?_⟩
  rw [agrees i]
  split
  · rfl
  · rename_i outside
    simp [variableTys, List.getElem?_eq_none (Nat.le_of_not_lt outside)]

/-- Narrowing a slot to the shape makes its type meet the shape. -/
structure Narrows (catalog : Catalog) (P : Ty → Prop) (generics : List Nat) (shape : Shape) :
    Prop where
  apply : ∀ {slot : Nat} {flow : Flow} {s s' : Solver} {u : Unit}, s.Valid P →
    (∀ g ∈ generics, g < s.cells.size) → slot < s.cells.size →
    applyShape catalog generics shape slot flow s = .ok u s' →
    Learnt catalog P s s' fun σ =>
      ∀ ty, σ slot = some ty → shape.Meets (variableTys generics σ) flow ty

section

variable {generics : List Nat} {shape : Shape} {slot : Nat} {flow : Flow} {u : Unit}

theorem concrete_narrows (closed : catalog.Closed P) {expected : Ty} (proper : P expected) :
    Narrows catalog P generics (.concrete expected) := by
  constructor
  intro slot flow s s' u v _ lt h
  unfold applyShape at h
  refine (learn_learnt closed v (by simpa [Task.Within] using ⟨lt, proper⟩) h).mono ?_
  intro σ _ holds ty has
  obtain ⟨given, has', noFault⟩ := holds (.expect slot expected flow) (by simp)
  rw [has] at has'
  cases has'
  exact noFault

theorem generic_narrows (closed : catalog.Closed P) {index : Nat} {arithmetic : Bool}
    (indexLt : index < generics.length) :
    Narrows catalog P generics (.generic index arithmetic) := by
  constructor
  intro slot flow s s' u v inside lt h
  have there : generics[index]? = some generics[index] := List.getElem?_eq_getElem indexLt
  have genericLt := inside _ (List.getElem_mem indexLt)
  have constrained : ∃ t, Learnt catalog P s t (fun σ => arithmetic = true →
      ∀ ty, σ generics[index] = some ty → ty.isArithmetic = true) ∧
      learn catalog [.unify slot generics[index]] t = .ok u s' := by
    unfold applyShape at h
    simp only [there] at h
    cases arithmetic with
    | false => exact ⟨s, (Learnt.refl v).mono (by simp), h⟩
    | true =>
      obtain ⟨_, t, first, second⟩ := bind_ok h
      refine ⟨t, (learn_learnt closed v ?_ first).mono ?_, second⟩
      · simpa [Task.Within, Constraint.components] using genericLt
      · intro σ _ holds _ ty has
        exact holds (.constrain generics[index] .arithmetic) (by simp) ty has
  obtain ⟨t, constrained, second⟩ := constrained
  have unifyWithin : ∀ task ∈ [Task.unify slot generics[index]], task.Within P t.cells.size := by
    simp only [List.mem_singleton, forall_eq]
    exact ⟨Nat.lt_of_lt_of_le lt constrained.size, Nat.lt_of_lt_of_le genericLt constrained.size⟩
  refine (constrained.trans (learn_learnt closed constrained.valid unifyWithin second)).mono ?_
  rintro σ _ ⟨isNumber, holds⟩ ty has
  have same : σ slot = σ generics[index] := holds (.unify slot generics[index]) (by simp)
  refine ⟨by simp [variableTys, there, ← same, has], fun restricted => ?_⟩
  exact isNumber restricted ty (same ▸ has)

/-- A part of a known type is narrowed through a slot of its own. -/
theorem known_part (narrows : Narrows catalog P generics shape) (v : s.Valid P)
    (inside : ∀ g ∈ generics, g < s.cells.size) {like : Nat} {part : Ty} (proper : P part)
    (h : (do applyShape catalog generics shape (← fresh like (.known part)) .exact :
      Inference Unit) s = .ok u s') :
    Learnt catalog P s s' fun σ => shape.Meets (variableTys generics σ) .exact part := by
  obtain ⟨inner, t, made, h⟩ := bind_ok h
  obtain ⟨first, _, lt⟩ := fresh_learnt catalog v made proper
  have second := narrows.apply first.valid
    (fun g mem => Nat.lt_of_lt_of_le (inside g mem) first.size) lt h
  refine (first.trans second).mono ?_
  rintro σ _ ⟨has, meets⟩
  exact meets part has

/-- A part of an unknown type is a new slot that a constraint ties to the whole. -/
theorem unknown_part (closed : catalog.Closed P) (narrows : Narrows catalog P generics shape)
    (v : s.Valid P) (inside : ∀ g ∈ generics, g < s.cells.size) (lt : slot < s.cells.size)
    {constraint : Nat → Constraint} (component : ∀ e, (constraint e).components = [e])
    (h : (do
      let inner ← fresh slot (.unknown [])
      learn catalog [.constrain slot (constraint inner)]
      applyShape catalog generics shape inner .exact : Inference Unit) s = .ok u s') :
    Learnt catalog P s s' fun σ => ∀ ty, σ slot = some ty →
      ∃ e, (constraint e).Holds catalog σ ty ∧
        ∀ part, σ e = some part → shape.Meets (variableTys generics σ) .exact part := by
  obtain ⟨inner, t, made, h⟩ := bind_ok h
  obtain ⟨_, t', constrained, h⟩ := bind_ok h
  obtain ⟨first, _, innerLt⟩ := fresh_learnt catalog v made (by simp [Belief.Within])
  have second := learn_learnt closed first.valid (by
    simpa [Task.Within, component] using ⟨Nat.lt_of_lt_of_le lt first.size, innerLt⟩) constrained
  have third := narrows.apply second.valid
    (fun g mem => Nat.lt_of_lt_of_le (inside g mem) (Nat.le_trans first.size second.size))
    (Nat.lt_of_lt_of_le innerLt second.size) h
  refine (first.trans (second.trans third)).mono ?_
  rintro σ _ ⟨_, holds, meets⟩ ty has
  exact ⟨inner, holds (.constrain slot (constraint inner)) (by simp) ty has, meets⟩

theorem enumerable_narrows (closed : catalog.Closed P)
    (narrows : Narrows catalog P generics shape) :
    Narrows catalog P generics (.enumerable shape) := by
  constructor
  intro slot flow s s' u v inside lt h
  unfold applyShape at h
  obtain ⟨found, t, looked, h⟩ := bind_ok h
  obtain ⟨rfl, rfl⟩ := known?_ok looked
  cases known : t.known? slot with
  | some ty =>
    simp only [known] at h
    cases element : ty.element? with
    | none =>
      simp only [element] at h
      exact absurd h fail_ne_ok
    | some e =>
      simp only [element] at h
      have proper : P e := closed.element (v.known? known) element
      refine (known_part narrows v inside proper h).mono ?_
      intro σ m meets given has
      rw [m.eq_some known] at has
      cases has
      exact ⟨e, element, meets⟩
  | none =>
    simp only [known] at h
    refine (unknown_part closed narrows v inside lt (fun _ => rfl) h).mono ?_
    intro σ _ parts ty has
    obtain ⟨e, ⟨element, isElement, hasElement⟩, meets⟩ := parts ty has
    exact ⟨element, isElement, meets element hasElement⟩

theorem array_narrows (closed : catalog.Closed P) (narrows : Narrows catalog P generics shape) :
    Narrows catalog P generics (.array shape) := by
  constructor
  intro slot flow s s' u v inside lt h
  unfold applyShape at h
  obtain ⟨found, t, looked, h⟩ := bind_ok h
  obtain ⟨rfl, rfl⟩ := known?_ok looked
  cases known : t.known? slot with
  | some ty =>
    simp only [known] at h
    cases ty with
    | array e =>
      have proper : P e := closed.element (v.known? known) rfl
      refine (known_part narrows v inside proper h).mono ?_
      intro σ m meets given has
      rw [m.eq_some known] at has
      cases has
      exact ⟨e, rfl, meets⟩
    | _ => exact absurd h fail_ne_ok
  | none =>
    simp only [known] at h
    refine (unknown_part closed narrows v inside lt (fun _ => rfl) h).mono ?_
    intro σ _ parts ty has
    obtain ⟨e, ⟨element, isArray, hasElement⟩, meets⟩ := parts ty has
    exact ⟨element, isArray, meets element hasElement⟩

theorem optional_narrows (closed : catalog.Closed P) (narrows : Narrows catalog P generics shape) :
    Narrows catalog P generics (.optional shape) := by
  constructor
  intro slot flow s s' u v inside lt h
  unfold applyShape at h
  obtain ⟨found, t, looked, h⟩ := bind_ok h
  obtain ⟨rfl, rfl⟩ := known?_ok looked
  cases known : t.known? slot with
  | some ty =>
    simp only [known] at h
    cases ty with
    | optional inner =>
      have proper : P inner := closed.underlying (v.known? known)
      refine (known_part narrows v inside proper h).mono ?_
      intro σ m meets given has
      rw [m.eq_some known] at has
      cases has
      exact meets
    | _ =>
      refine (narrows.apply v inside lt h).mono ?_
      intro σ m meets given has
      rw [m.eq_some known] at has
      cases has
      exact meets _ (m.eq_some known)
  | none =>
    simp only [known] at h
    refine (unknown_part closed narrows v inside lt (fun _ => rfl) h).mono ?_
    intro σ _ parts ty has
    obtain ⟨e, hasUnderlying, meets⟩ := parts ty has
    have onUnderlying := meets _ hasUnderlying
    cases ty with
    | optional inner => exact onUnderlying
    | _ => exact .of_exact flow onUnderlying

theorem freshSlots_learnt (catalog : Catalog) (v : s.Valid P) {like count : Nat} {slots : List Nat}
    (h : freshSlots like count s = .ok slots s') :
    Learnt catalog P s s' (fun _ => True) ∧ slots.length = count ∧
      ∀ slot ∈ slots, slot < s'.cells.size := by
  induction count generalizing s slots with
  | zero =>
    obtain ⟨rfl, rfl⟩ := pure_ok h
    exact ⟨.refl v, rfl, by simp⟩
  | succ count ih =>
    obtain ⟨slot, t, made, h⟩ := bind_ok h
    obtain ⟨more, t', others, h⟩ := bind_ok h
    obtain ⟨rfl, rfl⟩ := pure_ok h
    obtain ⟨first, _, lt⟩ := fresh_learnt catalog v made (by simp [Belief.Within])
    obtain ⟨second, length, inside⟩ := ih first.valid others
    refine ⟨(first.trans second).mono (by simp), by simp [length], ?_⟩
    intro slot' mem
    rcases List.mem_cons.1 mem with rfl | inMore
    · exact Nat.lt_of_lt_of_le lt second.size
    · exact inside slot' inMore

theorem applyTypes_learnt {shapes : List Shape} {types : List Ty} {like : Nat}
    (narrows : ∀ shape ∈ shapes, Narrows catalog P generics shape) (v : s.Valid P)
    (inside : ∀ g ∈ generics, g < s.cells.size) (proper : ∀ ty ∈ types, P ty)
    (sameLength : types.length = shapes.length)
    (h : applyTypes catalog generics shapes types like s = .ok u s') :
    Learnt catalog P s s' fun σ => Shape.MeetsAll (variableTys generics σ) shapes types := by
  induction shapes generalizing types s with
  | nil => cases types with
    | nil =>
      unfold applyTypes at h
      obtain ⟨_, rfl⟩ := pure_ok h
      exact (Learnt.refl v).mono fun _ _ _ => trivial
    | cons => cases sameLength
  | cons shape shapes ih => cases types with
    | nil => cases sameLength
    | cons ty types =>
      unfold applyTypes at h
      have regrouped : ((do applyShape catalog generics shape (← fresh like (.known ty)) .exact :
          Inference Unit) >>= fun _ => applyTypes catalog generics shapes types like) s =
          .ok u s' := by
        rw [bind_assoc]
        exact h
      obtain ⟨_, t, applied, h⟩ := bind_ok regrouped
      have first := known_part (narrows shape List.mem_cons_self) v inside
        (proper ty List.mem_cons_self) applied
      have second := ih (fun s mem => narrows s (List.mem_cons_of_mem _ mem)) first.valid
        (fun g mem => Nat.lt_of_lt_of_le (inside g mem) first.size)
        (fun ty mem => proper ty (List.mem_cons_of_mem _ mem)) (Nat.succ.inj sameLength) h
      exact (first.trans second).mono fun _ _ both => both

theorem applySlots_learnt {shapes : List Shape} {slots : List Nat}
    (narrows : ∀ shape ∈ shapes, Narrows catalog P generics shape) (v : s.Valid P)
    (inside : ∀ g ∈ generics, g < s.cells.size) (there : ∀ slot ∈ slots, slot < s.cells.size)
    (sameLength : slots.length = shapes.length)
    (h : applySlots catalog generics shapes slots s = .ok u s') :
    Learnt catalog P s s' fun σ => ∀ types, slots.map σ = types.map some →
      Shape.MeetsAll (variableTys generics σ) shapes types := by
  induction shapes generalizing slots s with
  | nil => cases slots with
    | nil =>
      unfold applySlots at h
      obtain ⟨_, rfl⟩ := pure_ok h
      refine (Learnt.refl v).mono fun σ _ _ types same => ?_
      cases types with
      | nil => trivial
      | cons => cases same
    | cons => cases sameLength
  | cons shape shapes ih => cases slots with
    | nil => cases sameLength
    | cons slot slots =>
      unfold applySlots at h
      obtain ⟨_, t, applied, h⟩ := bind_ok h
      have first := (narrows shape List.mem_cons_self).apply v inside
        (there slot List.mem_cons_self) applied
      have second := ih (fun s mem => narrows s (List.mem_cons_of_mem _ mem)) first.valid
        (fun g mem => Nat.lt_of_lt_of_le (inside g mem) first.size)
        (fun i mem => Nat.lt_of_lt_of_le (there i (List.mem_cons_of_mem _ mem)) first.size)
        (Nat.succ.inj sameLength) h
      refine (first.trans second).mono ?_
      rintro σ _ ⟨meets, meetsAll⟩ types same
      cases types with
      | nil => cases same
      | cons ty types =>
        simp only [List.map_cons, List.cons.injEq] at same
        exact ⟨meets ty same.1, meetsAll types same.2⟩

theorem lambda_narrows (closed : catalog.Closed P) {params : List Shape} {result : Shape}
    (onParams : ∀ shape ∈ params, Narrows catalog P generics shape)
    (onResult : Narrows catalog P generics result) :
    Narrows catalog P generics (.lambda params result) := by
  constructor
  intro slot flow s s' u v inside lt h
  unfold applyShape at h
  obtain ⟨found, t, looked, h⟩ := bind_ok h
  obtain ⟨rfl, rfl⟩ := known?_ok looked
  cases known : t.known? slot with
  | some ty =>
    simp only [known] at h
    cases ty with
    | lambda types resultTy =>
      by_cases sameLength : types.length = params.length
      · simp only [sameLength, if_true] at h
        have proper := v.known? known
        obtain ⟨_, t', applied, h⟩ := bind_ok h
        have first := applyTypes_learnt onParams v inside (fun ty => closed.param proper)
          sameLength applied
        have second := known_part onResult first.valid
          (fun g mem => Nat.lt_of_lt_of_le (inside g mem) first.size) (closed.result proper) h
        refine (first.trans second).mono ?_
        rintro σ m ⟨meetsAll, meets⟩ given has
        rw [m.eq_some known] at has
        cases has
        exact ⟨types, resultTy, rfl, meetsAll, meets⟩
      · simp only [sameLength, if_false] at h
        exact absurd h fail_ne_ok
    | _ => exact absurd h fail_ne_ok
  | none =>
    simp only [known] at h
    obtain ⟨slots, t₁, madeParams, h⟩ := bind_ok h
    obtain ⟨inner, t₂, madeResult, h⟩ := bind_ok h
    obtain ⟨_, t₃, constrained, h⟩ := bind_ok h
    obtain ⟨_, t₄, applied, h⟩ := bind_ok h
    obtain ⟨first, length, there⟩ := freshSlots_learnt catalog v madeParams
    obtain ⟨second, _, innerLt⟩ :=
      fresh_learnt catalog first.valid madeResult (by simp [Belief.Within])
    have grown₂ := (first.trans second).toGrown
    have third := learn_learnt closed second.valid (by
      simp only [List.mem_singleton, forall_eq]
      refine ⟨Nat.lt_of_lt_of_le lt grown₂.size, fun e part => ?_⟩
      rcases List.mem_append.1 part with inParams | isResult
      · exact Nat.lt_of_lt_of_le (there e inParams) second.size
      · cases List.mem_singleton.1 isResult
        exact innerLt) constrained
    have grown₃ := grown₂.trans third.toGrown
    have fourth := applySlots_learnt onParams third.valid
      (fun g mem => Nat.lt_of_lt_of_le (inside g mem) grown₃.size)
      (fun i mem => Nat.lt_of_lt_of_le (there i mem) (Nat.le_trans second.size third.size))
      length applied
    have fifth := onResult.apply fourth.valid
      (fun g mem => Nat.lt_of_lt_of_le (inside g mem) (Nat.le_trans grown₃.size fourth.size))
      (Nat.lt_of_lt_of_le innerLt (Nat.le_trans third.size fourth.size)) h
    refine (first.trans (second.trans (third.trans (fourth.trans fifth)))).mono ?_
    rintro σ _ ⟨_, _, holds, meetsAll, meets⟩ ty has
    obtain ⟨types, resultTy, isLambda, hasParams, hasResult⟩ :=
      holds (.constrain slot (.lambda slots inner)) (by simp) ty has
    exact ⟨types, resultTy, isLambda, meetsAll types hasParams, meets resultTy hasResult⟩

mutual
theorem applyShape_narrows (generics : List Nat) (closed : catalog.Closed P) :
    ∀ (shape : Shape), shape.Within P → shape.genericCount ≤ generics.length →
      Narrows catalog P generics shape
  | .concrete _, within, _ => concrete_narrows closed within
  | .generic .., _, bound => generic_narrows closed bound
  | .enumerable shape, within, bound =>
    enumerable_narrows closed (applyShape_narrows generics closed shape within bound)
  | .array shape, within, bound =>
    array_narrows closed (applyShape_narrows generics closed shape within bound)
  | .optional shape, within, bound =>
    optional_narrows closed (applyShape_narrows generics closed shape within bound)
  | .lambda params result, within, bound =>
    lambda_narrows closed
      (applyShape_narrows_all generics closed params within.1
        (Nat.le_trans (Nat.le_max_left ..) bound))
      (applyShape_narrows generics closed result within.2
        (Nat.le_trans (Nat.le_max_right ..) bound))

theorem applyShape_narrows_all (generics : List Nat) (closed : catalog.Closed P) :
    ∀ (shapes : List Shape), Shape.WithinAll P shapes →
      Shape.genericCountAll shapes ≤ generics.length →
      ∀ shape ∈ shapes, Narrows catalog P generics shape
  | [], _, _ => by simp
  | first :: rest, within, bound => by
    have onFirst := applyShape_narrows generics closed first within.1
      (Nat.le_trans (Nat.le_max_left ..) bound)
    have onRest := applyShape_narrows_all generics closed rest within.2
      (Nat.le_trans (Nat.le_max_right ..) bound)
    intro shape mem
    rcases List.mem_cons.1 mem with rfl | inRest
    · exact onFirst
    · exact onRest shape inRest
end

/-! A whole signature. -/

theorem applyArgs_learnt {shapes : List Shape} {slots : List Nat}
    (narrows : ∀ shape ∈ shapes, Narrows catalog P generics shape) (v : s.Valid P)
    (inside : ∀ g ∈ generics, g < s.cells.size) (there : ∀ slot ∈ slots, slot < s.cells.size)
    (h : applyArgs catalog generics shapes slots s = .ok u s') :
    Learnt catalog P s s' fun σ => ∀ p ∈ shapes.zip slots, ∀ ty, σ p.2 = some ty →
      p.1.Meets (variableTys generics σ) .into ty := by
  induction shapes generalizing slots s with
  | nil =>
    unfold applyArgs at h
    obtain ⟨_, rfl⟩ := pure_ok h
    exact (Learnt.refl v).mono (by simp)
  | cons shape shapes ih => cases slots with
    | nil =>
      unfold applyArgs at h
      obtain ⟨_, rfl⟩ := pure_ok h
      exact (Learnt.refl v).mono (by simp)
    | cons slot slots =>
      unfold applyArgs at h
      obtain ⟨_, t, applied, h⟩ := bind_ok h
      have first := (narrows shape List.mem_cons_self).apply v inside
        (there slot List.mem_cons_self) applied
      have second := ih (fun s mem => narrows s (List.mem_cons_of_mem _ mem)) first.valid
        (fun g mem => Nat.lt_of_lt_of_le (inside g mem) first.size)
        (fun i mem => Nat.lt_of_lt_of_le (there i (List.mem_cons_of_mem _ mem)) first.size) h
      refine (first.trans second).mono ?_
      rintro σ _ ⟨meets, meetsAll⟩ p mem
      rcases List.mem_cons.1 mem with rfl | inRest
      · exact meets
      · exact meetsAll p inRest

/-- Taking a name to stand for an overload makes the types meet the signature, and records it. -/
theorem applyOverload_ok (closed : catalog.Closed P) {o : Overload} {args : List Nat}
    (within : o.Within P) (v : s.Valid P) (lt : slot < s.cells.size)
    (there : ∀ arg ∈ args, arg < s.cells.size)
    (h : applyOverload catalog slot o args s = .ok u s') :
    ∃ t, Learnt catalog P s t (fun σ => o.Meets σ args slot) ∧ s' = t.setOverload slot o := by
  obtain ⟨generics, t₁, made, h⟩ := bind_ok h
  obtain ⟨_, t₂, appliedArgs, h⟩ := bind_ok h
  obtain ⟨_, t₃, appliedResult, h⟩ := bind_ok h
  have recorded : EStateM.Result.ok () (t₃.setOverload slot o) = .ok u s' := h
  cases recorded
  obtain ⟨first, length, inside⟩ := freshSlots_learnt catalog v made
  have onParams := applyShape_narrows_all generics closed o.params within.1
    (by rw [length]; exact Nat.le_max_left ..)
  have onResult := applyShape_narrows generics closed o.result within.2
    (by rw [length]; exact Nat.le_max_right ..)
  have second := applyArgs_learnt onParams first.valid inside
    (fun arg mem => Nat.lt_of_lt_of_le (there arg mem) first.size) appliedArgs
  have third := onResult.apply second.valid
    (fun g mem => Nat.lt_of_lt_of_le (inside g mem) second.size)
    (Nat.lt_of_lt_of_le lt (Nat.le_trans first.size second.size)) appliedResult
  refine ⟨t₃, (first.trans (second.trans third)).mono ?_, rfl⟩
  rintro σ _ ⟨_, meetArgs, meetsResult⟩
  obtain ⟨b, isTys⟩ := exists_bindings_variableTys generics σ
  rw [← isTys] at meetArgs meetsResult
  exact ⟨b, meetArgs, meetsResult⟩

end

end Inference

namespace Solver

variable {catalog : Catalog} {P : Ty → Prop} {s : Solver}

/-- What is recorded of names makes no difference to types. -/
theorem setOverload_grown (catalog : Catalog) (v : s.Valid P) (slot : Nat) (o : Overload) :
    Grown catalog P s (s.setOverload slot o) where
  valid := ⟨fun lt => by simpa using v.leads (by simpa using lt),
    fun i => by simpa using v.beliefs i⟩
  size := by simp
  models m := ⟨fun ha hb => m.classes (by simpa using ha) (by simpa using hb),
    fun i => by simpa using m.beliefs i⟩

end Solver

end LambdaQuery
