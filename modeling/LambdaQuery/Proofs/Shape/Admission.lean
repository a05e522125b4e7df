import LambdaQuery.Hint
import LambdaQuery.Proofs.Ty.Join

/-!
# What a shape admits

Comparing types with shapes binds variables along the way. What is bound never changes, so that
whether a type compares well with a shape can be told from what the variables stand for in the end.
-/

namespace LambdaQuery

/-! ## Numbers and sequences -/

namespace Ty

theorem plain_of_element? {ty element : Ty} (h : ty.element? = some element) :
    ty.isOptional = false ∧ ty.isArithmetic = false := by
  cases ty <;> first | exact ⟨rfl, rfl⟩ | cases h

theorem underlying_of_isArithmetic {ty : Ty} (h : ty.isArithmetic = true) :
    ty.underlying = .int ∨ ty.underlying = .float := by
  unfold isArithmetic at h
  split at h
  · exact .inl ‹_›
  · exact .inr ‹_›
  · cases h

theorem underlying_assignable_underlying {target source : Ty} (h : target.assignable source = true) :
    target.underlying.assignable source.underlying = true := by
  cases isOptional : target.isOptional with
  | true =>
    obtain ⟨inner, rfl⟩ := eq_optional isOptional
    exact optional_assignable_iff.1 h
  | false =>
    rwa [underlying_of_plain isOptional, underlying_of_plain (plain_of_assignable isOptional h)]

theorem isArithmetic_underlying {ty : Ty} (h : ty.isArithmetic = true) :
    ty.underlying.isArithmetic = true ∧ ty.underlying.isOptional = false := by
  rcases underlying_of_isArithmetic h with isInt | isFloat
  · rw [isInt]
    exact ⟨rfl, rfl⟩
  · rw [isFloat]
    exact ⟨rfl, rfl⟩

/-- What a number converts to is a number, unless null was added to it twice. -/
theorem isArithmetic_of_assignable {target source : Ty} (number : source.isArithmetic = true)
    (h : target.assignable source = true) :
    target.isArithmetic = true ∨ ∃ inner, target = .optional (.optional inner) := by
  cases isOptional : target.underlying.isOptional with
  | true =>
    obtain ⟨inner, isInner⟩ := eq_optional isOptional
    cases target <;> cases isInner
    exact .inr ⟨inner, rfl⟩
  | false =>
    have inside := (assignable_plain_iff isOptional).1 (underlying_assignable_underlying h)
    left
    unfold isArithmetic
    rcases underlying_of_isArithmetic number with isInt | isFloat
    · rw [isInt] at inside
      rcases inside with same | ⟨same, _⟩ | ⟨_, _, isElement⟩
      · rw [same]
      · rw [same]
      · cases isElement
    · rw [isFloat] at inside
      rcases inside with same | ⟨_, isInt⟩ | ⟨_, _, isElement⟩
      · rw [same]
      · cases isInt
      · cases isElement

end Ty

/-! ## What a shape admits -/

namespace Bindings

/-- What is bound so far is as it will be. -/
def Within (b : Bindings) (γ : Nat → Option Ty) : Prop :=
  ∀ index ty, b.get? index = some ty → γ index = some ty

theorem within_self (b : Bindings) : b.Within b.get? :=
  fun _ _ bound => bound

theorem Within.trans {b b' : Bindings} {γ : Nat → Option Ty} (h : b.Within b'.get?)
    (h' : b'.Within γ) : b.Within γ :=
  fun index ty bound => h' index ty (h index ty bound)

theorem bind_within {b b' : Bindings} {index : Nat} {ty : Ty} (h : b.bind index ty = (true, b')) :
    b.Within b'.get? ∧ b'.get? index = some ty := by
  unfold bind at h
  split at h
  · rename_i bound isBound
    obtain ⟨same, rfl⟩ : bound = ty ∧ b = b' := by simpa using h
    exact ⟨b.within_self, same ▸ isBound⟩
  · rename_i free
    cases h
    refine ⟨fun other otherTy bound => ?_, by simp [get?]⟩
    have different : (other == index) = false := beq_eq_false_iff_ne.2 fun same => by
      rw [same, free] at bound
      cases bound
    simpa [get?, List.lookup_cons, different] using bound

theorem Within.bind {b : Bindings} {γ : Nat → Option Ty} {index : Nat} {ty : Ty} (h : b.Within γ)
    (isTy : γ index = some ty) : ∃ b', b.bind index ty = (true, b') ∧ b'.Within γ := by
  unfold Bindings.bind
  split
  · rename_i bound isBound
    cases (h index bound isBound).symm.trans isTy
    exact ⟨b, by simp, h⟩
  · refine ⟨_, rfl, fun other otherTy bound => ?_⟩
    by_cases same : other = index
    · subst same
      have : ty = otherTy := by simpa [get?] using bound
      exact this ▸ isTy
    · have different : (other == index) = false := beq_eq_false_iff_ne.2 same
      exact h other otherTy (by simpa [get?, List.lookup_cons, different] using bound)

end Bindings

namespace Shape

mutual
/-- The type has the shape with these types for the variables, as it is or, if `converting`, after
an implicit conversion. -/
def Admits (γ : Nat → Option Ty) (converting : Bool) : Shape → Ty → Prop
  | concrete expected, ty => if converting then expected.assignable ty = true else expected = ty
  | generic index arithmetic, ty => (arithmetic = true → ty.isArithmetic = true) ∧ γ index = some ty
  | enumerable s, ty => ∃ element, ty.element? = some element ∧ Admits γ false s element
  | array s, ty => ∃ element, ty = .array element ∧ Admits γ false s element
  | optional s, ty => (ty.isOptional = true ∨ converting = true) ∧ Admits γ false s ty.underlying
  | lambda params result, ty => ∃ types given, ty = .lambda types given ∧
      AdmitsAll γ params types ∧ Admits γ true result given

def AdmitsAll (γ : Nat → Option Ty) : List Shape → List Ty → Prop
  | [], [] => True
  | s :: shapes, ty :: types => Admits γ false s ty ∧ AdmitsAll γ shapes types
  | _, _ => False
end

variable {γ : Nat → Option Ty}

theorem Admits.converting {s : Shape} {ty : Ty} {converting : Bool}
    (h : s.Admits γ converting ty) : s.Admits γ true ty := by
  cases converting with
  | true => exact h
  | false =>
    cases s with
    | concrete expected =>
      have same : expected = ty := h
      simp [Admits, same]
    | optional inner => exact ⟨.inr rfl, h.2⟩
    | _ => exact h

mutual
/-- A type that compares well with a shape has it, with what the variables are bound to then or
later. -/
theorem admits_of_fits : ∀ (s : Shape) {converting : Bool} {ty : Ty} {b b' : Bindings},
    s.fits converting ty b = (true, b') →
      b.Within b'.get? ∧ ∀ γ, b'.Within γ → s.Admits γ converting ty
  | concrete expected, converting, ty, b, b', h => by
    obtain ⟨fitting, rfl⟩ := Prod.mk.inj h
    refine ⟨b.within_self, fun γ _ => ?_⟩
    cases converting with
    | true => exact fitting
    | false => exact eq_of_beq fitting
  | generic index arithmetic, converting, ty, b, b', h => by
    unfold fits at h
    split at h
    · cases h
    · rename_i number
      obtain ⟨grown, bound⟩ := Bindings.bind_within h
      refine ⟨grown, fun γ within => ⟨fun isArithmetic => ?_, within index ty bound⟩⟩
      simpa [isArithmetic] using number
  | enumerable s, converting, ty, b, b', h => by
    unfold fits at h
    split at h
    · rename_i element isElement
      obtain ⟨grown, admits⟩ := admits_of_fits s h
      exact ⟨grown, fun γ within => ⟨element, isElement, admits γ within⟩⟩
    · cases h
  | array s, converting, ty, b, b', h => by
    cases ty with
    | array element =>
      obtain ⟨grown, admits⟩ := admits_of_fits s (by simpa only [fits] using h)
      exact ⟨grown, fun γ within => ⟨element, rfl, admits γ within⟩⟩
    | _ => simp [fits] at h
  | optional s, converting, ty, b, b', h => by
    obtain ⟨allowed, inside⟩ : (ty.isOptional = true ∨ converting = true) ∧
        s.fits false ty.underlying b = (true, b') := by
      cases ty <;> cases converting <;> simp_all [fits, Ty.isOptional, Ty.underlying]
    obtain ⟨grown, admits⟩ := admits_of_fits s inside
    exact ⟨grown, fun γ within => ⟨allowed, admits γ within⟩⟩
  | lambda params result, converting, ty, b, b', h => by
    cases ty with
    | lambda types given =>
      simp only [fits] at h
      split at h
      · rename_i arity
        split at h
        · rename_i middle onParams
          obtain ⟨grown, admitsAll⟩ := admitsAll_of_fitsAll params arity onParams
          obtain ⟨grown', admits⟩ := admits_of_fits result h
          exact ⟨grown.trans grown', fun γ within =>
            ⟨types, given, rfl, admitsAll γ (grown'.trans within), admits γ within⟩⟩
        · cases h
      · cases h
    | _ => simp [fits] at h

theorem admitsAll_of_fitsAll : ∀ (shapes : List Shape) {types : List Ty} {b b' : Bindings},
    shapes.length = types.length → fitsAll shapes types b = (true, b') →
      b.Within b'.get? ∧ ∀ γ, b'.Within γ → AdmitsAll γ shapes types
  | [], [], b, b', _, h => by
    cases h
    exact ⟨b.within_self, fun _ _ => trivial⟩
  | s :: shapes, ty :: types, b, b', arity, h => by
    simp only [fitsAll] at h
    split at h
    · rename_i middle onFirst
      obtain ⟨grown, admits⟩ := admits_of_fits s onFirst
      obtain ⟨grown', admitsAll⟩ := admitsAll_of_fitsAll shapes (Nat.succ.inj arity) h
      exact ⟨grown.trans grown', fun γ within =>
        ⟨admits γ (grown'.trans within), admitsAll γ within⟩⟩
    · cases h
end

mutual
/-- A type that has a shape compares well with it. -/
theorem Admits.fits : ∀ (s : Shape) {converting : Bool} {ty : Ty} {b : Bindings},
    s.Admits γ converting ty → b.Within γ →
      ∃ b', s.fits converting ty b = (true, b') ∧ b'.Within γ
  | concrete expected, converting, ty, b, h, within => by
    cases converting with
    | true => exact ⟨b, Prod.ext h rfl, within⟩
    | false => exact ⟨b, Prod.ext (beq_iff_eq.2 h) rfl, within⟩
  | generic index arithmetic, converting, ty, b, ⟨number, isTy⟩, within => by
    have allowed : (arithmetic && !ty.isArithmetic) = false := by
      cases arithmetic with
      | true => simp [number rfl]
      | false => rfl
    simpa [Shape.fits, allowed] using within.bind isTy
  | enumerable s, converting, ty, b, ⟨element, isElement, inside⟩, within => by
    simpa [Shape.fits, isElement] using Admits.fits s inside within
  | array s, converting, ty, b, ⟨element, isArray, inside⟩, within => by
    subst isArray
    simpa [Shape.fits] using Admits.fits s inside within
  | optional s, converting, ty, b, ⟨allowed, inside⟩, within => by
    obtain ⟨b', fitting, within'⟩ := Admits.fits s inside within
    refine ⟨b', ?_, within'⟩
    cases ty <;> cases converting <;> simp_all [Shape.fits, Ty.isOptional, Ty.underlying]
  | lambda params result, converting, ty, b, ⟨types, given, isLambda, onParams, onResult⟩,
    within => by
    subst isLambda
    obtain ⟨arity, middle, fitting, within'⟩ := AdmitsAll.fitsAll params onParams within
    simpa [Shape.fits, arity, fitting] using Admits.fits result onResult within'

theorem AdmitsAll.fitsAll : ∀ (shapes : List Shape) {types : List Ty} {b : Bindings},
    AdmitsAll γ shapes types → b.Within γ → shapes.length = types.length ∧
      ∃ b', Shape.fitsAll shapes types b = (true, b') ∧ b'.Within γ
  | [], [], b, _, within => ⟨rfl, b, rfl, within⟩
  | s :: shapes, ty :: types, b, ⟨first, rest⟩, within => by
    obtain ⟨middle, fitting, within'⟩ := Admits.fits s first within
    obtain ⟨arity, fittingAll⟩ := AdmitsAll.fitsAll shapes rest within'
    exact ⟨by simp [arity], by simpa [Shape.fitsAll, fitting] using fittingAll⟩
end

/-- A plain type has a shape behind its optionals. -/
theorem Admits.peel {s : Shape} {converting : Bool} {ty : Ty} (plain : ty.isOptional = false)
    (h : s.Admits γ converting ty) :
    (∃ converting', s.peel.Admits γ converting' ty) ∧ ∀ inner, s.peel ≠ .optional inner := by
  cases s with
  | optional inner =>
    have inside : inner.Admits γ false ty := Ty.underlying_of_plain plain ▸ h.2
    cases inner with
    | optional inner =>
      have nested := inside.1
      simp [plain] at nested
    | _ => exact ⟨⟨false, inside⟩, nofun⟩
  | _ => exact ⟨⟨converting, h⟩, nofun⟩

/-- What a plain type other than a number converts to. -/
theorem Admits.concrete_cases {expected ty : Ty} {converting : Bool}
    (number : ty.isArithmetic = false) (h : (concrete expected).Admits γ converting ty) :
    expected = ty ∨ (∃ element, expected = .enumerable element ∧ ty.element? = some element) ∨
      ∃ inner, expected = .optional inner := by
  cases isOptional : expected.isOptional with
  | true => exact .inr (.inr (Ty.eq_optional isOptional))
  | false =>
    have assignable : expected.assignable ty = true := h.converting
    rcases (Ty.assignable_plain_iff isOptional).1 assignable with same | ⟨_, rfl⟩ | isSequence
    · exact .inl same
    · cases number
    · exact .inr (.inl isSequence)

/-- The shapes of a number, with or without null. -/
theorem Admits.of_number {s : Shape} {converting : Bool} {ty : Ty} (number : ty.isArithmetic = true)
    (h : s.Admits γ converting ty) :
    (∃ expected, s = concrete expected) ∨ (∃ index arithmetic, s = generic index arithmetic) ∨
      ∃ inner, s = optional inner := by
  cases s with
  | concrete expected => exact .inl ⟨expected, rfl⟩
  | generic index arithmetic => exact .inr (.inl ⟨index, arithmetic, rfl⟩)
  | optional inner => exact .inr (.inr ⟨inner, rfl⟩)
  | enumerable e =>
    obtain ⟨element, isElement, _⟩ := h
    cases number.symm.trans (Ty.plain_of_element? isElement).2
  | array e =>
    obtain ⟨element, rfl, _⟩ := h
    cases number
  | lambda params result =>
    obtain ⟨types, given, rfl, _⟩ := h
    cases number

theorem Admits.generic_open {index : Nat} {arithmetic converting : Bool} {ty : Ty}
    (number : ty.isArithmetic = false) (h : (generic index arithmetic).Admits γ converting ty) :
    arithmetic = false := by
  cases arithmetic with
  | true => exact absurd (h.1 rfl) (by simp [number])
  | false => rfl

theorem AdmitsAll.length_eq : ∀ {shapes : List Shape} {types : List Ty},
    AdmitsAll γ shapes types → shapes.length = types.length
  | [], [], _ => rfl
  | _ :: _, _ :: _, ⟨_, rest⟩ => congrArg (· + 1) (AdmitsAll.length_eq rest)

theorem admits_concrete (γ : Nat → Option Ty) (ty : Ty) : (concrete ty).Admits γ false ty :=
  rfl

theorem admitsAll_concrete (γ : Nat → Option Ty) : ∀ types : List Ty,
    AdmitsAll γ (types.map .concrete) types
  | [] => trivial
  | ty :: types => ⟨admits_concrete γ ty, admitsAll_concrete γ types⟩

end Shape

end LambdaQuery
