import LambdaQuery.Overload
import LambdaQuery.Proofs.Shape.Admission

/-!
# Hints and the types they may turn out to be

A hint describes every type that meets the demands made so far. A shape that accepts such a type
should fit the hint, or a call could be refused for what is not known yet. It does fit, whatever the
variables of the signature stand for, unless the rules for demands overlook a way in which the type
has the shape. Which demands and shapes these are can be read off the two.
-/

namespace LambdaQuery

/-! ## What a hint describes -/

mutual
/-- The type may be what the hint is about. -/
def Hint.Describes : Hint → Ty → Prop
  | .known known, ty => known = ty
  | .unknown demands, ty => Demand.AllHold demands ty

/-- The type meets a demand. An optional is not demanded of a type that takes null anyway. -/
def Demand.Holds : Demand → Ty → Prop
  | .arithmetic, ty => ty.isArithmetic = true
  | .enumerableOf h, ty => ∃ element, ty.element? = some element ∧ h.Describes element
  | .arrayOf h, ty => ∃ element, ty = .array element ∧ h.Describes element
  | .optionalOf h, ty => h.Describes ty.underlying
  | .lambda params result, ty => ∃ types given, ty = .lambda types given ∧
      Hint.DescribeEach params types ∧ result.Describes given
  | .property .., _ => True

def Demand.AllHold : List Demand → Ty → Prop
  | [], _ => True
  | d :: rest, ty => d.Holds ty ∧ Demand.AllHold rest ty

def Hint.DescribeEach : List Hint → List Ty → Prop
  | [], [] => True
  | h :: hints, ty :: types => h.Describes ty ∧ Hint.DescribeEach hints types
  | _, _ => False
end

mutual
/-- The hint rules the shape out, although types that it describes may have the shape. -/
def Hint.overlooks : Hint → Shape → Bool
  | .known _, _ => false
  | .unknown demands, s => Demand.anyOverlooks demands s

/-- A demand for an optional is not compared with shapes of sequences and lambdas, whose types take
null without one. A demand for a sequence, a lambda or a number is not compared with what null was
added to in a given type, nor one for an array with the enumerable that arrays convert to. -/
def Demand.overlooks : Demand → Shape → Bool
  | .property .., _ => false
  | .arithmetic, s =>
    match s with
    | .concrete (.optional (.optional _)) => true
    | _ => false
  | .enumerableOf h, s =>
    match s.peel with
    | .concrete (.optional _) => true
    | .enumerable e | .array e => h.overlooks e
    | _ => false
  | .arrayOf h, s =>
    match s.peel with
    | .concrete (.optional _) | .concrete (.enumerable _) => true
    | .enumerable e | .array e => h.overlooks e
    | _ => false
  | .optionalOf h, s =>
    match s with
    | .enumerable _ | .array _ | .lambda .. => true
    | .concrete ty => h.overlooks (.concrete ty.underlying)
    | .optional inner => h.overlooks inner
    | .generic .. => false
  | .lambda params result, s =>
    match s.peel with
    | .concrete (.optional _) => true
    | .lambda shapes shape => Hint.overlooksEach params shapes || result.overlooks shape
    | _ => false

def Demand.anyOverlooks : List Demand → Shape → Bool
  | [], _ => false
  | d :: rest, s => d.overlooks s || Demand.anyOverlooks rest s

def Hint.overlooksEach : List Hint → List Shape → Bool
  | h :: hints, s :: shapes => h.overlooks s || Hint.overlooksEach hints shapes
  | _, _ => false
end

/-! ## Hints against shapes -/

mutual
/-- Nothing is overlooked where the shape is the type itself. -/
theorem Hint.overlooks_self : ∀ (h : Hint) {ty : Ty}, h.Describes ty →
    h.overlooks (.concrete ty) = false
  | .known _, _, _ => rfl
  | .unknown demands, _, holds => Demand.anyOverlooks_self demands holds

theorem Demand.overlooks_self : ∀ (d : Demand) {ty : Ty}, d.Holds ty →
    d.overlooks (.concrete ty) = false
  | .property .., _, _ => rfl
  | .arithmetic, ty, number => by
    unfold Demand.overlooks
    split
    · rename_i inner same
      cases same
      cases number
    · rfl
  | .enumerableOf h, ty, ⟨element, isElement, _⟩ => by
    cases ty <;> first | rfl | cases isElement
  | .arrayOf h, ty, ⟨element, isArray, _⟩ => by
    subst isArray
    rfl
  | .optionalOf h, ty, describes => h.overlooks_self describes
  | .lambda params result, ty, ⟨types, given, isLambda, _⟩ => by
    subst isLambda
    rfl

theorem Demand.anyOverlooks_self : ∀ (demands : List Demand) {ty : Ty}, Demand.AllHold demands ty →
    Demand.anyOverlooks demands (.concrete ty) = false
  | [], _, _ => rfl
  | d :: rest, _, ⟨first, others⟩ => by
    simp [Demand.anyOverlooks, d.overlooks_self first, Demand.anyOverlooks_self rest others]
end

theorem Hint.overlooksEach_self : ∀ (hints : List Hint) {types : List Ty},
    Hint.DescribeEach hints types → Hint.overlooksEach hints (types.map .concrete) = false
  | [], [], _ => rfl
  | h :: hints, ty :: types, ⟨first, rest⟩ => by
    simp [Hint.overlooksEach, h.overlooks_self first, Hint.overlooksEach_self hints rest]

theorem Hint.DescribeEach.length_eq : ∀ {hints : List Hint} {types : List Ty},
    Hint.DescribeEach hints types → hints.length = types.length
  | [], [], _ => rfl
  | _ :: _, _ :: _, ⟨_, rest⟩ => congrArg (· + 1) (DescribeEach.length_eq rest)

/-- A comparison comes out as it should: it fails if something is overlooked, and otherwise it
succeeds and binds variables to what they will stand for. -/
def Bindings.Decides (γ : Nat → Option Ty) (missed : Bool) (r : Bool × Bindings) : Prop :=
  if missed then r.1 = false else r.1 = true ∧ r.2.Within γ

namespace Bindings.Decides

variable {γ : Nat → Option Ty}

theorem success {b : Bindings} (within : b.Within γ) : Decides γ false (true, b) :=
  ⟨rfl, within⟩

theorem failure (b : Bindings) : Decides γ true (false, b) :=
  rfl

/-- One comparison after another, up to the first that fails. -/
theorem andThen {missed missed' : Bool} {r : Bool × Bindings} {next : Bindings → Bool × Bindings}
    (first : Decides γ missed r) (rest : ∀ b, b.Within γ → Decides γ missed' (next b)) :
    Decides γ (missed || missed')
      (match r with
        | (true, b) => next b
        | (false, b) => (false, b)) := by
  obtain ⟨fitting, b⟩ := r
  cases missed with
  | true =>
    cases (show fitting = false from first)
    exact rfl
  | false =>
    obtain ⟨isTrue, within⟩ : fitting = true ∧ b.Within γ := first
    subst isTrue
    exact rest b within

end Bindings.Decides

section

open Bindings Bindings.Decides

variable {γ : Nat → Option Ty}

-- By recursion on the hint. What the variables stand for in the end is fixed throughout, and every
-- comparison leaves them bound within it.
mutual
/-- A hint that describes a type fits the shapes of the type, unless it overlooks something. -/
theorem Hint.fitsParam_decides : ∀ (h : Hint) {s : Shape} {converting : Bool} {ty : Ty}
    {b : Bindings}, h.Describes ty → s.Admits γ converting ty → b.Within γ →
      Decides γ (h.overlooks s) (h.fitsParam s b)
  | .known _, s, _, ty, b, describes, admits, within => by
    subst describes
    obtain ⟨b', fitting, within'⟩ := admits.converting.fits s within
    simpa [Hint.fitsParam, Shape.accepts, fitting, Hint.overlooks] using success within'
  | .unknown demands, _, _, _, _, holds, admits, within =>
    Demand.allFit_decides demands holds admits within

theorem Demand.allFit_decides : ∀ (demands : List Demand) {s : Shape} {converting : Bool} {ty : Ty}
    {b : Bindings}, Demand.AllHold demands ty → s.Admits γ converting ty → b.Within γ →
      Decides γ (Demand.anyOverlooks demands s) (Hint.allFit demands s b)
  | [], _, _, _, _, _, _, within => success within
  | d :: rest, _, _, _, _, ⟨first, others⟩, admits, within =>
    (d.fits_decides first admits within).andThen fun _ within' =>
      Demand.allFit_decides rest others admits within'

theorem Demand.fits_decides : ∀ (d : Demand) {s : Shape} {converting : Bool} {ty : Ty}
    {b : Bindings}, d.Holds ty → s.Admits γ converting ty → b.Within γ →
      Decides γ (d.overlooks s) (Hint.demandFits d s b)
  | .property .., _, _, _, _, _, _, within => success within
  | .arithmetic, s, converting, ty, b, number, admits, within => by
    rcases admits.of_number number with ⟨expected, rfl⟩ | ⟨index, arithmetic, rfl⟩ | ⟨inner, rfl⟩
    · rcases Ty.isArithmetic_of_assignable number admits.converting with number' | ⟨inner, rfl⟩
      · have notTwice : Demand.arithmetic.overlooks (.concrete expected) = false :=
          Demand.overlooks_self .arithmetic number'
        rw [notTwice]
        exact ⟨number', within⟩
      · exact failure b
    · exact success within
    · -- Nothing converts inside an optional, and what is inside a number has no optional around it.
      obtain ⟨number', plain⟩ := Ty.isArithmetic_underlying number
      have inside := admits.2
      rcases inside.of_number number' with ⟨expected, rfl⟩ | ⟨index, arithmetic, rfl⟩ | ⟨inner, rfl⟩
      · exact ⟨(show expected = ty.underlying from inside) ▸ number', within⟩
      · exact success within
      · have nested := inside.1
        simp [plain] at nested
  | .enumerableOf h, s, converting, ty, b, ⟨element, isElement, describes⟩, admits, within => by
    obtain ⟨plain, number⟩ := Ty.plain_of_element? isElement
    obtain ⟨⟨converting, admits⟩, notOptional⟩ := admits.peel plain
    have itself : Decides γ false (h.fitsParam (.concrete element) b) :=
      h.overlooks_self describes ▸ h.fitsParam_decides describes (Shape.admits_concrete γ element) within
    unfold Demand.overlooks Hint.demandFits
    generalize s.peel = s at admits notOptional
    cases s with
    | concrete expected =>
      rcases admits.concrete_cases number with rfl | ⟨element', rfl, isElement'⟩ | ⟨inner, rfl⟩
      · cases expected <;> cases isElement <;> exact itself
      · cases isElement.symm.trans isElement'
        exact itself
      · exact failure b
    | generic index arithmetic =>
      cases admits.generic_open number
      exact success within
    | enumerable e =>
      obtain ⟨element', isElement', inside⟩ := admits
      cases isElement.symm.trans isElement'
      exact h.fitsParam_decides describes inside within
    | array e =>
      obtain ⟨element', rfl, inside⟩ := admits
      cases isElement
      exact h.fitsParam_decides describes inside within
    | optional inner => exact absurd rfl (notOptional inner)
    | lambda shapes shape =>
      obtain ⟨types, given, rfl, _⟩ := admits
      cases isElement
  | .arrayOf h, s, converting, ty, b, ⟨element, isArray, describes⟩, admits, within => by
    subst isArray
    obtain ⟨⟨converting, admits⟩, notOptional⟩ := admits.peel rfl
    unfold Demand.overlooks Hint.demandFits
    generalize s.peel = s at admits notOptional
    cases s with
    | concrete expected =>
      rcases admits.concrete_cases rfl with rfl | ⟨element', rfl, _⟩ | ⟨inner, rfl⟩
      · exact h.overlooks_self describes ▸
          h.fitsParam_decides describes (Shape.admits_concrete γ element) within
      · exact failure b
      · exact failure b
    | generic index arithmetic =>
      cases admits.generic_open rfl
      exact success within
    | enumerable e | array e =>
      obtain ⟨element', isElement, inside⟩ := admits
      cases isElement
      exact h.fitsParam_decides describes inside within
    | optional inner => exact absurd rfl (notOptional inner)
    | lambda shapes shape =>
      obtain ⟨types, given, isLambda, _⟩ := admits
      cases isLambda
  | .optionalOf h, s, converting, ty, b, describes, admits, within => by
    cases s with
    | concrete expected =>
      have inside : (Shape.concrete expected.underlying).Admits γ true ty.underlying :=
        Ty.underlying_assignable_underlying admits.converting
      exact h.fitsParam_decides describes inside within
    | generic index arithmetic => exact success within
    | optional inner => exact h.fitsParam_decides describes admits.2 within
    | _ => exact failure b
  | .lambda params result, s, converting, ty, b, ⟨types, given, isLambda, describeEach, describes⟩,
    admits, within => by
    subst isLambda
    obtain ⟨⟨converting, admits⟩, notOptional⟩ := admits.peel rfl
    have arity := describeEach.length_eq
    unfold Demand.overlooks Hint.demandFits
    generalize s.peel = s at admits notOptional
    cases s with
    | concrete expected =>
      rcases admits.concrete_cases rfl with rfl | ⟨_, _, isElement⟩ | ⟨inner, rfl⟩
      · have onParams : Decides γ false (Hint.allFitEach params (types.map .concrete) b) :=
          Hint.overlooksEach_self params describeEach ▸
            Hint.allFitEach_decides params describeEach (Shape.admitsAll_concrete γ types) within
        have onResult : ∀ b, b.Within γ → Decides γ false (result.fitsParam (.concrete given) b) :=
          fun b within => result.overlooks_self describes ▸
            result.fitsParam_decides describes (Shape.admits_concrete γ given) within
        simp only [arity, ↓reduceIte]
        exact onParams.andThen onResult
      · cases isElement
      · exact failure b
    | generic index arithmetic =>
      cases admits.generic_open rfl
      exact success within
    | enumerable e | array e =>
      obtain ⟨element, isElement, _⟩ := admits
      cases isElement
    | optional inner => exact absurd rfl (notOptional inner)
    | lambda shapes shape =>
      obtain ⟨types', given', isLambda, onParams, onResult⟩ := admits
      cases isLambda
      simp only [onParams.length_eq, arity, ↓reduceIte]
      exact (Hint.allFitEach_decides params describeEach onParams within).andThen fun b within' =>
        result.fitsParam_decides describes onResult within'

theorem Hint.allFitEach_decides : ∀ (hints : List Hint) {shapes : List Shape} {types : List Ty}
    {b : Bindings}, Hint.DescribeEach hints types → Shape.AdmitsAll γ shapes types → b.Within γ →
      Decides γ (Hint.overlooksEach hints shapes) (Hint.allFitEach hints shapes b)
  | [], [], [], _, _, _, within => success within
  | [], _ :: _, [], _, _, admitsAll, _ => admitsAll.elim
  | _ :: _, [], _ :: _, _, _, admitsAll, _ => admitsAll.elim
  | h :: hints, _ :: _, _ :: _, _, ⟨first, rest⟩, ⟨admits, admitsAll⟩, within =>
    (h.fitsParam_decides first admits within).andThen fun _ within' =>
      Hint.allFitEach_decides hints rest admitsAll within'
end

end

/-! ## Arguments against a signature -/

namespace Overload

open Bindings

/-- An argument that fits leaves the fit to the arguments after it. -/
theorem fitArgs_cons {s : Shape} {h : Hint} {b b' : Bindings} (fitting : h.fitsParam s b = (true, b'))
    (shapes : List Shape) (hints : List Hint) :
    ((fitArgs (s :: shapes) (h :: hints) b).1 = .no ↔ (fitArgs shapes hints b').1 = .no) ∧
      (fitArgs (s :: shapes) (h :: hints) b).2 = (fitArgs shapes hints b').2 := by
  have worse {here : Fit} (some : here ≠ .no) (rest : Fit) : here.min rest = .no ↔ rest = .no := by
    cases here <;> cases rest <;> simp_all [Fit.min, Fit.rank]
  simp only [fitArgs, fitting]
  refine ⟨worse ?_ _, trivial⟩
  split
  · split <;> decide
  · decide

theorem fitArgs_cons_of_not_fits {s : Shape} {h : Hint} {b b' : Bindings}
    (fitting : h.fitsParam s b = (false, b')) (shapes : List Shape) (hints : List Hint) :
    (fitArgs (s :: shapes) (h :: hints) b).1 = .no := by
  simp only [fitArgs, fitting]

/-- Types that are accepted together have the shapes together. -/
theorem admits_of_fitArgs : ∀ {shapes : List Shape} {types : List Ty} {b : Bindings},
    (fitArgs shapes (types.map .known) b).1 ≠ .no →
      b.Within (fitArgs shapes (types.map .known) b).2.get? ∧
      ∀ γ, (fitArgs shapes (types.map .known) b).2.Within γ →
        ∀ p ∈ shapes.zip types, p.1.Admits γ true p.2
  | [], _, b, _ => ⟨b.within_self, nofun⟩
  | _ :: _, [], b, _ => ⟨b.within_self, nofun⟩
  | s :: shapes, ty :: types, b, accepted => by
    rcases result : (Hint.known ty).fitsParam s b with ⟨fitting, b'⟩
    cases fitting with
    | false => exact absurd (fitArgs_cons_of_not_fits result shapes _) accepted
    | true =>
      obtain ⟨isNo, final⟩ := fitArgs_cons result shapes (types.map .known)
      rw [List.map_cons, final]
      obtain ⟨grown, admits⟩ := Shape.admits_of_fits s result
      obtain ⟨grown', admitsRest⟩ := admits_of_fitArgs (mt isNo.2 accepted)
      refine ⟨grown.trans grown', fun γ within => List.forall_mem_cons.2 ⟨?_, admitsRest γ within⟩⟩
      exact admits γ (grown'.trans within)

/-- Arguments whose types have the shapes fit unless something is overlooked of one of them. -/
theorem fitArgs_eq_no_iff {γ : Nat → Option Ty} : ∀ {shapes : List Shape} {hints : List Hint}
    {types : List Ty} {b : Bindings}, Hint.DescribeEach hints types →
      (∀ p ∈ shapes.zip types, p.1.Admits γ true p.2) → b.Within γ →
      ((fitArgs shapes hints b).1 = .no ↔ ∃ p ∈ hints.zip shapes, p.1.overlooks p.2 = true)
  | [], hints, _, _, _, _, _ => by simp [fitArgs]
  | s :: shapes, [], _, _, _, _, _ => by simp [fitArgs]
  | s :: shapes, h :: hints, _ :: _, b, ⟨describes, rest⟩, admits, within => by
    obtain ⟨first, others⟩ := List.forall_mem_cons.1 admits
    have decides := h.fitsParam_decides describes first within
    rcases result : h.fitsParam s b with ⟨fitting, b'⟩
    rw [result] at decides
    cases missed : h.overlooks s with
    | true =>
      rw [missed] at decides
      cases (show fitting = false from decides)
      simp [fitArgs_cons_of_not_fits result, missed]
    | false =>
      rw [missed] at decides
      obtain ⟨isTrue, within'⟩ : fitting = true ∧ b'.Within γ := decides
      subst isTrue
      rw [(fitArgs_cons result shapes hints).1, fitArgs_eq_no_iff rest others within']
      simp [missed]

end Overload

/-- Where a type that the hint describes is accepted, the hint fits unless it overlooks something;
and where such types are accepted together as the arguments of a signature, the signature is ruled
out exactly if something is overlooked of one of the arguments. -/
theorem Hint.fits_unless_overlooked (b : Bindings) :
    (∀ (h : Hint) (s : Shape) (ty : Ty), h.Describes ty →
      (s.accepts ty b).1 = true → (h.fitsParam s b).1 = !h.overlooks s) ∧
    ∀ (hints : List Hint) (shapes : List Shape) (types : List Ty),
      Hint.DescribeEach hints types →
      (Overload.fitArgs shapes (types.map .known) b).1 ≠ .no →
        ((Overload.fitArgs shapes hints b).1 = .no ↔
          ∃ p ∈ hints.zip shapes, p.1.overlooks p.2 = true) := by
  constructor
  · intro h s ty describes accepted
    obtain ⟨grown, admits⟩ := Shape.admits_of_fits s (Prod.ext accepted rfl)
    have decides := h.fitsParam_decides describes (admits _ (Bindings.within_self _)) grown
    cases missed : h.overlooks s with
    | true =>
      rw [missed] at decides
      exact decides
    | false =>
      rw [missed] at decides
      exact decides.1
  · intro hints shapes types describes accepted
    obtain ⟨grown, admits⟩ := Overload.admits_of_fitArgs accepted
    exact Overload.fitArgs_eq_no_iff describes (admits _ (Bindings.within_self _)) grown

/-- Some numbers and a test of them, before it is known which numbers. -/
theorem Hint.fits_unless_overlooked_numbers :
    let number : Hint := .unknown [.arithmetic]
    let numbers : Hint := .unknown [.enumerableOf number]
    let test : Hint := .unknown [.lambda [number] (.known .bool)]
    let sequence : Shape := .enumerable (.generic 0 false)
    let predicate : Shape := .lambda [.generic 0 false] (.concrete .bool)
    numbers.Describes (.list .int) ∧ (sequence.accepts (.list .int) .empty).1 = true ∧
      (numbers.fitsParam sequence .empty).1 = true ∧
    Hint.DescribeEach [numbers, test] [.list .int, .lambda [.int] .bool] ∧
      (Overload.fitArgs [sequence, predicate]
        [.known (.list .int), .known (.lambda [.int] .bool)] .empty).1 ≠ .no ∧
      (Overload.fitArgs [sequence, predicate] [numbers, test] .empty).1 ≠ .no := by
  intro number numbers test sequence predicate
  have describes : numbers.Describes (.list .int) := ⟨⟨.int, rfl, rfl, trivial⟩, trivial⟩
  have describes' : test.Describes (.lambda [.int] .bool) :=
    ⟨⟨[.int], .bool, rfl, ⟨⟨rfl, trivial⟩, trivial⟩, rfl⟩, trivial⟩
  obtain ⟨alone, together⟩ := Hint.fits_unless_overlooked .empty
  refine ⟨describes, by decide, ?_, ⟨describes, describes', trivial⟩, by decide, ?_⟩
  · exact alone numbers sequence (.list .int) describes (by decide)
  · rw [Ne, together [numbers, test] [sequence, predicate] [.list .int, .lambda [.int] .bool]
      ⟨describes, describes', trivial⟩ (by decide)]
    decide

/-- An array is accepted as an enumerable, and something of which it is known that it is an array
is not. -/
theorem Hint.array_not_fits_enumerable :
    let array : Hint := .unknown [.arrayOf (.known .int)]
    let enumerable : Shape := .concrete (.enumerable .int)
    array.Describes (.array .int) ∧ (enumerable.accepts (.array .int) .empty).1 = true ∧
      (array.fitsParam enumerable .empty).1 = false :=
  ⟨⟨⟨.int, rfl, rfl⟩, trivial⟩, by decide, by decide⟩

end LambdaQuery
