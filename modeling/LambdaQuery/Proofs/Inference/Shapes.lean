import LambdaQuery.Proofs.Inference.Signatures

/-!
# Shapes that say the same to inference and to the reader

Inference narrows types to a shape step by step, while `Shape.accepts` compares a type with a shape.
The two agree as long as an optional stands only outside, around a variable.
-/

namespace LambdaQuery.Shape

mutual
/-- A shape without optionals. -/
def Rigid : Shape → Prop
  | concrete _ | generic .. => True
  | enumerable s | array s => Rigid s
  | optional _ => False
  | lambda params result => RigidAll params ∧ Rigid result

def RigidAll : List Shape → Prop
  | [] => True
  | s :: rest => Rigid s ∧ RigidAll rest
end

/-- A shape whose only optional may be around a variable. -/
def Plain (s : Shape) : Prop :=
  s.Rigid ∨ ∃ index arithmetic, s = .optional (.generic index arithmetic)

variable {b : Bindings}

theorem bind_self {index : Nat} {ty : Ty} (h : b.get? index = some ty) :
    b.bind index ty = (true, b) := by
  simp [Bindings.bind, h]

mutual
/-- What meets a shape as it is also compares well with it. -/
theorem fits_of_meets (converting : Bool) : ∀ {s : Shape} {ty : Ty}, s.Rigid →
    s.Meets b.get? .exact ty → s.fits converting ty b = (true, b)
  | .concrete expected, ty, _, h => by
    have same : expected = ty := by simpa [Meets, Flow.fault?] using h
    cases converting <;> simp [fits, same]
  | .generic index arithmetic, ty, _, ⟨bound, number⟩ => by
    cases arithmetic with
    | false => simp [fits, bind_self bound]
    | true => simp [fits, bind_self bound, number rfl]
  | .enumerable s, ty, rigid, ⟨element, isElement, meets⟩ => by
    simp [fits, isElement, fits_of_meets (s := s) false rigid meets]
  | .array s, ty, rigid, ⟨element, isArray, meets⟩ => by
    subst isArray
    simp [fits, fits_of_meets (s := s) false rigid meets]
  | .lambda params result, ty, rigid, ⟨types, resultTy, isLambda, meetsAll, meets⟩ => by
    subst isLambda
    obtain ⟨length, all⟩ := fitsAll_of_meets rigid.1 meetsAll
    simp [fits, length, all, fits_of_meets true rigid.2 meets]

theorem fitsAll_of_meets : ∀ {shapes : List Shape} {types : List Ty}, RigidAll shapes →
    MeetsAll b.get? shapes types →
      shapes.length = types.length ∧ fitsAll shapes types b = (true, b)
  | [], [], _, _ => ⟨rfl, rfl⟩
  | s :: shapes, ty :: types, rigid, ⟨first, rest⟩ => by
    obtain ⟨length, all⟩ := fitsAll_of_meets rigid.2 rest
    exact ⟨by simp [length], by simp [fitsAll, fits_of_meets false rigid.1 first, all]⟩
end

/-- A conversion happens only at a shape that is a type. -/
theorem Meets.exact_of_rigid {s : Shape} {flow : Flow} {ty : Ty} (rigid : s.Rigid)
    (h : s.Meets b.get? flow ty) :
    s.Meets b.get? .exact ty ∨ ∃ expected, s = .concrete expected ∧ flow.fault? ty expected = none := by
  cases s with
  | concrete expected => exact .inr ⟨expected, rfl, h⟩
  | optional _ => exact rigid.elim
  | _ => exact .inl h

theorem accepts_of_meets {s : Shape} {ty : Ty} (plain : s.Plain) (h : s.Meets b.get? .into ty) :
    s.accepts ty b = (true, b) := by
  rcases plain with rigid | ⟨index, arithmetic, rfl⟩
  · rcases h.exact_of_rigid rigid with exact | ⟨expected, rfl, converts⟩
    · exact fits_of_meets true rigid exact
    · have : expected.assignable ty = true := by simpa [Flow.fault?] using converts
      simp [accepts, fits, this]
  · cases ty with
    | optional inner => exact fits_of_meets (s := .generic index arithmetic) false trivial h
    | _ =>
      have inside := fits_of_meets (s := .generic index arithmetic) false trivial h
      simpa [accepts, fits] using inside

/-- A result of a rigid shape is of the shape, or converts from the type that the shape is. -/
theorem result_of_meets {s : Shape} {ty : Ty} (rigid : s.Rigid) (h : s.Meets b.get? .outOf ty) :
    s.isMatch ty b = (true, b) ∨
      ∃ result, s.instantiate? b = some result ∧ ty.assignable result = true := by
  rcases h.exact_of_rigid rigid with exact | ⟨expected, rfl, converts⟩
  · exact .inl (fits_of_meets false rigid exact)
  · exact .inr ⟨expected, rfl, by simpa [Flow.fault?] using converts⟩

end LambdaQuery.Shape
