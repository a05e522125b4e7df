import LambdaQuery.Evaluation
import Mathlib

/-!
# Arithmetic on whole numbers

An expression of whole numbers is calculated without bounds first: `Expr.exactValue` is its value, and
`Expr.calculations` are the single calculations behind it with their exact operands, in the order in
which they are made. Evaluation gives the exact value if each of them can be carried out, and
otherwise reports the first that cannot.
-/

namespace LambdaQuery

open Evaluation

/-- Arithmetic without bounds. Quotient and remainder are cut off toward zero, and are zero and
the dividend if the divisor is zero. -/
def Operator.onIntegers : Operator → Int → Int → Int
  | .add, a, b => a + b
  | .sub, a, b => a - b
  | .mul, a, b => a * b
  | .div, a, b => a.tdiv b
  | _, a, b => a.tmod b

/-- An operator between two whole numbers. -/
structure Calculation where
  op : Operator
  left : Int
  right : Int
deriving DecidableEq

namespace Calculation

def result (c : Calculation) : Int :=
  c.op.onIntegers c.left c.right

def DividesByZero (c : Calculation) : Prop :=
  (c.op = .div ∨ c.op = .mod) ∧ c.right = 0

instance : DecidablePred DividesByZero :=
  fun c => inferInstanceAs (Decidable ((c.op = .div ∨ c.op = .mod) ∧ c.right = 0))

/-- The remainder of the least number by -1. It is zero, but the quotient is one too large. -/
def leastByMinusOne : Calculation :=
  ⟨.mod, -9223372036854775808, -1⟩

/-- Why a calculation cannot be carried out in 64 bits. -/
def failure? (c : Calculation) : Option EvalError :=
  if c.DividesByZero then some .divisionByZero
  else if Number.fits c.result ∧ c ≠ leastByMinusOne then none
  else some (.overflow c.op)

end Calculation

namespace Expr

/-- Made of whole numbers by arithmetic. -/
inductive Whole : Expr → Prop
  | constant (n : Int64) (ty : Ty) : Whole (.constant (.int n) ty)
  | binary {op : Operator} {left right : Expr} (ty : Ty) (kind : op.kind = .arithmetic) :
      Whole left → Whole right → Whole (.binary op left right ty)

/-- The value that an expression of whole numbers has without bounds. -/
def exactValue : Expr → Int
  | .constant (.int n) _ => n.toInt
  | .binary op left right _ => op.onIntegers (exactValue left) (exactValue right)
  | _ => 0

/-- The calculations of an expression of whole numbers: those of the left operand, those of the
right one, and then its own. -/
def calculations : Expr → List Calculation
  | .binary op left right _ =>
    calculations left ++ calculations right ++ [⟨op, exactValue left, exactValue right⟩]
  | _ => []

end Expr

/-! ### One calculation -/

namespace Number

theorem fits_iff {n : Int} :
    fits n = true ↔ -9223372036854775808 ≤ n ∧ n < 9223372036854775808 := by
  simp [fits]

theorem fits_toInt (a : Int64) : fits a.toInt = true :=
  fits_iff.2 ⟨a.le_toInt, a.toInt_lt⟩

theorem toInt_ofInt_of_fits {n : Int} (fit : fits n = true) : (Int64.ofInt n).toInt = n := by
  obtain ⟨low, high⟩ := fits_iff.1 fit
  exact Int64.toInt_ofInt_of_le low high

/-- A quotient of 64-bit numbers is too large in one case only. -/
theorem fits_tdiv_iff {a b : Int64} :
    fits (a.toInt.tdiv b.toInt) = true ↔ ¬ (a.toInt = -9223372036854775808 ∧ b.toInt = -1) := by
  obtain ⟨low, high⟩ := fits_iff.1 (fits_toInt a)
  rw [fits_iff]
  by_cases minus : b.toInt = -1
  · have turned : a.toInt.tdiv b.toInt = -a.toInt := by
      rw [minus, Int.tdiv_neg, Int.tdiv_one]
    omega
  · simp only [minus, and_false, not_false_eq_true, iff_true]
    have size := Int.natAbs_tdiv_le_natAbs a.toInt b.toInt
    by_cases small : b.toInt.natAbs ≤ 1
    · -- the divisor is zero or one
      obtain zero | one : b.toInt = 0 ∨ b.toInt = 1 := by omega
      · rw [zero, Int.tdiv_zero]
        omega
      · rw [one, Int.tdiv_one]
        exact ⟨low, high⟩
    · have half : (a.toInt.tdiv b.toInt).natAbs ≤ a.toInt.natAbs / 2 := by
        rw [Int.natAbs_tdiv]
        exact Nat.div_le_div_left (by omega) (by decide)
      omega

end Number

namespace Calculation

variable {c : Calculation}

theorem failure?_eq_none_iff : c.failure? = none ↔
    ¬ c.DividesByZero ∧ Number.fits c.result = true ∧ c ≠ leastByMinusOne := by
  by_cases zero : c.DividesByZero <;> simp [failure?, zero]

theorem failure?_of_dividesByZero (zero : c.DividesByZero) : c.failure? = some .divisionByZero :=
  if_pos zero

/-- Whatever does not divide by zero fails by its size, the one remainder apart. -/
theorem failure?_of_not_dividesByZero (nonzero : ¬ c.DividesByZero) :
    c.failure? = if Number.fits c.result ∧ c ≠ leastByMinusOne then none
      else some (.overflow c.op) :=
  if_neg nonzero

end Calculation

namespace Evaluation

variable {F : Type} {op : Operator} {a b : Int64}

/-- What is left of a calculation that does not divide by zero: its result has to fit. -/
theorem wholeOr_result (c : Calculation) (nonzero : ¬ c.DividesByZero)
    (usual : c ≠ Calculation.leastByMinusOne) :
    (wholeOr (.overflow c.op) (Number.ofInt? c.result) : Except EvalError (Data F)) =
      c.failure?.elim (.ok (.int (.ofInt c.result))) .error := by
  rw [Calculation.failure?_of_not_dividesByZero nonzero]
  by_cases fit : Number.fits c.result = true <;> simp [Number.ofInt?, wholeOr, fit, usual]

/-- Arithmetic in 64 bits gives the exact result unless the calculation cannot be carried out. -/
theorem wholeArithmetic_eq (kind : op.kind = .arithmetic) :
    let c : Calculation := ⟨op, a.toInt, b.toInt⟩
    (wholeArithmetic op a b : Except EvalError (Data F)) =
      c.failure?.elim (.ok (.int (.ofInt c.result))) .error := by
  intro c
  have zero_iff : b.toInt = 0 ↔ b = 0 := Int64.toInt_inj (y := 0)
  cases op with
  | and | or | eq | ne | lt | le | gt | ge => cases kind
  | add | sub | mul =>
    exact wholeOr_result c (by simp [c, Calculation.DividesByZero])
      (by simp [c, Calculation.leastByMinusOne])
  | div =>
    by_cases zero : b = 0
    · rw [Calculation.failure?_of_dividesByZero (c := c) ⟨.inl rfl, zero_iff.2 zero⟩]
      exact if_pos zero
    · refine (if_neg zero).trans (wholeOr_result c (fun h => zero (zero_iff.1 h.2)) ?_)
      simp [c, Calculation.leastByMinusOne]
  | mod =>
    by_cases zero : b = 0
    · rw [Calculation.failure?_of_dividesByZero (c := c) ⟨.inr rfl, zero_iff.2 zero⟩]
      exact if_pos zero
    · have nonzero : ¬ c.DividesByZero := fun h => zero (zero_iff.1 h.2)
      refine (if_neg zero).trans ?_
      -- the remainder fits in any case; what decides is the quotient
      by_cases least : c = Calculation.leastByMinusOne
      · have large : ¬ Number.fits (a.toInt.tdiv b.toInt) = true :=
          fun fit => Number.fits_tdiv_iff.1 fit (by simpa [c, Calculation.leastByMinusOne] using least)
        rw [Calculation.failure?_of_not_dividesByZero nonzero, if_neg (fun fine => fine.2 least)]
        simp [Number.mod?, large, wholeOr, c]
      · have fit : Number.fits (a.toInt.tdiv b.toInt) = true :=
          Number.fits_tdiv_iff.2 fun h => least (by simp [c, Calculation.leastByMinusOne, h])
        have divided : Number.mod? a b = Number.ofInt? (a.toInt.tmod b.toInt) := if_pos fit
        rw [divided]
        exact wholeOr_result c nonzero least

end Evaluation

/-! ### All calculations of an expression -/

namespace Expr

variable {e : Expr}

theorem evalWith_arithmetic {call : Closure → Value → Except EvalError Value} {op : Operator}
    (kind : op.kind = .arithmetic) (left right : Expr) (ty : Ty) (env : Env) :
    evalWith call (.binary op left right ty) env = (do
      let a ← evalWith call left env
      let b ← evalWith call right env
      arithmetic op a b) := by
  simp only [evalWith, kind, applyOperator]

/-- The first calculation that cannot be carried out is reported; if there is none, the value is
the exact one. -/
theorem evalWith_whole (call : Closure → Value → Except EvalError Value) (whole : e.Whole)
    (env : Env) :
    evalWith call e env = (e.calculations.findSome? Calculation.failure?).elim
      (.ok (.int (.ofInt e.exactValue))) .error ∧
    (e.calculations.findSome? Calculation.failure? = none → Number.fits e.exactValue = true) := by
  induction whole with
  | constant n ty => exact ⟨by simp [evalWith, calculations, exactValue], fun _ => Number.fits_toInt n⟩
  | @binary op left right ty kind _ _ onLeft onRight =>
    rw [evalWith_arithmetic kind, onLeft.1, onRight.1]
    simp only [calculations, exactValue, List.findSome?_append]
    cases leftFails : left.calculations.findSome? Calculation.failure? with
    | some failure => exact ⟨rfl, by simp⟩
    | none =>
      cases rightFails : right.calculations.findSome? Calculation.failure? with
      | some failure => exact ⟨rfl, by simp⟩
      | none =>
        -- both operands are exact, and what is left is the calculation with them
        have calculated := wholeArithmetic_eq (F := Closure) (a := .ofInt left.exactValue)
          (b := .ofInt right.exactValue) kind
        rw [Number.toInt_ofInt_of_fits (onLeft.2 leftFails),
          Number.toInt_ofInt_of_fits (onRight.2 rightFails)] at calculated
        have own : [(⟨op, left.exactValue, right.exactValue⟩ : Calculation)].findSome? Calculation.failure? =
            (Calculation.mk op left.exactValue right.exactValue).failure? := by simp
        simp only [Option.none_or, own]
        exact ⟨calculated, fun fine => (Calculation.failure?_eq_none_iff.1 fine).2.1⟩

/-- An expression of whole numbers has a value if no calculation divides by zero, has a result that
does not fit in 64 bits or is the remainder of the least number by -1. The value is then the exact
one. Otherwise the first such calculation is reported. -/
theorem whole_exact_or_reported (whole : e.Whole) (depth : Nat) (env : Env) :
    ((∃ n : Int64, e.eval depth env = .ok (.int n)) ↔
      ∀ c ∈ e.calculations, ¬ c.DividesByZero ∧ Number.fits c.result = true ∧
        c ≠ Calculation.leastByMinusOne) ∧
    (∀ n : Int64, e.eval depth env = .ok (.int n) → n.toInt = e.exactValue) ∧
    ∀ error, e.eval depth env = .error error ↔ ∃ before c after,
      e.calculations = before ++ c :: after ∧ c.failure? = some error ∧
      ∀ earlier ∈ before, earlier.failure? = none := by
  obtain ⟨value, fits⟩ := evalWith_whole (applyClosure depth) whole env
  have eval_eq : e.eval depth env = _ := value
  simp only [← Calculation.failure?_eq_none_iff, eval_eq]
  refine ⟨?_, fun n same => ?_, fun error => ?_⟩
  · rw [← List.findSome?_eq_none_iff]
    cases e.calculations.findSome? Calculation.failure? <;> simp
  · cases fails : e.calculations.findSome? Calculation.failure? with
    | none =>
      obtain rfl : Int64.ofInt e.exactValue = n := by simpa [fails] using same
      exact Number.toInt_ofInt_of_fits (fits fails)
    | some failure => simp [fails] at same
  · rw [← List.findSome?_eq_some_iff]
    cases e.calculations.findSome? Calculation.failure? <;> simp

/-- Of three calculations the last is the first that cannot be carried out. -/
theorem whole_exact_or_reported_divisor :
    let number (n : Int64) : Expr := .constant (.int n) .int
    let e : Expr := .binary .mod (.binary .div (number (-7)) (number 2) .int)
      (.binary .sub (number 5) (number 5) .int) .int
    e.Whole ∧ e.eval 0 [] = .error .divisionByZero := by
  intro number e
  have whole : e.Whole :=
    .binary _ rfl (.binary _ rfl (.constant _ _) (.constant _ _))
      (.binary _ rfl (.constant _ _) (.constant _ _))
  exact ⟨whole, ((whole_exact_or_reported whole 0 []).2.2 _).2
    ⟨[⟨.div, -7, 2⟩, ⟨.sub, 5, 5⟩], ⟨.mod, -3, 0⟩, [], by decide, by decide, by decide⟩⟩

/-- A remainder that fits in 64 bits and is reported all the same. -/
theorem remainder_zero_overflows :
    let e : Expr := .binary .mod (.constant (.int (-9223372036854775808)) .int)
      (.constant (.int (-1)) .int) .int
    e.Whole ∧ e.calculations = [⟨.mod, -9223372036854775808, -1⟩] ∧ e.exactValue = 0 ∧
    ∀ depth env, e.eval depth env = .error (.overflow .mod) :=
  ⟨.binary _ rfl (.constant _ _) (.constant _ _), by decide, by decide, fun _ _ => rfl⟩

end Expr

end LambdaQuery
