import LambdaQuery.Value
import LambdaQuery.Number.Binary64
import LambdaQuery.Text.Casing
import LambdaQuery.Text.Blank

/-!
The meaning of compiled expressions. Null is lifted: two nulls are equal, an order with null does
not hold, and arithmetic with null is null. Whole numbers that do not fit are an error.

Function values can be applied to each other, so that an expression of no sensible type need not
have a value. How deep applications may nest is therefore given in advance.
-/

namespace LambdaQuery

inductive EvalError where
  | typeMismatch (expected found : ValueKind)
  /-- A member, or a kind of value, was asked of null. -/
  | nullReference (member : String)
  | divisionByZero
  | overflow (op : Operator)
  | functionOverflow (function : String)
  | emptySequence (function : String)
  | missingField (record field : String)
  | unboundParameter (name : String)
  /-- A host function was called with fewer arguments than it reads. -/
  | missingArgument (function : String) (index : Nat)
  /-- Applications nest deeper than allowed. -/
  | nestedTooDeep
deriving DecidableEq, Repr

def EvalError.message : EvalError → String
  | typeMismatch expected found =>
    "expected a " ++ expected.describe ++ " value, found " ++ found.describe
  | nullReference member => "`" ++ member ++ "` read through null"
  | divisionByZero => "division by zero"
  | overflow op => "integer overflow in `" ++ op.symbol ++ "`"
  | functionOverflow function => "integer overflow in `" ++ function ++ "`"
  | emptySequence function => "`" ++ function ++ "` called on an empty sequence"
  | missingField record field => "record `" ++ record ++ "` has no field `" ++ field ++ "`"
  | unboundParameter name => "parameter `" ++ name ++ "` is not bound"
  | missingArgument function index =>
    "`" ++ function ++ "` called without argument " ++ Nat.repr index
  | nestedTooDeep => "function applications nest too deep"

/-- The values of parameters by number, the innermost first. -/
abbrev Env := List (Nat × Value)

namespace Data

variable {F : Type}

def mismatch {α : Type} (v : Data F) (expected : ValueKind) : Except EvalError α :=
  .error (.typeMismatch expected v.kind)

def asBool : Data F → Except EvalError Bool
  | bool b => .ok b
  | v => v.mismatch .bool

def asInt : Data F → Except EvalError Int64
  | int n => .ok n
  | v => v.mismatch .int

/-- Whole numbers count as the others do. -/
def asFloat : Data F → Except EvalError Float
  | float x => .ok x
  | int n => .ok n.toFloat
  | v => v.mismatch .float

def asString : Data F → Except EvalError String
  | string s => .ok s
  | null => .error (.nullReference "String")
  | v => v.mismatch .string

def asDate : Data F → Except EvalError Date
  | date d => .ok d
  | v => v.mismatch .date

def asList : Data F → Except EvalError (List (Data F))
  | list items => .ok items
  | null => .error (.nullReference "sequence")
  | v => v.mismatch .sequence

def asFunction : Data F → Except EvalError F
  | function f => .ok f
  | v => v.mismatch .function

/-- The value as one of the given type: a whole number is made the other kind of number where
that is what the type holds. -/
def widen (ty : Ty) : Data F → Data F
  | int n =>
    match ty.underlying with
    | .float => float n.toFloat
    | _ => int n
  | v => v

end Data

namespace Evaluation

variable {F : Type}

/-! Operators. -/

/-- A whole number, or an error if there is none. -/
def wholeOr (e : EvalError) : Option Int64 → Except EvalError (Data F)
  | some n => .ok (.int n)
  | none => .error e

/-- Arithmetic on whole numbers. -/
def wholeArithmetic (op : Operator) (a b : Int64) : Except EvalError (Data F) :=
  let checked := wholeOr (.overflow op)
  match op with
  | .add => checked (Number.add? a b)
  | .sub => checked (Number.sub? a b)
  | .mul => checked (Number.mul? a b)
  | .div => if b = 0 then .error .divisionByZero else checked (Number.div? a b)
  | _ => if b = 0 then .error .divisionByZero else checked (Number.mod? a b)

def floatArithmetic (op : Operator) (a b : Float) : Float :=
  match op with
  | .add => a + b
  | .sub => a - b
  | .mul => a * b
  | .div => a / b
  | _ => Number.remainder a b

def arithmetic (op : Operator) : Data F → Data F → Except EvalError (Data F)
  | .null, _ => .ok .null
  | _, .null => .ok .null
  | .int a, .int b => wholeArithmetic op a b
  | a, b => do
    let x ← a.asFloat
    let y ← b.asFloat
    .ok (.float (floatArithmetic op x y))

/-- Whether an order satisfies an operator. -/
def orderHolds (op : Operator) (o : Ordering) : Bool :=
  match op with
  | .lt => o == .lt
  | .le => o != .gt
  | .gt => o == .gt
  | _ => o != .lt

/-- An operator whose operands are both evaluated. -/
def applyOperator (op : Operator) (a b : Data F) : Except EvalError (Data F) :=
  match op.kind with
  | .equality => .ok (.bool (a.equal b == (op == .eq)))
  | .ordering =>
    match a.compare? b with
    | some o => .ok (.bool (orderHolds op o))
    | none => .ok (.bool false)
  | .logical | .arithmetic => arithmetic op a b

/-! Host functions. -/

/-- Where a text first occurs in another, counted in characters. -/
def indexOf? (needle : List Char) : List Char → Option Nat
  | [] => if needle.isEmpty then some 0 else none
  | c :: cs =>
    if needle.isPrefixOf (c :: cs) then some 0 else (indexOf? needle cs).map (· + 1)

/-- The order of two texts or nulls. -/
def compareTexts (a b : Data F) : Except EvalError Ordering :=
  match a, b with
  | .null, .null => .ok .eq
  | .null, _ => .ok .lt
  | _, .null => .ok .gt
  | a, b => do
    let x ← a.asString
    let y ← b.asString
    .ok (compare x y)

def orderNumber : Ordering → Int64
  | .lt => -1
  | .eq => 0
  | .gt => 1

/-- Texts one after the other, nulls left out. -/
def concatTexts : List (Data F) → Except EvalError String
  | [] => .ok ""
  | .null :: rest => concatTexts rest
  | v :: rest => do
    let s ← v.asString
    let t ← concatTexts rest
    .ok (s ++ t)

/-- The sum of numbers on top of a total. -/
def sumFrom (function : String) : Data F → List (Data F) → Except EvalError (Data F)
  | total, [] => .ok total
  | .int a, .int b :: rest =>
    match Number.add? a b with
    | some n => sumFrom function (.int n) rest
    | none => .error (.functionOverflow function)
  | a, b :: rest => do
    let x ← a.asFloat
    let y ← b.asFloat
    sumFrom function (.float (x + y)) rest

/-- The first value that is ahead, in the given order, of every value before it and behind none
after it. -/
def extreme (ahead : Ordering) (best : Data F) : List (Data F) → Data F
  | [] => best
  | v :: rest => extreme ahead (if v.compare? best == some ahead then v else best) rest

section

variable (call : F → Data F → Except EvalError (Data F))

/-- Whether a value passes a test that is given as a function value. -/
def passes (test v : Data F) : Except EvalError Bool := do
  let f ← test.asFunction
  let r ← call f v
  r.asBool

def anyPasses (test : Data F) : List (Data F) → Except EvalError Bool
  | [] => .ok false
  | v :: rest => do
    if ← passes call test v then .ok true else anyPasses test rest

def allPass (test : Data F) : List (Data F) → Except EvalError Bool
  | [] => .ok true
  | v :: rest => do
    if ← passes call test v then allPass test rest else .ok false

/-- The values that pass, in order. -/
def passing (test : Data F) : List (Data F) → Except EvalError (List (Data F))
  | [] => .ok []
  | v :: rest => do
    let keep ← passes call test v
    let kept ← passing test rest
    .ok (if keep then v :: kept else kept)

/-- A function applied to each value. -/
def mapValues (f : F) : List (Data F) → Except EvalError (List (Data F))
  | [] => .ok []
  | v :: rest => do
    let r ← call f v
    let rs ← mapValues f rest
    .ok (r :: rs)

/-- What a host function computes, with `call` to apply function values. -/
def runBody (function : String) (body : Body (Data F)) (args : List (Data F)) :
    Except EvalError (Data F) := do
  let arg (i : Nat) : Except EvalError (Data F) :=
    match args[i]? with
    | some v => .ok v
    | none => .error (.missingArgument function i)
  let texts (f : List Char → List Char → Data F) : Except EvalError (Data F) := do
    let s ← (← arg 0).asString
    let t ← (← arg 1).asString
    .ok (f s.toList t.toList)
  let mapText (f : List Char → List Char) : Except EvalError (Data F) := do
    let s ← (← arg 0).asString
    .ok (.string (String.ofList (f s.toList)))
  match body with
  | .length => do
    let s ← (← arg 0).asString
    .ok (.int (Int64.ofNat s.length))
  | .startsWith => texts fun s t => .bool (t.isPrefixOf s)
  | .endsWith => texts fun s t => .bool (t.isSuffixOf s)
  | .includes => texts fun s t => .bool (indexOf? t s).isSome
  | .indexOf => texts fun s t =>
    match indexOf? t s with
    | some i => .int (Int64.ofNat i)
    | none => .int (-1)
  | .toLower => mapText Text.lower
  | .toUpper => mapText Text.upper
  | .trim => mapText Text.trim
  | .compareTexts => do
    let o ← compareTexts (← arg 0) (← arg 1)
    .ok (.int (orderNumber o))
  | .concat => do
    let s ← concatTexts args
    .ok (.string s)
  | .year => do
    let d ← (← arg 0).asDate
    .ok (.int (Int64.ofInt d.year))
  | .month => do
    let d ← (← arg 0).asDate
    .ok (.int (Int64.ofNat d.month))
  | .day => do
    let d ← (← arg 0).asDate
    .ok (.int (Int64.ofNat d.day))
  | .hasValue => do
    let v ← arg 0
    .ok (.bool !v.isNull)
  | .valueOf => do
    let v ← arg 0
    if v.isNull then .error (.nullReference "Value") else .ok v
  | .orElse => do
    let v ← arg 0
    if v.isNull then arg 1 else .ok v
  | .count => do
    let items ← (← arg 0).asList
    .ok (.int (Int64.ofNat items.length))
  | .isNonempty => do
    let items ← (← arg 0).asList
    .ok (.bool !items.isEmpty)
  | .anyPasses => do
    let items ← (← arg 0).asList
    let test ← arg 1
    .ok (.bool (← anyPasses call test items))
  | .allPass => do
    let items ← (← arg 0).asList
    let test ← arg 1
    .ok (.bool (← allPass call test items))
  | .countPassing => do
    let items ← (← arg 0).asList
    let test ← arg 1
    let kept ← passing call test items
    .ok (.int (Int64.ofNat kept.length))
  | .member => do
    let v ← arg 1
    let items ← (← arg 0).asList
    .ok (.bool (items.any fun item => item.equal v))
  | .filter => do
    let items ← (← arg 0).asList
    let test ← arg 1
    .ok (.list (← passing call test items))
  | .map => do
    let f ← (← arg 1).asFunction
    let items ← (← arg 0).asList
    .ok (.list (← mapValues call f items))
  | .sumWhole => do
    let items ← (← arg 0).asList
    sumFrom function (.int 0) items
  | .sumFloat => do
    let items ← (← arg 0).asList
    sumFrom function (.float 0.0) items
  | .least => do
    match ← (← arg 0).asList with
    | [] => .error (.emptySequence function)
    | v :: rest => .ok (extreme .lt v rest)
  | .greatest => do
    match ← (← arg 0).asList with
    | [] => .error (.emptySequence function)
    | v :: rest => .ok (extreme .gt v rest)
  | .absWhole => do
    match ← arg 0 with
    | .null => .ok .null
    | v =>
      let n ← v.asInt
      wholeOr (.functionOverflow function) (Number.abs? n)
  | .absFloat => do
    match ← arg 0 with
    | .null => .ok .null
    | v =>
      let x ← v.asFloat
      .ok (.float x.abs)
  | .constant v => .ok v
  | .argument i => arg i
  | .pack => .ok (.list args)
  | .double => do
    let n ← (← arg 0).asInt
    .ok (.int (n * 2))
  | .apply => do
    let f ← (← arg 1).asFunction
    call f (← arg 0)
  | .fail => .error (.emptySequence function)

def runFunction (f : HostFunction (Data F)) (args : List (Data F)) : Except EvalError (Data F) :=
  runBody call f.name f.body args

/-- Read a property. A field cannot be read through null; a computed property decides for
itself. -/
def readProperty (p : Property (Data F)) (v : Data F) : Except EvalError (Data F) :=
  match p.getter with
  | .computed f => runFunction call f [v]
  | .field =>
    match v with
    | .record r =>
      match r.get? p.name with
      | some field => .ok field
      | none => .error (.missingField r.type p.name)
    | .null => .error (.nullReference p.name)
    | v => v.mismatch .record

end

section

variable (call : Closure → Value → Except EvalError Value)

mutual
/-- The value of an expression, with `call` to apply function values. -/
def evalWith : Expr → Env → Except EvalError Value
  | .param p, env =>
    match env.lookup p.id with
    | some v => .ok v
    | none => .error (.unboundParameter p.name)
  | .constant v _, _ => .ok v
  | .property receiver p, env => do
    let v ← evalWith receiver env
    readProperty call p v
  | .binary op left right _, env =>
    match op.kind with
    | .logical => do
      let a ← (← evalWith left env).asBool
      if a = (op == .and) then
        let b ← (← evalWith right env).asBool
        .ok (.bool b)
      else
        .ok (.bool a)
    | _ => do
      let a ← evalWith left env
      let b ← evalWith right env
      applyOperator op a b
  | .call f args _, env => do
    let vs ← evalAllWith args env
    runFunction call f vs
  | .convert operand ty, env => do
    let v ← evalWith operand env
    .ok (v.widen ty)
  | .lambda p body, env => .ok (.function ⟨p, body, env⟩)

def evalAllWith : List Expr → Env → Except EvalError (List Value)
  | [], _ => .ok []
  | e :: rest, env => do
    let v ← evalWith e env
    let vs ← evalAllWith rest env
    .ok (v :: vs)
end

end

/-- Apply a function value, with at most `depth` applications inside each other. -/
def applyClosure : (depth : Nat) → Closure → Value → Except EvalError Value
  | 0, _, _ => .error .nestedTooDeep
  | depth + 1, c, v => evalWith (applyClosure depth) c.body ((c.param.id, v) :: c.env)

/-- How deep applications may nest if nothing else is said. -/
def defaultNesting : Nat := 10000

end Evaluation

open Evaluation

/-- What a host function gives for arguments. -/
def HostFunction.call (depth : Nat) (f : HostFunction Value) (args : List Value) :
    Except EvalError Value :=
  runFunction (applyClosure depth) f args

/-- The value of a property of an instance. -/
def Property.get (depth : Nat) (p : Property Value) (v : Value) : Except EvalError Value :=
  readProperty (applyClosure depth) p v

/-- The value of an expression. -/
def Expr.eval (depth : Nat) (e : Expr) (env : Env) : Except EvalError Value :=
  evalWith (applyClosure depth) e env

/-- The value of a compiled query at an argument. -/
def LambdaExpr.invoke (depth : Nat) (l : LambdaExpr) (v : Value) : Except EvalError Value :=
  evalWith (applyClosure depth) l.body [(l.param.id, v)]

end LambdaQuery
