import LambdaQuery.Catalog
import LambdaQuery.Hint

/-!
Overloads: the signatures that a name can stand for, how well one fits a use of the name, and the
expression for a call.
-/

namespace LambdaQuery

/-- Where a name is used. -/
inductive Site where
  /-- `instance.name`; the only argument is the instance. -/
  | member
  /-- `name(args)`. -/
  | call
deriving DecidableEq, Repr

/-- A use of a name: what is known of the arguments, and what is expected of the result. -/
structure Request where
  name : String
  site : Site
  args : List Hint
  result : Hint

/-- A use as one line: the site, the name, and what is known. -/
def Request.describe (r : Request) : String :=
  (match r.site with
    | .member => "member "
    | .call => "call ") ++
    r.name ++ "(" ++ ", ".intercalate (r.args.map Hint.toString) ++ ") -> " ++ r.result.toString

/-- How a call becomes an expression. -/
inductive Lowering where
  /-- Read a property of the only argument. -/
  | property (property : Property Value)
  | function (function : HostFunction Value)
  /-- From the arguments and the type of the result. -/
  | custom (build : List Expr → Ty → Expr)

def Lowering.summary : Lowering → String
  | property p => "Property(" ++ p.name ++ ")"
  | function f => "Native(" ++ f.name ++ ")"
  | custom _ => "Custom(..)"

structure Overload where
  name : String
  params : List Shape
  result : Shape
  lowering : Lowering

namespace Overload

/-- A property as a function of its instance. -/
def ofProperty (instanceTy : Ty) (p : Property Value) : Overload :=
  ⟨p.name, [.concrete instanceTy], .concrete p.ty, .property p⟩

/-- A method as a function whose first argument is the value it is called on. -/
def ofMethod (receiver : Ty) (m : Method) : Overload :=
  ⟨m.name, .concrete receiver :: m.params, m.result, .function m.function⟩

/-- One more than the largest variable of the signature; zero if it has none. -/
def genericCount (o : Overload) : Nat :=
  max (Shape.genericCountAll o.params) o.result.genericCount

/-- How well the arguments fit, and what the variables stand for then. An argument that has to be
converted makes the fit loose. -/
def fitArgs : List Shape → List Hint → Bindings → Fit × Bindings
  | s :: shapes, h :: hints, b =>
    match h.fitsParam s b with
    | (false, b) => (.no, b)
    | (true, b) =>
      let here : Fit :=
        match h with
        | .known ty => if (s.isMatch ty b).1 then .exact else .loose
        | .unknown _ => .exact
      let (rest, b) := fitArgs shapes hints b
      (here.min rest, b)
  | _, _, b => (.exact, b)

/-- How well the signature fits a use. Names are compared up to ASCII case. -/
def fit (o : Overload) (r : Request) : Fit :=
  bif Text.sameName o.name r.name && o.params.length == r.args.length then
    match fitArgs o.params r.args .empty with
    | (.no, _) => .no
    | (args, b) => args.min (r.result.fitsResult o.result b).1
  else
    .no

/-- The exact fits if there are any, and the loose ones if not. -/
def bestFits (os : List Overload) (r : Request) : List Overload :=
  match os.filter fun o => o.fit r == .exact with
  | [] => os.filter fun o => o.fit r == .loose
  | exact => exact

/-- What the variables stand for when arguments of these types are passed. -/
def bindArgs : List Shape → List Ty → Bindings → Bindings
  | s :: shapes, ty :: types, b => bindArgs shapes types (s.accepts ty b).2
  | _, _, b => b

/-- The parameter types for arguments of these types. Where a variable is left open the argument's
own type is taken. -/
def paramTys (o : Overload) (args : List Ty) : List Ty :=
  let b := bindArgs o.params args .empty
  (o.params.zip args).map fun (s, ty) => (s.instantiate? b).getD ty

/-- The result type for arguments of these types, once they bind every variable in it. -/
def resultTy? (o : Overload) (args : List Ty) : Option Ty :=
  o.result.instantiate? (bindArgs o.params args .empty)

/-- The expression for a call, unless the number of arguments is wrong for it. -/
def build? (o : Overload) (args : List Expr) (result : Ty) : Option Expr :=
  match o.lowering with
  | .property p =>
    match args with
    | [receiver] => some (.property receiver p)
    | _ => none
  | .function f => some (.call f args result)
  | .custom build => some (build args result)

def toString (o : Overload) : String :=
  o.name ++ "(" ++ ", ".intercalate (o.params.map Shape.toString) ++ ") -> " ++ o.result.toString

end Overload

end LambdaQuery
