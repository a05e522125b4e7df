import LambdaQuery.Inference.Typed

/-!
# When a typed query is well typed

The rules say what the type of each node has to do with the types below it. They do not say how the
types were found.
-/

namespace LambdaQuery

/-- The types of the parameters in scope, the innermost first. -/
abbrev Context := List (Symbol × Ty)

namespace Term

variable {α β : Type}

mutual
/-- The same tree with other notes. -/
def map (f : α → β) : Term α → Term β
  | lambda note param body => lambda (f note) ⟨param.symbol, f param.note⟩ (map f body)
  | binary note op left right => binary (f note) op (map f left) (map f right)
  | call note name args => call (f note) name (mapAll f args)
  | member note receiver name => member (f note) (map f receiver) name
  | ident note symbol => ident (f note) symbol
  | literal note text => literal (f note) text

def mapAll (f : α → β) : List (Term α) → List (Term β)
  | [] => []
  | t :: rest => map f t :: mapAll f rest
end

def ty (t : Term Typed) : Ty :=
  t.note.ty

mutual
/-- The types of all nodes and parameters are of a kind. -/
def TypesIn (P : Ty → Prop) : Term Typed → Prop
  | lambda note param body => P note.ty ∧ P param.note.ty ∧ TypesIn P body
  | binary note _ left right => P note.ty ∧ TypesIn P left ∧ TypesIn P right
  | call note _ args => P note.ty ∧ TypesInAll P args
  | member note receiver _ => P note.ty ∧ TypesIn P receiver
  | ident note _ | literal note _ => P note.ty

def TypesInAll (P : Ty → Prop) : List (Term Typed) → Prop
  | [] => True
  | t :: rest => TypesIn P t ∧ TypesInAll P rest
end

end Term

/-- Both operands convert to a type that the operator is defined on. -/
def Operator.Joins (op : Operator) (catalog : Catalog) (left right common : Ty) : Prop :=
  left.common? right = some common ∧
    ∃ info, catalog.describe common = some info ∧ info.supports op = true

/-- The rule for an operator. -/
def Operator.WellTyped (op : Operator) (catalog : Catalog) (left right ty : Ty) : Prop :=
  match op.kind with
  | .logical => left = .bool ∧ right = .bool ∧ ty.assignable .bool = true
  | .equality | .ordering => ∃ common, op.Joins catalog left right common ∧
      ty.assignable .bool = true
  | .arithmetic => ∃ common, op.Joins catalog left right common ∧ ty.assignable common = true

/-- The rule for a literal: its value is null, or what its type reads from its text. -/
def Literal.WellTyped (catalog : Catalog) (ty : Ty) (text : Option String) (value : Value) : Prop :=
  match text with
  | none => value = .null ∧ ty.acceptsNull = true
  | some text => ∃ info, catalog.describe ty = some info ∧ info.parse text = .ok value

/-- A request asks for a name with arguments of these types, some of which it may not know. -/
structure Request.About (r : Request) (site : Site) (name : String) (args : List Ty) : Prop where
  name : r.name = name
  site : r.site = site
  arity : r.args.length = args.length
  known : ∀ p ∈ r.args.zip args, ∀ ty, p.1 = .known ty → p.2 = ty

/-- The rule for a call or a member: the resolver takes the name for the overload, and with one type
for each variable every argument is accepted and the result can be used as `ty`. -/
structure Overload.WellTyped (o : Overload) (resolver : Resolver) (site : Site) (name : String)
    (args : List Ty) (ty : Ty) : Prop where
  offered : ∃ r : Request, r.About site name args ∧ resolver.resolve? r = some o
  arity : o.params.length = args.length
  fits : ∃ b : Bindings, (∀ p ∈ o.params.zip args, p.1.accepts p.2 b = (true, b)) ∧
    (o.result.isMatch ty b = (true, b) ∨
      ∃ result, o.result.instantiate? b = some result ∧ ty.assignable result = true)

mutual
/-- Every node of a tree satisfies its rule. -/
inductive WellTyped (catalog : Catalog) (resolver : Resolver) : Context → Term Typed → Prop
  | lambda {Γ : Context} {note : Typed} {param : Binder Typed} {body : Term Typed} :
    WellTyped catalog resolver ((param.symbol, param.note.ty) :: Γ) body →
      note.ty = .lambda [param.note.ty] body.ty →
      WellTyped catalog resolver Γ (.lambda note param body)
  | binary {Γ : Context} {note : Typed} {op : Operator} {left right : Term Typed} :
    WellTyped catalog resolver Γ left → WellTyped catalog resolver Γ right →
      op.WellTyped catalog left.ty right.ty note.ty →
      WellTyped catalog resolver Γ (.binary note op left right)
  | call {Γ : Context} {note : Typed} {name : String} {args : List (Term Typed)} {o : Overload} :
    WellTypedAll catalog resolver Γ args →
      note.binding = .function o (o.paramTys (args.map Term.ty)) →
      o.WellTyped resolver .call name (args.map Term.ty) note.ty →
      WellTyped catalog resolver Γ (.call note name args)
  | member {Γ : Context} {note : Typed} {receiver : Term Typed} {name : String} {o : Overload} :
    WellTyped catalog resolver Γ receiver →
      note.binding = .function o (o.paramTys [receiver.ty]) →
      o.WellTyped resolver .member name [receiver.ty] note.ty →
      WellTyped catalog resolver Γ (.member note receiver name)
  | ident {Γ : Context} {note : Typed} {symbol : Symbol} :
    Γ.lookup symbol = some note.ty → WellTyped catalog resolver Γ (.ident note symbol)
  | literal {Γ : Context} {note : Typed} {text : Option String} {value : Value} :
    note.binding = .constant value → Literal.WellTyped catalog note.ty text value →
      WellTyped catalog resolver Γ (.literal note text)

inductive WellTypedAll (catalog : Catalog) (resolver : Resolver) :
    Context → List (Term Typed) → Prop
  | nil {Γ : Context} : WellTypedAll catalog resolver Γ []
  | cons {Γ : Context} {t : Term Typed} {rest : List (Term Typed)} :
    WellTyped catalog resolver Γ t → WellTypedAll catalog resolver Γ rest →
      WellTypedAll catalog resolver Γ (t :: rest)
end

end LambdaQuery
