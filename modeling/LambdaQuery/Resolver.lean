import LambdaQuery.Overload

/-!
Resolvers: which overload a name stands for where it is used.
-/

namespace LambdaQuery

inductive Resolver where
  /-- The properties of the only argument, for members and for calls. -/
  | properties (catalog : Catalog)
  /-- The methods of the first argument, for calls. -/
  | methods (catalog : Catalog)
  /-- A table of functions, for calls. -/
  | table (functions : List Overload)
  /-- Several resolvers, of which the first that resolves a use decides. -/
  | chain (resolvers : List Resolver)
  /-- Resolves only what is not ambiguous among all candidates. -/
  | exhaustive (resolver : Resolver)
  /-- Resolves nothing. It marks a place in a chain that a use may reach. -/
  | observer
  /-- Any other rule. -/
  | custom (candidates : Request → List Overload) (resolve? : Request → Option Overload)

/-- The only member of a list. -/
def only? {α : Type} : List α → Option α
  | [a] => some a
  | _ => none

namespace Resolver

/-- The rule that resolves to the only candidate. -/
def ofCandidates (candidates : Request → List Overload) : Resolver :=
  .custom candidates fun r => only? (candidates r)

/-- The property of a name, as a function of its instance. -/
def propertyOf? (c : Catalog) (instanceTy : Ty) (name : String) : Option Overload := do
  let info ← c.describe instanceTy
  let p ← info.property? name
  return .ofProperty instanceTy p

/-- The methods of a name, as functions whose first argument is the value they are called on. -/
def methodsOf (c : Catalog) (receiver : Ty) (name : String) : List Overload :=
  match c.describe receiver with
  | some info => (info.methodsNamed name).map (.ofMethod receiver)
  | none => []

def propertyCandidates (c : Catalog) (r : Request) : List Overload :=
  match r.args with
  | [.known ty] => Overload.bestFits (propertyOf? c ty r.name).toList r
  | _ => []

def methodCandidates (c : Catalog) (r : Request) : List Overload :=
  match r.site, r.args with
  | .call, .known ty :: _ => Overload.bestFits (methodsOf c ty r.name) r
  | _, _ => []

def tableCandidates (functions : List Overload) (r : Request) : List Overload :=
  match r.site with
  | .call => Overload.bestFits functions r
  | .member => []

mutual
/-- Every overload that a use could stand for. -/
def candidates (r : Request) : Resolver → List Overload
  | properties c => propertyCandidates c r
  | methods c => methodCandidates c r
  | table functions => tableCandidates functions r
  | chain resolvers => candidatesAll r resolvers
  | exhaustive resolver => candidates r resolver
  | observer => []
  | custom candidates _ => candidates r

def candidatesAll (r : Request) : List Resolver → List Overload
  | [] => []
  | resolver :: rest => candidates r resolver ++ candidatesAll r rest
end

mutual
/-- The overload that a use stands for, if that is clear. -/
def resolve? (r : Request) : Resolver → Option Overload
  | properties c => only? (propertyCandidates c r)
  | methods c => only? (methodCandidates c r)
  | table functions => only? (tableCandidates functions r)
  | chain resolvers => resolveFirst? r resolvers
  | exhaustive resolver => only? (candidates r resolver)
  | observer => none
  | custom _ resolve? => resolve? r

def resolveFirst? (r : Request) : List Resolver → Option Overload
  | [] => none
  | resolver :: rest =>
    match resolve? r resolver with
    | some o => some o
    | none => resolveFirst? r rest
end

mutual
/-- How many observers a use reaches before it is resolved. -/
def reached (r : Request) : Resolver → Nat
  | chain resolvers => reachedAll r resolvers
  | observer => 1
  | _ => 0

def reachedAll (r : Request) : List Resolver → Nat
  | [] => 0
  | resolver :: rest =>
    reached r resolver + if (resolve? r resolver).isSome then 0 else reachedAll r rest
end

/-- The uses that reach an observer, one line for each time. -/
def observed (resolver : Resolver) (requests : List Request) : List String :=
  requests.flatMap fun r => List.replicate (resolver.reached r) r.describe

/-- The number of members of a chain, as text. -/
def chainSummary (resolvers : List Resolver) : String :=
  "ResolverChain \x7b resolvers: " ++ Nat.repr resolvers.length ++ " \x7d"

/-- A function that goes with no type. -/
def free (name : String) (params : List Shape) (result : Shape) (body : Body Value) : Overload :=
  ⟨name, params, result, .function ⟨name, .free, body⟩⟩

/-- A value, or another in its place if it is null. -/
def coalesce : Overload :=
  free "Coalesce" [.optional (.generic 0 false), .generic 0 false] (.generic 0 false) .orElse

/-- Functions that go with no type. -/
def standardFunctions : List Overload :=
  [ free "Concat" [.concrete .string, .concrete .string] (.concrete .string) .concat,
    free "Abs" [.concrete .int] (.concrete .int) .absWhole,
    free "Abs" [.concrete .float] (.concrete .float) .absFloat,
    coalesce ]

def standard : Resolver := .table standardFunctions

end Resolver

end LambdaQuery
