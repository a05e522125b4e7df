import LambdaQuery.Catalog.Declared
import LambdaQuery.Memo
import LambdaQuery.Resolver

/-!
Answers from shared tables. What is said of a type, the values of an enum and what a name stands for
are computed once and kept. Several callers may be served at a time: a table is held while it is
read or written, but not while a value is computed, which may itself need the tables.
-/

namespace LambdaQuery

/-- What a caller does with a shared state, one step after another. Others may act between two
steps. -/
inductive Routine (σ α : Type) where
  | done (result : α)
  /-- Change the state, and go on by what it was. -/
  | step (act : σ → σ) (next : σ → Routine σ α)

namespace Routine

variable {σ α β : Type}

def bind : Routine σ α → (α → Routine σ β) → Routine σ β
  | done a, f => f a
  | step act next, f => step act fun s => (next s).bind f

def map (f : α → β) (r : Routine σ α) : Routine σ β :=
  r.bind fun a => done (f a)

/-- All steps in a row. -/
def run : Routine σ α → σ → α × σ
  | done a, s => (a, s)
  | step act next, s => (next s).run (act s)

end Routine

/-- One table of a shared state. -/
structure Shared (σ κ ν : Type) where
  read : σ → Memo κ ν
  write : σ → Memo κ ν → σ
  write_read : ∀ s, write s (read s) = s

/-- The value of a key, which is computed if the table has none. Someone else may have written one
by then, which is taken instead. -/
def Shared.fetch {σ κ ν : Type} [BEq κ] (table : Shared σ κ ν) (key : κ)
    (compute : Routine σ ν) : Routine σ ν :=
  .step id fun s =>
    match (table.read s).get? key with
    | some value => .done value
    | none => compute.bind fun value =>
      .step (fun s => table.write s ((table.read s).insertIfAbsent key value).2)
        fun s => .done ((table.read s).insertIfAbsent key value).1

/-- The tables of a catalog and its resolvers. Names are kept without the case of ASCII letters, and
so is that a name stands for nothing. -/
structure Caches where
  infos : Memo Ty TypeInfo
  variants : Memo String (List EnumValue)
  properties : Memo (Ty × List Char) (Option Overload)
  methods : Memo (Ty × List Char) (List Overload)

namespace Caches

def empty : Caches := ⟨.empty, .empty, .empty, .empty⟩

def infoTable : Shared Caches Ty TypeInfo :=
  ⟨infos, fun c m => { c with infos := m }, fun _ => rfl⟩

def variantTable : Shared Caches String (List EnumValue) :=
  ⟨variants, fun c m => { c with variants := m }, fun _ => rfl⟩

def propertyTable : Shared Caches (Ty × List Char) (Option Overload) :=
  ⟨properties, fun c m => { c with properties := m }, fun _ => rfl⟩

def methodTable : Shared Caches (Ty × List Char) (List Overload) :=
  ⟨methods, fun c m => { c with methods := m }, fun _ => rfl⟩

end Caches

/-- Read a literal by the variants of an enum. -/
def EnumValue.read (variants : Option (List EnumValue)) (text : String) :
    Except LiteralFault Value :=
  match variants with
  | some variants =>
    match ofText? variants text with
    | some v => .ok (.enum v)
    | none => .error .noVariant
  | none => .error .noLiterals

namespace Cached

variable (s : Schema)

def enumValues (name : String) : Routine Caches (Option (List EnumValue)) :=
  match s.variants? name with
  | some variants =>
    let values := variants.zipIdx.map fun (variant, ordinal) => ⟨name, variant, ordinal⟩
    (Caches.variantTable.fetch name (.done values)).map some
  | none => .done none

/-- What is said of a type. The literals of an enum are read by the variants as they are now. -/
def info (ty : Ty) : Routine Caches TypeInfo :=
  match ty.underlying with
  | .enum name => (enumValues s name).map fun variants =>
    { s.info ty with
      parse := fun text =>
        (EnumValue.read variants text).mapError fun fault => ⟨ty, text, fault⟩ }
  | _ => .done (s.info ty)

def describe (ty : Ty) : Routine Caches (Option TypeInfo) :=
  if s.knows ty then (Caches.infoTable.fetch ty (info s ty)).map some else .done none

def propertyOf (instanceTy : Ty) (name : String) : Routine Caches (Option Overload) :=
  Caches.propertyTable.fetch (instanceTy, Text.folded name) <|
    (describe s instanceTy).map fun found => do
      let info ← found
      let p ← info.property? name
      return .ofProperty instanceTy p

def methodsOf (receiver : Ty) (name : String) : Routine Caches (List Overload) :=
  Caches.methodTable.fetch (receiver, Text.folded name) <|
    (describe s receiver).map fun found =>
      match found with
      | some info => (info.methodsNamed name).map (.ofMethod receiver)
      | none => []

def propertyCandidates (r : Request) : Routine Caches (List Overload) :=
  match r.args with
  | [.known ty] => (propertyOf s ty r.name).map fun found => Overload.bestFits found.toList r
  | _ => .done []

def methodCandidates (r : Request) : Routine Caches (List Overload) :=
  match r.site, r.args with
  | .call, .known ty :: _ => (methodsOf s ty r.name).map fun found => Overload.bestFits found r
  | _, _ => .done []

end Cached

/-- What a catalog and its resolvers are asked. -/
inductive Question where
  | describe (ty : Ty)
  | enumValues (name : String)
  | properties (r : Request)
  | methods (r : Request)

inductive Answer where
  | info (found : Option TypeInfo)
  | variants (found : Option (List EnumValue))
  | overloads (found : List Overload)

namespace Question

/-- The answer without any tables. -/
def answer (s : Schema) : Question → Answer
  | describe ty => .info (s.catalog.describe ty)
  | enumValues name => .variants (s.enumValues? name)
  | properties r => .overloads ((Resolver.properties s.catalog).candidates r)
  | methods r => .overloads ((Resolver.methods s.catalog).candidates r)

/-- Look for the answer in the tables. -/
def ask (s : Schema) : Question → Routine Caches Answer
  | describe ty => (Cached.describe s ty).map .info
  | enumValues name => (Cached.enumValues s name).map .variants
  | properties r => (Cached.propertyCandidates s r).map .overloads
  | methods r => (Cached.methodCandidates s r).map .overloads

end Question

/-- Callers that share tables. -/
structure Session where
  caches : Caches
  /-- The questions that were asked and how their callers go on. -/
  pending : List (Question × Routine Caches Answer)
  /-- The questions that were answered, the oldest first. -/
  answers : List (Question × Answer)

inductive Turn where
  /-- A new caller asks. -/
  | ask (question : Question)
  /-- The caller at a place makes its next step, or gets its answer. -/
  | act (caller : Nat)

namespace Session

def start : Session := ⟨.empty, [], []⟩

def turn (s : Schema) (x : Session) : Turn → Session
  | .ask question => { x with pending := x.pending ++ [(question, question.ask s)] }
  | .act caller =>
    match x.pending[caller]? with
    | none => x
    | some (question, .done answer) =>
      { x with
        pending := x.pending.eraseIdx caller
        answers := x.answers ++ [(question, answer)] }
    | some (question, .step act next) =>
      { x with
        caches := act x.caches
        pending := x.pending.set caller (question, next x.caches) }

/-- One turn after another, in any order that the callers happen to act in. -/
def turns (s : Schema) (x : Session) (ts : List Turn) : Session :=
  ts.foldl (turn s) x

end Session

end LambdaQuery
