import Mathlib.Data.List.Nodup
import LambdaQuery.Proofs.Inference.Binders
import LambdaQuery.Proofs.Inference.Respelt

/-!
# Other symbols for parameters

A symbol is only there to find the parameter it stands for. Symbols can be exchanged for others as
long as different ones stay different: the types are put into the same places, and the compiled
lambda is the same one. Where compiling fails it fails with the same code.
-/

namespace LambdaQuery

abbrev TypeError.code (e : TypeError) : String :=
  e.fault.code

abbrev LoweringError.code (e : LoweringError) : String :=
  e.fault.code

/-- The second computation computes what the first does, seen through `f`, or both fail with the
same code. -/
def Alike {ε α β : Type} (code : ε → String) (f : α → β) (x : Except ε α) (y : Except ε β) : Prop :=
  y.mapError code = (x.mapError code).map f

namespace Alike

variable {ε α β γ δ : Type} {code : ε → String} {f : α → β} {g : γ → δ}

theorem ok {a : α} {b : β} (same : b = f a) : Alike code f (.ok a) (.ok b) := by
  rw [same]
  rfl

theorem error {e e' : ε} (same : code e' = code e) : Alike code f (.error e) (.error e') :=
  congrArg Except.error same

theorem bind {x : Except ε α} {y : Except ε β} {k : α → Except ε γ} {k' : β → Except ε δ}
    (first : Alike code f x y) (next : ∀ a, Alike code g (k a) (k' (f a))) :
    Alike code g (x >>= k) (y >>= k') := by
  cases x with
  | ok a =>
    cases y with
    | ok b =>
      cases Except.ok.inj first
      exact next a
    | error e' => cases first
  | error e =>
    cases y with
    | ok b => cases first
    | error e' => exact error (Except.error.inj first)

theorem codes_eq {x y : Except ε α} (h : Alike code id x y) :
    y.mapError code = x.mapError code := by
  have seen : y.mapError code = (x.mapError code).map id := h
  rwa [Except.map_id] at seen

end Alike

namespace Respelling

variable (v : Respelling) (ρ : Symbol → Symbol)

def typed (n : Typed) : Typed :=
  ⟨v.span n.span, n.ty, n.binding⟩

mutual
/-- A typed tree respelt, with other symbols for the parameters. -/
def typedTerm : Term Typed → Term Typed
  | .lambda n param body =>
    .lambda (v.typed n) ⟨ρ param.symbol, v.typed param.note⟩ (typedTerm body)
  | .binary n op left right => .binary (v.typed n) op (typedTerm left) (typedTerm right)
  | .call n name args => .call (v.typed n) (v.name name) (typedTermAll args)
  | .member n receiver name => .member (v.typed n) (typedTerm receiver) (v.name name)
  | .ident n symbol => .ident (v.typed n) (ρ symbol)
  | .literal n text => .literal (v.typed n) text

def typedTermAll : List (Term Typed) → List (Term Typed)
  | [] => []
  | t :: rest => typedTerm t :: typedTermAll rest
end

theorem ty_typedTerm (t : Term Typed) : (v.typedTerm ρ t).note.ty = t.note.ty := by
  cases t <;> rfl

theorem types_typedTermAll (ts : List (Term Typed)) :
    (v.typedTermAll ρ ts).map (·.note.ty) = ts.map (·.note.ty) := by
  induction ts with
  | nil => rfl
  | cons t rest ih => simp [typedTermAll, ty_typedTerm, ih]

/-! Putting the types into the tree. -/

section

variable {v} {s : Solver} (catalog : Catalog)

theorem typeOf_alike (slot : Nat) (fault : TypeFault) :
    Alike TypeError.code id (s.typeOf slot fault) ((v.solver s).typeOf slot fault) := by
  unfold Solver.typeOf
  rw [known?_solver]
  split
  · exact .ok rfl
  · exact .error rfl

theorem functionBinding_alike (slot : Nat) (args : List Ty) :
    Alike TypeError.code id (s.functionBinding slot args)
      ((v.solver s).functionBinding slot args) := by
  unfold Solver.functionBinding
  rw [overload?_solver]
  split
  · exact .ok rfl
  · exact .error rfl

theorem checkOperator_alike (slot : Nat) (op : Operator) (left right : Ty) :
    Alike TypeError.code id (s.checkOperator catalog slot op left right)
      ((v.solver s).checkOperator catalog slot op left right) := by
  unfold Solver.checkOperator
  split
  · exact .error rfl
  · split
    · exact .error rfl
    · split
      · exact .ok rfl
      · exact .error rfl

theorem literalValue_alike (slot : Nat) (ty : Ty) (text : Option String) :
    Alike TypeError.code id (s.literalValue catalog slot ty text)
      ((v.solver s).literalValue catalog slot ty text) := by
  cases text with
  | none =>
    simp only [Solver.literalValue]
    split
    · exact .ok rfl
    · exact .error rfl
  | some text =>
    simp only [Solver.literalValue]
    cases catalog.describe ty with
    | none => exact .error rfl
    | some info =>
      simp only
      cases info.parse text with
      | ok value => exact .ok rfl
      | error e => exact .error rfl

variable {ρ} {binders : List (Symbol × Nat)}

mutual
/-- In a respelt tree the slot of an identifier is where its type is found. -/
theorem typed_alike
    (renames : ∀ {symbol slot}, binders.lookup symbol = some slot → ρ symbol = ⟨slot, ""⟩) :
    ∀ {t : Term Slotted} {scope : List Symbol}, t.Bound binders scope →
    Alike TypeError.code (v.typedTerm ρ) (s.typed catalog binders t)
      ((v.solver s).typed catalog [] (v.term t))
  | .lambda n param body, _, ⟨found, onBody⟩ => by
    simp only [term, Solver.typed]
    refine .bind (typed_alike renames onBody) fun _ => .bind (typeOf_alike ..) fun _ =>
      .bind (typeOf_alike ..) fun _ => .ok ?_
    simp only [typedTerm, renames found]
    rfl
  | .binary n op left right, _, ⟨onLeft, onRight⟩ => by
    simp only [term, Solver.typed]
    refine .bind (typed_alike renames onLeft) fun left =>
      .bind (typed_alike renames onRight) fun right => ?_
    rw [ty_typedTerm, ty_typedTerm]
    exact .bind (checkOperator_alike ..) fun _ => .bind (typeOf_alike ..) fun _ => .ok rfl
  | .call n name args, _, onArgs => by
    simp only [term, Solver.typed]
    refine .bind (typedAll_alike renames onArgs) fun args => .bind (typeOf_alike ..) fun _ => ?_
    rw [types_typedTermAll]
    exact .bind (functionBinding_alike ..) fun _ => .ok rfl
  | .member n receiver name, _, onReceiver => by
    have onReceiver : receiver.Bound binders _ := onReceiver
    simp only [term, Solver.typed]
    refine .bind (typed_alike renames onReceiver) fun receiver =>
      .bind (typeOf_alike ..) fun _ => ?_
    rw [ty_typedTerm]
    exact .bind (functionBinding_alike ..) fun _ => .ok rfl
  | .ident n symbol, _, ⟨found, _⟩ => by
    simp only [term, Solver.typed, found, Option.getD_some, List.lookup_nil, Option.getD_none]
    refine .bind (typeOf_alike ..) fun _ => .ok ?_
    simp only [typedTerm, renames found]
    rfl
  | .literal n text, _, _ => by
    simp only [term, Solver.typed]
    exact .bind (typeOf_alike ..) fun _ => .bind (literalValue_alike ..) fun _ => .ok rfl

theorem typedAll_alike
    (renames : ∀ {symbol slot}, binders.lookup symbol = some slot → ρ symbol = ⟨slot, ""⟩) :
    ∀ {ts : List (Term Slotted)} {scope : List Symbol},
    Term.BoundAll binders scope ts →
      Alike TypeError.code (v.typedTermAll ρ) (s.typedAll catalog binders ts)
        ((v.solver s).typedAll catalog [] (v.termAll ts))
  | [], _, _ => .ok rfl
  | t :: rest, _, ⟨onFirst, onRest⟩ => by
    simp only [termAll, Solver.typedAll]
    exact .bind (typed_alike renames onFirst) fun _ =>
      .bind (typedAll_alike renames onRest) fun _ => .ok rfl
end

end

/-! Compiling. -/

section

variable {v} {ρ} (catalog : Catalog)

/-- The parameters made so far, for other symbols. -/
def supply (ρ : Symbol → Symbol) (p : ParamSupply) : ParamSupply :=
  ⟨p.next, p.made.map fun (symbol, param) => (ρ symbol, param)⟩

/-- What is compiled is the same; the parameters made are for other symbols. -/
def lowered {α : Type} (ρ : Symbol → Symbol) (made : α × ParamSupply) : α × ParamSupply :=
  (made.1, supply ρ made.2)

theorem lookup_supply (injective : ∀ a b, (ρ a == ρ b) = (a == b)) (p : ParamSupply)
    (symbol : Symbol) : (supply ρ p).made.lookup (ρ symbol) = p.made.lookup symbol := by
  unfold supply
  induction p.made with
  | nil => rfl
  | cons made rest ih =>
    obtain ⟨other, param⟩ := made
    simp only [List.map_cons, List.lookup_cons, injective, ih]

theorem describe_alike (n : Typed) (ty : Ty) :
    Alike LoweringError.code id (Expr.describe catalog n ty)
      (Expr.describe catalog (v.typed n) ty) := by
  unfold Expr.describe
  split
  · exact .ok rfl
  · exact .error rfl

theorem ofBinary_alike (n : Typed) (op : Operator) (leftTy rightTy : Ty) (left right : Expr) :
    Alike LoweringError.code id (Expr.ofBinary catalog n op leftTy rightTy left right)
      (Expr.ofBinary catalog (v.typed n) op leftTy rightTy left right) := by
  unfold Expr.ofBinary
  split
  · exact .error rfl
  · refine .bind (describe_alike ..) fun info => ?_
    simp only [id_eq]
    split
    · exact .ok rfl
    · exact .error rfl

theorem ofCall_alike (n : Typed) (o : Overload) (argTys : List Ty) (args : List Expr) :
    Alike LoweringError.code id (Expr.ofCall n o argTys args)
      (Expr.ofCall (v.typed n) o argTys args) := by
  simp only [Expr.ofCall, typed]
  split
  · exact .ok rfl
  · exact .error rfl

mutual
theorem ofTyped_alike (injective : ∀ a b, (ρ a == ρ b) = (a == b)) : ∀ (t : Term Typed)
    (p : ParamSupply), Alike LoweringError.code (lowered ρ) (Expr.ofTyped catalog t p)
      (Expr.ofTyped catalog (v.typedTerm ρ t) (supply ρ p))
  | .lambda n binder body, p => by
    simp only [typedTerm, Expr.ofTyped]
    exact .bind (ofTyped_alike injective body (p.bind binder)) fun _ => .ok rfl
  | .ident n symbol, p => by
    simp only [typedTerm, Expr.ofTyped, lookup_supply injective]
    split
    · exact .ok rfl
    · exact .error rfl
  | .literal n text, p => by
    simp only [typedTerm, Expr.ofTyped, typed]
    split
    · exact .bind (describe_alike ..) fun _ => .ok rfl
    · exact .error rfl
  | .binary n op left right, p => by
    simp only [typedTerm, Expr.ofTyped, ty_typedTerm]
    exact .bind (ofTyped_alike injective left p) fun (_, p) =>
      .bind (ofTyped_alike injective right p) fun _ => .bind (ofBinary_alike ..) fun _ => .ok rfl
  | .call n name args, p => by
    simp only [typedTerm, Expr.ofTyped, types_typedTermAll, typed]
    split
    · exact .bind (ofArgs_alike injective args _ p) fun _ =>
        .bind (ofCall_alike ..) fun _ => .ok rfl
    · exact .error rfl
  | .member n receiver name, p => by
    simp only [typedTerm, Expr.ofTyped, ty_typedTerm, typed]
    split
    · exact .bind (ofTyped_alike injective receiver p) fun _ =>
        .bind (ofCall_alike ..) fun _ => .ok rfl
    · exact .bind (ofCall_alike ..) fun _ => .ok rfl
    · exact .error rfl

theorem ofArgs_alike (injective : ∀ a b, (ρ a == ρ b) = (a == b)) : ∀ (ts : List (Term Typed))
    (types : List Ty) (p : ParamSupply), Alike LoweringError.code (lowered ρ)
      (Expr.ofArgs catalog ts types p)
      (Expr.ofArgs catalog (v.typedTermAll ρ ts) types (supply ρ p))
  | [], _, _ => .ok rfl
  | _ :: _, [], _ => .ok rfl
  | t :: rest, _ :: types, p => by
    simp only [typedTermAll, Expr.ofArgs]
    exact .bind (ofTyped_alike injective t p) fun (_, p) =>
      .bind (ofArgs_alike injective rest types p) fun _ => .ok rfl
end

/-- A tree with other symbols is compiled to the same lambda. -/
theorem lambda_alike (injective : ∀ a b, (ρ a == ρ b) = (a == b)) (t : Term Typed) :
    Alike LoweringError.code id (LambdaExpr.ofTyped catalog t)
      (LambdaExpr.ofTyped catalog (v.typedTerm ρ t)) := by
  cases t with
  | lambda n binder body =>
    exact .bind (ofTyped_alike catalog injective body (ParamSupply.start.bind binder)) fun _ =>
      .ok rfl
  | _ => exact .error rfl

end

end Respelling

/-! Symbols with the numbers of slots. -/

namespace Numbering

/-- Each parameter has a later slot than those met before it. -/
def Falling (n : Numbering) : Prop :=
  (n.binders.map Prod.snd).Pairwise (· > ·)

theorem Falling.bind {n : Numbering} (h : n.Falling) (settled : n.Settled) (symbol : Symbol) :
    (n.bind symbol).Falling := by
  refine List.pairwise_cons.2 ⟨fun slot mem => ?_, h⟩
  obtain ⟨p, isMet, rfl⟩ := List.mem_map.1 mem
  exact settled p isMet

end Numbering

namespace Term

mutual
theorem number_falling : ∀ (t : Term Span) {n : Numbering}, n.Settled → n.Falling →
    (t.number n).2.Falling
  | lambda _ param body, _, settled, falling =>
    number_falling body (settled.bind param.symbol) (falling.bind settled param.symbol)
  | binary _ _ left right, _, settled, falling =>
    number_falling right (number_numbered left settled).2 (number_falling left settled falling)
  | call _ _ args, _, settled, falling => numberAll_falling args settled falling
  | member _ receiver _, _, settled, falling => number_falling receiver settled falling
  | ident _ symbol, n, _, falling => by
    unfold number
    cases n.binders.lookup symbol <;> exact falling
  | literal .., _, _, falling => falling

theorem numberAll_falling : ∀ (ts : List (Term Span)) {n : Numbering}, n.Settled → n.Falling →
    (numberAll ts n).2.Falling
  | [], _, _, falling => falling
  | t :: rest, _, settled, falling =>
    numberAll_falling rest (number_numbered t settled).2 (number_falling t settled falling)
end

end Term

namespace Numbering

variable {n : Numbering}

/-- For a parameter's symbol that with the number of its slot. Other symbols come behind all
slots. -/
def symbol (n : Numbering) (symbol : Symbol) : Symbol :=
  match n.binders.lookup symbol with
  | some slot => ⟨slot, ""⟩
  | none => ⟨n.next + symbol.id, ""⟩

theorem symbol_of_lookup {symbol : Symbol} {slot : Nat} (h : n.binders.lookup symbol = some slot) :
    n.symbol symbol = ⟨slot, ""⟩ := by
  simp [Numbering.symbol, h]

theorem symbol_of_lookup_none {symbol : Symbol} (h : n.binders.lookup symbol = none) :
    n.symbol symbol = ⟨n.next + symbol.id, ""⟩ := by
  simp [Numbering.symbol, h]

theorem symbol_congr {a b : Symbol} (same : a.id = b.id) : n.symbol a = n.symbol b := by
  have lookups : n.binders.lookup a = n.binders.lookup b := by
    induction n.binders with
    | nil => rfl
    | cons p rest ih =>
      obtain ⟨key, slot⟩ := p
      have alike : (a == key) = (b == key) := by simp [BEq.beq, same]
      simp only [List.lookup_cons, alike, ih]
  simp only [Numbering.symbol, lookups, same]

theorem id_eq_of_symbol (settled : n.Settled) (falling : n.Falling) {a b : Symbol}
    (same : (n.symbol a).id = (n.symbol b).id) : a.id = b.id := by
  cases onA : n.binders.lookup a with
  | some slot =>
    obtain ⟨p, isMet, rfl, isA⟩ := lookup_mem onA
    rw [symbol_of_lookup onA] at same
    cases onB : n.binders.lookup b with
    | some slot' =>
      obtain ⟨p', isMet', rfl, isB⟩ := lookup_mem onB
      rw [symbol_of_lookup onB] at same
      rw [← isA, ← isB, List.inj_on_of_nodup_map (falling.imp Nat.ne_of_gt) isMet isMet' same]
    | none =>
      have := settled p isMet
      simp only [symbol_of_lookup_none onB] at same
      omega
  | none =>
    simp only [symbol_of_lookup_none onA] at same
    cases onB : n.binders.lookup b with
    | some slot' =>
      obtain ⟨p', isMet', rfl, isB⟩ := lookup_mem onB
      have := settled p' isMet'
      simp only [symbol_of_lookup onB] at same
      omega
    | none =>
      simp only [symbol_of_lookup_none onB] at same
      omega

/-- Different symbols stay different. -/
theorem symbol_injective (settled : n.Settled) (falling : n.Falling) (a b : Symbol) :
    (n.symbol a == n.symbol b) = (a == b) := by
  have ids : (n.symbol a).id = (n.symbol b).id ↔ a.id = b.id :=
    ⟨id_eq_of_symbol settled falling, fun same => by rw [symbol_congr same]⟩
  exact decide_eq_decide.2 ids

end Numbering

end LambdaQuery
