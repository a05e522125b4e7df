import LambdaQuery.Proofs.Lowering.Correct

/-!
# Parameters of compiled queries

Where a tree binds parameters and where it uses them is listed from left to right, each use with the
lambdas around it. The list of a compiled query is that of the query it is made from, with one
parameter in place of each symbol. No two of these parameters have the same number or the same name,
so a use can be followed by either.

Parameters are looked up among all that were made before, those of lambdas that are over included.
An identifier after the lambda of its parameter therefore still becomes that parameter, outside its
lambda. Where identifiers stand in the scope of their parameters, as they do in all that is parsed,
compiled queries are closed.
-/

namespace LambdaQuery

/-- A place in a tree that has to do with a parameter. -/
inductive Mark (β α : Type) where
  /-- A lambda and its parameter. -/
  | binds (param : β)
  /-- A use of a parameter, and the parameters of the lambdas around it, the innermost first. -/
  | uses (around : List β) (used : α)

namespace Mark

variable {α β γ δ : Type}

def map (f : β → γ) (g : α → δ) : Mark β α → Mark γ δ
  | binds b => binds (f b)
  | uses around a => uses (around.map f) (g a)

/-- The place in a lambda with the given parameter. -/
def under (outer : β) : Mark β α → Mark β α
  | binds b => binds b
  | uses around a => uses (around ++ [outer]) a

def bound? : Mark β α → Option β
  | binds b => some b
  | uses .. => none

/-- The parameters that are bound, from left to right. -/
def bound (marks : List (Mark β α)) : List β :=
  marks.filterMap bound?

@[simp]
theorem map_binds (f : β → γ) (g : α → δ) (b : β) :
    map f g (binds b : Mark β α) = binds (f b) :=
  rfl

@[simp]
theorem bound_binds (b : β) (marks : List (Mark β α)) : bound (binds b :: marks) = b :: bound marks :=
  rfl

@[simp]
theorem bound_append (marks marks' : List (Mark β α)) :
    bound (marks ++ marks') = bound marks ++ bound marks' :=
  List.filterMap_append

@[simp]
theorem bound_under (outer : β) (marks : List (Mark β α)) :
    bound (marks.map (under outer)) = bound marks := by
  unfold bound
  rw [List.filterMap_map]
  congr 1
  funext mark
  cases mark <;> rfl

@[simp]
theorem bound_map (f : β → γ) (g : α → δ) (marks : List (Mark β α)) :
    bound (marks.map (map f g)) = (bound marks).map f := by
  unfold bound
  rw [List.filterMap_map, List.map_filterMap]
  congr 1
  funext mark
  cases mark <;> rfl

theorem map_under (f : β → γ) (g : α → δ) (outer : β) (mark : Mark β α) :
    map f g (under outer mark) = under (f outer) (map f g mark) := by
  cases mark <;> simp [map, under]

/-- A use in a lambda is a use in its body. -/
theorem uses_mem_under {outer : β} {marks : List (Mark β α)} {around : List β} {a : α}
    (mem : uses around a ∈ marks.map (under outer)) :
    ∃ inner, around = inner ++ [outer] ∧ uses inner a ∈ marks := by
  obtain ⟨mark, inMarks, same⟩ := List.mem_map.1 mem
  cases mark with
  | binds b => cases same
  | uses inner a' =>
    cases same
    exact ⟨inner, rfl, inMarks⟩

end Mark

open Mark

mutual
/-- Where an expression binds and uses parameters. -/
def Expr.marks : Expr → List (Mark Param Param)
  | .param p => [.uses [] p]
  | .constant .. => []
  | .property receiver _ => receiver.marks
  | .binary _ left right _ => left.marks ++ right.marks
  | .call _ args _ => Expr.marksAll args
  | .convert operand _ => operand.marks
  | .lambda p body => .binds p :: body.marks.map (.under p)

def Expr.marksAll : List Expr → List (Mark Param Param)
  | [] => []
  | e :: rest => e.marks ++ Expr.marksAll rest
end

def LambdaExpr.marks (l : LambdaExpr) : List (Mark Param Param) :=
  (Expr.lambda l.param l.body).marks

/-- The types of the parameters of what a node stands for. -/
def Typed.params (n : Typed) : List Ty :=
  match n.binding with
  | .function _ params => params
  | _ => []

mutual
/-- Where a query binds and uses parameters. Arguments for which there is no parameter are left
out. -/
def Term.marks : Term Typed → List (Mark (Binder Typed) Symbol)
  | .lambda _ binder body => .binds binder :: body.marks.map (.under binder)
  | .binary _ _ left right => left.marks ++ right.marks
  | .call n _ args => Term.marksArgs args n.params
  | .member n receiver _ =>
    match n.params with
    | [] => []
    | _ :: _ => receiver.marks
  | .ident _ symbol => [.uses [] symbol]
  | .literal .. => []

def Term.marksArgs : List (Term Typed) → List Ty → List (Mark (Binder Typed) Symbol)
  | t :: rest, _ :: types => t.marks ++ Term.marksArgs rest types
  | _, _ => []
end

/-- What a node stands for, if anything is called, is built as a property or a host function. -/
def Typed.BuildsNode (n : Typed) : Prop :=
  ∀ o params, n.binding = .function o params → ∀ build, o.lowering ≠ .custom build

mutual
/-- Every call and member is built as a property or a host function. -/
def Term.BuildsNodes : Term Typed → Prop
  | .lambda _ _ body => body.BuildsNodes
  | .binary _ _ left right => left.BuildsNodes ∧ right.BuildsNodes
  | .call n _ args => n.BuildsNode ∧ Term.BuildsNodesAll args
  | .member n receiver _ => n.BuildsNode ∧ receiver.BuildsNodes
  | .ident .. | .literal .. => True

def Term.BuildsNodesAll : List (Term Typed) → Prop
  | [] => True
  | t :: rest => t.BuildsNodes ∧ Term.BuildsNodesAll rest
end

/-- Operators are built with each operand once, and in order. -/
def Catalog.KeepsOperands (catalog : Catalog) : Prop :=
  ∀ ⦃ty info op left right e⦄, catalog.describe ty = some info → info.binary op left right = some e →
    e.marks = left.marks ++ right.marks

/-! ### What building adds -/

namespace Expr

@[simp]
theorem marks_convertTo (e : Expr) (ty : Ty) : (e.convertTo ty).marks = e.marks := by
  unfold convertTo
  split <;> rfl

@[simp]
theorem marks_lambdaBody (e : Expr) (ty : Ty) : (lambdaBody e ty).marks = e.marks := by
  unfold lambdaBody
  split <;> simp

theorem marks_binary? {ty : Ty} {op : Operator} {left right e : Expr}
    (built : ty.binary? op left right = some e) : e.marks = left.marks ++ right.marks := by
  unfold Ty.binary? at built
  split at built
  · split at built <;> cases built <;> simp [marks, marksAll]
  · cases built

end Expr

theorem Schema.catalog_keepsOperands (s : Schema) : s.catalog.KeepsOperands := by
  intro ty info op left right e described built
  obtain ⟨_, rfl⟩ := Schema.describe_eq_some described
  exact Expr.marks_binary? built

theorem Overload.marks_build? {o : Overload} (plain : ∀ build, o.lowering ≠ .custom build)
    {args : List Expr} {ty : Ty} {e : Expr} (built : o.build? args ty = some e) :
    e.marks = Expr.marksAll args := by
  unfold build? at built
  split at built
  · split at built <;> cases built
    simp [Expr.marks, Expr.marksAll]
  · cases built
    rfl
  · rename_i build isCustom
    exact absurd isCustom (plain build)

/-! ### The supply of parameters -/

namespace ParamSupply

/-- What is made after some binders. -/
def bindAll (p : ParamSupply) (binders : List (Binder Typed)) : ParamSupply :=
  binders.foldl bind p

/-- Every parameter that was made is the one assigned to its symbol. -/
def Assigned (p : ParamSupply) (paramOf : Nat → Param) : Prop :=
  ∀ entry ∈ p.made, paramOf entry.1.id = entry.2

theorem bindAll_append (p : ParamSupply) (binders more : List (Binder Typed)) :
    p.bindAll (binders ++ more) = (p.bindAll binders).bindAll more :=
  List.foldl_append

theorem mem_bindAll {p : ParamSupply} {binders : List (Binder Typed)} {entry : Symbol × Param}
    (mem : entry ∈ p.made) : entry ∈ (p.bindAll binders).made := by
  induction binders generalizing p with
  | nil => exact mem
  | cons b rest ih => exact ih (List.mem_cons_of_mem _ mem)

theorem Assigned.of_bindAll {p : ParamSupply} {binders : List (Binder Typed)} {paramOf : Nat → Param}
    (h : (p.bindAll binders).Assigned paramOf) : p.Assigned paramOf :=
  fun entry mem => h entry (mem_bindAll mem)

theorem symbols_bindAll (p : ParamSupply) (binders : List (Binder Typed)) :
    (p.bindAll binders).made.map (fun entry => entry.1.id) =
      (binders.map fun b => b.symbol.id).reverse ++ p.made.map fun entry => entry.1.id := by
  induction binders generalizing p with
  | nil => rfl
  | cons b rest ih =>
    refine (ih (p.bind b)).trans ?_
    simp [ParamSupply.bind]

/-- Binders become parameters with the numbers from the next one on. -/
theorem Assigned.numbers {p : ParamSupply} {binders : List (Binder Typed)} {paramOf : Nat → Param}
    (h : (p.bindAll binders).Assigned paramOf) :
    (binders.map fun b => (paramOf b.symbol.id).id) = List.range' p.next binders.length ∧
    ∀ b ∈ binders, (paramOf b.symbol.id).name = Param.nameOf (paramOf b.symbol.id).id ∧
      (paramOf b.symbol.id).ty = b.note.ty := by
  induction binders generalizing p with
  | nil => simp
  | cons b rest ih =>
    have here : paramOf b.symbol.id = p.param b :=
      h.of_bindAll (p := p.bind b) (b.symbol, p.param b) List.mem_cons_self
    obtain ⟨numbers, others⟩ := ih (p := p.bind b) h
    refine ⟨?_, List.forall_mem_cons.2 ⟨by simp [here, param], others⟩⟩
    rw [List.map_cons, numbers, here, List.length_cons, List.range'_succ]
    rfl

end ParamSupply

/-- The places of a query and those of the expression that it becomes, with the parameters made
before and after. -/
structure Renders (source : List (Mark (Binder Typed) Symbol)) (p : ParamSupply)
    (target : List (Mark Param Param)) (p' : ParamSupply) : Prop where
  supply : p' = p.bindAll (bound source)
  marks : ∀ {paramOf}, p'.Assigned paramOf →
    target = source.map (.map (fun b => paramOf b.symbol.id) fun s => paramOf s.id)
  found : ∀ {around symbol}, .uses around symbol ∈ source → ∃ entry ∈ p'.made, entry.1.id = symbol.id
  around : ∀ {around symbol}, .uses around symbol ∈ source → ∀ b ∈ around, b ∈ bound source

namespace Renders

variable {source source' : List (Mark (Binder Typed) Symbol)} {target target' : List (Mark Param Param)}
  {p p' p'' : ParamSupply}

theorem nil (p : ParamSupply) : Renders [] p [] p :=
  ⟨rfl, fun _ => rfl, by simp, by simp⟩

theorem append (h : Renders source p target p') (h' : Renders source' p' target' p'') :
    Renders (source ++ source') p (target ++ target') p'' where
  supply := by rw [bound_append, ParamSupply.bindAll_append, ← h.supply, h'.supply]
  marks assigned := by
    rw [h'.marks assigned, List.map_append]
    rw [h'.supply] at assigned
    rw [h.marks assigned.of_bindAll]
  found mem := by
    rcases List.mem_append.1 mem with first | second
    · obtain ⟨entry, made, same⟩ := h.found first
      exact ⟨entry, h'.supply ▸ ParamSupply.mem_bindAll made, same⟩
    · exact h'.found second
  around mem b isAround := by
    rw [bound_append, List.mem_append]
    rcases List.mem_append.1 mem with first | second
    · exact .inl (h.around first b isAround)
    · exact .inr (h'.around second b isAround)

theorem ident {symbol : Symbol} {param : Param} (found : p.made.lookup symbol = some param) :
    Renders [.uses [] symbol] p [.uses [] param] p := by
  obtain ⟨entry, made, rfl, same⟩ := lookup_mem found
  refine ⟨rfl, fun assigned => ?_, fun mem => ?_, fun mem => ?_⟩
  · simp [Mark.map, ← same, assigned entry made]
  · cases List.mem_singleton.1 mem
    exact ⟨entry, made, same⟩
  · cases List.mem_singleton.1 mem
    simp

theorem lambda {binder : Binder Typed} (h : Renders source (p.bind binder) target p') :
    Renders (.binds binder :: source.map (.under binder)) p
      (.binds (p.param binder) :: target.map (.under (p.param binder))) p' where
  supply := by
    rw [bound_binds, bound_under]
    exact h.supply
  marks {paramOf} assigned := by
    rw [h.marks assigned]
    rw [h.supply] at assigned
    have here : paramOf binder.symbol.id = p.param binder :=
      assigned.of_bindAll (binder.symbol, p.param binder) List.mem_cons_self
    simp [here, map_under]
  found mem := by
    rcases List.mem_cons.1 mem with same | inside
    · cases same
    · obtain ⟨inner, -, used⟩ := uses_mem_under inside
      exact h.found used
  around mem b isAround := by
    rcases List.mem_cons.1 mem with same | inside
    · cases same
    · obtain ⟨inner, rfl, used⟩ := uses_mem_under inside
      rw [bound_binds, bound_under, List.mem_cons]
      rcases List.mem_append.1 isAround with isInner | isOuter
      · exact .inr (h.around used b isInner)
      · exact .inl (List.mem_singleton.1 isOuter)

/-- What is used was bound, if nothing was made before. -/
theorem bound_of_uses (h : Renders source .start target p) {around : List (Binder Typed)}
    {symbol : Symbol} (mem : .uses around symbol ∈ source) :
    ∃ b ∈ bound source, b.symbol.id = symbol.id := by
  obtain ⟨entry, made, same⟩ := h.found mem
  have key := List.mem_map_of_mem (f := fun entry : Symbol × Param => entry.1.id) made
  rw [h.supply, ParamSupply.symbols_bindAll] at key
  obtain ⟨b, isBound, equal⟩ : ∃ b ∈ bound source, b.symbol.id = entry.1.id := by
    simpa [ParamSupply.start] using key
  exact ⟨b, isBound, equal.trans same⟩

end Renders

namespace Expr

variable {catalog : Catalog}

mutual
theorem renders_of_ofTyped (keeps : catalog.KeepsOperands) : ∀ {t : Term Typed} {p p' : ParamSupply}
    {e : Expr}, t.BuildsNodes → ofTyped catalog t p = .ok (e, p') → Renders t.marks p e.marks p'
  | .lambda _ binder body, p, _, _, plain, h => by
    obtain ⟨⟨body', _⟩, lowered, h⟩ := ok_of_bind h
    cases h
    simpa [Expr.marks, Term.marks] using (renders_of_ofTyped keeps (t := body) plain lowered).lambda
  | .binary _ _ left right, _, _, _, plain, h => by
    obtain ⟨⟨l, _⟩, loweredLeft, h⟩ := ok_of_bind h
    obtain ⟨⟨r, _⟩, loweredRight, h⟩ := ok_of_bind h
    obtain ⟨e, built, h⟩ := ok_of_bind h
    cases h
    obtain ⟨common, info, -, described, isOperator⟩ := ofBinary_ok built
    have operands := keeps described isOperator
    simp only [marks_convertTo] at operands ⊢
    rw [operands]
    exact (renders_of_ofTyped keeps plain.1 loweredLeft).append
      (renders_of_ofTyped keeps plain.2 loweredRight)
  | .call n _ args, _, _, _, plain, h => by
    unfold ofTyped at h
    split at h
    · rename_i o params bound
      obtain ⟨⟨es, _⟩, lowered, h⟩ := ok_of_bind h
      obtain ⟨e, built, h⟩ := ok_of_bind h
      cases h
      rw [marks_convertTo, Overload.marks_build? (plain.1 _ _ bound) (ofCall_ok built), Term.marks,
        Typed.params, bound]
      exact renders_of_ofArgs keeps plain.2 lowered
    · cases h
  | .member n receiver _, _, _, _, plain, h => by
    unfold ofTyped at h
    split at h
    · rename_i o ty types bound
      obtain ⟨⟨r, _⟩, lowered, h⟩ := ok_of_bind h
      obtain ⟨e, built, h⟩ := ok_of_bind h
      cases h
      rw [marks_convertTo, Overload.marks_build? (plain.1 _ _ bound) (ofCall_ok built), Term.marks,
        Typed.params, bound]
      simpa [marksAll] using renders_of_ofTyped keeps plain.2 lowered
    · rename_i o bound
      obtain ⟨e, built, h⟩ := ok_of_bind h
      cases h
      rw [marks_convertTo, Overload.marks_build? (plain.1 _ _ bound) (ofCall_ok built), Term.marks,
        Typed.params, bound]
      exact .nil _
    · cases h
  | .ident _ symbol, p, _, _, _, h => by
    unfold ofTyped at h
    split at h
    · rename_i made found
      cases h
      rw [marks_convertTo]
      exact .ident found
    · cases h
  | .literal n _, _, _, _, _, h => by
    unfold ofTyped at h
    split at h
    · obtain ⟨info, _, h⟩ := ok_of_bind h
      cases h
      rw [marks_convertTo]
      exact .nil _
    · cases h

theorem renders_of_ofArgs (keeps : catalog.KeepsOperands) : ∀ {ts : List (Term Typed)}
    {types : List Ty} {p p' : ParamSupply} {es : List Expr}, Term.BuildsNodesAll ts →
    ofArgs catalog ts types p = .ok (es, p') →
    Renders (Term.marksArgs ts types) p (marksAll es) p'
  | t :: rest, ty :: types, _, _, _, plain, h => by
    obtain ⟨⟨e, _⟩, loweredFirst, h⟩ := ok_of_bind h
    obtain ⟨⟨es, _⟩, loweredOthers, h⟩ := ok_of_bind h
    cases h
    rw [marksAll, marks_convertTo]
    exact (renders_of_ofTyped keeps plain.1 loweredFirst).append
      (renders_of_ofArgs keeps plain.2 loweredOthers)
  | [], _, _, _, _, _, h => by
    cases h
    exact .nil _
  | _ :: _, [], _, _, _, _, h => by
    cases h
    exact .nil _
end

end Expr

/-! ### The places of a query -/

namespace Term

mutual
/-- Parameters are bound where the query has lambdas. -/
theorem bound_sublist : ∀ t : Term Typed, ((bound t.marks).map Binder.symbol).Sublist t.symbols
  | .lambda _ binder body => by
    simpa [marks, symbols] using bound_sublist body
  | .binary _ _ left right => by
    simpa [marks, symbols] using (bound_sublist left).append (bound_sublist right)
  | .call n _ args => bound_sublist_args args n.params
  | .member n receiver _ => by
    unfold marks
    split
    · exact List.nil_sublist _
    · exact bound_sublist receiver
  | .ident .. => List.Sublist.refl _
  | .literal .. => List.Sublist.refl _

theorem bound_sublist_args : ∀ (ts : List (Term Typed)) (types : List Ty),
    ((bound (marksArgs ts types)).map Binder.symbol).Sublist (symbolsAll ts)
  | t :: rest, _ :: types => by
    simpa [marksArgs, symbolsAll] using (bound_sublist t).append (bound_sublist_args rest types)
  | [], _ => List.nil_sublist _
  | _ :: _, [] => List.nil_sublist _
end

mutual
/-- A use in scope stands in the lambda of its parameter, or in one that is around the whole. -/
theorem inScope_uses : ∀ {t : Term Typed} {scope : List Symbol} {around : List (Binder Typed)}
    {symbol : Symbol}, t.InScope scope → .uses around symbol ∈ t.marks →
    ∃ known ∈ around.map Binder.symbol ++ scope, known.id = symbol.id
  | .lambda _ binder body, scope, _, _, inScope, mem => by
    rcases List.mem_cons.1 mem with same | inside
    · cases same
    · obtain ⟨inner, rfl, used⟩ := uses_mem_under inside
      simpa using inScope_uses (t := body) inScope used
  | .binary _ _ left right, _, _, _, inScope, mem =>
    (List.mem_append.1 mem).elim (inScope_uses inScope.1) (inScope_uses inScope.2)
  | .call _ _ args, _, _, _, inScope, mem => inScope_uses_args args inScope mem
  | .member n receiver _, _, _, _, inScope, mem => by
    unfold marks at mem
    split at mem
    · cases mem
    · exact inScope_uses (t := receiver) inScope mem
  | .ident _ symbol, _, _, _, inScope, mem => by
    cases List.mem_singleton.1 mem
    exact inScope
  | .literal .., _, _, _, _, mem => by cases mem

theorem inScope_uses_args : ∀ (ts : List (Term Typed)) {types : List Ty} {scope : List Symbol}
    {around : List (Binder Typed)} {symbol : Symbol}, InScopeAll scope ts →
    .uses around symbol ∈ marksArgs ts types →
    ∃ known ∈ around.map Binder.symbol ++ scope, known.id = symbol.id
  | t :: rest, _ :: types, _, _, _, inScope, mem =>
    (List.mem_append.1 mem).elim (inScope_uses inScope.1) (inScope_uses_args rest inScope.2)
  | [], _, _, _, _, _, mem => by cases mem
  | _ :: _, [], _, _, _, _, mem => by cases mem
end

end Term

/-! ### Names -/

theorem Number.writeNat_injective : Function.Injective Number.writeNat := by
  intro m n same
  have read (k : Nat) : Nat.ofDigitChars 10 (Nat.toDigits 10 k) 0 = k :=
    Nat.ofDigitChars_toDigits (by decide) (by decide)
  rw [← read m, ← read n]
  exact congrArg (Nat.ofDigitChars 10 · 0) same

namespace Param

theorem letter_injective : ∀ a b : Fin 26,
    Char.ofNat ('a'.toNat + a) = Char.ofNat ('a'.toNat + b) → a = b := by
  decide

/-- The letter tells the remainder by 26 and the digits the quotient. -/
theorem nameOf_injective : Function.Injective nameOf := by
  intro m n same
  have chars := congrArg String.toList same
  simp only [nameOf, String.toList_ofList, List.cons.injEq] at chars
  obtain ⟨letters, digits⟩ := chars
  have remainders : m % 26 = n % 26 :=
    congrArg Fin.val (letter_injective ⟨m % 26, by omega⟩ ⟨n % 26, by omega⟩ letters)
  have quotients : m / 26 = n / 26 := by
    have nonempty (k : Nat) : Number.writeNat k ≠ [] := Nat.toDigits_ne_nil
    by_cases onM : m / 26 = 0 <;> by_cases onN : n / 26 = 0
    · rw [onM, onN]
    · simp [onM, onN, (nonempty _).symm] at digits
    · simp [onM, onN, nonempty] at digits
    · rw [if_neg onM, if_neg onN] at digits
      exact Nat.succ.inj (Number.writeNat_injective digits)
  omega

end Param

/-! ### Compiled queries -/

/-- The parameter that is assigned to each symbol in the end. -/
theorem ParamSupply.exists_assigned {binders : List (Binder Typed)}
    (distinct : (binders.map fun b => b.symbol.id).Nodup) :
    ∃ paramOf, (ParamSupply.start.bindAll binders).Assigned paramOf := by
  have keys := ParamSupply.start.symbols_bindAll binders
  have nodup : ((ParamSupply.start.bindAll binders).made.map fun entry => entry.1.id).Nodup := by
    rw [keys]
    simpa [ParamSupply.start] using distinct
  refine ⟨fun id => ((ParamSupply.start.bindAll binders).made.lookup ⟨id, ""⟩).getD ⟨0, "", .bool⟩,
    fun entry mem => ?_⟩
  have found : (ParamSupply.start.bindAll binders).made.lookup ⟨entry.1.id, ""⟩ = some entry.2 :=
    lookup_of_mem nodup mem rfl
  simp only [found, Option.getD_some]

theorem LambdaExpr.renders_of_ofTyped {catalog : Catalog} (keeps : catalog.KeepsOperands)
    {t : Term Typed} {l : LambdaExpr} (plain : t.BuildsNodes)
    (h : LambdaExpr.ofTyped catalog t = .ok l) : ∃ p, Renders t.marks .start l.marks p := by
  cases t with
  | lambda n binder body =>
    obtain ⟨⟨e, p⟩, lowered, h⟩ := ok_of_bind h
    cases h
    refine ⟨p, ?_⟩
    simpa [LambdaExpr.marks, Expr.marks, Term.marks] using
      (Expr.renders_of_ofTyped keeps (t := body) plain lowered).lambda
  | _ => cases h

/-- One list of places is another with a parameter in place of each symbol. The parameters of
different lambdas have different numbers, and each is named after its number. -/
structure Relabels (paramOf : Nat → Param) (source : List (Mark (Binder Typed) Symbol))
    (target : List (Mark Param Param)) : Prop where
  marks : target = source.map (.map (fun b => paramOf b.symbol.id) fun s => paramOf s.id)
  numbers : ((bound source).map fun b => (paramOf b.symbol.id).id).Nodup
  named : ∀ b ∈ bound source, (paramOf b.symbol.id).name = Param.nameOf (paramOf b.symbol.id).id
  types : ∀ b ∈ bound source, (paramOf b.symbol.id).ty = b.note.ty
  isBound : ∀ {around symbol}, .uses around symbol ∈ source →
    ∃ b ∈ bound source, b.symbol.id = symbol.id
  around : ∀ {around symbol}, .uses around symbol ∈ source → ∀ b ∈ around, b ∈ bound source

theorem Renders.relabels {source : List (Mark (Binder Typed) Symbol)}
    {target : List (Mark Param Param)} {p : ParamSupply} (h : Renders source .start target p)
    (distinct : ((bound source).map fun b => b.symbol.id).Nodup) :
    ∃ paramOf, Relabels paramOf source target := by
  obtain ⟨paramOf, assigned⟩ := ParamSupply.exists_assigned distinct
  obtain ⟨numbers, described⟩ := assigned.numbers
  rw [← h.supply] at assigned
  exact ⟨paramOf, {
    marks := h.marks assigned
    numbers := numbers ▸ List.nodup_range'
    named := fun b mem => (described b mem).1
    types := fun b mem => (described b mem).2
    isBound := h.bound_of_uses
    around := h.around }⟩

namespace Relabels

variable {paramOf : Nat → Param} {source : List (Mark (Binder Typed) Symbol)}
  {target : List (Mark Param Param)}

theorem bound_eq (h : Relabels paramOf source target) :
    bound target = (bound source).map fun b => paramOf b.symbol.id := by
  rw [h.marks, bound_map]

theorem nodup_ids (h : Relabels paramOf source target) : ((bound target).map Param.id).Nodup := by
  rw [h.bound_eq, List.map_map]
  exact h.numbers

theorem name_eq (h : Relabels paramOf source target) :
    ∀ q ∈ bound target, q.name = Param.nameOf q.id := by
  rw [h.bound_eq, List.forall_mem_map]
  exact h.named

theorem nodup_names (h : Relabels paramOf source target) :
    ((bound target).map Param.name).Nodup := by
  have names : (bound target).map Param.name = ((bound target).map Param.id).map Param.nameOf := by
    rw [List.map_map]
    exact List.map_congr_left h.name_eq
  rw [names]
  exact h.nodup_ids.map Param.nameOf_injective

/-- A use of a parameter is made from a use of a symbol. -/
theorem of_uses (h : Relabels paramOf source target) {around : List Param} {used : Param}
    (mem : .uses around used ∈ target) : ∃ binders symbol, .uses binders symbol ∈ source ∧
      paramOf symbol.id = used ∧ (binders.map fun b => paramOf b.symbol.id) = around := by
  rw [h.marks] at mem
  obtain ⟨mark, inSource, same⟩ := List.mem_map.1 mem
  cases mark with
  | binds b => cases same
  | uses binders symbol =>
    cases same
    exact ⟨binders, symbol, inSource, rfl, rfl⟩

/-- A use stands in the lambda of its parameter where it stands in the lambda of its symbol. -/
theorem mem_around_iff (h : Relabels paramOf source target) {around : List (Binder Typed)}
    {symbol : Symbol} (mem : .uses around symbol ∈ source) :
    paramOf symbol.id ∈ (around.map fun b => paramOf b.symbol.id) ↔
      ∃ b ∈ around, b.symbol.id = symbol.id := by
  obtain ⟨binder, isBound, same⟩ := h.isBound mem
  constructor
  · intro isAround
    obtain ⟨b, inside, equal⟩ := List.mem_map.1 isAround
    rw [← same] at equal
    have : b = binder := List.inj_on_of_nodup_map h.numbers (h.around mem b inside) isBound
      (congrArg Param.id equal)
    exact ⟨b, inside, this ▸ same⟩
  · rintro ⟨b, inside, equal⟩
    exact List.mem_map.2 ⟨b, inside, by rw [equal]⟩

theorem used_mem (h : Relabels paramOf source target) {around : List Param} {used : Param}
    (mem : .uses around used ∈ target) : used ∈ bound target := by
  obtain ⟨binders, symbol, inSource, rfl, -⟩ := h.of_uses mem
  obtain ⟨binder, isBound, same⟩ := h.isBound inSource
  rw [h.bound_eq, ← same]
  exact List.mem_map_of_mem isBound

/-- The lambda of a use is found by its name as by its number. -/
theorem find?_name (h : Relabels paramOf source target) {around : List Param} {used : Param}
    (mem : .uses around used ∈ target) :
    around.find? (fun p => p.name == used.name) = around.find? fun p => p.id == used.id := by
  have here := h.used_mem mem
  obtain ⟨binders, symbol, inSource, -, rfl⟩ := h.of_uses mem
  refine List.find?_congr fun q isAround => ?_
  have there : q ∈ bound target := by
    obtain ⟨b, inside, rfl⟩ := List.mem_map.1 isAround
    rw [h.bound_eq]
    exact List.mem_map_of_mem (h.around inSource b inside)
  rw [h.name_eq _ here, h.name_eq _ there, Bool.eq_iff_iff, beq_iff_eq, beq_iff_eq]
  exact Param.nameOf_injective.eq_iff

end Relabels

/-- Each symbol of a query becomes one parameter, and where the query binds or uses a symbol the
compiled query binds or uses its parameter. Numbers and names tell the parameters apart, so that
they lead from a use to the same lambda. The use of a parameter stands in the parameter's lambda if
the identifier stands in the lambda of its symbol; if all do, the compiled query is closed. -/
theorem LambdaExpr.parameters_for_symbols {catalog : Catalog} (keeps : catalog.KeepsOperands)
    {t : Term Typed} {l : LambdaExpr} (distinct : (t.symbols.map Symbol.id).Nodup)
    (plain : t.BuildsNodes) (h : LambdaExpr.ofTyped catalog t = .ok l) :
    ((bound l.marks).map Param.id).Nodup ∧ ((bound l.marks).map Param.name).Nodup ∧
    (∃ paramOf : Nat → Param,
      l.marks = t.marks.map (.map (fun b => paramOf b.symbol.id) fun s => paramOf s.id) ∧
      (∀ b ∈ bound t.marks, (paramOf b.symbol.id).ty = b.note.ty) ∧
      ∀ around symbol, .uses around symbol ∈ t.marks →
        (paramOf symbol.id ∈ (around.map fun b => paramOf b.symbol.id) ↔
          ∃ b ∈ around, b.symbol.id = symbol.id)) ∧
    (∀ around used, .uses around used ∈ l.marks → used ∈ bound l.marks ∧
      around.find? (fun p => p.name == used.name) = around.find? fun p => p.id == used.id) ∧
    (t.InScope [] → ∀ around used, .uses around used ∈ l.marks → used ∈ around) := by
  obtain ⟨p, renders⟩ := renders_of_ofTyped keeps plain h
  have distinctBound : ((bound t.marks).map fun b => b.symbol.id).Nodup := by
    have sub := (Term.bound_sublist t).map Symbol.id
    rw [List.map_map] at sub
    exact distinct.sublist sub
  obtain ⟨paramOf, relabels⟩ := renders.relabels distinctBound
  refine ⟨relabels.nodup_ids, relabels.nodup_names,
    ⟨paramOf, relabels.marks, relabels.types, fun _ _ mem => relabels.mem_around_iff mem⟩,
    fun _ _ mem => ⟨relabels.used_mem mem, relabels.find?_name mem⟩,
    fun inScope around used mem => ?_⟩
  obtain ⟨binders, symbol, inMarks, rfl, rfl⟩ := relabels.of_uses mem
  obtain ⟨known, inside, same⟩ := Term.inScope_uses inScope inMarks
  rw [List.append_nil, List.mem_map] at inside
  obtain ⟨b, isAround, rfl⟩ := inside
  exact (relabels.mem_around_iff inMarks).2 ⟨b, isAround, same⟩

/-- In `x => Second(y => y, x)` both uses stand in their lambdas. -/
theorem LambdaExpr.parameters_for_symbols_second :
    let first : Ty := .lambda [.int] .int
    let second : Overload := ⟨"Second", [.concrete first, .concrete .int], .concrete .int,
      .function ⟨"Second", .free, .argument 1⟩⟩
    let inner : Term Typed := .lambda ⟨⟨12, 18⟩, first, .none⟩ ⟨⟨1, "y"⟩, ⟨12, 13⟩, .int, .none⟩
      (.ident ⟨⟨17, 18⟩, .int, .none⟩ ⟨1, "y"⟩)
    let t : Term Typed := .lambda ⟨⟨0, 22⟩, first, .none⟩ ⟨⟨0, "x"⟩, ⟨0, 1⟩, .int, .none⟩
      (.call ⟨⟨5, 22⟩, .int, .function second [first, .int]⟩ "Second"
        [inner, .ident ⟨⟨20, 21⟩, .int, .none⟩ ⟨0, "x"⟩])
    Schema.empty.catalog.KeepsOperands ∧ (t.symbols.map Symbol.id).Nodup ∧ t.BuildsNodes ∧
    ∃ l, LambdaExpr.ofTyped Schema.empty.catalog t = .ok l ∧
      ((bound l.marks).map Param.name).Nodup ∧
      ∀ around used, .uses around used ∈ l.marks → used ∈ around := by
  intro first second inner t
  have keeps := Schema.empty.catalog_keepsOperands
  have distinct : (t.symbols.map Symbol.id).Nodup := by decide
  have plain : t.BuildsNodes := by
    refine ⟨fun o params same build => ?_, trivial, trivial, trivial⟩
    cases same
    intro isCustom
    cases isCustom
  have inScope : t.InScope [] :=
    ⟨⟨_, List.mem_cons_self, rfl⟩, ⟨_, List.mem_cons_self, rfl⟩, trivial⟩
  obtain ⟨l, lowered⟩ : ∃ l, LambdaExpr.ofTyped Schema.empty.catalog t = .ok l := ⟨_, rfl⟩
  obtain ⟨-, names, -, -, closed⟩ := LambdaExpr.parameters_for_symbols keeps distinct plain lowered
  exact ⟨keeps, distinct, plain, l, lowered, names, closed inScope⟩

/-- In `x => Second(y => y, y)` the last identifier becomes a parameter outside its lambda. -/
theorem LambdaExpr.parameter_escapes :
    let first : Ty := .lambda [.int] .int
    let second : Overload := ⟨"Second", [.concrete first, .concrete .int], .concrete .int,
      .function ⟨"Second", .free, .argument 1⟩⟩
    let inner : Term Typed := .lambda ⟨⟨12, 18⟩, first, .none⟩ ⟨⟨1, "y"⟩, ⟨12, 13⟩, .int, .none⟩
      (.ident ⟨⟨17, 18⟩, .int, .none⟩ ⟨1, "y"⟩)
    let t : Term Typed := .lambda ⟨⟨0, 22⟩, first, .none⟩ ⟨⟨0, "x"⟩, ⟨0, 1⟩, .int, .none⟩
      (.call ⟨⟨5, 22⟩, .int, .function second [first, .int]⟩ "Second"
        [inner, .ident ⟨⟨20, 21⟩, .int, .none⟩ ⟨1, "y"⟩])
    (t.symbols.map Symbol.id).Nodup ∧ ∃ l, LambdaExpr.ofTyped Schema.empty.catalog t = .ok l ∧
      ∃ around used, .uses around used ∈ l.marks ∧ used ∉ around := by
  intro first second inner t
  exact ⟨by decide, _, rfl, _, _, .tail _ (.tail _ (.tail _ (.head _))), by decide⟩

end LambdaQuery
