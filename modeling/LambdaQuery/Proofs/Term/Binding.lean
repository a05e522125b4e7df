import LambdaQuery.Proofs.Inference.Binders
import LambdaQuery.Proofs.Token.Places
import Mathlib

/-!
# What identifiers stand for

An identifier of a query that was read from a text stands for the innermost lambda around it whose
parameter has the name that is written there, and no two lambdas bind the same symbol. The name
that is written is the one identifier of the text in the stretch of the node, since parentheses
around an identifier widen its stretch by nothing that is a name.
-/

namespace LambdaQuery

namespace Term

section At

variable {α : Type}

/-- A node of a tree, with the parameters of the lambdas around it, the innermost first. -/
inductive At : (around : List (Binder α)) → (node : Term α) → (tree : Term α) → Prop
  | here {t : Term α} : At [] t t
  | body {around : List (Binder α)} {node body : Term α} {note : α} {param : Binder α} :
    At around node body → At (around ++ [param]) node (.lambda note param body)
  | left {around : List (Binder α)} {node left right : Term α} {note : α} {op : Operator} :
    At around node left → At around node (.binary note op left right)
  | right {around : List (Binder α)} {node left right : Term α} {note : α} {op : Operator} :
    At around node right → At around node (.binary note op left right)
  | argument {around : List (Binder α)} {node arg : Term α} {note : α} {name : String}
    {args : List (Term α)} : arg ∈ args → At around node arg → At around node (.call note name args)
  | receiver {around : List (Binder α)} {node receiver : Term α} {note : α} {name : String} :
    At around node receiver → At around node (.member note receiver name)

variable {around : List (Binder α)} {node t : Term α}

/-- A tree under another note has the same nodes but for its root. -/
theorem At.of_withNote {note : α} (h : At around node (t.withNote note)) :
    node = t.withNote note ∨ At around node t := by
  cases t with
  | lambda _ _ _ =>
    rcases h with _ | inBody
    · exact .inl rfl
    · exact .inr (.body inBody)
  | binary _ _ _ _ =>
    rcases h with _ | _ | inLeft | inRight
    · exact .inl rfl
    · exact .inr (.left inLeft)
    · exact .inr (.right inRight)
  | call _ _ _ =>
    rcases h with _ | _ | _ | _ | ⟨isArg, inArg⟩
    · exact .inl rfl
    · exact .inr (.argument isArg inArg)
  | member _ _ _ =>
    rcases h with _ | _ | _ | _ | _ | inReceiver
    · exact .inl rfl
    · exact .inr (.receiver inReceiver)
  | ident _ _ =>
    cases h
    exact .inl rfl
  | literal _ _ =>
    cases h
    exact .inl rfl

end At

/-- Where a node names a parameter, and which: the one it uses, or the one it binds. -/
def mention? : Term Span → Option (Span × Symbol)
  | lambda _ param _ => some (param.note, param.symbol)
  | ident span symbol => some (span, symbol)
  | binary .. | call .. | member .. | literal .. => none

/-- The names among tokens. -/
def identifiers (ts : List Token) : List String :=
  (ts.filter fun t => decide (t.kind = .ident)).map Token.text

/-- The names in a stretch of a text. -/
def namesIn (text : String) (span : Span) : List String :=
  identifiers ((Tokens.ofText text).significant.words.filter fun t => span.contains t.span)

theorem identifiers_name {name : Token} (isIdent : name.kind = .ident) :
    identifiers [name] = [name.text] := by
  simp [identifiers, isIdent]

theorem identifiers_enclosed {opening closing : Token} (ts : List Token)
    (opens : opening.kind = .lparen) (closes : closing.kind = .rparen) :
    identifiers (opening :: (ts ++ [closing])) = identifiers ts := by
  simp [identifiers, opens, closes]

/-- Of the tokens those in the stretch have one name. -/
def Names (ts : List Token) (span : Span) (name : String) : Prop :=
  ∃ front piece back, ts = front ++ piece ++ back ∧ Token.Cover piece span ∧
    identifiers piece = [name]

theorem Names.before {ts : List Token} {span : Span} {name : String} (h : Names ts span name)
    (others : List Token) : Names (others ++ ts) span name := by
  obtain ⟨front, piece, back, rfl, covers, isName⟩ := h
  exact ⟨others ++ front, piece, back, by simp, covers, isName⟩

theorem Names.behind {ts : List Token} {span : Span} {name : String} (h : Names ts span name)
    (others : List Token) : Names (ts ++ others) span name := by
  obtain ⟨front, piece, back, rfl, covers, isName⟩ := h
  exact ⟨front, piece, back ++ others, by simp, covers, isName⟩

theorem Names.namesIn {text : String} {span : Span} {name : String}
    (h : Names (Tokens.ofText text).significant.words span name) : namesIn text span = [name] := by
  obtain ⟨front, piece, back, isWords, covers, isName⟩ := h
  have inPlace := Tokens.inPlace_ofText text
  rw [isWords] at inPlace
  rw [Term.namesIn, isWords, inPlace.filter_contains covers, isName]

namespace Grammar

variable {around : List (Binder Span)} {node : Term Span} {span : Span} {symbol : Symbol}

/-- Operators are no identifier. -/
theorem eq_ident_of_fold {first : Term Span} {chain : Chain}
    (h : fold first chain = .ident span symbol) : chain = [] ∧ first = .ident span symbol := by
  cases isSplit : weakest? chain with
  | none =>
    rw [eq_nil_of_weakest? isSplit, fold_nil] at h
    exact ⟨eq_nil_of_weakest? isSplit, h⟩
  | some split =>
    obtain ⟨before, ⟨op, operand⟩, behind⟩ := split
    obtain ⟨rfl, notWeaker, stronger⟩ := of_weakest? isSplit
    rw [fold_append first notWeaker stronger] at h
    cases h

theorem eq_ident_of_withNote {t : Term Span} {note : Span}
    (h : t.withNote note = .ident span symbol) : ∃ inner, t = .ident inner symbol := by
  cases t with
  | ident inner _ =>
    cases h
    exact ⟨inner, rfl⟩
  | _ => cases h

mutual
/-- A query that is a parameter has one name in it, that of the parameter. -/
theorem Query.identifiers_of_ident : ∀ {scope : Scope} {ts : List Token} {t : Term Span}
    {span : Span} {symbol : Symbol}, Query scope ts t → t = .ident span symbol →
    identifiers ts = [symbol.name]
  | _, _, _, _, _, .lambda _ _ _ _, h => by cases h
  | _, _, _, _, _, .expression first chain, h => by
    obtain ⟨noChain, isIdent⟩ := eq_ident_of_fold h
    subst noChain
    cases chain
    rw [List.append_nil]
    exact first.identifiers_of_ident isIdent

theorem Operand.identifiers_of_ident : ∀ {scope : Scope} {ts : List Token} {t : Term Span}
    {span : Span} {symbol : Symbol}, Operand scope ts t → t = .ident span symbol →
    identifiers ts = [symbol.name]
  | _, _, _, _, _, .paren opens inner closes, h => by
    obtain ⟨innerSpan, isIdent⟩ := eq_ident_of_withNote h
    rw [identifiers_enclosed _ opens closes]
    exact inner.identifiers_of_ident isIdent
  | _, _, _, _, _, .parameter isIdent _ found, h => by
    cases h
    have sameName := List.find?_some found
    rw [identifiers_name isIdent, beq_iff_eq.1 sameName]
  | _, _, _, _, _, .call _ _ _ _ _, h => by cases h
  | _, _, _, _, _, .literal _, h => by cases h
  | _, _, _, _, _, .negative _ _, h => by cases h
  | _, _, _, _, _, .truth _ _, h => by cases h
  | _, _, _, _, _, .null _ _, h => by cases h
  | _, _, _, _, _, .member _ _ _, h => by cases h
end

/-- What names a parameter among operands with operators between them is in one of them. -/
theorem at_fold {first : Term Span} {chain : Chain} {mention : Span × Symbol}
    (h : At around node (fold first chain)) (names : node.mention? = some mention) :
    At around node first ∨ ∃ link ∈ chain, At around node link.2 := by
  fun_induction fold first chain with
  | case1 first chain isNone => exact .inl h
  | case2 first chain before op operand behind isSplit left right onLeft onRight =>
    obtain ⟨rfl, _, _⟩ := of_weakest? isSplit
    rcases h with _ | _ | inLeft | inRight
    · cases names
    · rcases onLeft inLeft with inFirst | ⟨link, mem, inLink⟩
      · exact .inl inFirst
      · exact .inr ⟨link, by simp [mem], inLink⟩
    · rcases onRight inRight with inOperand | ⟨link, mem, inLink⟩
      · exact .inr ⟨(op, operand), by simp, inOperand⟩
      · exact .inr ⟨link, by simp [mem], inLink⟩

/-- Every node that names a parameter stands where the tokens have that name. -/
def Named (ts : List Token) (t : Term Span) : Prop :=
  ∀ (around : List (Binder Span)) (node : Term Span) (span : Span) (symbol : Symbol),
    At around node t → node.mention? = some (span, symbol) → Names ts span symbol.name

theorem Named.before {ts : List Token} {t : Term Span} (h : Named ts t) (others : List Token) :
    Named (others ++ ts) t :=
  fun _ _ _ _ place names => (h _ _ _ _ place names).before others

theorem Named.behind {ts : List Token} {t : Term Span} (h : Named ts t) (others : List Token) :
    Named (ts ++ others) t :=
  fun _ _ _ _ place names => (h _ _ _ _ place names).behind others

theorem named_literal (ts : List Token) (span : Span) (text : Option String) :
    Named ts (.literal span text) := by
  intro around node _ _ place names
  cases place
  cases names

/-- Parentheses around a query widen the stretch of its root, and bring no name. -/
theorem Query.named_enclosed {scope : Scope} {ts : List Token} {t : Term Span}
    {opening closing : Token} (query : Query scope ts t) (opens : opening.kind = .lparen)
    (closes : closing.kind = .rparen) (inner : Named ts t) :
    Named (opening :: (ts ++ [closing])) (t.withNote ⟨opening.span.start, closing.span.stop⟩) := by
  have inside : Named (opening :: (ts ++ [closing])) t := (inner.behind [closing]).before [opening]
  intro around node span symbol place names
  rcases place.of_withNote with rfl | inInner
  · cases t with
    | lambda _ _ _ => exact inside _ _ _ _ .here names
    | ident _ _ =>
      cases names
      refine ⟨[], _, [], by simp, Token.cover_enclosed opening closing ts, ?_⟩
      rw [identifiers_enclosed _ opens closes]
      exact query.identifiers_of_ident rfl
    | _ => cases names
  · exact inside _ _ _ _ inInner names

mutual
/-- A query names its parameters where they are written. -/
theorem Query.named : ∀ {scope : Scope} {ts : List Token} {t : Term Span},
    Query scope ts t → Named ts t
  | _, _, _, .lambda isIdent _ _ body => by
    intro around node span symbol place names
    rcases place with _ | inBody
    · cases names
      exact ⟨[], [_], _, rfl, Token.cover_singleton _, identifiers_name isIdent⟩
    · exact (body.named _ _ _ _ inBody names).before [_, _]
  | _, _, _, .expression first chain => by
    intro around node span symbol place names
    rcases at_fold place names with inFirst | ⟨link, mem, inLink⟩
    · exact (first.named _ _ _ _ inFirst names).behind _
    · exact (chain.named link mem _ _ _ _ inLink names).before _

theorem Operations.named : ∀ {scope : Scope} {ts : List Token} {chain : Chain},
    Operations scope ts chain → ∀ link ∈ chain, Named ts link.2
  | _, _, _, .nil => by simp
  | _, _, _, .cons _ operand rest => by
    refine List.forall_mem_cons.2 ⟨(operand.named.behind _).before [_], ?_⟩
    intro link mem
    exact ((rest.named link mem).before _).before [_]

theorem Operand.named : ∀ {scope : Scope} {ts : List Token} {t : Term Span},
    Operand scope ts t → Named ts t
  | _, _, _, .paren opens inner closes => inner.named_enclosed opens closes inner.named
  | _, _, _, .call _ _ _ args _ => by
    intro around node span symbol place names
    rcases place with _ | _ | _ | _ | ⟨isArg, inArg⟩
    · cases names
    · exact ((args.named _ isArg _ _ _ _ inArg names).behind [_]).before [_, _]
  | _, _, _, .parameter isIdent _ found => by
    intro around node span symbol place names
    cases place
    cases names
    have sameName := List.find?_some found
    refine ⟨[], [_], [], rfl, Token.cover_singleton _, ?_⟩
    rw [identifiers_name isIdent, beq_iff_eq.1 sameName]
  | _, _, _, .literal _ => named_literal _ _ _
  | _, _, _, .negative _ _ => named_literal _ _ _
  | _, _, _, .truth _ _ => named_literal _ _ _
  | _, _, _, .null _ _ => named_literal _ _ _
  | _, _, _, .member receiver _ _ => by
    intro around node span symbol place names
    rcases place with _ | _ | _ | _ | _ | inReceiver
    · cases names
    · exact (receiver.named _ _ _ _ inReceiver names).behind _

theorem Arguments.named : ∀ {scope : Scope} {ts : List Token} {args : List (Term Span)},
    Arguments scope ts args → ∀ arg ∈ args, Named ts arg
  | _, _, _, .none => by simp
  | _, _, _, .last arg => List.forall_mem_singleton.2 arg.named
  | _, _, _, .more arg _ rest => by
    refine List.forall_mem_cons.2 ⟨arg.named.behind _, ?_⟩
    intro other mem
    exact ((rest.named other mem).before [_]).before _
end

end Grammar

end Term

open Term

/-- Every argument of a scoped call is scoped. -/
theorem ScopedAll.of_mem {scope : Scope} {low high : Nat} {args : List (Term Span)}
    {arg : Term Span} (h : ScopedAll scope low args high) (mem : arg ∈ args) :
    ∃ low' high', Scoped scope low' arg high' := by
  induction args generalizing low with
  | nil => cases mem
  | cons first rest ih =>
    obtain _ | ⟨onFirst, onRest⟩ := h
    rcases List.mem_cons.1 mem with rfl | inRest
    · exact ⟨_, _, onFirst⟩
    · exact ih onRest inRest

/-- A node of a scoped tree is in the scope of the parameters around it. -/
theorem Scoped.at {scope : Scope} {low high : Nat} {t node : Term Span}
    {around : List (Binder Span)} (h : Scoped scope low t high) (place : At around node t) :
    ∃ low' high', Scoped (around.map Binder.symbol ++ scope) low' node high' := by
  induction place generalizing scope low high with
  | here => exact ⟨low, high, h⟩
  | body _ ih =>
    obtain ⟨_, _, onBody⟩ := h
    simpa using ih onBody
  | left _ ih =>
    obtain _ | ⟨onLeft, _⟩ := h
    exact ih onLeft
  | right _ ih =>
    obtain _ | ⟨_, onRight⟩ := h
    exact ih onRight
  | argument isArg _ ih =>
    obtain _ | _ | ⟨_, onArgs⟩ := h
    obtain ⟨_, _, onArg⟩ := onArgs.of_mem isArg
    exact ih onArg
  | receiver _ ih =>
    obtain _ | _ | _ | ⟨_, onReceiver⟩ := h
    exact ih onReceiver

/-- An identifier stands for the innermost parameter of its name around it. -/
theorem Scoped.innermost {low high : Nat} {t : Term Span} {span : Span} {symbol : Symbol}
    {around : List (Binder Span)} (h : Scoped [] low t high)
    (place : At around (.ident span symbol) t) :
    (around.find? fun p => p.symbol.name == symbol.name).map Binder.symbol = some symbol := by
  obtain ⟨_, _, onIdent⟩ := h.at place
  cases onIdent with
  | ident found =>
    rw [List.append_nil, Scope.find?, List.find?_map] at found
    exact found

/-- Every identifier stands for the innermost lambda around it whose parameter has the name that is
written there, each lambda binds the name that is written at its parameter, and no two lambdas
bind the same symbol. -/
theorem identifiers_bound_innermost {limit : Nat} {text : String} {t : Term Span}
    (read : Term.ofText limit text = .ok t) :
    (∀ {around : List (Binder Span)} {span : Span} {symbol : Symbol},
      At around (.ident span symbol) t → ∃ name, namesIn text span = [name] ∧
        (around.find? fun p => p.symbol.name == name).map Binder.symbol = some symbol) ∧
    (∀ {around : List (Binder Span)} {span : Span} {param : Binder Span} {body : Term Span},
      At around (.lambda span param body) t → namesIn text param.note = [param.symbol.name]) ∧
    (t.symbols.map Symbol.id).Nodup := by
  obtain ⟨high, inScope⟩ := Term.scoped_of_ofText read
  have named := (Term.query_of_ofText read).named
  refine ⟨?_, ?_, inScope.symbols_rising.nodup⟩
  · intro around span symbol place
    exact ⟨symbol.name, (named _ _ _ _ place rfl).namesIn, inScope.innermost place⟩
  · intro around span param body place
    exact (named _ _ _ _ place rfl).namesIn

theorem identifiers_bound_innermost_shadowed :
    let text := "x => F(X => (x), x => x)"
    let first := ⟨⟨0, "x"⟩, ⟨0, 1⟩⟩
    let second := ⟨⟨7, "X"⟩, ⟨7, 8⟩⟩
    let third := ⟨⟨17, "x"⟩, ⟨17, 18⟩⟩
    let t := .lambda ⟨0, 24⟩ first (.call ⟨5, 24⟩ "F" [
      .lambda ⟨7, 15⟩ second (.ident ⟨12, 15⟩ ⟨0, "x"⟩),
      .lambda ⟨17, 23⟩ third (.ident ⟨22, 23⟩ ⟨17, "x"⟩)])
    Term.ofText 8 text = .ok t ∧
      -- the parameter of the second lambda is spelled differently, that of the third hides the first
      (At [second, first] (.ident ⟨12, 15⟩ ⟨0, "x"⟩) t ∧
        ∃ name, namesIn text ⟨12, 15⟩ = [name] ∧
          ([second, first].find? fun p => p.symbol.name == name).map Binder.symbol =
            some ⟨0, "x"⟩) ∧
      At [third, first] (.ident ⟨22, 23⟩ ⟨17, "x"⟩) t ∧
        ∃ name, namesIn text ⟨22, 23⟩ = [name] ∧
          ([third, first].find? fun p => p.symbol.name == name).map Binder.symbol =
            some ⟨17, "x"⟩ := by
  intro text first second third t
  have read : Term.ofText 8 text = .ok t := by cbv
  have inSecond : At [second, first] (.ident ⟨12, 15⟩ ⟨0, "x"⟩) t :=
    .body (.argument (.head _) (.body .here))
  have inThird : At [third, first] (.ident ⟨22, 23⟩ ⟨17, "x"⟩) t :=
    .body (.argument (.tail _ (.head _)) (.body .here))
  obtain ⟨atIdentifiers, -, -⟩ := identifiers_bound_innermost read
  exact ⟨read, ⟨inSecond, atIdentifiers inSecond⟩, inThird, atIdentifiers inThird⟩

end LambdaQuery
