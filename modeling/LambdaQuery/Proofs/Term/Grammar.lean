import LambdaQuery.Term.Parser

/-!
# The grammar of queries

Which sequences of tokens are a query, in the scope of which parameters, and of which tree. Operands
with operators between them are put together by splitting at the last of the operators that bind the
weakest, and the same on both sides of it.
-/

namespace LambdaQuery

namespace Term

namespace Grammar

/-- Operators, each with the operand behind it. -/
abbrev Chain := List (Operator × Term Span)

/-- The last of the operators that bind the weakest, with what is before it and behind it. -/
def weakest? : Chain → Option (Chain × (Operator × Term Span) × Chain)
  | [] => none
  | link :: chain =>
    match weakest? chain with
    | none => some ([], link, [])
    | some (before, last, behind) =>
      if link.1.precedence < last.1.precedence then some ([], link, chain)
      else some (link :: before, last, behind)

theorem eq_nil_of_weakest? {chain : Chain} (h : weakest? chain = none) : chain = [] := by
  cases chain with
  | nil => rfl
  | cons link chain =>
    rw [weakest?] at h
    split at h
    · cases h
    · split at h <;> cases h

/-- No operator before the split binds weaker, and all behind it bind stronger. -/
theorem of_weakest? {chain before behind : Chain} {last : Operator × Term Span}
    (h : weakest? chain = some (before, last, behind)) :
    chain = before ++ last :: behind ∧
      (∀ link ∈ before, last.1.precedence ≤ link.1.precedence) ∧
      ∀ link ∈ behind, last.1.precedence < link.1.precedence := by
  induction chain generalizing before behind last with
  | nil => cases h
  | cons first chain ih =>
    rw [weakest?] at h
    split at h
    · rename_i isNone
      cases h
      simp [eq_nil_of_weakest? isNone]
    · rename_i before' last' behind' isSome
      obtain ⟨rfl, notWeaker, stronger⟩ := ih isSome
      split at h
      · rename_i weaker
        cases h
        refine ⟨rfl, by simp, fun link mem => ?_⟩
        rcases List.mem_append.1 mem with inBefore | inRest
        · exact Nat.lt_of_lt_of_le weaker (notWeaker link inBefore)
        · rcases List.mem_cons.1 inRest with rfl | inBehind
          · exact weaker
          · exact Nat.lt_trans weaker (stronger link inBehind)
      · rename_i notWeaker'
        cases h
        refine ⟨rfl, fun link mem => ?_, stronger⟩
        rcases List.mem_cons.1 mem with rfl | inBefore
        · exact Nat.not_lt.1 notWeaker'
        · exact notWeaker link inBefore

theorem weakest?_of_stronger {behind : Chain} {last : Operator × Term Span}
    (stronger : ∀ link ∈ behind, last.1.precedence < link.1.precedence) :
    weakest? (last :: behind) = some ([], last, behind) := by
  rw [weakest?]
  split
  · rename_i isNone
    rw [eq_nil_of_weakest? isNone]
  · rename_i before' last' behind' isSome
    obtain ⟨rfl, -, -⟩ := of_weakest? isSome
    rw [if_pos (stronger last' (by simp))]

/-- There is one such split. -/
theorem weakest?_append {before behind : Chain} {last : Operator × Term Span}
    (notWeaker : ∀ link ∈ before, last.1.precedence ≤ link.1.precedence)
    (stronger : ∀ link ∈ behind, last.1.precedence < link.1.precedence) :
    weakest? (before ++ last :: behind) = some (before, last, behind) := by
  induction before with
  | nil => exact weakest?_of_stronger stronger
  | cons link before ih =>
    have onRest := ih fun other mem => notWeaker other (List.mem_cons_of_mem _ mem)
    have ge := notWeaker link List.mem_cons_self
    rw [List.cons_append, weakest?, onRest]
    exact if_neg (Nat.not_lt.2 ge)

theorem length_of_weakest? {chain before behind : Chain} {last : Operator × Term Span}
    (h : weakest? chain = some (before, last, behind)) :
    before.length < chain.length ∧ behind.length < chain.length := by
  obtain ⟨rfl, -, -⟩ := of_weakest? h
  simp only [List.length_append, List.length_cons]
  omega

/-- The tree of an operand with operators and operands behind it. -/
def fold (first : Term Span) (chain : Chain) : Term Span :=
  match _isSplit : weakest? chain with
  | none => first
  | some (before, (op, operand), behind) =>
    let left := fold first before
    let right := fold operand behind
    .binary (left.note.merge right.note) op left right
termination_by chain.length
decreasing_by
  · exact (length_of_weakest? _isSplit).1
  · exact (length_of_weakest? _isSplit).2

@[simp] theorem fold_nil (first : Term Span) : fold first [] = first := by
  rw [fold, weakest?]

theorem fold_append {before behind : Chain} {op : Operator} {operand : Term Span}
    (first : Term Span) (notWeaker : ∀ link ∈ before, op.precedence ≤ link.1.precedence)
    (stronger : ∀ link ∈ behind, op.precedence < link.1.precedence) :
    fold first (before ++ (op, operand) :: behind) =
      .binary ((fold first before).note.merge (fold operand behind).note) op (fold first before)
        (fold operand behind) := by
  rw [fold]
  split
  · rename_i isNone
    rw [weakest?_append notWeaker stronger] at isNone
    cases isNone
  · rename_i isSome
    rw [weakest?_append notWeaker stronger] at isSome
    cases isSome
    rfl

theorem precedence_le_of_head {chain before behind : Chain} {last : Operator × Term Span} {p : Nat}
    (isSplit : chain = before ++ last :: behind)
    (notWeaker : ∀ link ∈ before, last.1.precedence ≤ link.1.precedence)
    (head : ∀ link ∈ chain.head?, link.1.precedence ≤ p) :
    last.1.precedence ≤ p ∧ ∀ link ∈ before.head?, link.1.precedence ≤ p := by
  subst isSplit
  cases before with
  | nil => exact ⟨head last rfl, by simp⟩
  | cons link before =>
    have := head link rfl
    have := notWeaker link List.mem_cons_self
    refine ⟨by omega, head⟩

/-- An operator takes its right operand up to the first operator that does not bind stronger than
itself, and what it builds is the left operand of the rest. -/
theorem fold_cons (left : Term Span) {op : Operator} {operand : Term Span} {inner chain : Chain}
    (stronger : ∀ link ∈ inner, op.precedence < link.1.precedence)
    (head : ∀ link ∈ chain.head?, link.1.precedence ≤ op.precedence) :
    fold left ((op, operand) :: (inner ++ chain)) =
      fold (.binary (left.note.merge (fold operand inner).note) op left (fold operand inner))
        chain := by
  induction isLength : chain.length using Nat.strongRecOn generalizing chain with
  | ind length ih =>
    subst isLength
    cases isSplit : weakest? chain with
    | none =>
      rw [eq_nil_of_weakest? isSplit, List.append_nil, fold_nil, ← List.nil_append (_ :: inner),
        fold_append left (by simp) stronger, fold_nil]
    | some split =>
      -- the weakest operator of the rest is the weakest of all, since its head is not stronger
      -- than `op`, and `op` not stronger than what is between them
      obtain ⟨before, ⟨last, right⟩, behind⟩ := split
      obtain ⟨shorter, -⟩ := length_of_weakest? isSplit
      obtain ⟨isSplit, notWeaker, stronger'⟩ := of_weakest? isSplit
      obtain ⟨lastLe, head'⟩ := precedence_le_of_head isSplit notWeaker head
      have notWeaker' : ∀ link ∈ (op, operand) :: (inner ++ before),
          last.precedence ≤ link.1.precedence := by
        intro link mem
        rcases List.mem_cons.1 mem with rfl | mem
        · exact lastLe
        · rcases List.mem_append.1 mem with inInner | inBefore
          · exact Nat.le_trans lastLe (Nat.le_of_lt (stronger link inInner))
          · exact notWeaker link inBefore
      have onBefore := ih before.length shorter head' rfl
      have whole : (op, operand) :: (inner ++ chain) =
          ((op, operand) :: (inner ++ before)) ++ (last, right) :: behind := by
        simp [isSplit]
      rw [whole, fold_append left notWeaker' stronger', onBefore, isSplit,
        fold_append _ notWeaker stronger']

mutual
/-- The tokens are a query. -/
inductive Query : Scope → List Token → Term Span → Prop
  | lambda {scope : Scope} {name arrow : Token} {ts : List Token} {body : Term Span} :
    name.kind = .ident → isLiteralKeyword name.text = false → arrow.kind = .arrow →
      Query (⟨name.span.start, name.text⟩ :: scope) ts body →
      Query scope (name :: arrow :: ts) (.lambda ⟨name.span.start, body.note.stop⟩
        ⟨⟨name.span.start, name.text⟩, name.span⟩ body)
  | expression {scope : Scope} {ts ts' : List Token} {first : Term Span} {chain : Chain} :
    Operand scope ts first → Operations scope ts' chain →
      Query scope (ts ++ ts') (fold first chain)

/-- The tokens are operators, each with an operand behind it. -/
inductive Operations : Scope → List Token → Chain → Prop
  | nil {scope : Scope} : Operations scope [] []
  | cons {scope : Scope} {sign : Token} {op : Operator} {ts ts' : List Token}
    {operand : Term Span} {chain : Chain} : sign.kind.operator? = some op →
      Operand scope ts operand → Operations scope ts' chain →
      Operations scope (sign :: (ts ++ ts')) ((op, operand) :: chain)

/-- The tokens are an operand with the members read of it. -/
inductive Operand : Scope → List Token → Term Span → Prop
  | paren {scope : Scope} {opening closing : Token} {ts : List Token} {inner : Term Span} :
    opening.kind = .lparen → Query scope ts inner → closing.kind = .rparen →
      Operand scope (opening :: (ts ++ [closing]))
        (inner.withNote ⟨opening.span.start, closing.span.stop⟩)
  | call {scope : Scope} {name opening closing : Token} {ts : List Token}
    {args : List (Term Span)} : name.kind = .ident → isLiteralKeyword name.text = false →
      opening.kind = .lparen → Arguments scope ts args → closing.kind = .rparen →
      Operand scope (name :: opening :: (ts ++ [closing]))
        (.call ⟨name.span.start, closing.span.stop⟩ name.text args)
  | parameter {scope : Scope} {name : Token} {symbol : Symbol} : name.kind = .ident →
      isLiteralKeyword name.text = false → scope.find? name.text = some symbol →
      Operand scope [name] (.ident name.span symbol)
  | literal {scope : Scope} {value : Token} : value.kind = .number ∨ value.kind = .string →
      Operand scope [value] (.literal value.span (some value.text))
  | negative {scope : Scope} {sign number : Token} : sign.kind = .minus →
      number.kind = .number → Operand scope [sign, number]
        (.literal (sign.span.merge number.span) (some ("-" ++ number.text)))
  | truth {scope : Scope} {word : Token} : word.kind = .ident →
      word.text = "true" ∨ word.text = "false" →
      Operand scope [word] (.literal word.span (some word.text))
  | null {scope : Scope} {word : Token} : word.kind = .ident → word.text = "null" →
      Operand scope [word] (.literal word.span none)
  | member {scope : Scope} {ts : List Token} {dot name : Token} {receiver : Term Span} :
    Operand scope ts receiver → dot.kind = .dot → name.kind = .ident →
      Operand scope (ts ++ [dot, name])
        (.member ⟨receiver.note.start, name.span.stop⟩ receiver name.text)

/-- The tokens are queries with commas between them. -/
inductive Arguments : Scope → List Token → List (Term Span) → Prop
  | none {scope : Scope} : Arguments scope [] []
  | last {scope : Scope} {ts : List Token} {arg : Term Span} : Query scope ts arg →
      Arguments scope ts [arg]
  | more {scope : Scope} {ts ts' : List Token} {comma : Token} {arg next : Term Span}
    {args : List (Term Span)} : Query scope ts arg → comma.kind = .comma →
      Arguments scope ts' (next :: args) →
      Arguments scope (ts ++ comma :: ts') (arg :: next :: args)
end

theorem Operations.append {scope : Scope} {ts' : List Token} {chain' : Chain}
    (others : Operations scope ts' chain') : ∀ {ts : List Token} {chain : Chain},
    Operations scope ts chain → Operations scope (ts ++ ts') (chain ++ chain')
  | _, _, .nil => others
  | _, _, .cons isOperator operand rest => by
    rw [List.cons_append, List.append_assoc]
    exact .cons isOperator operand (append others rest)

end Grammar

end Term

end LambdaQuery
