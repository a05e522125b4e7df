import LambdaQuery.Proofs.Inference.Layout

/-!
# Operands that change places

When the operands of an equality change places, so do the slots below them, and all other nodes keep
theirs. The two operands share no slot but those of parameters that are bound outside of both.
-/

namespace LambdaQuery

namespace Term

section

variable {α : Type}

/-- An operand that is a parameter, or that uses no parameter from outside but that of the query. -/
def Separate (root : Option Symbol) (t : Term α) : Prop :=
  t.tag = .ident ∨ t.InScope root.toList

mutual
/-- The operands of an equality somewhere in a tree have changed places. `root` is the parameter of
the query, if the tree is inside it, and `P` is what holds of it and of the operands. -/
inductive ExchangedWhere (P : Option Symbol → Term α → Term α → Prop) :
    Option Symbol → Term α → Term α → Prop
  | here {root : Option Symbol} {note : α} {op : Operator} {left right : Term α}
    (isEquality : op.kind = .equality) (holds : P root left right) :
    ExchangedWhere P root (.binary note op left right) (.binary note op right left)
  | body {root : Option Symbol} {note : α} {param : Binder α} {body body' : Term α}
    (inside : ExchangedWhere P (root.or (some param.symbol)) body body') :
    ExchangedWhere P root (.lambda note param body) (.lambda note param body')
  | left {root : Option Symbol} {note : α} {op : Operator} {left left' right : Term α}
    (inside : ExchangedWhere P root left left') :
    ExchangedWhere P root (.binary note op left right) (.binary note op left' right)
  | right {root : Option Symbol} {note : α} {op : Operator} {left right right' : Term α}
    (inside : ExchangedWhere P root right right') :
    ExchangedWhere P root (.binary note op left right) (.binary note op left right')
  | args {root : Option Symbol} {note : α} {name : String} {args args' : List (Term α)}
    (inside : ExchangedWhereAll P root args args') :
    ExchangedWhere P root (.call note name args) (.call note name args')
  | receiver {root : Option Symbol} {note : α} {receiver receiver' : Term α} {name : String}
    (inside : ExchangedWhere P root receiver receiver') :
    ExchangedWhere P root (.member note receiver name) (.member note receiver' name)

inductive ExchangedWhereAll (P : Option Symbol → Term α → Term α → Prop) :
    Option Symbol → List (Term α) → List (Term α) → Prop
  | head {root : Option Symbol} {t t' : Term α} {rest : List (Term α)}
    (inside : ExchangedWhere P root t t') : ExchangedWhereAll P root (t :: rest) (t' :: rest)
  | tail {root : Option Symbol} {t : Term α} {rest rest' : List (Term α)}
    (inside : ExchangedWhereAll P root rest rest') :
    ExchangedWhereAll P root (t :: rest) (t :: rest')
end

/-- A query in which the operands of an equality have changed places, one of which is separate. -/
abbrev Exchanged : Term α → Term α → Prop :=
  ExchangedWhere (fun root left right => left.Separate root ∨ right.Separate root) none

/-- It is the second operand that is separate. -/
abbrev SecondSeparate (root : Option Symbol) (_ right : Term α) : Prop :=
  right.Separate root

mutual
/-- One of the two trees has the separate operand behind the other. -/
theorem ExchangedWhere.oriented : ∀ {root : Option Symbol} {t t' : Term α},
    ExchangedWhere (fun root left right => left.Separate root ∨ right.Separate root) root t t' →
      ExchangedWhere SecondSeparate root t t' ∨ ExchangedWhere SecondSeparate root t' t
  | _, _, _, .here isEquality (.inl separate) => .inr (.here isEquality separate)
  | _, _, _, .here isEquality (.inr separate) => .inl (.here isEquality separate)
  | _, _, _, .body inside => inside.oriented.imp .body .body
  | _, _, _, .left inside => inside.oriented.imp .left .left
  | _, _, _, .right inside => inside.oriented.imp .right .right
  | _, _, _, .args inside => inside.oriented.imp .args .args
  | _, _, _, .receiver inside => inside.oriented.imp .receiver .receiver

theorem ExchangedWhereAll.oriented : ∀ {root : Option Symbol} {ts ts' : List (Term α)},
    ExchangedWhereAll (fun root left right => left.Separate root ∨ right.Separate root) root ts
      ts' →
      ExchangedWhereAll SecondSeparate root ts ts' ∨ ExchangedWhereAll SecondSeparate root ts' ts
  | _, _, _, .head inside => inside.oriented.imp .head .head
  | _, _, _, .tail inside => inside.oriented.imp .tail .tail
end

variable {P : Option Symbol → Term α → Term α → Prop}

mutual
theorem ExchangedWhere.symbols_perm : ∀ {root : Option Symbol} {t t' : Term α},
    ExchangedWhere P root t t' → t.symbols.Perm t'.symbols
  | _, _, _, .here _ _ => List.perm_append_comm
  | _, _, _, .body inside => inside.symbols_perm.cons _
  | _, _, _, .left inside => inside.symbols_perm.append_right _
  | _, _, _, .right inside => inside.symbols_perm.append_left _
  | _, _, _, .args inside => inside.symbols_perm
  | _, _, _, .receiver inside => inside.symbols_perm

theorem ExchangedWhereAll.symbols_perm : ∀ {root : Option Symbol} {ts ts' : List (Term α)},
    ExchangedWhereAll P root ts ts' → (symbolsAll ts).Perm (symbolsAll ts')
  | _, _, _, .head inside => inside.symbols_perm.append_right _
  | _, _, _, .tail inside => inside.symbols_perm.append_left _
end

mutual
theorem ExchangedWhere.inScope : ∀ {root : Option Symbol} {t t' : Term α} {scope : List Symbol},
    ExchangedWhere P root t t' → t.InScope scope → t'.InScope scope
  | _, _, _, _, .here _ _, onOperands => ⟨onOperands.2, onOperands.1⟩
  | _, _, _, _, .body inside, onBody => inside.inScope onBody
  | _, _, _, _, .left inside, onOperands => ⟨inside.inScope onOperands.1, onOperands.2⟩
  | _, _, _, _, .right inside, onOperands => ⟨onOperands.1, inside.inScope onOperands.2⟩
  | _, _, _, _, .args inside, onArgs => inside.inScope onArgs
  | _, _, _, _, .receiver inside, onReceiver => inside.inScope onReceiver

theorem ExchangedWhereAll.inScope : ∀ {root : Option Symbol} {ts ts' : List (Term α)}
    {scope : List Symbol}, ExchangedWhereAll P root ts ts' → InScopeAll scope ts →
      InScopeAll scope ts'
  | _, _, _, _, .head inside, onAll => ⟨inside.inScope onAll.1, onAll.2⟩
  | _, _, _, _, .tail inside, onAll => ⟨onAll.1, inside.inScope onAll.2⟩
end

theorem ExchangedWhere.wellBound {root : Option Symbol} {t t' : Term α}
    (h : ExchangedWhere P root t t') (wellBound : t.WellBound) : t'.WellBound where
  distinct := (h.symbols_perm.map Symbol.id).nodup_iff.1 wellBound.distinct
  inScope := h.inScope wellBound.inScope

end

/-! The slots that have moved. -/

/-- Where the slots of two operands are, and how many they are. -/
structure Gap where
  start : Nat
  left : Nat
  right : Nat

namespace Gap

/-- Which slot comes to stand where, outside of the second operand. -/
def outer (g : Gap) (size : Nat) : Pairing := fun a a' =>
  a < size ∧ (a < g.start ∧ a' = a ∨
    g.start ≤ a ∧ a < g.start + g.left ∧ a' = a + g.right ∨
    g.start + g.left + g.right ≤ a ∧ a' = a)

/-- Which slot comes to stand where, for the parameter of the query and for the second operand. -/
def inner (g : Gap) : Pairing := fun a a' =>
  a = 0 ∧ a' = 0 ∨ g.start ≤ a' ∧ a' < g.start + g.right ∧ a = a' + g.left

/-- The tags of the operands have changed places. -/
def Exchanges (g : Gap) (low : Nat) (tags tags' : List NodeTag) : Prop :=
  ∃ before left right behind, tags = before ++ (left ++ right) ++ behind ∧
    tags' = before ++ (right ++ left) ++ behind ∧
    g = ⟨low + before.length, left.length, right.length⟩

variable {g : Gap} {low : Nat} {tags tags' : List NodeTag}

namespace Exchanges

theorem bounds (h : g.Exchanges low tags tags') : low ≤ g.start ∧
    g.start + g.left + g.right ≤ low + tags.length ∧ tags.length = tags'.length := by
  obtain ⟨before, left, right, behind, rfl, rfl, rfl⟩ := h
  simp only [List.length_append]
  omega

theorem append (h : g.Exchanges low tags tags') (back : List NodeTag) :
    g.Exchanges low (tags ++ back) (tags' ++ back) := by
  obtain ⟨before, left, right, behind, rfl, rfl, rfl⟩ := h
  exact ⟨before, left, right, behind ++ back, by simp, by simp, rfl⟩

theorem prepend (front : List NodeTag) (h : g.Exchanges (low + front.length) tags tags') :
    g.Exchanges low (front ++ tags) (front ++ tags') := by
  obtain ⟨before, left, right, behind, rfl, rfl, rfl⟩ := h
  exact ⟨front ++ before, left, right, behind, by simp, by simp, by simp; omega⟩

theorem outer_tag (h : g.Exchanges 0 tags tags') {a a' : Nat} (paired : g.outer tags.length a a') :
    tags[a]? = tags'[a']? := by
  obtain ⟨before, left, right, behind, rfl, rfl, rfl⟩ := h
  obtain ⟨lt, ⟨inBefore, rfl⟩ | ⟨notBefore, inLeft, rfl⟩ | ⟨isBehind, rfl⟩⟩ := paired <;> grind

theorem inner_tag (h : g.Exchanges 0 tags tags') (positive : 0 < g.start) {a a' : Nat}
    (paired : g.inner a a') : tags[a]? = tags'[a']? := by
  obtain ⟨before, left, right, behind, rfl, rfl, rfl⟩ := h
  obtain ⟨rfl, rfl⟩ | ⟨notBefore, inRight, rfl⟩ := paired <;> grind

end Exchanges

/-! The two pairings. -/

section

variable {size a a' b b' : Nat}

theorem outer_order (first : g.outer size a a') (second : g.outer size b b') :
    a < b ↔ a' < b' := by
  unfold outer at first second
  omega

theorem inner_order (positive : 0 < g.start) (first : g.inner a a') (second : g.inner b b') :
    a < b ↔ a' < b' := by
  unfold inner at first second
  omega

theorem zero_iff (positive : 0 < g.start) (paired : g.outer size a a' ∨ g.inner a a') :
    a = 0 ↔ a' = 0 := by
  unfold outer inner at paired
  omega

/-- They have no slot in common but that of the parameter of the query. -/
theorem apart (inOuter : g.outer size a a') (inInner : g.inner a b) : a = 0 := by
  unfold outer at inOuter
  unfold inner at inInner
  omega

theorem apart' (inOuter : g.outer size a a') (inInner : g.inner b a') : a' = 0 := by
  unfold outer at inOuter
  unfold inner at inInner
  omega

theorem lt_size (positive : 0 < g.start) (fits : g.start + g.left + g.right ≤ size)
    (paired : g.outer size a a' ∨ g.inner a a') : a < size ∧ a' < size := by
  unfold outer inner at paired
  omega

/-- Every slot is in one of them. -/
theorem covers (lt : a < size) : (∃ a', g.outer size a a') ∨ ∃ a', g.inner a a' := by
  by_cases inRight : g.start + g.left ≤ a ∧ a < g.start + g.left + g.right
  · exact .inr ⟨a - g.left, .inr (by omega)⟩
  · by_cases inLeft : g.start ≤ a ∧ a < g.start + g.left
    · exact .inl ⟨a + g.right, lt, .inr (.inl (by omega))⟩
    · exact .inl ⟨a, lt, by omega⟩

theorem covers' (fits : g.start + g.left + g.right ≤ size) (lt : a' < size) :
    (∃ a, g.outer size a a') ∨ ∃ a, g.inner a a' := by
  by_cases inRight : g.start ≤ a' ∧ a' < g.start + g.right
  · exact .inr ⟨a' + g.left, .inr (by omega)⟩
  · by_cases inLeft : g.start + g.right ≤ a' ∧ a' < g.start + g.right + g.left
    · exact .inl ⟨a' - g.right, by omega, .inr (.inl (by omega))⟩
    · exact .inl ⟨a', lt, by omega⟩

end

end Gap

/-- What is around a tree that is about to be numbered, on both sides alike: the parameter of the
query has the first slot, and those in scope have slots already. -/
structure Around (binders binders' : List (Symbol × Nat)) (root : Symbol) (scope : List Symbol)
    (n : Numbering) : Prop where
  knows : n.Knows scope
  inScope : root ∈ scope
  first : binders.lookup root = some 0
  first' : binders'.lookup root = some 0
  fixed : ∀ bound ∈ scope, ∃ a, a < n.next ∧ binders.lookup bound = some a ∧
    binders'.lookup bound = some a

namespace Around

variable {binders binders' : List (Symbol × Nat)} {root : Symbol}
  {scope scope₁ scope₂ : List Symbol} {n m m' : Numbering} {g : Gap} {size : Nat} {t : Term Span}

theorem positive (h : Around binders binders' root scope n) : 0 < n.next := by
  obtain ⟨a, lt, -, -⟩ := h.fixed root h.inScope
  exact Nat.zero_lt_of_lt lt

theorem bind (h : Around binders binders' root scope n) {symbol : Symbol}
    (looked : binders.lookup symbol = some n.next)
    (looked' : binders'.lookup symbol = some n.next) :
    Around binders binders' root (symbol :: scope) (n.bind symbol) where
  knows := h.knows.bind symbol
  inScope := List.mem_cons_of_mem _ h.inScope
  first := h.first
  first' := h.first'
  fixed := by
    refine List.forall_mem_cons.2
      ⟨⟨n.next, Nat.lt_succ_self _, looked, looked'⟩, fun bound mem => ?_⟩
    obtain ⟨a, lt, both⟩ := h.fixed bound mem
    exact ⟨a, Nat.lt_succ_of_lt lt, both⟩

theorem number (h : Around binders binders' root scope n) (inScope : t.InScope scope) :
    Around binders binders' root scope (t.number n).2 where
  knows := h.knows.number t
  inScope := h.inScope
  first := h.first
  first' := h.first'
  fixed bound mem := by
    obtain ⟨a, lt, both⟩ := h.fixed bound mem
    refine ⟨a, ?_, both⟩
    rw [number_next inScope h.knows]
    omega

/-- The parameters in scope stay where they are. -/
theorem beside (h : Around binders binders' root scope n) (le : n.next ≤ g.start)
    (fits : n.next ≤ size) (knows : m.Knows scope) (knows' : m'.Knows scope)
    (after : n.next ≤ m.next) (after' : n.next ≤ m'.next) :
    Beside (g.outer size) binders binders' scope m m' where
  knows := knows
  knows' := knows'
  aligned bound mem := by
    obtain ⟨a, lt, looked, looked'⟩ := h.fixed bound mem
    exact ⟨a, a, looked, looked', by omega, .inl ⟨by omega, rfl⟩⟩
  positive := Nat.lt_of_lt_of_le h.positive after
  positive' := Nat.lt_of_lt_of_le h.positive after'

/-- The parameter of the query stays where it is. -/
theorem besideRoot (h : Around binders binders' root scope n) (knows : m.Knows scope)
    (knows' : m'.Knows scope) (after : n.next ≤ m.next) (after' : n.next ≤ m'.next) :
    Beside g.inner binders binders' [root] m m' where
  knows bound mem := knows bound (List.mem_singleton.1 mem ▸ h.inScope)
  knows' bound mem := knows' bound (List.mem_singleton.1 mem ▸ h.inScope)
  aligned bound mem := by
    obtain rfl := List.mem_singleton.1 mem
    exact ⟨0, 0, h.first, h.first', .inl ⟨rfl, rfl⟩⟩
  positive := Nat.lt_of_lt_of_le h.positive after
  positive' := Nat.lt_of_lt_of_le h.positive after'

/-- A tree in front of the operands stays where it is. -/
theorem paired_before (h : Around binders binders' root scope n) (inScope : t.InScope scope)
    (bound : (t.number n).1.Bound binders scope₁) (bound' : (t.number n).1.Bound binders' scope₂)
    (le : n.next + t.tags.length ≤ g.start) (fits : g.start ≤ size) :
    Paired (g.outer size) (t.number n).1 (t.number n).1 := by
  have beside : Beside (g.outer size) binders binders' scope n n :=
    h.beside (by omega) (by omega) h.knows h.knows (Nat.le_refl _) (Nat.le_refl _)
  exact number_paired t inScope beside bound bound' fun i lt => ⟨by omega, .inl ⟨by omega, rfl⟩⟩

/-- Trees behind the operands stay where they are. -/
theorem pairedAll_behind (h : Around binders binders' root scope n) (ts : List (Term Span))
    (inScope : InScopeAll scope ts) (knows : m.Knows scope) (knows' : m'.Knows scope)
    (bound : BoundAll binders scope₁ (numberAll ts m).1)
    (bound' : BoundAll binders' scope₂ (numberAll ts m').1) (start : n.next ≤ g.start)
    (le : g.start + g.left + g.right ≤ m.next) (same : m'.next = m.next)
    (fits : m.next + (tagsAll ts).length ≤ size) :
    PairedAll (g.outer size) (numberAll ts m).1 (numberAll ts m').1 := by
  have beside : Beside (g.outer size) binders binders' scope m m' :=
    h.beside start (by omega) knows knows' (by omega) (by omega)
  exact numberAll_paired ts inScope beside bound bound' fun i lt =>
    ⟨by omega, .inr (.inr ⟨by omega, by omega⟩)⟩

end Around

section

variable {binders binders' : List (Symbol × Nat)} {root : Symbol} {size : Nat}

theorem number_binary (span : Span) (op : Operator) (left right : Term Span) (n : Numbering) :
    (number (.binary span op left right) n).1 =
      .binary ⟨(right.number (left.number n).2).2.next, span⟩ op (left.number n).1
        (right.number (left.number n).2).1 :=
  rfl

/-- The equality itself. -/
theorem number_crossed_here {g : Gap} {span : Span} {op : Operator} {left right : Term Span}
    {scope scope₁ scope₂ : List Symbol} {n : Numbering} (isEquality : op.kind = .equality)
    (separate : right.Separate (some root)) (inLeft : left.InScope scope)
    (inRight : right.InScope scope) (around : Around binders binders' root scope n)
    (bound : (number (.binary span op left right) n).1.Bound binders scope₁)
    (bound' : (number (.binary span op right left) n).1.Bound binders' scope₂)
    (start : g.start = n.next) (lefts : g.left = left.tags.length)
    (rights : g.right = right.tags.length)
    (fits : n.next + left.tags.length + right.tags.length < size) :
    Crossed (g.outer size) g.inner (number (.binary span op left right) n).1
      (number (.binary span op right left) n).1 := by
  have knows := around.knows.number left
  have knows' := around.knows.number right
  have next := number_next inLeft around.knows
  have next' := number_next inRight around.knows
  have onSlot : g.outer size (right.number (left.number n).2).2.next
      (left.number (right.number n).2).2.next := by
    rw [number_next inRight knows, number_next inLeft knows', next, next']
    exact ⟨fits, .inr (.inr ⟨by omega, by omega⟩)⟩
  have onLeft : Paired (g.outer size) (left.number n).1 (left.number (right.number n).2).1 := by
    have beside : Beside (g.outer size) binders binders' scope n (right.number n).2 :=
      around.beside (by omega) (by omega) around.knows knows' (Nat.le_refl _) (by omega)
    refine number_paired left inLeft beside bound.1 bound'.2 fun i lt => ?_
    exact ⟨by omega, .inr (.inl ⟨by omega, by omega, by omega⟩)⟩
  rcases separate with isIdent | inRoot
  · cases right with
    | ident note symbol =>
      obtain ⟨slot, looked⟩ := knows.lookup inRight
      obtain ⟨slot', looked'⟩ := around.knows.lookup inRight
      have numbered : number (.ident note symbol) (left.number n).2 =
          (.ident ⟨slot, note⟩ symbol, (left.number n).2) := by
        simp only [number, looked]
      have numbered' : number (.ident note symbol) n = (.ident ⟨slot', note⟩ symbol, n) := by
        simp only [number, looked']
      simp only [number_binary, numbered, numbered'] at bound bound' onSlot onLeft ⊢
      have beside : Beside (g.outer size) binders binders' scope n n :=
        around.beside (by omega) (by omega) around.knows around.knows (Nat.le_refl _)
          (Nat.le_refl _)
      exact .bare isEquality onSlot onLeft (beside.ident inRight bound.2.1 bound'.1.1)
    | lambda | binary | call | member | literal => cases isIdent
  · have besideRoot : Beside g.inner binders binders' [root] (left.number n).2 n :=
      around.besideRoot knows around.knows (by omega) (Nat.le_refl _)
    refine .here isEquality onSlot onLeft ?_
    refine number_paired right inRoot besideRoot bound.2 bound'.1 fun i lt => ?_
    exact .inr ⟨by omega, by omega, by omega⟩

/-- A lambda around the operands. -/
theorem number_crossed_body {g : Gap} {span : Span} {param : Binder Span} {body body' : Term Span}
    {scope : List Symbol} {n : Numbering} (inBody : body.InScope scope)
    (inBody' : body'.InScope scope) (knows : (n.bind param.symbol).Knows scope)
    (exchanges : g.Exchanges (n.next + 1) body.tags body'.tags)
    (crossed : Crossed (g.outer size) g.inner (body.number (n.bind param.symbol)).1
      (body'.number (n.bind param.symbol)).1) (fits : n.next + 1 + body.tags.length < size) :
    Crossed (g.outer size) g.inner (number (.lambda span param body) n).1
      (number (.lambda span param body') n).1 := by
  obtain ⟨start, stop, same⟩ := exchanges.bounds
  have inside : (n.bind param.symbol).next = n.next + 1 := rfl
  have next := number_next inBody knows
  have next' := number_next inBody' knows
  refine .inside (.lambda ?_ ?_ crossed.slot crossed.literalText?_eq) (.head crossed .nil)
  · show g.outer size (body.number (n.bind param.symbol)).2.next
      (body'.number (n.bind param.symbol)).2.next
    exact ⟨by omega, .inr (.inr ⟨by omega, by omega⟩)⟩
  · show g.outer size n.next n.next
    exact ⟨by omega, .inl ⟨by omega, rfl⟩⟩

mutual
/-- Trees whose operands have changed places are crossed once they are numbered. -/
theorem number_crossed : ∀ {t t' : Term Span} {scope scope₁ scope₂ : List Symbol} {n : Numbering},
    ExchangedWhere SecondSeparate (some root) t t' → t.InScope scope →
    Around binders binders' root scope n → (t.number n).1.Bound binders scope₁ →
    (t'.number n).1.Bound binders' scope₂ → n.next + t.tags.length ≤ size →
      ∃ g : Gap, g.Exchanges n.next t.tags t'.tags ∧
        Crossed (g.outer size) g.inner (t.number n).1 (t'.number n).1
  | .binary _ _ left right, _, _, _, _, n, .here isEquality separate, inScope, around, bound,
      bound', fits => by
    simp only [tags, List.length_append, List.length_cons, List.length_nil] at fits
    refine ⟨⟨n.next, left.tags.length, right.tags.length⟩,
      ⟨[], left.tags, right.tags, [.binary], rfl, rfl, rfl⟩, ?_⟩
    exact number_crossed_here isEquality separate inScope.1 inScope.2 around bound bound' rfl rfl
      rfl (by omega)
  | .lambda _ param body, .lambda _ _ body', scope, _, _, n, .body inside, inScope, around, bound,
      bound', fits => by
    simp only [tags, List.length_cons, List.length_append, List.length_nil] at fits
    have inBody : body.InScope (param.symbol :: scope) := inScope
    have aroundBody : Around binders binders' root (param.symbol :: scope) (n.bind param.symbol) :=
      around.bind bound.1 bound'.1
    have next : (n.bind param.symbol).next = n.next + 1 := rfl
    obtain ⟨g, exchanges, crossed⟩ := number_crossed inside inBody aroundBody bound.2 bound'.2
      (by omega)
    exact ⟨g, .prepend [.parameter] (exchanges.append [.lambda]),
      number_crossed_body inBody (inside.inScope inBody) aroundBody.knows exchanges crossed
        (by omega)⟩
  | .binary _ _ left right, .binary _ _ left' _, scope, _, _, n, .left inside, inScope, around,
      bound, bound', fits => by
    simp only [tags, List.length_append, List.length_cons, List.length_nil] at fits
    have inLeft' := inside.inScope inScope.1
    have knows := around.knows.number left
    have knows' := around.knows.number left'
    have next := number_next inScope.1 around.knows
    have next' := number_next inLeft' around.knows
    obtain ⟨g, exchanges, crossed⟩ := number_crossed inside inScope.1 around bound.1 bound'.1
      (by omega)
    obtain ⟨start, stop, same⟩ := exchanges.bounds
    have behind := around.pairedAll_behind [right] ⟨inScope.2, trivial⟩ knows knows'
      ⟨bound.2, trivial⟩ ⟨bound'.2, trivial⟩ start (by omega) (by omega)
      (show (left.number n).2.next + (right.tags ++ []).length ≤ size by
        rw [List.append_nil]
        omega)
    refine ⟨g, (exchanges.append right.tags).append [.binary], ?_⟩
    cases behind with
    | cons onRight _ =>
      refine .inside (.binary ?_ crossed.slot onRight.slot) (.head crossed (.cons onRight .nil))
      show g.outer size (right.number (left.number n).2).2.next
        (right.number (left'.number n).2).2.next
      rw [number_next inScope.2 knows, number_next inScope.2 knows']
      exact ⟨by omega, .inr (.inr ⟨by omega, by omega⟩)⟩
  | .binary _ _ left right, .binary _ _ _ right', _, _, _, n, .right inside, inScope, around, bound,
      bound', fits => by
    simp only [tags, List.length_append, List.length_cons, List.length_nil] at fits
    have knows := around.knows.number left
    have next := number_next inScope.1 around.knows
    obtain ⟨g, exchanges, crossed⟩ := number_crossed inside inScope.2 (around.number inScope.1)
      bound.2 bound'.2 (by omega)
    obtain ⟨start, stop, same⟩ := exchanges.bounds
    have onLeft : Paired (g.outer size) (left.number n).1 (left.number n).1 :=
      around.paired_before inScope.1 bound.1 bound'.1 (by omega) (by omega)
    rw [next] at exchanges
    refine ⟨g, (exchanges.prepend left.tags).append [.binary], ?_⟩
    refine .inside (.binary ?_ onLeft.slot crossed.slot) (.tail onLeft (.head crossed .nil))
    show g.outer size (right.number (left.number n).2).2.next
      (right'.number (left.number n).2).2.next
    rw [number_next inScope.2 knows, number_next (inside.inScope inScope.2) knows]
    exact ⟨by omega, .inr (.inr ⟨by omega, by omega⟩)⟩
  | .call _ _ args, .call _ _ args', scope, _, _, n, .args inside, inScope, around, bound, bound',
      fits => by
    simp only [tags, List.length_append, List.length_cons, List.length_nil] at fits
    have inArgs : InScopeAll scope args := inScope
    have next := numberAll_next inArgs around.knows
    have next' := numberAll_next (inside.inScope inArgs) around.knows
    have positive := around.positive
    obtain ⟨g, exchanges, crossed⟩ := numberAll_crossed inside inArgs around bound bound' (by omega)
    obtain ⟨start, stop, same⟩ := exchanges.bounds
    refine ⟨g, exchanges.append [.call], .inside (.call ?_ ?_ ?_ crossed.slots) crossed⟩
    · show g.outer size (numberAll args n).2.next (numberAll args' n).2.next
      exact ⟨by omega, .inr (.inr ⟨by omega, by omega⟩)⟩
    · show (numberAll args n).2.next ≠ 0
      omega
    · show (numberAll args' n).2.next ≠ 0
      omega
  | .member _ receiver _, .member _ receiver' _, scope, _, _, n, .receiver inside, inScope, around,
      bound, bound', fits => by
    simp only [tags, List.length_append, List.length_cons, List.length_nil] at fits
    have inReceiver : receiver.InScope scope := inScope
    have next := number_next inReceiver around.knows
    have next' := number_next (inside.inScope inReceiver) around.knows
    have positive := around.positive
    obtain ⟨g, exchanges, crossed⟩ :=
      number_crossed inside inReceiver around bound bound' (by omega)
    obtain ⟨start, stop, same⟩ := exchanges.bounds
    refine ⟨g, exchanges.append [.member], .inside (.member ?_ ?_ ?_ crossed.slot)
      (.head crossed .nil)⟩
    · show g.outer size (receiver.number n).2.next (receiver'.number n).2.next
      exact ⟨by omega, .inr (.inr ⟨by omega, by omega⟩)⟩
    · show (receiver.number n).2.next ≠ 0
      omega
    · show (receiver'.number n).2.next ≠ 0
      omega

theorem numberAll_crossed : ∀ {ts ts' : List (Term Span)} {scope scope₁ scope₂ : List Symbol}
    {n : Numbering}, ExchangedWhereAll SecondSeparate (some root) ts ts' → InScopeAll scope ts →
    Around binders binders' root scope n → BoundAll binders scope₁ (numberAll ts n).1 →
    BoundAll binders' scope₂ (numberAll ts' n).1 → n.next + (tagsAll ts).length ≤ size →
      ∃ g : Gap, g.Exchanges n.next (tagsAll ts) (tagsAll ts') ∧
        CrossedAll (g.outer size) g.inner (numberAll ts n).1 (numberAll ts' n).1
  | t :: rest, t' :: _, _, _, _, n, .head inside, inScope, around, bound, bound', fits => by
    simp only [tagsAll, List.length_append] at fits
    have knows := around.knows.number t
    have knows' := around.knows.number t'
    have next := number_next inScope.1 around.knows
    have next' := number_next (inside.inScope inScope.1) around.knows
    obtain ⟨g, exchanges, crossed⟩ := number_crossed inside inScope.1 around bound.1 bound'.1
      (by omega)
    obtain ⟨start, stop, same⟩ := exchanges.bounds
    have behind : PairedAll (g.outer size) (numberAll rest (t.number n).2).1
        (numberAll rest (t'.number n).2).1 :=
      around.pairedAll_behind rest inScope.2 knows knows' bound.2 bound'.2 start (by omega)
        (by omega) (by omega)
    exact ⟨g, exchanges.append (tagsAll rest), .head crossed behind⟩
  | t :: rest, _ :: rest', _, _, _, n, .tail inside, inScope, around, bound, bound', fits => by
    simp only [tagsAll, List.length_append] at fits
    have next := number_next inScope.1 around.knows
    obtain ⟨g, exchanges, crossed⟩ := numberAll_crossed inside inScope.2 (around.number inScope.1)
      bound.2 bound'.2 (by omega)
    obtain ⟨start, stop, same⟩ := exchanges.bounds
    have onFirst : Paired (g.outer size) (t.number n).1 (t.number n).1 :=
      around.paired_before inScope.1 bound.1 bound'.1 (by omega) (by omega)
    rw [next] at exchanges
    exact ⟨g, exchanges.prepend t.tags, .tail onFirst crossed⟩
end

end

end Term

end LambdaQuery
