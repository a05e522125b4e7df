import LambdaQuery.Proofs.Lowering.Correct

/-!
# The order of texts, with null as the first

A comparison of texts is built into one that knows of null. Equality is that of all other types. An
order with null, which holds for no other type, is decided with null before every text, so that of
two operands exactly one is the smaller or both are equal, whether they are null or not.
-/

namespace LambdaQuery

open Evaluation

/-- A text, or null if there is none. -/
def Data.textOrNull {F : Type} : Option String → Data F
  | some text => .string text
  | none => .null

/-- Whether operands in this order satisfy an operator that compares them. -/
def Operator.holdsFor (op : Operator) (order : Ordering) : Bool :=
  match op.kind with
  | .equality => (order == .eq) == (op == .eq)
  | _ => orderHolds op order

namespace Operator

/-- The operators that say how two operands lie to each other. -/
def ways : List Operator := [lt, eq, gt]

theorem compares_of_mem_ways : ∀ op ∈ ways, op.kind = .equality ∨ op.kind = .ordering := by
  decide

/-- In each order there is exactly one way in which two operands lie to each other. -/
theorem existsUnique_way (order : Ordering) : ∃! op, op ∈ ways ∧ op.holdsFor order = true := by
  have only : ∀ op ∈ ways, ∀ op' ∈ ways, op.holdsFor order = true → op'.holdsFor order = true →
      op' = op := by
    cases order <;> decide
  have found : ∃ op ∈ ways, op.holdsFor order = true := by
    cases order <;> decide
  obtain ⟨op, mem, holds⟩ := found
  exact ⟨op, ⟨mem, holds⟩, fun op' other => only op mem op' other.1 holds other.2⟩

end Operator

namespace Evaluation

variable {F : Type}

theorem compareTexts_textOrNull (x y : Option String) :
    compareTexts (.textOrNull x : Data F) (.textOrNull y) = .ok (compare x y) := by
  cases x <;> cases y <;> rfl

theorem equal_textOrNull (x y : Option String) :
    (.textOrNull x : Data F).equal (.textOrNull y) = (compare x y == .eq) := by
  cases x <;> cases y <;> simp [Data.textOrNull, Data.equal, Data.compare?]

theorem compare?_textOrNull (x y : Option String) :
    (.textOrNull x : Data F).compare? (.textOrNull y) =
      if x.isSome && y.isSome then some (compare x y) else none := by
  cases x <;> cases y <;> rfl

/-- The operators as they are for all types: equality is that of the order with null as the first,
and an order holds where it does in that order and no operand is null. -/
theorem applyOperator_textOrNull {op : Operator}
    (compares : op.Compares) (x y : Option String) :
    applyOperator op (.textOrNull x : Data F) (.textOrNull y) = .ok (.bool
      (op.holdsFor (compare x y) && (op.kind == .equality || x.isSome && y.isSome))) := by
  unfold applyOperator Operator.holdsFor
  rcases compares with kind | kind
  · simp [kind, equal_textOrNull]
  · simp only [kind, compare?_textOrNull]
    cases x.isSome && y.isSome <;> simp

end Evaluation

namespace Expr

variable {op : Operator} {left right : Expr} {depth : Nat} {env : Env} {x y : Option String}

theorem eval_binary_textOrNull (compares : op.Compares)
    (onLeft : left.eval depth env = .ok (.textOrNull x))
    (onRight : right.eval depth env = .ok (.textOrNull y)) (ty : Ty) :
    (binary op left right ty).eval depth env = .ok (.bool
      (op.holdsFor (compare x y) && (op.kind == .equality || x.isSome && y.isSome))) := by
  rw [← applyOperator_textOrNull compares]
  unfold eval at *
  rcases compares with kind | kind <;> simp only [evalWith, kind, onLeft, onRight] <;> rfl

/-- The comparison that is built for texts decides by the order with null as the first. -/
theorem eval_text_binary? (compares : op.Compares)
    (onLeft : left.eval depth env = .ok (.textOrNull x))
    (onRight : right.eval depth env = .ok (.textOrNull y)) :
    ∃ e, Ty.string.binary? op left right = some e ∧
      e.eval depth env = .ok (.bool (op.holdsFor (compare x y))) := by
  have supported : Ty.string.supports op = true := by
    rcases compares with kind | kind <;> simp [Ty.supports, kind, Ty.underlying]
  obtain ⟨e, built⟩ : ∃ e, Ty.string.binary? op left right = some e := by
    unfold Ty.binary?
    rw [if_pos supported]
    split <;> exact ⟨_, rfl⟩
  refine ⟨e, built, ?_⟩
  have operated : evalWith (applyClosure depth) e env = Ty.string.operate op
      (evalWith (applyClosure depth) left env) (evalWith (applyClosure depth) right env) :=
    eval_binary? built
  unfold eval at onLeft onRight
  rw [onLeft, onRight] at operated
  refine operated.trans ?_
  rcases compares with kind | kind
  · rw [operate_of_not_text (by simp [kind]) (by simp [kind])]
    refine (applyOperator_textOrNull (.inl kind) x y).trans ?_
    simp [kind]
  · show Ty.string.operate op (.ok (.textOrNull x)) (.ok (.textOrNull y)) = _
    unfold Ty.operate Operator.holdsFor
    rw [kind]
    show (compareTexts (Data.textOrNull x) (Data.textOrNull y) >>= fun order =>
      Except.ok (Data.bool (orderHolds op order))) = _
    rw [compareTexts_textOrNull]
    rfl

end Expr

/-- A comparison of two texts or nulls that the catalog builds decides by the order with null as
the first. It gives what a plain comparison gives unless it is an order that holds with a null. Of
two operands one is the smaller or both are equal, and only one of that is so. -/
theorem Schema.text_comparison_nulls_first {s : Schema} {info : TypeInfo}
    (described : s.catalog.describe .string = some info) {left right : Expr} {depth : Nat} {env : Env}
    {x y : Option String} (onLeft : left.eval depth env = .ok (.textOrNull x))
    (onRight : right.eval depth env = .ok (.textOrNull y)) :
    (∀ op : Operator, op.Compares → ∃ e, info.binary op left right = some e ∧
      e.eval depth env = .ok (.bool (op.holdsFor (compare x y))) ∧
      (e.eval depth env = (Expr.binary op left right .bool).eval depth env ↔
        ¬ (op.kind = .ordering ∧ (x = none ∨ y = none) ∧ op.holdsFor (compare x y) = true))) ∧
    ∃! op, op ∈ Operator.ways ∧
      ∃ e, info.binary op left right = some e ∧ e.eval depth env = .ok (.bool true) := by
  obtain ⟨_, rfl⟩ := Schema.describe_eq_some described
  have decides (op : Operator) (compares : op.Compares) :
      ∃ e, Ty.string.binary? op left right = some e ∧
        e.eval depth env = .ok (.bool (op.holdsFor (compare x y))) :=
    Expr.eval_text_binary? compares onLeft onRight
  constructor
  · intro op compares
    obtain ⟨e, built, value⟩ := decides op compares
    refine ⟨e, built, value, ?_⟩
    rw [value, Expr.eval_binary_textOrNull compares onLeft onRight]
    rcases compares with kind | kind <;> cases x <;> cases y <;> simp [kind]
  · have holds {op : Operator} (mem : op ∈ Operator.ways) :
        (∃ e, Ty.string.binary? op left right = some e ∧ e.eval depth env = .ok (.bool true)) ↔
          op.holdsFor (compare x y) = true := by
      obtain ⟨e, built, value⟩ := decides op (Operator.compares_of_mem_ways op mem)
      simp [built, value]
    obtain ⟨op, ⟨mem, isSo⟩, only⟩ := Operator.existsUnique_way (compare x y)
    refine ⟨op, ⟨mem, (holds mem).2 isSo⟩, fun other ⟨mem', isSo'⟩ => ?_⟩
    exact only other ⟨mem', (holds mem').1 isSo'⟩

/-- Two texts are compared as they are plainly. -/
theorem Schema.text_comparison_nulls_first_letters :
    let left : Expr := .constant (.string "a") .string
    let right : Expr := .constant (.string "b") .string
    Schema.empty.catalog.describe .string = some (Schema.empty.info .string) ∧
    left.eval 0 [] = .ok (.textOrNull (some "a")) ∧
    right.eval 0 [] = .ok (.textOrNull (some "b")) ∧
    ∃ e, (Schema.empty.info .string).binary .lt left right = some e ∧
      e.eval 0 [] = .ok (.bool true) ∧
      e.eval 0 [] = (Expr.binary .lt left right .bool).eval 0 [] := by
  intro left right
  have described : Schema.empty.catalog.describe .string = some (Schema.empty.info .string) := rfl
  have onLeft : left.eval 0 [] = .ok (.textOrNull (some "a")) := rfl
  have onRight : right.eval 0 [] = .ok (.textOrNull (some "b")) := rfl
  obtain ⟨e, built, value, plain⟩ :=
    (Schema.text_comparison_nulls_first described onLeft onRight).1 .lt (.inr rfl)
  exact ⟨described, onLeft, onRight, e, built, value, plain.2 (by simp)⟩

/-- Null is less than a text, although no order with null holds plainly. -/
theorem Schema.null_less_than_text :
    let left : Expr := .constant .null .string
    let right : Expr := .constant (.string "a") .string
    ∃ e, (Schema.empty.info .string).binary .lt left right = some e ∧
      e.eval 0 [] = .ok (.bool true) ∧
      (Expr.binary .lt left right .bool).eval 0 [] = .ok (.bool false) :=
  ⟨_, rfl, rfl, rfl⟩

end LambdaQuery
