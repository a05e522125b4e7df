import LambdaQuery.Proofs.Lowering.Conversions

/-!
# Conversion as an order

What a value can be used as is an order on types, and the common type of two operands is their
join. There is one gap: a list and an array of the same elements are both enumerables, but operands
of these types have no common type.
-/

namespace LambdaQuery.Ty

variable {a b c d : Ty}

/-! ## The order -/

/-- Null aside, a type that another one can be used as is the type itself, or `Float` for `Int`, or
the enumerable of the elements of a sequence. -/
theorem assignable_plain_iff (plain : a.isOptional = false) :
    a.assignable b = true ↔ a = b ∨ a = float ∧ b = int ∨
      ∃ e, a = enumerable e ∧ b.element? = some e := by
  constructor
  · exact eq_or_of_assignable plain
  · rintro (rfl | ⟨rfl, rfl⟩ | ⟨e, rfl, isElement⟩)
    · exact assignable_refl a
    · rfl
    · unfold assignable
      cases b <;> simp_all [element?]

theorem assignable_antisymm_plain (plain : a.isOptional = false) (ab : a.assignable b = true)
    (ba : b.assignable a = true) : a = b := by
  have plain' := plain_of_assignable plain ab
  rw [assignable_plain_iff plain] at ab
  rw [assignable_plain_iff plain'] at ba
  rcases ab with same | ⟨rfl, rfl⟩ | ⟨e, rfl, isElement⟩
  · exact same
  · simp at ba
  · rcases ba with same | ⟨_, isInt⟩ | ⟨e', rfl, isElement'⟩
    · exact same.symm
    · cases isInt
    · cases isElement
      rfl

theorem assignable_antisymm {a b : Ty} (ab : a.assignable b = true)
    (ba : b.assignable a = true) : a = b := by
  cases a with
  | optional a =>
    cases isOptional : b.isOptional with
    | true =>
      obtain ⟨b, rfl⟩ := eq_optional isOptional
      rw [optional_assignable_iff] at ab ba
      exact congrArg optional (assignable_antisymm ab ba)
    | false => cases plain_of_assignable isOptional ba
  | _ => exact assignable_antisymm_plain rfl ab ba

theorem assignable_trans_plain (plain : a.isOptional = false) (ab : a.assignable b = true)
    (bc : b.assignable c = true) : a.assignable c = true := by
  have plain' := plain_of_assignable plain ab
  rw [assignable_plain_iff plain] at ab ⊢
  rw [assignable_plain_iff plain'] at bc
  rcases ab with rfl | ⟨rfl, rfl⟩ | ⟨e, rfl, isElement⟩
  · exact bc
  · simp at bc
    exact .inr (.inl ⟨rfl, bc.symm⟩)
  · rcases bc with rfl | ⟨rfl, rfl⟩ | ⟨e', rfl, isElement'⟩
    · exact .inr (.inr ⟨e, rfl, isElement⟩)
    · cases isElement
    · cases isElement
      exact .inr (.inr ⟨e, rfl, isElement'⟩)

theorem assignable_trans {a b c : Ty} (ab : a.assignable b = true)
    (bc : b.assignable c = true) : a.assignable c = true := by
  cases a with
  | optional a =>
    rw [optional_assignable_iff] at ab ⊢
    cases isOptional : b.isOptional with
    | true =>
      obtain ⟨b, rfl⟩ := eq_optional isOptional
      exact assignable_trans ab (optional_assignable_iff.1 bc)
    | false =>
      rw [underlying_of_plain isOptional] at ab
      rw [underlying_of_plain (plain_of_assignable isOptional bc)]
      exact assignable_trans ab bc
  | _ => exact assignable_trans_plain rfl ab bc

/-! ## The join -/

/-- Of two types that may be null, the common type is that of the types without null. -/
theorem common?_eq (a b : Ty) : a.common? b =
    if a.assignable b then some a
    else if b.assignable a then some b
    else if a.isOptional || b.isOptional then (a.underlying.common? b.underlying).map orNull
    else none := by
  rw [common?.eq_def a b]
  cases a <;> cases b <;> rfl

theorem plain_of_ne (h : ∀ inner, a ≠ optional inner) : a.isOptional = false := by
  cases a <;> first | rfl | exact absurd rfl (h _)

theorem common?_comm (a b : Ty) : a.common? b = b.common? a := by
  fun_induction common? a b with
  | case1 a b ab =>
    rw [common?_eq b a]
    by_cases ba : b.assignable a = true
    · simp [assignable_antisymm ab ba]
    · simp [ab, ba]
  | case2 a b ab ba => rw [common?_eq b a, if_pos ba]
  | case3 a b ab ba ih =>
    rw [common?_eq (optional b), if_neg ba, if_neg ab, ih]
    rfl
  | case4 a b other ab ba ih =>
    rw [common?_eq b, if_neg ba, if_neg ab, ih, underlying_of_plain (plain_of_ne other)]
    simp [isOptional, underlying]
  | case5 a b other ab ba ih =>
    rw [common?_eq (optional b), if_neg ba, if_neg ab, ih, underlying_of_plain (plain_of_ne other)]
    rfl
  | case6 a b ab ba left right _ =>
    rw [common?_eq b, if_neg ba, if_neg ab, plain_of_ne left, plain_of_ne right]
    rfl

theorem assignable_underlying (ty : Ty) : ty.assignable ty.underlying = true := by
  cases ty with
  | optional inner => exact optional_assignable_iff.2 (assignable_underlying inner)
  | _ => exact assignable_refl _

/-- The bounds of two operands are bounds of their common type. -/
theorem common?_least (isCommon : a.common? b = some c) (da : d.assignable a = true)
    (db : d.assignable b = true) : d.assignable c = true := by
  -- A bound of an optional is an optional, and what is in it bounds the types without null.
  have stripped {d a b inner : Ty} (da : d.assignable a = true) (db : d.assignable b = true)
      (nullable : a.isOptional = true ∨ b.isOptional = true)
      (ih : ∀ {d : Ty}, d.assignable a.underlying = true → d.assignable b.underlying = true →
        d.assignable inner = true) : d.assignable inner.orNull = true := by
    have isOptional : d.isOptional = true := by
      by_contra notOptional
      have plain : d.isOptional = false := by simpa using notOptional
      simp [plain_of_assignable plain da, plain_of_assignable plain db] at nullable
    obtain ⟨d, rfl⟩ := eq_optional isOptional
    rw [optional_assignable_iff] at da db ⊢
    rw [underlying_orNull]
    exact assignable_trans (ih da db) (assignable_underlying inner)
  fun_induction common? a b generalizing c d with
  | case1 => cases isCommon; exact da
  | case2 => cases isCommon; exact db
  | case3 a b _ _ ih =>
    obtain ⟨inner, isInner, rfl⟩ := Option.map_eq_some_iff.1 isCommon
    exact stripped da db (.inl rfl) fun da db => ih isInner da db
  | case4 a b other _ _ ih =>
    obtain ⟨inner, isInner, rfl⟩ := Option.map_eq_some_iff.1 isCommon
    refine stripped da db (.inl rfl) fun da db => ih isInner da ?_
    rwa [underlying_of_plain (plain_of_ne other)] at db
  | case5 a b other _ _ ih =>
    obtain ⟨inner, isInner, rfl⟩ := Option.map_eq_some_iff.1 isCommon
    refine stripped da db (.inr rfl) fun da db => ih isInner ?_ db
    rwa [underlying_of_plain (plain_of_ne other)] at da
  | case6 => cases isCommon

/-! ## Operands without a common type -/

/-- Null aside, one type is that of lists and the other that of arrays of the same elements. -/
def ListAndArray (a b : Ty) : Prop :=
  ∃ e, a.underlying = list e ∧ b.underlying = array e ∨
    a.underlying = array e ∧ b.underlying = list e

theorem common?_underlying_eq_none (h : a.common? b = none) :
    a.underlying.common? b.underlying = none := by
  rw [common?_eq] at h
  split at h
  · cases h
  split at h
  · cases h
  split at h
  · simpa using h
  · rename_i ab ba plain
    rw [Bool.or_eq_true, not_or] at plain
    have left : a.isOptional = false := by simpa using plain.1
    have right : b.isOptional = false := by simpa using plain.2
    rw [underlying_of_plain left, underlying_of_plain right, common?_eq, if_neg ab, if_neg ba, left,
      right]
    rfl

theorem not_assignable_of_common?_eq_none (h : a.common? b = none) :
    a.assignable b = false ∧ b.assignable a = false := by
  rw [common?_eq] at h
  split at h
  · cases h
  split at h
  · cases h
  · simp_all

/-- If types that are never null can be used as some type, then as one that is never null. -/
theorem plain_bound {a b d : Ty} (plain : a.isOptional = false) (plain' : b.isOptional = false)
    (da : d.assignable a = true) (db : d.assignable b = true) :
    ∃ e : Ty, e.isOptional = false ∧ e.assignable a = true ∧ e.assignable b = true := by
  cases d with
  | optional d =>
    rw [optional_assignable_iff, underlying_of_plain plain] at da
    rw [optional_assignable_iff, underlying_of_plain plain'] at db
    exact plain_bound plain plain' da db
  | _ => exact ⟨_, rfl, da, db⟩

/-- Types that are never null, have no common type and can yet be used as one type are those of
lists and of arrays. -/
theorem listAndArray_of_bound (none : a.common? b = none) (plain : d.isOptional = false)
    (da : d.assignable a = true) (db : d.assignable b = true) :
    ∃ e, a = list e ∧ b = array e ∨ a = array e ∧ b = list e := by
  obtain ⟨ab, ba⟩ := not_assignable_of_common?_eq_none none
  rcases (assignable_plain_iff plain).1 da with rfl | ⟨rfl, rfl⟩ | ⟨e, rfl, isElement⟩
  · rw [ab] at db
    cases db
  · rcases (assignable_plain_iff plain).1 db with rfl | ⟨_, rfl⟩ | ⟨e, isEnumerable, _⟩
    · cases ba
    · cases ab
    · cases isEnumerable
  · rcases (assignable_plain_iff plain).1 db with
      rfl | ⟨isFloat, _⟩ | ⟨e', isEnumerable, isElement'⟩
    · rw [ba] at da
      cases da
    · cases isFloat
    · cases isEnumerable
      refine ⟨e, ?_⟩
      cases a <;> cases b <;> simp_all [element?]

theorem enumerable_assignable {e sequence : Ty} (is : a.underlying = sequence)
    (isElement : sequence.element? = some e) : (optional (enumerable e)).assignable a = true := by
  rw [optional_assignable_iff, is, assignable_plain_iff rfl]
  exact .inr (.inr ⟨e, rfl, isElement⟩)

theorem bounded_iff_listAndArray (none : a.common? b = none) (proper : a.Proper)
    (proper' : b.Proper) :
    (∃ d : Ty, d.assignable a = true ∧ d.assignable b = true) ↔ a.ListAndArray b := by
  constructor
  · rintro ⟨d, da, db⟩
    obtain ⟨bound, plain, fromLeft, fromRight⟩ :=
      plain_bound proper.underlying.2 proper'.underlying.2
        (assignable_trans da (assignable_underlying a))
        (assignable_trans db (assignable_underlying b))
    exact listAndArray_of_bound (common?_underlying_eq_none none) plain fromLeft fromRight
  · rintro ⟨e, ⟨isList, isArray⟩ | ⟨isArray, isList⟩⟩
    · exact ⟨_, enumerable_assignable isList rfl, enumerable_assignable isArray rfl⟩
    · exact ⟨_, enumerable_assignable isArray rfl, enumerable_assignable isList rfl⟩

/-- Conversion is a partial order, and the common type of two types is their join. Without a common
type they have no bound at all, unless one is of lists and the other of arrays of the same
elements. -/
theorem conversion_order_with_joins :
    (∀ a : Ty, a.assignable a = true) ∧
    (∀ a b : Ty, a.assignable b = true → b.assignable a = true → a = b) ∧
    (∀ a b c : Ty, a.assignable b = true → b.assignable c = true → a.assignable c = true) ∧
    (∀ a b : Ty, a.common? b = b.common? a) ∧
    ∀ a b : Ty, a.Proper → b.Proper →
      (∀ c, a.common? b = some c → c.Proper ∧
        (c.assignable a = true ∧ c.assignable b = true) ∧
        ∀ d : Ty, d.assignable a = true → d.assignable b = true → d.assignable c = true) ∧
      (a.common? b = none →
        ((∃ d : Ty, d.assignable a = true ∧ d.assignable b = true) ↔ a.ListAndArray b)) := by
  refine ⟨assignable_refl, fun _ _ => assignable_antisymm, fun _ _ _ => assignable_trans,
    common?_comm, fun a b proper proper' => ⟨fun c isCommon => ?_, fun none => ?_⟩⟩
  · obtain ⟨properCommon, bounds⟩ := common?_proper proper proper' isCommon
    exact ⟨properCommon, bounds, fun d => common?_least isCommon⟩
  · exact bounded_iff_listAndArray none proper proper'

/-- `Int?` and `Float` meet in `Float?`, the least type that both can be used as; a list and an
array of numbers do not meet, though both are enumerables of numbers. -/
theorem conversion_order_with_joins_mixed :
    ((optional int).common? float = some (optional float) ∧
      ∀ d : Ty, d.assignable (optional int) = true → d.assignable float = true →
        d.assignable (optional float) = true) ∧
    (list int).common? (array int) = none ∧
      ∃ d : Ty, d.assignable (list int) = true ∧ d.assignable (array int) = true := by
  obtain ⟨-, -, -, -, join⟩ := conversion_order_with_joins
  have isCommon : (optional int).common? float = some (optional float) := by
    simp [common?_eq, assignable, isOptional, underlying, orNull]
  have apart : (list int).common? (array int) = none := by
    simp [common?_eq, assignable, isOptional]
  refine ⟨⟨isCommon, ?_⟩, apart, ?_⟩
  · exact ((join (optional int) float ⟨rfl, trivial⟩ trivial).1 _ isCommon).2.2
  · exact ((join (list int) (array int) trivial trivial).2 apart).2 ⟨int, .inl ⟨rfl, rfl⟩⟩

end LambdaQuery.Ty
