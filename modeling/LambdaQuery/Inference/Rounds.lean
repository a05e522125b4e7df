import LambdaQuery.Inference.Work

/-!
Working in rounds. A round that does something leaves less work, or as much work and less to
learn, so the work comes to an end.
-/

namespace LambdaQuery.Inference

theorem bind_ok {α β : Type} {x : Inference α} {f : α → Inference β} {s s' : Solver} {b : β}
    (h : (x >>= f) s = .ok b s') : ∃ a t, x s = .ok a t ∧ f a t = .ok b s' := by
  have unfolded : EStateM.bind x f s = .ok b s' := h
  unfold EStateM.bind at unfolded
  split at unfolded
  · exact ⟨_, _, ‹_›, unfolded⟩
  · cases unfolded

theorem pure_ok {α : Type} {a b : α} {s s' : Solver}
    (h : (pure a : Inference α) s = .ok b s') : a = b ∧ s = s' := by
  have unfolded : EStateM.Result.ok a s = .ok b s' := h
  simpa using unfolded

theorem get_ok {s s' t : Solver} (h : (get : Inference Solver) s = .ok t s') : s = t ∧ s = s' := by
  have unfolded : EStateM.Result.ok s s = .ok t s' := h
  simpa using unfolded

theorem learn_ok {catalog : Catalog} {tasks : List Task} {s s' : Solver} {u : Unit}
    (h : learn catalog tasks s = .ok u s') : s.narrow catalog tasks = .ok s' := by
  unfold learn at h
  split at h <;> simp_all

theorem fail_ne_ok {α : Type} {slot : Nat} {fault : TypeFault} {s s' : Solver} {a : α} :
    (fail slot fault : Inference α) s ≠ .ok a s' := fun h => by
  obtain ⟨_, _, _, thrown⟩ := bind_ok h
  have : EStateM.Result.error _ _ = EStateM.Result.ok _ _ := thrown
  cases this

/-- A computation after which there is no more to learn than before. -/
def Lowers {α : Type} (x : Inference α) : Prop :=
  ∀ ⦃s s' : Solver⦄ ⦃a : α⦄, x s = .ok a s' → s'.potential ≤ s.potential

namespace Lowers

variable {α β : Type}

theorem bind {x : Inference α} {f : α → Inference β} (hx : Lowers x) (hf : ∀ a, Lowers (f a)) :
    Lowers (x >>= f) := fun _ _ _ h =>
  let ⟨_, _, first, then'⟩ := bind_ok h
  Nat.le_trans (hf _ then') (hx first)

theorem pure (a : α) : Lowers (Pure.pure a : Inference α) := fun _ _ _ h =>
  Nat.le_of_eq (congrArg Solver.potential (pure_ok h).2.symm)

theorem get : Lowers (MonadState.get : Inference Solver) := fun _ _ _ h =>
  Nat.le_of_eq (congrArg Solver.potential (get_ok h).2.symm)

theorem learn (catalog : Catalog) (tasks : List Task) : Lowers (Inference.learn catalog tasks) :=
  fun _ _ _ h => Solver.narrow_potential_le (learn_ok h)

theorem ask (resolver : Resolver) (r : Request) : Lowers (Inference.ask resolver r) :=
  fun _ _ _ h => by
    unfold Inference.ask at h
    cases h
    exact Nat.le_refl _

theorem fail (slot : Nat) (fault : TypeFault) : Lowers (Inference.fail slot fault : Inference α) :=
  fun _ _ _ h => absurd h fail_ne_ok

end Lowers

theorem operands_lowers (catalog : Catalog) (slot : Nat) (op : Operator) (left right : Nat) :
    Lowers (operands catalog slot op left right) := by
  refine .bind .get fun s => ?_
  split
  · split
    · exact .fail _ _
    · exact .pure _
  · split
    · exact .bind (.learn _ _) fun _ => .pure _
    · exact .pure _
  · split
    · exact .bind (.learn _ _) fun _ => .pure _
    · exact .pure _
  · exact .pure _

theorem numbersOnly_lowers (catalog : Catalog) (op : Operator) (slot left right : Nat) :
    Lowers (numbersOnly catalog op slot left right) := by
  unfold numbersOnly
  split
  · exact .pure _
  · exact .learn _ _

theorem arithmeticResult_lowers (catalog : Catalog) (slot left right : Nat) :
    Lowers (arithmeticResult catalog slot left right) := by
  refine .bind .get fun s => ?_
  split
  · split
    · exact .bind (.learn _ _) fun _ => .pure _
    · exact .pure _
  · exact .pure _

theorem presetOperands_lowers (catalog : Catalog) (slot left right : Nat) :
    Lowers (presetOperands catalog slot left right) := by
  refine .bind .get fun s => ?_
  split
  · split
    · exact .bind (.learn _ _) fun _ => .pure _
    · exact .pure _
  · exact .pure _

/-- Trying an operator makes no new slots. -/
theorem attemptBinary_lowers (catalog : Catalog) (slot : Nat) (op : Operator) (left right : Nat) :
    Lowers (attemptBinary catalog slot op left right) := by
  unfold attemptBinary
  split
  · exact .bind (.learn _ _) fun _ => .pure _
  · exact .bind (.learn _ _) fun _ => operands_lowers ..
  · exact .bind (.learn _ _) fun _ => operands_lowers ..
  · refine .bind (numbersOnly_lowers ..) fun _ => .bind (operands_lowers ..) fun ready => ?_
    split
    · exact arithmeticResult_lowers ..
    · refine .bind (presetOperands_lowers ..) fun preset => ?_
      split
      · refine .bind (numbersOnly_lowers ..) fun _ => .bind (operands_lowers ..) fun ready => ?_
        split
        · exact arithmeticResult_lowers ..
        · exact .pure _
      · exact .pure _

/-- An item that is not done makes no new slots. -/
theorem attempt_false {catalog : Catalog} {resolver : Resolver} {item : Item} {s s' : Solver}
    (h : attempt catalog resolver item s = .ok false s') : s'.potential ≤ s.potential := by
  cases item with
  | binary slot op left right => exact attemptBinary_lowers _ _ _ _ _ h
  | member slot receiver name =>
    obtain ⟨_, _, got, h⟩ := bind_ok h
    obtain ⟨rfl, rfl⟩ := get_ok got
    cases known : s.known? receiver with
    | none =>
      simp only [known] at h
      obtain ⟨_, _, learnt, done⟩ := bind_ok h
      rw [← (pure_ok done).2]
      exact Lowers.learn _ _ learnt
    | some ty =>
      simp only [known] at h
      obtain ⟨found, t, _, h⟩ := bind_ok h
      cases found with
      | none => exact absurd h fail_ne_ok
      | some o =>
        obtain ⟨_, _, _, done⟩ := bind_ok h
        cases (pure_ok done).1
  | call slot name args =>
    obtain ⟨_, _, got, h⟩ := bind_ok h
    obtain ⟨_, rfl⟩ := get_ok got
    obtain ⟨answer, t, asked, h⟩ := bind_ok h
    split at h
    · rw [← (pure_ok h).2]
      exact Lowers.ask _ _ asked
    · obtain ⟨_, _, _, done⟩ := bind_ok h
      cases (pure_ok done).1

/-- Trying all items leaves fewer of them, or the same and no more to learn. -/
theorem attemptAll_ok {catalog : Catalog} {resolver : Resolver} {pending left : List Item}
    {s s' : Solver} (h : attemptAll catalog resolver pending s = .ok left s') :
    left.length < pending.length ∨
      left.length = pending.length ∧ s'.potential ≤ s.potential := by
  induction pending generalizing s left with
  | nil =>
    obtain ⟨rfl, rfl⟩ := pure_ok h
    exact .inr ⟨rfl, Nat.le_refl _⟩
  | cons item rest ih =>
    obtain ⟨done, t, tried, h⟩ := bind_ok h
    obtain ⟨more, u, others, h⟩ := bind_ok h
    obtain ⟨rfl, rfl⟩ := pure_ok h
    have := ih others
    cases done with
    | true => simp; omega
    | false =>
      have := attempt_false tried
      simp
      omega

theorem settle_ok {catalog : Catalog} {slots : List Nat} {s s' : Solver} {progress : Bool}
    (h : settle catalog slots s = .ok progress s') :
    s'.potential ≤ s.potential ∧ (progress = true → s'.potential < s.potential) := by
  induction slots generalizing s progress with
  | nil =>
    obtain ⟨rfl, rfl⟩ := pure_ok h
    simp
  | cons slot rest ih =>
    obtain ⟨_, _, got, h⟩ := bind_ok h
    obtain ⟨rfl, rfl⟩ := get_ok got
    cases settled : s.settledTy? slot with
    | some ty =>
      simp only [settled] at h
      obtain ⟨_, t, learnt, h⟩ := bind_ok h
      obtain ⟨_, u, others, h⟩ := bind_ok h
      obtain ⟨rfl, rfl⟩ := pure_ok h
      have lower : t.potential < s.potential := by
        unfold Solver.settledTy? at settled
        split at settled
        · cases settled
        · split at settled
          · exact Solver.narrow_assign_lt ‹_› ‹_› (learn_ok learnt)
          · cases settled
      have := (ih others).1
      omega
    | none =>
      simp only [settled] at h
      exact ih h

theorem defaultLiterals_ok {catalog : Catalog} {literals : List (Nat × String)} {s s' : Solver}
    {progress : Bool} (h : defaultLiterals catalog literals s = .ok progress s') :
    s'.potential ≤ s.potential ∧ (progress = true → s'.potential < s.potential) := by
  induction literals generalizing s progress with
  | nil =>
    obtain ⟨rfl, rfl⟩ := pure_ok h
    simp
  | cons literal rest ih =>
    obtain ⟨slot, text⟩ := literal
    obtain ⟨_, _, got, h⟩ := bind_ok h
    obtain ⟨rfl, rfl⟩ := get_ok got
    cases number : numberTy? text with
    | none =>
      simp only [number] at h
      exact ih h
    | some ty =>
      simp only [number] at h
      cases isOpen : s.isOpen slot with
      | false =>
        simp only [isOpen] at h
        exact ih h
      | true =>
        simp only [isOpen] at h
        obtain ⟨_, t, learnt, h⟩ := bind_ok h
        obtain ⟨_, u, others, h⟩ := bind_ok h
        obtain ⟨rfl, rfl⟩ := pure_ok h
        have lower : t.potential < s.potential := by
          simp only [Solver.isOpen, Bool.and_eq_true, Option.isSome_iff_exists,
            Option.isNone_iff_eq_none] at isOpen
          obtain ⟨⟨leader, there⟩, unknown⟩ := isOpen
          unfold Solver.known? at unknown
          split at unknown
          · cases unknown
          · exact Solver.narrow_assign_lt there ‹_› (learn_ok learnt)
        have := (ih others).1
        omega

/-- A round that does something leaves less. -/
theorem round_ok {catalog : Catalog} {resolver : Resolver} {literals : List (Nat × String)}
    {pending left : List Item} {s s' : Solver}
    (h : round catalog resolver literals pending s = .ok (left, true) s') :
    left.length < pending.length ∨
      left.length = pending.length ∧ s'.potential < s.potential := by
  obtain ⟨left', t, tried, h⟩ := bind_ok h
  split at h
  · obtain ⟨same, _⟩ := pure_ok h
    cases same
    exact .inl ‹_›
  · obtain ⟨progress, u, advanced, h⟩ := bind_ok h
    obtain ⟨same, rfl⟩ := pure_ok h
    cases same
    have := attemptAll_ok tried
    obtain ⟨_, _, got, advanced⟩ := bind_ok advanced
    obtain ⟨rfl, rfl⟩ := get_ok got
    obtain ⟨settled, v, settling, advanced⟩ := bind_ok advanced
    have := settle_ok settling
    split at advanced
    · obtain ⟨_, rfl⟩ := pure_ok advanced
      simp_all
      omega
    · have := defaultLiterals_ok advanced
      simp_all
      omega

/-- Work until a round gets nowhere. What is left cannot be done. -/
def solve (catalog : Catalog) (resolver : Resolver) (literals : List (Nat × String))
    (pending : List Item) (s : Solver) : EStateM.Result TypeError Solver (List Item) :=
  match _h : round catalog resolver literals pending s with
  | .error e s' => .error e s'
  | .ok (left, false) s' => .ok left s'
  | .ok (left, true) s' => solve catalog resolver literals left s'
termination_by (pending.length, s.potential)
decreasing_by
  rcases round_ok ‹_› with fewer | ⟨same, lower⟩
  · exact .left _ _ fewer
  · rw [same]
    exact .right _ lower

/-- One round and what comes after it. -/
theorem solve_eq (catalog : Catalog) (resolver : Resolver) (literals : List (Nat × String))
    (pending : List Item) (s : Solver) : solve catalog resolver literals pending s =
      match round catalog resolver literals pending s with
      | .error e s' => .error e s'
      | .ok (left, false) s' => .ok left s'
      | .ok (left, true) s' => solve catalog resolver literals left s' := by
  rw [solve]
  split <;> simp [*]

end LambdaQuery.Inference
