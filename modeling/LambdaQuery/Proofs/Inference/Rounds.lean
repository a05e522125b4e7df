import Mathlib.Data.List.Nodup
import LambdaQuery.Proofs.Inference.Work

/-!
# What working in rounds comes to

Whatever order the work is done in, at the end each item is done or left, and what an item that is
done says of types still holds.
-/

namespace LambdaQuery.Inference

open Solver

variable {catalog : Catalog} {P : Ty → Prop} {resolver : Resolver} {s s' : Solver}
  {pending left : List Item}

/-- What became of a solver that worked on items, of which some are left. -/
structure Worked (catalog : Catalog) (P : Ty → Prop) (resolver : Resolver)
    (pending left : List Item) (s s' : Solver) : Prop extends s.Grown catalog P s' where
  sublist : left.Sublist pending
  others : ∀ i, i ∉ pending.map Item.slot → s'.overload? i = s.overload? i
  kept : ∀ item ∈ left, s'.overload? item.slot = s.overload? item.slot
  each : ∀ item ∈ pending, item ∈ left ∨ item.Done catalog resolver s'

namespace Worked

theorem of_learnt {Q : Valuation → Prop} (h : Learnt catalog P s s' Q) :
    Worked catalog P resolver pending pending s s' where
  toGrown := h.toGrown
  sublist := List.Sublist.refl _
  others i _ := h.overloads i
  kept item _ := h.overloads item.slot
  each _ mem := .inl mem

/-- Items of different slots do not undo each other's work. -/
theorem trans {t : Solver} {middle : List Item} (distinct : (pending.map Item.slot).Nodup)
    (first : Worked catalog P resolver pending middle s t)
    (second : Worked catalog P resolver middle left t s') :
    Worked catalog P resolver pending left s s' where
  toGrown := first.toGrown.trans second.toGrown
  sublist := second.sublist.trans first.sublist
  others i notThere := by
    have notMiddle : i ∉ middle.map Item.slot := fun mem =>
      notThere ((first.sublist.map Item.slot).subset mem)
    rw [second.others i notMiddle, first.others i notThere]
  kept item mem := (second.kept item mem).trans (first.kept item (second.sublist.subset mem))
  each item mem := by
    by_cases still : item ∈ middle
    · exact second.each item still
    · rcases first.each item mem with inMiddle | done
      · exact absurd inMiddle still
      · refine .inr (done.grown second.toGrown (second.others _ fun there => still ?_))
        obtain ⟨other, inMiddle, sameSlot⟩ := List.mem_map.1 there
        have same := List.inj_on_of_nodup_map distinct (first.sublist.subset inMiddle) mem sameSlot
        exact same ▸ inMiddle

end Worked

theorem attemptAll_worked (closed : catalog.Closed P) (respects : resolver.Respects P)
    (v : s.Valid P) (within : ∀ item ∈ pending, ∀ i ∈ item.slots, i < s.cells.size)
    (distinct : (pending.map Item.slot).Nodup)
    (h : attemptAll catalog resolver pending s = .ok left s') :
    Worked catalog P resolver pending left s s' := by
  induction pending generalizing s left with
  | nil =>
    obtain ⟨rfl, rfl⟩ := pure_ok h
    exact .of_learnt (.refl v)
  | cons item rest ih =>
    obtain ⟨done, t, tried, h⟩ := bind_ok h
    obtain ⟨more, t', others, h⟩ := bind_ok h
    obtain ⟨isLeft, rfl⟩ := pure_ok h
    obtain ⟨notThere, distinctRest⟩ := List.nodup_cons.1 distinct
    obtain ⟨grown, elsewhere, isDone⟩ :=
      attempt_ok closed respects v (within item List.mem_cons_self) tried
    have onRest := ih grown.valid (fun item mem i inItem =>
      Nat.lt_of_lt_of_le (within item (List.mem_cons_of_mem _ mem) i inItem) grown.size)
      distinctRest others
    have keptAfter := onRest.others item.slot notThere
    refine ⟨grown.trans onRest.toGrown, ?_, ?_, ?_, ?_⟩
    · subst isLeft
      cases done with
      | true => exact onRest.sublist.cons item
      | false => exact onRest.sublist.cons_cons item
    · intro i notMem
      simp only [List.map_cons, List.mem_cons, not_or] at notMem
      rw [onRest.others i notMem.2, elsewhere i (.inl notMem.1)]
    · intro item' mem
      by_cases same : item'.slot = item.slot
      · rw [same, keptAfter]
        cases done with
        | false => exact elsewhere _ (.inr rfl)
        | true =>
          have inMore : item' ∈ more := by simpa [← isLeft] using mem
          exact absurd (same ▸ List.mem_map_of_mem (onRest.sublist.subset inMore)) notThere
      · have inMore : item' ∈ more := by
          subst isLeft
          cases done with
          | true => exact mem
          | false =>
            rcases List.mem_cons.1 mem with rfl | inMore
            · exact absurd rfl same
            · exact inMore
        rw [onRest.kept item' inMore, elsewhere _ (.inl same)]
    · intro item' mem
      rcases List.mem_cons.1 mem with rfl | inRest
      · cases done with
        | true => exact .inr ((isDone rfl).grown onRest.toGrown keptAfter)
        | false => exact .inl (by simp [← isLeft])
      · rcases onRest.each item' inRest with inMore | done'
        · refine .inl ?_
          subst isLeft
          cases done <;> simp [inMore]
        · exact .inr done'

/-! Putting types together, and looking at literals. -/

theorem knownAll?_eq_some {slots : List Nat} {types : List Ty}
    (h : s.knownAll? slots = some types) : slots.map s.known? = types.map some := by
  induction slots generalizing types with
  | nil =>
    cases h
    rfl
  | cons slot slots ih =>
    unfold knownAll? at h
    split at h
    · rename_i ty rest known others
      cases h
      rw [List.map_cons, List.map_cons, known, ih others]
    · cases h

theorem assemble?_proper (closed : catalog.Closed P) (v : s.Valid P) {c : Constraint} {ty : Ty}
    (h : s.assemble? c = some ty) : P ty := by
  unfold assemble? at h
  split at h
  · obtain ⟨element, known, rfl⟩ := Option.map_eq_some_iff.1 h
    exact closed.array (v.known? known)
  · obtain ⟨inner, known, rfl⟩ := Option.map_eq_some_iff.1 h
    exact closed.orNull (v.known? known)
  · obtain ⟨element, known, rfl⟩ := Option.map_eq_some_iff.1 h
    exact closed.enumerable (v.known? known)
  · split at h
    · rename_i types result onParams onResult
      cases h
      refine closed.lambda (fun ty mem => ?_) (v.known? onResult)
      have inParams : some ty ∈ types.map some := List.mem_map_of_mem mem
      rw [← knownAll?_eq_some onParams] at inParams
      obtain ⟨slot, _, known⟩ := List.mem_map.1 inParams
      exact v.known? known
    · cases h
  · cases h
  · cases h

theorem settle_learnt (closed : catalog.Closed P) {slots : List Nat} {progress : Bool}
    (v : s.Valid P) (h : settle catalog slots s = .ok progress s') :
    Learnt catalog P s s' (fun _ => True) ∧ (progress = false → s' = s) := by
  induction slots generalizing s progress with
  | nil =>
    obtain ⟨rfl, rfl⟩ := pure_ok h
    exact ⟨.refl v, fun _ => rfl⟩
  | cons slot rest ih =>
    obtain ⟨_, _, got, h⟩ := bind_ok h
    obtain ⟨rfl, rfl⟩ := get_ok got
    cases settled : s.settledTy? slot with
    | none =>
      simp only [settled] at h
      exact ih v h
    | some ty =>
      simp only [settled] at h
      obtain ⟨_, t, learnt, h⟩ := bind_ok h
      obtain ⟨_, t', others, h⟩ := bind_ok h
      obtain ⟨rfl, rfl⟩ := pure_ok h
      have task : ∀ u ∈ [Task.assign slot ty], u.Within P s.cells.size := by
        simp only [List.mem_singleton, forall_eq]
        unfold settledTy? at settled
        split at settled
        · cases settled
        · split at settled
          · obtain ⟨c, _, assembled⟩ := Option.bind_eq_some_iff.1 settled
            exact ⟨slot_lt_of_leader? ‹_›, assemble?_proper closed v assembled⟩
          · cases settled
      have first := learn_learnt closed v task learnt
      exact ⟨(first.trans (ih first.valid others).1).mono (by simp), by simp⟩

theorem defaultLiterals_learnt (closed : catalog.Closed P) {literals : List (Nat × String)}
    {progress : Bool} (v : s.Valid P) (h : defaultLiterals catalog literals s = .ok progress s') :
    Learnt catalog P s s' (fun _ => True) ∧ (progress = false → s' = s) := by
  induction literals generalizing s progress with
  | nil =>
    obtain ⟨rfl, rfl⟩ := pure_ok h
    exact ⟨.refl v, fun _ => rfl⟩
  | cons literal rest ih =>
    obtain ⟨slot, text⟩ := literal
    obtain ⟨_, _, got, h⟩ := bind_ok h
    obtain ⟨rfl, rfl⟩ := get_ok got
    cases number : numberTy? text with
    | none =>
      simp only [number] at h
      exact ih v h
    | some ty =>
      simp only [number] at h
      cases isOpen : s.isOpen slot with
      | false =>
        simp only [isOpen] at h
        exact ih v h
      | true =>
        simp only [isOpen] at h
        obtain ⟨_, t, learnt, h⟩ := bind_ok h
        obtain ⟨_, t', others, h⟩ := bind_ok h
        obtain ⟨rfl, rfl⟩ := pure_ok h
        have proper : P ty := by
          unfold numberTy? at number
          simp only at number
          repeat' split at number
          all_goals cases number
          · exact closed.int
          · exact closed.float
        have lt : slot < s.cells.size := by
          simp only [Solver.isOpen, Bool.and_eq_true, Option.isSome_iff_exists] at isOpen
          obtain ⟨⟨leader, led⟩, _⟩ := isOpen
          exact slot_lt_of_leader? led
        have first := learn_learnt closed v (by simpa [Task.Within] using ⟨lt, proper⟩) learnt
        exact ⟨(first.trans (ih first.valid others).1).mono (by simp), by simp⟩

theorem advance_learnt (closed : catalog.Closed P) {literals : List (Nat × String)}
    {progress : Bool} (v : s.Valid P) (h : advance catalog literals s = .ok progress s') :
    Learnt catalog P s s' (fun _ => True) ∧ (progress = false → s' = s) := by
  obtain ⟨_, _, got, h⟩ := bind_ok h
  obtain ⟨rfl, rfl⟩ := get_ok got
  obtain ⟨settled, t, settling, h⟩ := bind_ok h
  obtain ⟨first, unchanged⟩ := settle_learnt closed v settling
  cases settled with
  | true =>
    obtain ⟨rfl, rfl⟩ := pure_ok h
    exact ⟨first, by simp⟩
  | false =>
    cases unchanged rfl
    exact defaultLiterals_learnt closed v h

/-! Rounds. -/

/-- A comparison that was tried has a type. -/
def Asked (s : Solver) (item : Item) : Prop :=
  match item with
  | .binary slot op _ _ => op.Compares → ∃ ty, s.known? slot = some ty
  | _ => True

theorem Asked.grown {item : Item} (h : Asked s item) (grown : s.Grown catalog P s') :
    Asked s' item := by
  cases item with
  | binary slot op left right =>
    intro compares
    obtain ⟨ty, known⟩ := h compares
    exact ⟨ty, grown.known? known⟩
  | _ => trivial

theorem attempt_asked (closed : catalog.Closed P) {item : Item} {done : Bool} (v : s.Valid P)
    (within : ∀ i ∈ item.slots, i < s.cells.size)
    (h : attempt catalog resolver item s = .ok done s') : Asked s' item := by
  cases item with
  | binary slot op left right =>
    intro compares
    have learnt := attemptBinary_learnt closed v (within slot (by simp [Item.slots, Item.slot]))
      (within left (by simp [Item.slots, Item.operands]))
      (within right (by simp [Item.slots, Item.operands])) h
    have holds := learnt.fact (models_known? catalog s') (.inr compares)
    unfold Operator.Holds at holds
    rcases compares with kind | kind
    · simp only [kind] at holds
      obtain ⟨ty, known, _⟩ := holds
      exact ⟨ty, known⟩
    · simp only [kind] at holds
      obtain ⟨ty, known, _⟩ := holds
      exact ⟨ty, known⟩
  | _ => trivial

theorem attemptAll_asked (closed : catalog.Closed P) (respects : resolver.Respects P)
    (v : s.Valid P) (within : ∀ item ∈ pending, ∀ i ∈ item.slots, i < s.cells.size)
    (distinct : (pending.map Item.slot).Nodup)
    (h : attemptAll catalog resolver pending s = .ok left s') : ∀ item ∈ pending, Asked s' item := by
  induction pending generalizing s left with
  | nil => simp
  | cons item rest ih =>
    obtain ⟨done, t, tried, h⟩ := bind_ok h
    obtain ⟨more, t', others, h⟩ := bind_ok h
    obtain ⟨_, rfl⟩ := pure_ok h
    have distinctRest := (List.nodup_cons.1 distinct).2
    have itemWithin := within item List.mem_cons_self
    have grown := (attempt_ok closed respects v itemWithin tried).1
    have restWithin : ∀ item ∈ rest, ∀ i ∈ item.slots, i < t.cells.size := fun item mem i inItem =>
      Nat.lt_of_lt_of_le (within item (List.mem_cons_of_mem _ mem) i inItem) grown.size
    have later := attemptAll_worked closed respects grown.valid restWithin distinctRest others
    intro item' mem
    rcases List.mem_cons.1 mem with rfl | inRest
    · exact (attempt_asked closed v itemWithin tried).grown later.toGrown
    · exact ih grown.valid restWithin distinctRest others item' inRest

/-- A round that does nothing has only tried every item once more. -/
theorem round_worked (closed : catalog.Closed P) (respects : resolver.Respects P)
    {literals : List (Nat × String)} {progress : Bool} (v : s.Valid P)
    (within : ∀ item ∈ pending, ∀ i ∈ item.slots, i < s.cells.size)
    (distinct : (pending.map Item.slot).Nodup)
    (h : round catalog resolver literals pending s = .ok (left, progress) s') :
    Worked catalog P resolver pending left s s' ∧ (∀ item ∈ pending, Asked s' item) ∧
      (progress = false → left = pending ∧ attemptAll catalog resolver pending s = .ok left s') := by
  obtain ⟨left', t, tried, h⟩ := bind_ok h
  have worked := attemptAll_worked closed respects v within distinct tried
  have asked := attemptAll_asked closed respects v within distinct tried
  by_cases fewer : left'.length < pending.length
  · simp only [fewer, if_true] at h
    obtain ⟨same, rfl⟩ := pure_ok h
    cases same
    exact ⟨worked, asked, by simp⟩
  · simp only [fewer, if_false] at h
    obtain ⟨moved, t', advanced, h⟩ := bind_ok h
    obtain ⟨same, rfl⟩ := pure_ok h
    cases same
    obtain ⟨learnt, unchanged⟩ := advance_learnt closed worked.valid advanced
    refine ⟨worked.trans distinct (.of_learnt learnt),
      fun item mem => (asked item mem).grown learnt.toGrown, fun none => ⟨?_, ?_⟩⟩
    · exact worked.sublist.eq_of_length_le (by omega)
    · rw [unchanged none]
      exact tried

/-- At the end each item is done or left. What is left was tried in a last round that did nothing,
which is the first one or finds a type at every comparison. -/
theorem solve_worked (closed : catalog.Closed P) (respects : resolver.Respects P)
    {literals : List (Nat × String)} (v : s.Valid P)
    (within : ∀ item ∈ pending, ∀ i ∈ item.slots, i < s.cells.size)
    (distinct : (pending.map Item.slot).Nodup)
    (h : solve catalog resolver literals pending s = .ok left s') :
    Worked catalog P resolver pending left s s' ∧
      ∃ t, s.Grown catalog P t ∧ attemptAll catalog resolver left t = .ok left s' ∧
        (t = s ∧ left = pending ∨ ∀ item ∈ left, Asked t item) := by
  fun_induction solve catalog resolver literals pending s with
  | case1 => cases h
  | case2 pending s left' t rounded =>
    cases h
    obtain ⟨worked, _, stopped⟩ := round_worked closed respects v within distinct rounded
    obtain ⟨rfl, tried⟩ := stopped rfl
    exact ⟨worked, s, .refl v, tried, .inl ⟨rfl, rfl⟩⟩
  | case3 pending s middle t rounded ih =>
    obtain ⟨worked, asked, _⟩ := round_worked closed respects v within distinct rounded
    have middleWithin : ∀ item ∈ middle, ∀ i ∈ item.slots, i < t.cells.size :=
      fun item mem i inItem =>
        Nat.lt_of_lt_of_le (within item (worked.sublist.subset mem) i inItem) worked.size
    have middleDistinct := (worked.sublist.map Item.slot).nodup distinct
    obtain ⟨worked', u, grown, last, ends⟩ := ih worked.valid middleWithin middleDistinct h
    refine ⟨worked.trans distinct worked', u, worked.toGrown.trans grown, last, .inr ?_⟩
    rcases ends with ⟨rfl, rfl⟩ | asked'
    · exact fun item mem => asked item (worked.sublist.subset mem)
    · exact asked'

/-! Following the work on one query. -/

/-- Work for some rounds, one by one, and then as long as it takes. -/
def solveBy (catalog : Catalog) (resolver : Resolver) (literals : List (Nat × String)) :
    (rounds : Nat) → List Item → Solver → EStateM.Result TypeError Solver (List Item)
  | 0, pending, s => solve catalog resolver literals pending s
  | rounds + 1, pending, s =>
    match round catalog resolver literals pending s with
    | .error e s' => .error e s'
    | .ok (left, false) s' => .ok left s'
    | .ok (left, true) s' => solveBy catalog resolver literals rounds left s'

theorem solve_eq_solveBy (rounds : Nat) (catalog : Catalog) (resolver : Resolver)
    (literals : List (Nat × String)) :
    solve catalog resolver literals = solveBy catalog resolver literals rounds := by
  induction rounds with
  | zero => rfl
  | succ rounds ih =>
    funext pending s
    rw [solve, solveBy, ← ih]
    split <;> simp_all

end LambdaQuery.Inference
