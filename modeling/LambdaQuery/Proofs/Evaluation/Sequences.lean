import LambdaQuery.Catalog.Members
import LambdaQuery.Proofs.Evaluation.Arithmetic
import Mathlib

/-!
# The members of sequences

A test or a selector is a function value, and applying it to an element can fail. Where it fails on no
element, the members are the operations on lists of the same meaning. Where it fails on some, the first
of these counts: the error there is the outcome, unless the answer was settled by an element before it.
Sums are exact as long as no sum on the way is too large, and extremes are found by comparing.
-/

namespace LambdaQuery

open Evaluation

/-- What the method of a name that takes so many arguments gives, if there is one. -/
def Members.call? (members : Members) (depth : Nat) (name : String) (receiver : Value)
    (args : List Value) : Option (Except EvalError Value) :=
  (members.methods.find? fun m => m.name == name && m.params.length == args.length).map
    fun m => m.function.call depth (receiver :: args)

/-- What a function answers as a test. To give something else than a truth value is to fail. -/
def Closure.test (depth : Nat) (p : Closure) (v : Value) : Except EvalError Bool := do
  let answer ← applyClosure depth p v
  answer.asBool

/-- The opposite test: whether the answer is `false`. -/
def Closure.opposite (p : Closure) : Closure :=
  { p with body := .binary .eq p.body (.constant (.bool false) .bool) .bool }

theorem Closure.test_opposite {depth : Nat} {p : Closure} {v : Value} {b : Bool}
    (answers : p.test depth v = .ok b) : p.opposite.test depth v = .ok !b := by
  cases depth with
  | zero => cases answers
  | succ depth =>
    simp only [test, applyClosure, opposite, evalWith] at answers ⊢
    cases evaluated : evalWith (applyClosure depth) p.body ((p.param.id, v) :: p.env) with
    | error e =>
      rw [evaluated] at answers
      cases answers
    | ok answer =>
      rw [evaluated] at answers
      cases answer with
      | bool c =>
        cases answers
        cases b <;> rfl
      | _ => cases answers

/-- The first element on which an operation fails: the elements before it, and the error. -/
structure FailsAfter {α β : Type} (f : α → Except EvalError β) (items before : List α)
    (error : EvalError) : Prop where
  fails : ∃ v after, items = before ++ v :: after ∧ f v = .error error
  earlier : ∀ w ∈ before, ∃ b, f w = .ok b

namespace FailsAfter

variable {α β : Type} {f : α → Except EvalError β} {v : α} {items before : List α}
  {error : EvalError}

theorem head (fails : f v = .error error) : FailsAfter f (v :: items) [] error :=
  ⟨⟨v, items, rfl, fails⟩, by simp⟩

theorem cons {b : β} (answers : f v = .ok b) (h : FailsAfter f items before error) :
    FailsAfter f (v :: items) (v :: before) error := by
  obtain ⟨⟨w, after, rfl, fails⟩, earlier⟩ := h
  exact ⟨⟨w, after, rfl, fails⟩, List.forall_mem_cons.2 ⟨⟨b, answers⟩, earlier⟩⟩

/-- Where an operation fails on some element, there is a first one. -/
theorem exists_of_mem (mem : v ∈ items) (fails : f v = .error error) :
    ∃ before error, FailsAfter f items before error := by
  induction items with
  | nil => cases mem
  | cons w items ih =>
    cases onFirst : f w with
    | error error' => exact ⟨[], error', head onFirst⟩
    | ok b =>
      have inRest : v ∈ items := by
        rcases List.mem_cons.1 mem with rfl | inRest
        · cases onFirst.symm.trans fails
        · exact inRest
      obtain ⟨before, error', first⟩ := ih inRest
      exact ⟨w :: before, error', first.cons onFirst⟩

end FailsAfter

/-! ### Loops -/

/-- Whether the wanted answer is given, asking from the front and not further than needed. -/
def seek {α : Type} (f : α → Except EvalError Bool) (wanted : Bool) :
    List α → Except EvalError Bool
  | [] => .ok false
  | v :: rest => do
    if (← f v) = wanted then .ok true else seek f wanted rest

section seek

variable {α : Type} {f : α → Except EvalError Bool} {wanted : Bool} {items before : List α}
  {error : EvalError}

theorem seek_of_answers {holds : α → Bool} (answers : ∀ v ∈ items, f v = .ok (holds v)) :
    seek f wanted items = .ok (items.any fun v => holds v == wanted) := by
  induction items with
  | nil => rfl
  | cons v rest ih =>
    obtain ⟨onFirst, onRest⟩ := List.forall_mem_cons.1 answers
    by_cases hit : holds v = wanted <;> simp [seek, onFirst, ih onRest, hit, bind, Except.bind]

/-- An element with the wanted answer before the first failure settles it. -/
theorem seek_of_hit (h : FailsAfter f items before error) (hit : ∃ w ∈ before, f w = .ok wanted) :
    seek f wanted items = .ok true := by
  obtain ⟨⟨v, after, rfl, -⟩, earlier⟩ := h
  induction before with
  | nil => simp at hit
  | cons w before ih =>
    obtain ⟨⟨b, onFirst⟩, onRest⟩ := List.forall_mem_cons.1 earlier
    by_cases isWanted : b = wanted
    · simp [seek, onFirst, isWanted, bind, Except.bind]
    · have later : ∃ w ∈ before, f w = .ok wanted := by
        simpa [onFirst, isWanted] using hit
      simp [seek, onFirst, isWanted, ih later onRest, bind, Except.bind]

theorem seek_of_failure (h : FailsAfter f items before error)
    (miss : ¬ ∃ w ∈ before, f w = .ok wanted) : seek f wanted items = .error error := by
  obtain ⟨⟨v, after, rfl, fails⟩, earlier⟩ := h
  induction before with
  | nil => simp [seek, fails, bind, Except.bind]
  | cons w before ih =>
    obtain ⟨⟨b, onFirst⟩, onRest⟩ := List.forall_mem_cons.1 earlier
    have unwanted : b ≠ wanted := by
      rintro rfl
      exact miss ⟨w, by simp, onFirst⟩
    have later : ¬ ∃ w ∈ before, f w = .ok wanted := by
      rintro ⟨u, mem, hit⟩
      exact miss ⟨u, List.mem_cons_of_mem _ mem, hit⟩
    simp [seek, onFirst, unwanted, ih later onRest, bind, Except.bind]

end seek

namespace Evaluation

variable {F : Type} {call : F → Data F → Except EvalError (Data F)} {test : Data F} {f : F}
  {items before : List (Data F)} {error : EvalError}

theorem anyPasses_eq_seek (items : List (Data F)) :
    anyPasses call test items = seek (passes call test) true items := by
  induction items with
  | nil => rfl
  | cons v rest ih => rw [anyPasses, seek, ih]

/-- All elements pass unless one is found that does not. -/
theorem allPass_eq_seek (items : List (Data F)) :
    allPass call test items = (seek (passes call test) false items).map not := by
  induction items with
  | nil => rfl
  | cons v rest ih =>
    rw [allPass, seek, ih]
    cases passes call test v with
    | error e => rfl
    | ok b => cases b <;> rfl

theorem passing_of_answers {holds : Data F → Bool}
    (answers : ∀ v ∈ items, passes call test v = .ok (holds v)) :
    passing call test items = .ok (items.filter holds) := by
  induction items with
  | nil => rfl
  | cons v rest ih =>
    obtain ⟨onFirst, onRest⟩ := List.forall_mem_cons.1 answers
    simp [passing, onFirst, ih onRest, List.filter_cons, bind, Except.bind]

theorem passing_of_failure (h : FailsAfter (passes call test) items before error) :
    passing call test items = .error error := by
  obtain ⟨⟨v, after, rfl, fails⟩, earlier⟩ := h
  induction before with
  | nil => simp [passing, fails, bind, Except.bind]
  | cons w before ih =>
    obtain ⟨⟨b, onFirst⟩, onRest⟩ := List.forall_mem_cons.1 earlier
    simp [passing, onFirst, ih onRest, bind, Except.bind]

theorem mapValues_of_results {g : Data F → Data F} (results : ∀ v ∈ items, call f v = .ok (g v)) :
    mapValues call f items = .ok (items.map g) := by
  induction items with
  | nil => rfl
  | cons v rest ih =>
    obtain ⟨onFirst, onRest⟩ := List.forall_mem_cons.1 results
    simp [mapValues, onFirst, ih onRest, bind, Except.bind]

theorem mapValues_of_failure (h : FailsAfter (call f) items before error) :
    mapValues call f items = .error error := by
  obtain ⟨⟨v, after, rfl, fails⟩, earlier⟩ := h
  induction before with
  | nil => simp [mapValues, fails, bind, Except.bind]
  | cons w before ih =>
    obtain ⟨⟨b, onFirst⟩, onRest⟩ := List.forall_mem_cons.1 earlier
    simp [mapValues, onFirst, ih onRest, bind, Except.bind]

/-! ### Numbers -/

/-- The sum of whole numbers without bounds. -/
def exactSum (numbers : List Int64) : Int :=
  (numbers.map Int64.toInt).sum

/-- Every sum on the way fits, from a start. -/
def SumsFit (start : Int) (numbers : List Int64) : Prop :=
  ∀ front, front <+: numbers → Number.fits (start + exactSum front) = true

theorem sumsFit_cons {start : Int} {n : Int64} {numbers : List Int64}
    (fit : Number.fits start = true) :
    SumsFit start (n :: numbers) ↔ SumsFit (start + n.toInt) numbers := by
  constructor
  · intro h front isPrefix
    have := h (n :: front) (List.cons_prefix_cons.2 ⟨rfl, isPrefix⟩)
    simpa [exactSum, Int.add_assoc] using this
  · intro h front isPrefix
    cases front with
    | nil => simpa [exactSum] using fit
    | cons m front =>
      obtain ⟨rfl, inRest⟩ := List.cons_prefix_cons.1 isPrefix
      simpa [exactSum, Int.add_assoc] using h front inRest

theorem SumsFit.head {start : Int} {numbers : List Int64} (h : SumsFit start numbers) :
    Number.fits start = true := by
  simpa [exactSum] using h [] List.nil_prefix

/-- A sum is exact if every sum on the way fits, and an overflow otherwise. -/
theorem sumFrom_whole (function : String) (start : Int64) (numbers : List Int64) :
    (SumsFit start.toInt numbers → ∃ n : Int64, n.toInt = start.toInt + exactSum numbers ∧
      sumFrom function (.int start : Data F) (numbers.map .int) = .ok (.int n)) ∧
    (¬ SumsFit start.toInt numbers → sumFrom function (.int start : Data F) (numbers.map .int) =
      .error (.functionOverflow function)) := by
  induction numbers generalizing start with
  | nil =>
    have fit : SumsFit start.toInt [] := by
      intro front isPrefix
      obtain rfl := List.prefix_nil.1 isPrefix
      simpa [exactSum] using Number.fits_toInt start
    exact ⟨fun _ => ⟨start, by simp [exactSum], rfl⟩, fun h => absurd fit h⟩
  | cons n numbers ih =>
    rw [sumsFit_cons (Number.fits_toInt start)]
    by_cases fit : Number.fits (start.toInt + n.toInt) = true
    · have added : Number.add? start n = some (.ofInt (start.toInt + n.toInt)) := if_pos fit
      have later := ih (.ofInt (start.toInt + n.toInt))
      rw [Number.toInt_ofInt_of_fits fit] at later
      simpa [sumFrom, added, exactSum, Int.add_assoc] using later
    · have overflows : Number.add? start n = none := if_neg fit
      exact ⟨fun h => absurd h.head fit, fun _ => by simp [sumFrom, overflows]⟩

theorem not_ahead_trans {ahead : Ordering} (strict : ahead ≠ .eq) {a b c : Int}
    (first : compare a b ≠ ahead) (second : compare b c ≠ ahead) : compare a c ≠ ahead := by
  cases ahead with
  | eq => exact absurd rfl strict
  | lt | gt =>
    simp only [ne_eq, compare_lt_iff_lt, compare_gt_iff_gt] at *
    omega

theorem not_ahead_of_ahead {ahead : Ordering} (strict : ahead ≠ .eq) {a b : Int}
    (h : compare a b = ahead) : compare b a ≠ ahead := by
  cases ahead with
  | eq => exact absurd rfl strict
  | lt | gt =>
    simp only [ne_eq, compare_lt_iff_lt, compare_gt_iff_gt] at *
    omega

/-- What is found is an element, and no element is ahead of it. -/
theorem extreme_whole (ahead : Ordering) (strict : ahead ≠ .eq) (best : Int64)
    (numbers : List Int64) : ∃ n ∈ best :: numbers,
      extreme ahead (.int best : Data F) (numbers.map .int) = .int n ∧
      ∀ m ∈ best :: numbers, compare m.toInt n.toInt ≠ ahead := by
  induction numbers generalizing best with
  | nil =>
    refine ⟨best, by simp, rfl, ?_⟩
    simpa using strict.symm
  | cons m numbers ih =>
    by_cases isAhead : compare m.toInt best.toInt = ahead
    · obtain ⟨n, mem, found, none⟩ := ih m
      refine ⟨n, List.mem_cons_of_mem _ mem, by simpa [extreme, Data.compare?, isAhead] using found, ?_⟩
      have behind := not_ahead_of_ahead strict isAhead
      exact List.forall_mem_cons.2 ⟨not_ahead_trans strict behind (none m (by simp)), none⟩
    · obtain ⟨n, mem, found, none⟩ := ih best
      obtain ⟨onBest, onRest⟩ := List.forall_mem_cons.1 none
      refine ⟨n, by grind, by simpa [extreme, Data.compare?, isAhead] using found, ?_⟩
      have onNext := not_ahead_trans strict isAhead onBest
      exact List.forall_mem_cons.2 ⟨onBest, List.forall_mem_cons.2 ⟨onNext, onRest⟩⟩

end Evaluation

/-! ### The members -/

namespace Members

variable {members : Members} {element : Ty} {depth : Nat} {items before : List Value}
  {p f : Closure} {error : EvalError}

/-- The members with a test are the operations on lists, where the test answers for each element. -/
structure Listwise (members : Members) (depth : Nat) (items : List Value) (p : Closure)
    (holds : Value → Bool) : Prop where
  any : members.call? depth "Any" (.list items) [.function p] =
    some (.ok (.bool (items.any holds)))
  all : members.call? depth "All" (.list items) [.function p] =
    some (.ok (.bool (items.all holds)))
  filter : members.call? depth "Where" (.list items) [.function p] =
    some (.ok (.list (items.filter holds)))
  /-- The number of elements, as long as the list is one that 64 bits can count. -/
  count : ∃ n : Int64, members.call? depth "Count" (.list items) [.function p] =
      some (.ok (.int n)) ∧ n = .ofNat (items.countP holds) ∧
    (items.length < 9223372036854775808 → n.toInt = items.countP holds)
  /-- The elements that pass can also be counted afterwards. -/
  counted : members.call? depth "Count" (.list items) [.function p] =
    members.call? depth "Count" (.list (items.filter holds)) []
  /-- All elements pass if none passes a test with the opposite answers. -/
  negated : ∀ q : Closure, (∀ v ∈ items, q.test depth v = .ok (!holds v)) →
    members.call? depth "Any" (.list items) [.function q] =
      some (.ok (.bool !(items.all holds)))
  opposite : ∀ v ∈ items, p.opposite.test depth v = .ok (!holds v)

/-- What the members with a test give, where the test first fails behind some elements. -/
structure Reports (members : Members) (depth : Nat) (items before : List Value) (p : Closure)
    (error : EvalError) : Prop where
  filter : members.call? depth "Where" (.list items) [.function p] = some (.error error)
  count : members.call? depth "Count" (.list items) [.function p] = some (.error error)
  any : (∃ w ∈ before, p.test depth w = .ok true) →
    members.call? depth "Any" (.list items) [.function p] = some (.ok (.bool true))
  any_error : (¬ ∃ w ∈ before, p.test depth w = .ok true) →
    members.call? depth "Any" (.list items) [.function p] = some (.error error)
  all : (∃ w ∈ before, p.test depth w = .ok false) →
    members.call? depth "All" (.list items) [.function p] = some (.ok (.bool false))
  all_error : (¬ ∃ w ∈ before, p.test depth w = .ok false) →
    members.call? depth "All" (.list items) [.function p] = some (.error error)

/-- The members of lists of whole numbers. -/
structure Aggregates (members : Members) (depth : Nat) (numbers : List Int64) : Prop where
  sum : SumsFit 0 numbers → ∃ n : Int64, n.toInt = exactSum numbers ∧
    members.call? depth "Sum" (.list (numbers.map .int)) [] = some (.ok (.int n))
  sum_overflow : ¬ SumsFit 0 numbers →
    members.call? depth "Sum" (.list (numbers.map .int)) [] =
      some (.error (.functionOverflow "Sum"))
  min : numbers ≠ [] → ∃ n ∈ numbers, (∀ m ∈ numbers, n.toInt ≤ m.toInt) ∧
    members.call? depth "Min" (.list (numbers.map .int)) [] = some (.ok (.int n))
  max : numbers ≠ [] → ∃ n ∈ numbers, (∀ m ∈ numbers, m.toInt ≤ n.toInt) ∧
    members.call? depth "Max" (.list (numbers.map .int)) [] = some (.ok (.int n))
  empty : numbers = [] →
    members.call? depth "Min" (.list (numbers.map .int)) [] =
      some (.error (.emptySequence "Min")) ∧
    members.call? depth "Max" (.list (numbers.map .int)) [] =
      some (.error (.emptySequence "Max"))

/-! Which loop a member runs. -/

theorem call?_any (element : Ty) : (ofSequence element).call? depth "Any" (.list items)
    [.function p] = some ((seek (p.test depth) true items).map .bool) := by
  have loop : anyPasses (applyClosure depth) (.function p) items = seek (p.test depth) true items :=
    anyPasses_eq_seek items
  rw [← loop]
  rfl

theorem call?_all (element : Ty) : (ofSequence element).call? depth "All" (.list items)
    [.function p] = some ((seek (p.test depth) false items).map fun found => .bool !found) := by
  have loop : allPass (applyClosure depth) (.function p) items =
      (seek (p.test depth) false items).map not := allPass_eq_seek items
  have ran : (ofSequence element).call? depth "All" (.list items) [.function p] =
      some ((allPass (applyClosure depth) (.function p) items).map .bool) := rfl
  rw [ran, loop]
  cases seek (p.test depth) false items <;> rfl

theorem call?_where (element : Ty) : (ofSequence element).call? depth "Where" (.list items)
    [.function p] = some ((passing (applyClosure depth) (.function p) items).map .list) :=
  rfl

theorem call?_count (element : Ty) : (ofSequence element).call? depth "Count" (.list items)
    [.function p] = some ((passing (applyClosure depth) (.function p) items).map
      fun kept => .int (.ofNat kept.length)) :=
  rfl

theorem call?_select (element : Ty) : (ofSequence element).call? depth "Select" (.list items)
    [.function f] = some ((mapValues (applyClosure depth) f items).map .list) :=
  rfl

theorem listwise_ofSequence (element : Ty) {holds : Value → Bool}
    (answers : ∀ v ∈ items, p.test depth v = .ok (holds v)) :
    (ofSequence element).Listwise depth items p holds := by
  have kept : passing (applyClosure depth) (.function p) items = .ok (items.filter holds) :=
    passing_of_answers answers
  refine ⟨?_, ?_, ?_, ⟨.ofNat (items.filter holds).length, ?_, ?_, ?_⟩, ?_, ?_, ?_⟩
  · rw [call?_any, seek_of_answers answers]
    simp [Except.map]
  · rw [call?_all, seek_of_answers answers, List.all_eq_not_any_not]
    simp [Except.map]
  · rw [call?_where, kept]
    rfl
  · rw [call?_count, kept]
    rfl
  · rw [List.countP_eq_length_filter]
  · intro small
    have le := List.countP_le_length (p := holds) (l := items)
    rw [← List.countP_eq_length_filter]
    exact Int64.toInt_ofNat_of_lt (by omega)
  · rw [call?_count, kept]
    rfl
  · intro q opposite
    rw [call?_any, seek_of_answers opposite, List.all_eq_not_any_not]
    simp [Except.map]
  · exact fun v mem => Closure.test_opposite (answers v mem)

theorem reports_ofSequence (element : Ty) (h : FailsAfter (p.test depth) items before error) :
    (ofSequence element).Reports depth items before p error := by
  have failed : passing (applyClosure depth) (.function p) items = .error error :=
    passing_of_failure h
  refine ⟨?_, ?_, fun hit => ?_, fun miss => ?_, fun hit => ?_, fun miss => ?_⟩
  · rw [call?_where, failed]
    rfl
  · rw [call?_count, failed]
    rfl
  · rw [call?_any, seek_of_hit h hit]
    rfl
  · rw [call?_any, seek_of_failure h miss]
    rfl
  · rw [call?_all, seek_of_hit h hit]
    rfl
  · rw [call?_all, seek_of_failure h miss]
    rfl

theorem aggregates_ofSequence (depth : Nat) (numbers : List Int64) :
    (ofSequence .int).Aggregates depth numbers := by
  have summed := sumFrom_whole (F := Closure) "Sum" 0 numbers
  have sum : (ofSequence .int).call? depth "Sum" (.list (numbers.map .int)) [] =
      some (sumFrom "Sum" (.int 0) (numbers.map .int)) := rfl
  simp only [Int64.toInt_zero, Int.zero_add] at summed
  refine ⟨fun fit => ?_, fun large => ?_, fun nonempty => ?_, fun nonempty => ?_, ?_⟩
  · obtain ⟨n, exact, isSum⟩ := summed.1 fit
    exact ⟨n, exact, by rw [sum, isSum]⟩
  · rw [sum, summed.2 large]
  · obtain ⟨first, rest, rfl⟩ := List.exists_cons_of_ne_nil nonempty
    obtain ⟨n, mem, found, none⟩ := extreme_whole (F := Closure) .lt (by decide) first rest
    refine ⟨n, mem, fun m inside => ?_, ?_⟩
    · simpa [compare_lt_iff_lt] using none m inside
    · exact congrArg (fun v => some (Except.ok v)) found
  · obtain ⟨first, rest, rfl⟩ := List.exists_cons_of_ne_nil nonempty
    obtain ⟨n, mem, found, none⟩ := extreme_whole (F := Closure) .gt (by decide) first rest
    refine ⟨n, mem, fun m inside => ?_, ?_⟩
    · simpa [compare_gt_iff_gt] using none m inside
    · exact congrArg (fun v => some (Except.ok v)) found
  · rintro rfl
    exact ⟨rfl, rfl⟩

/-- The members of a sequence agree with the operations on lists. A test that answers for each
element makes them those operations, a test that fails is reported at the first element where it
does unless the answer was clear before, and a selector is applied in order or reported likewise;
sums of whole numbers are exact or reported, and their extremes are elements. -/
theorem sequence_listwise (element : Ty) (depth : Nat) (items : List Value) (p : Closure) :
    (∀ holds, (∀ v ∈ items, p.test depth v = .ok (holds v)) →
      (ofSequence element).Listwise depth items p holds) ∧
    ((∃ v ∈ items, ∃ error, p.test depth v = .error error) →
      ∃ before error, FailsAfter (p.test depth) items before error) ∧
    (∀ before error, FailsAfter (p.test depth) items before error →
      (ofSequence element).Reports depth items before p error) ∧
    (∀ f, (∀ v ∈ items, applyClosure depth p v = .ok (f v)) →
      (ofSequence element).call? depth "Select" (.list items) [.function p] =
        some (.ok (.list (items.map f)))) ∧
    ((∃ v ∈ items, ∃ error, applyClosure depth p v = .error error) →
      ∃ before error, FailsAfter (applyClosure depth p) items before error) ∧
    (∀ before error, FailsAfter (applyClosure depth p) items before error →
      (ofSequence element).call? depth "Select" (.list items) [.function p] =
        some (.error error)) ∧
    ∀ numbers, (ofSequence .int).Aggregates depth numbers := by
  refine ⟨fun holds => listwise_ofSequence element, ?_, fun before error => reports_ofSequence element,
    fun f results => ?_, ?_, fun before error first => ?_, aggregates_ofSequence depth⟩
  · rintro ⟨v, mem, error, fails⟩
    exact FailsAfter.exists_of_mem mem fails
  · rw [call?_select, mapValues_of_results results]
    rfl
  · rintro ⟨v, mem, error, fails⟩
    exact FailsAfter.exists_of_mem mem fails
  · rw [call?_select, mapValues_of_failure first]
    rfl

/-- The test `x => 6 / (x - 2) < 0`, which fails on 2. -/
def negativeQuotient : Closure :=
  let x : Param := ⟨0, "x", .int⟩
  let number (n : Int64) : Expr := .constant (.int n) .int
  ⟨x, .binary .lt (.binary .div (number 6) (.binary .sub (.param x) (number 2) .int) .int)
    (number 0) .bool, []⟩

/-- Some element passes before the test fails, and no element is known to fail it. -/
theorem sequence_listwise_quotient :
    let items : List Value := [.int 1, .int 2, .int 5]
    FailsAfter (negativeQuotient.test 1) items [.int 1] .divisionByZero ∧
    (ofSequence .int).call? 1 "Any" (.list items) [.function negativeQuotient] =
      some (.ok (.bool true)) ∧
    (ofSequence .int).call? 1 "All" (.list items) [.function negativeQuotient] =
      some (.error .divisionByZero) ∧
    (∀ v ∈ ([.int 5, .int 1] : List Value), negativeQuotient.test 1 v =
      .ok (v.compare? (.int 2) == some .lt)) ∧
    (ofSequence .int).call? 1 "Where" (.list [.int 5, .int 1]) [.function negativeQuotient] =
      some (.ok (.list [.int 1])) := by
  intro items
  have answers : ∀ v ∈ ([.int 5, .int 1] : List Value), negativeQuotient.test 1 v =
      .ok (v.compare? (.int 2) == some .lt) := by
    simp only [List.forall_mem_cons]
    exact ⟨rfl, rfl, by simp⟩
  have first : FailsAfter (negativeQuotient.test 1) items [.int 1] .divisionByZero :=
    .cons (b := true) rfl (.head rfl)
  have reports := (sequence_listwise .int 1 items negativeQuotient).2.2.1 _ _ first
  refine ⟨first, reports.any ⟨.int 1, by simp, rfl⟩, reports.all_error ?_, answers, ?_⟩
  · simp only [List.mem_singleton, exists_eq_left]
    intro fails
    cases fails
  · exact ((sequence_listwise .int 1 _ negativeQuotient).1 _ answers).filter

end Members

end LambdaQuery
