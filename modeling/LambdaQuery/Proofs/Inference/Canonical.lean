import LambdaQuery.Proofs.Inference.Binders
import LambdaQuery.Proofs.Inference.Respelt
import LambdaQuery.Proofs.Term.Nameless

/-!
# Slots without names

The slots of a query that was read do not depend on how its parameters are called. They can be given
to its nameless form just as well: an identifier shares the slot of the lambda at its distance. So
queries that are equal up to the names of their parameters have the same slots, and are the same
once they are spelt plainly.
-/

namespace LambdaQuery

/-- Letters that are small stay small. -/
theorem Text.folded_ofList_folded (name : String) :
    folded (String.ofList (folded name)) = folded name := by
  simp only [folded, String.toList_ofList, List.map_map]
  refine List.map_congr_left fun c _ => ?_
  show c.toLower.toLower = c.toLower
  unfold Char.toLower
  by_cases capital : c.val ≥ 'A'.val ∧ c.val ≤ 'Z'.val
  · rw [dif_pos capital]
    apply dif_neg
    have first : 'A'.val.toNat = 65 := rfl
    have last : 'Z'.val.toNat = 90 := rfl
    have between : ('a'.val - 'A'.val).toNat = 32 := rfl
    simp only [UInt32.le_iff_toNat_le, ge_iff_le, UInt32.toNat_add] at capital ⊢
    omega
  · rw [dif_neg capital, dif_neg capital]

/-- Names in small letters, and all nodes in one place. -/
def Respelling.plain : Respelling where
  span _ := ⟨0, 0⟩
  name n := String.ofList (Text.folded n)
  earlier := []
  sameName := Text.folded_ofList_folded
  nowhere := rfl

namespace Nameless

/-- A node without a place. -/
def slotted (slot : Nat) : Slotted :=
  ⟨slot, ⟨0, 0⟩⟩

mutual
/-- Give every node and every parameter its slot, from `next` on. `slots` are those of the
parameters around, the innermost first. -/
def number (slots : List Nat) : Nameless → (next : Nat) → Term Slotted × Nat
  | lambda body, next =>
    let (body, after) := number (next :: slots) body (next + 1)
    (.lambda (slotted after) ⟨⟨next, ""⟩, slotted next⟩ body, after + 1)
  | binary op left right, next =>
    let (left, next) := number slots left next
    let (right, next) := number slots right next
    (.binary (slotted next) op left right, next + 1)
  | call name args, next =>
    let (args, next) := numberAll slots args next
    (.call (slotted next) (String.ofList name) args, next + 1)
  | member receiver name, next =>
    let (receiver, next) := number slots receiver next
    (.member (slotted next) receiver (String.ofList name), next + 1)
  | ident (.bound distance), next =>
    let slot := slots[distance]?.getD next
    (.ident (slotted slot) ⟨slot, ""⟩, next)
  | ident (.free _), next => (.ident (slotted next) ⟨next, ""⟩, next + 1)
  | literal text, next => (.literal (slotted next) text, next + 1)

def numberAll (slots : List Nat) : List Nameless → (next : Nat) → List (Term Slotted) × Nat
  | [], next => ([], next)
  | t :: rest, next =>
    let (t, next) := number slots t next
    let (rest, next) := numberAll slots rest next
    (t :: rest, next)
end

end Nameless

namespace Term

/-- Where a tree stands that is about to be numbered: the parameters around it come before its own,
and the slot of each is that of its distance. -/
structure Stands (scope : Scope) (low : Nat) (distances : Distances) (slots : List Nat)
    (n : Numbering) : Prop where
  below : ∀ symbol ∈ scope, symbol.id < low
  found : ∀ symbol ∈ scope, ∃ distance slot, distances symbol.id = some distance ∧
    slots[distance]? = some slot ∧ n.binders.lookup symbol = some slot

namespace Stands

variable {scope : Scope} {low high : Nat} {distances : Distances} {slots : List Nat} {n : Numbering}

theorem start : Stands [] 0 .empty [] .start :=
  ⟨by simp, by simp⟩

theorem enter (h : Stands scope low distances slots n) {symbol : Symbol} (le : low ≤ symbol.id) :
    Stands (symbol :: scope) (symbol.id + 1) (distances.enter symbol) (n.next :: slots)
      (n.bind symbol) where
  below := by
    refine List.forall_mem_cons.2 ⟨Nat.lt_succ_self _, fun other mem => ?_⟩
    have := h.below other mem
    omega
  found := by
    refine List.forall_mem_cons.2
      ⟨⟨0, n.next, by simp [Distances.enter], rfl, ?_⟩, fun other mem => ?_⟩
    · have itself : (symbol == symbol) = true := by simp [BEq.beq]
      simp [Numbering.bind, List.lookup_cons, itself]
    · obtain ⟨distance, slot, far, there, looked⟩ := h.found other mem
      have different : other.id ≠ symbol.id := by
        have := h.below other mem
        omega
      refine ⟨distance + 1, slot, by simp [Distances.enter, different, far], there, ?_⟩
      simp [Numbering.bind, List.lookup_cons, Symbol.beq_eq_false different, looked]

/-- Parameters that are bound later are not taken for those around. -/
theorem later (h : Stands scope low distances slots n) {symbols : List Symbol} {n' : Numbering}
    (grown : ∃ new, n'.binders = new ++ n.binders ∧ new.map Prod.fst = symbols.reverse)
    (rising : Rising low (symbols.map Symbol.id) high) (le : low ≤ high) :
    Stands scope high distances slots n' where
  below symbol mem := Nat.lt_of_lt_of_le (h.below symbol mem) le
  found symbol mem := by
    obtain ⟨distance, slot, far, there, looked⟩ := h.found symbol mem
    obtain ⟨new, isNew, keys⟩ := grown
    have notNew : new.lookup symbol = none := by
      refine List.lookup_eq_none_iff.2 fun p isNew => ?_
      have isSymbol : p.1 ∈ symbols := by
        rw [← List.mem_reverse, ← keys]
        exact List.mem_map_of_mem isNew
      have above := (rising.within p.1.id (List.mem_map_of_mem isSymbol)).1
      have below := h.below symbol mem
      simp [bne, Symbol.beq_eq_false (show symbol.id ≠ p.1.id by omega)]
    exact ⟨distance, slot, far, there, by rw [isNew, List.lookup_append, notNew, looked]; rfl⟩

end Stands

mutual
/-- A tree in its plain spelling is its nameless form with the same slots. -/
theorem plain_number : ∀ (t : Term Span) {scope : Scope} {low high : Nat} {distances : Distances}
    {slots : List Nat} {n : Numbering}, Scoped scope low t high →
    Stands scope low distances slots n → (t.namelessUnder distances).number slots n.next =
      (Respelling.plain.term (t.number n).1, (t.number n).2.next)
  | .lambda _ param body, _, _, _, distances, slots, n, .lambda le _ inScope, stands => by
    have onBody : (body.namelessUnder (distances.enter param.symbol)).number (n.next :: slots)
        (n.next + 1) = _ := plain_number body inScope (stands.enter le)
    simp only [namelessUnder, Nameless.number, onBody]
    rfl
  | .binary _ op left right, _, _, _, _, _, n, .binary inLeft inRight, stands => by
    have onLeft := plain_number left inLeft stands
    have onRight := plain_number right inRight
      (stands.later (left.number_binders n) inLeft.symbols_rising inLeft.le)
    simp only [namelessUnder, Nameless.number, onLeft, onRight]
    rfl
  | .call _ name args, _, _, _, _, _, n, .call _ inScope, stands => by
    have onArgs := plain_numberAll args inScope stands
    simp only [namelessUnder, Nameless.number, onArgs]
    rfl
  | .member _ receiver name, _, _, _, _, _, n, .member _ inScope, stands => by
    have onReceiver := plain_number receiver inScope stands
    simp only [namelessUnder, Nameless.number, onReceiver]
    rfl
  | .ident _ symbol, _, _, _, distances, _, n, .ident isBound, stands => by
    obtain ⟨distance, slot, far, there, looked⟩ :=
      stands.found symbol (List.mem_of_find?_eq_some isBound)
    have isReference : distances.refer symbol = .bound distance := by simp [Distances.refer, far]
    simp only [namelessUnder, isReference, Nameless.number, there, number, looked]
    rfl
  | .literal _ text, _, _, _, _, _, n, .literal, stands => rfl

theorem plain_numberAll : ∀ (ts : List (Term Span)) {scope : Scope} {low high : Nat}
    {distances : Distances} {slots : List Nat} {n : Numbering}, ScopedAll scope low ts high →
    Stands scope low distances slots n →
      Nameless.numberAll slots (namelessUnderAll distances ts) n.next =
        (Respelling.plain.termAll (numberAll ts n).1, (numberAll ts n).2.next)
  | [], _, _, _, _, _, _, .nil, _ => rfl
  | t :: rest, _, _, _, _, _, n, .cons inFirst inRest, stands => by
    have onFirst := plain_number t inFirst stands
    have onRest := plain_numberAll rest inRest
      (stands.later (t.number_binders n) inFirst.symbols_rising inFirst.le)
    simp only [namelessUnderAll, Nameless.numberAll, onFirst, onRest]
    rfl
end

/-- Queries that are equal up to the names of their parameters have the same slots. -/
theorem plain_eq_of_alphaEq {q q' : Term Span} {high high' : Nat} (inScope : Scoped [] 0 q high)
    (inScope' : Scoped [] 0 q' high') (equal : q.alphaEq q' = true) :
    Respelling.plain.term (q.number .start).1 = Respelling.plain.term (q'.number .start).1 ∧
      (q.number .start).2.next = (q'.number .start).2.next := by
  have same : q.namelessUnder .empty = q'.namelessUnder .empty := (alphaEq_iff q q').1 equal
  have onFirst := plain_number q inScope .start
  have onSecond := plain_number q' inScope' .start
  rw [same] at onFirst
  exact Prod.mk.inj (onFirst.symm.trans onSecond)

end Term

end LambdaQuery
