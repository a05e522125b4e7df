import LambdaQuery.Term.Alpha

/-!
# Queries without names

In the nameless form of a query an identifier says how many lambdas further out its parameter is
bound. Queries are equal up to the names of parameters just if their nameless forms are the same.
A fingerprint is written from the nameless form alone, and the nameless form can be read back from
it.
-/

namespace LambdaQuery

/-- A query without the names of its parameters and the places of its nodes. Other names have their
ASCII letters small. -/
inductive Nameless where
  | lambda (body : Nameless)
  | binary (op : Operator) (left right : Nameless)
  | call (name : List Char) (args : List Nameless)
  | member (receiver : Nameless) (name : List Char)
  | ident (reference : Term.Reference)
  | literal (text : Option String)

namespace Term

variable {α β : Type}

/-- How many lambdas further out a symbol is bound, for each symbol that is. -/
def Distances := Nat → Option Nat

namespace Distances

def empty : Distances := fun _ => none

/-- Inside one more lambda, its own symbol is near and all others are one further out. -/
def enter (distances : Distances) (symbol : Symbol) : Distances := fun id =>
  if id = symbol.id then some 0 else (distances id).map (· + 1)

/-- A symbol that is bound nowhere around stands for itself. -/
def refer (distances : Distances) (symbol : Symbol) : Reference :=
  match distances symbol.id with
  | some distance => .bound distance
  | none => .free symbol.id

end Distances

mutual
/-- The nameless form of a tree inside lambdas at these distances. -/
def namelessUnder (distances : Distances) : Term α → Nameless
  | lambda _ param body => .lambda (namelessUnder (distances.enter param.symbol) body)
  | binary _ op left right => .binary op (namelessUnder distances left) (namelessUnder distances right)
  | call _ name args => .call (Text.folded name) (namelessUnderAll distances args)
  | member _ receiver name => .member (namelessUnder distances receiver) (Text.folded name)
  | ident _ symbol => .ident (distances.refer symbol)
  | literal _ text => .literal text

def namelessUnderAll (distances : Distances) : List (Term α) → List Nameless
  | [] => []
  | t :: rest => namelessUnder distances t :: namelessUnderAll distances rest
end

/-- The nameless form of a query. -/
def nameless (t : Term α) : Nameless :=
  namelessUnder .empty t

theorem length_namelessUnderAll (distances : Distances) (ts : List (Term α)) :
    (namelessUnderAll distances ts).length = ts.length := by
  induction ts with
  | nil => rfl
  | cons t rest ih => simp [namelessUnderAll, ih]

/-! Where a symbol is bound, by searching the binders and by counting. -/

/-- A symbol is found among the binders at its distance. -/
def Distances.Measure (distances : Distances) (binders : List Symbol) : Prop :=
  ∀ symbol : Symbol, binders.findIdx? (· == symbol) = distances symbol.id

theorem Distances.measure_empty : empty.Measure [] := fun _ => rfl

theorem Distances.Measure.enter {distances : Distances} {binders : List Symbol}
    (h : distances.Measure binders) (symbol : Symbol) :
    (distances.enter symbol).Measure (symbol :: binders) := by
  intro wanted
  rw [List.findIdx?_cons, h wanted]
  show (if (symbol.id == wanted.id) = true then _ else _) = distances.enter symbol wanted.id
  by_cases same : wanted.id = symbol.id
  · simp [Distances.enter, same]
  · simp [Distances.enter, same, Ne.symm same]

theorem Distances.Measure.refer_eq {distances : Distances} {binders : List Symbol}
    (h : distances.Measure binders) (symbol : Symbol) :
    Term.refer binders symbol = distances.refer symbol := by
  rw [Term.refer, h symbol]
  rfl

mutual
theorem alphaEqUnder_iff : ∀ (t : Term α) (t' : Term β) {xs ys : List Symbol}
    {outside outside' : Distances}, outside.Measure xs → outside'.Measure ys →
    (alphaEqUnder xs ys t t' = true ↔ namelessUnder outside t = namelessUnder outside' t')
  | .lambda _ param body, t', xs, ys, _, _, measure, measure' => by
    cases t' with
    | lambda _ param' body' =>
      rw [alphaEqUnder, namelessUnder, namelessUnder, Nameless.lambda.injEq]
      exact alphaEqUnder_iff body body' (measure.enter _) (measure'.enter _)
    | _ => simp [alphaEqUnder, namelessUnder]
  | .binary _ op left right, t', xs, ys, _, _, measure, measure' => by
    cases t' with
    | binary _ op' left' right' =>
      simp only [alphaEqUnder, namelessUnder, Bool.and_eq_true, beq_iff_eq, Nameless.binary.injEq,
        alphaEqUnder_iff left left' measure measure', alphaEqUnder_iff right right' measure measure',
        and_assoc]
    | _ => simp [alphaEqUnder, namelessUnder]
  | .call _ name args, t', xs, ys, _, _, measure, measure' => by
    cases t' with
    | call _ name' args' =>
      simp only [alphaEqUnder, namelessUnder, Bool.and_eq_true, Text.sameName_iff,
        Nameless.call.injEq, alphaEqAll_iff args args' measure measure']
    | _ => simp [alphaEqUnder, namelessUnder]
  | .member _ receiver name, t', xs, ys, _, _, measure, measure' => by
    cases t' with
    | member _ receiver' name' =>
      simp only [alphaEqUnder, namelessUnder, Bool.and_eq_true, Text.sameName_iff,
        Nameless.member.injEq, alphaEqUnder_iff receiver receiver' measure measure']
      exact and_comm
    | _ => simp [alphaEqUnder, namelessUnder]
  | .ident _ symbol, t', xs, ys, _, _, measure, measure' => by
    cases t' with
    | ident _ symbol' =>
      simp [alphaEqUnder, namelessUnder, measure.refer_eq, measure'.refer_eq]
    | _ => simp [alphaEqUnder, namelessUnder]
  | .literal _ text, t', xs, ys, _, _, measure, measure' => by
    cases t' with
    | literal _ text' => simp [alphaEqUnder, namelessUnder]
    | _ => simp [alphaEqUnder, namelessUnder]

theorem alphaEqAll_iff : ∀ (ts : List (Term α)) (ts' : List (Term β)) {xs ys : List Symbol}
    {outside outside' : Distances}, outside.Measure xs → outside'.Measure ys →
    (alphaEqAll xs ys ts ts' = true ↔ namelessUnderAll outside ts = namelessUnderAll outside' ts')
  | [], [], _, _, _, _, _, _ => by simp [alphaEqAll, namelessUnderAll]
  | [], _ :: _, _, _, _, _, _, _ => by simp [alphaEqAll, namelessUnderAll]
  | _ :: _, [], _, _, _, _, _, _ => by simp [alphaEqAll, namelessUnderAll]
  | t :: ts, t' :: ts', _, _, _, _, measure, measure' => by
    simp only [alphaEqAll, namelessUnderAll, Bool.and_eq_true, List.cons.injEq,
      alphaEqUnder_iff t t' measure measure', alphaEqAll_iff ts ts' measure measure']
end

/-- Queries are equal up to the names of parameters just if their nameless forms are the same. -/
theorem alphaEq_iff (t : Term α) (t' : Term β) :
    t.alphaEq t' = true ↔ t.nameless = t'.nameless :=
  alphaEqUnder_iff t t' Distances.measure_empty Distances.measure_empty

/-! Texts in a fingerprint. -/

theorem utf8_injective {cs ds : List Char} (h : utf8 cs = utf8 ds) : cs = ds := by
  have bytes (cs : List Char) : utf8 cs = (cs.flatMap String.utf8EncodeChar).map UInt8.toNat := by
    rw [utf8, List.map_flatMap]
  rw [bytes, bytes] at h
  have same : cs.utf8Encode = ds.utf8Encode := by
    rw [List.utf8Encode, List.utf8Encode, (List.map_inj_right fun _ _ => UInt8.toNat_inj.1).1 h]
  have decoded : some cs.toArray = some ds.toArray := by
    rw [← List.utf8Decode?_utf8Encode, same, List.utf8Decode?_utf8Encode]
  simpa using decoded

/-- The mark at the end of a text is not among its bytes. -/
theorem not_mem_utf8 (cs : List Char) : 0xff ∉ utf8 cs := by
  intro mem
  obtain ⟨c, -, inside⟩ := List.mem_flatMap.1 mem
  obtain ⟨byte, isByte, isMark⟩ := List.mem_map.1 inside
  unfold String.utf8EncodeChar at isByte
  -- A leading byte is at most 0xf7 and any other byte at most 0xbf.
  dsimp only at isByte
  split at isByte
  · obtain rfl := List.mem_singleton.1 isByte
    rw [UInt8.toNat_ofNat'] at isMark
    omega
  split at isByte
  · simp only [List.mem_cons, List.not_mem_nil, or_false] at isByte
    rcases isByte with rfl | rfl <;> rw [UInt8.toNat_ofNat'] at isMark <;> omega
  split at isByte
  · simp only [List.mem_cons, List.not_mem_nil, or_false] at isByte
    rcases isByte with rfl | rfl | rfl <;> rw [UInt8.toNat_ofNat'] at isMark <;> omega
  · simp only [List.mem_cons, List.not_mem_nil, or_false] at isByte
    rcases isByte with rfl | rfl | rfl | rfl <;> rw [UInt8.toNat_ofNat'] at isMark <;> omega

/-- Lists that end at the same mark, which neither holds, are the same. -/
theorem append_mark_inj {mark : Nat} : ∀ {xs ys rest rest' : List Nat}, mark ∉ xs → mark ∉ ys →
    xs ++ mark :: rest = ys ++ mark :: rest' → xs = ys ∧ rest = rest'
  | [], [], _, _, _, _, h => ⟨rfl, (List.cons.inj h).2⟩
  | [], y :: ys, _, _, _, outside, h => by
    have : mark = y := (List.cons.inj h).1
    simp [this] at outside
  | x :: xs, [], _, _, outside, _, h => by
    have : x = mark := (List.cons.inj h).1
    simp [this] at outside
  | x :: xs, y :: ys, _, _, outside, outside', h => by
    obtain ⟨rfl, tails⟩ := List.cons.inj h
    obtain ⟨rfl, rest⟩ := append_mark_inj (fun mem => outside (List.mem_cons_of_mem _ mem))
      (fun mem => outside' (List.mem_cons_of_mem _ mem)) tails
    exact ⟨rfl, rest⟩

theorem textWords_append_inj {cs ds : List Char} {rest rest' : List Nat}
    (h : textWords cs ++ rest = textWords ds ++ rest') : cs = ds ∧ rest = rest' := by
  simp only [textWords, List.append_assoc, List.singleton_append] at h
  obtain ⟨bytes, rest⟩ := append_mark_inj (not_mem_utf8 cs) (not_mem_utf8 ds) h
  exact ⟨utf8_injective bytes, rest⟩

theorem operatorWord_injective {op op' : Operator} (h : operatorWord op = operatorWord op') :
    op = op' := by
  have listed (op : Operator) : Operator.all[operatorWord op]? = some op := by cases op <;> rfl
  have same : some op = some op' := by rw [← listed, h, listed]
  exact Option.some.inj same

end Term

namespace Nameless

open Term

mutual
/-- The words of a nameless form. -/
def words : Nameless → List Nat
  | lambda body => 0 :: words body
  | binary op left right => 1 :: operatorWord op :: words left ++ words right
  | call name args => 2 :: textWords name ++ args.length :: wordsAll args
  | member receiver name => 3 :: textWords name ++ words receiver
  | ident reference => 4 :: reference.words
  | literal none => [5, 0]
  | literal (some text) => 5 :: 1 :: textWords text.toList

def wordsAll : List Nameless → List Nat
  | [] => []
  | n :: rest => words n ++ wordsAll rest
end

end Nameless

namespace Term

variable {α β : Type}

mutual
theorem wordsUnder_eq : ∀ (t : Term α) {binders : List Symbol} {distances : Distances},
    distances.Measure binders → wordsUnder binders t = (namelessUnder distances t).words
  | .lambda _ param body, _, _, measure => by
    simp only [wordsUnder, namelessUnder, Nameless.words, wordsUnder_eq body (measure.enter _)]
  | .binary _ _ left right, _, _, measure => by
    simp only [wordsUnder, namelessUnder, Nameless.words, wordsUnder_eq left measure,
      wordsUnder_eq right measure]
  | .call _ _ args, _, _, measure => by
    simp only [wordsUnder, namelessUnder, Nameless.words, length_namelessUnderAll,
      wordsUnderAll_eq args measure]
  | .member _ receiver _, _, _, measure => by
    simp only [wordsUnder, namelessUnder, Nameless.words, wordsUnder_eq receiver measure]
  | .ident _ symbol, _, _, measure => by
    simp only [wordsUnder, namelessUnder, Nameless.words, measure.refer_eq]
  | .literal _ none, _, _, _ => rfl
  | .literal _ (some _), _, _, _ => rfl

theorem wordsUnderAll_eq : ∀ (ts : List (Term α)) {binders : List Symbol} {distances : Distances},
    distances.Measure binders →
    wordsUnderAll binders ts = Nameless.wordsAll (namelessUnderAll distances ts)
  | [], _, _, _ => rfl
  | t :: rest, _, _, measure => by
    simp only [wordsUnderAll, namelessUnderAll, Nameless.wordsAll, wordsUnder_eq t measure,
      wordsUnderAll_eq rest measure]
end

/-- A fingerprint is written from the nameless form alone. -/
theorem fingerprint_eq (t : Term α) : t.fingerprint = t.nameless.words :=
  wordsUnder_eq t Distances.measure_empty

end Term

namespace Nameless

open Term

theorem reference_words_append_inj {a b : Reference} {rest rest' : List Nat}
    (h : a.words ++ rest = b.words ++ rest') : a = b ∧ rest = rest' := by
  cases a <;> cases b <;> simp_all [Reference.words]

mutual
/-- Where the words of a nameless form end can be seen from the words. -/
theorem words_append_inj : ∀ {n n' : Nameless} {rest rest' : List Nat},
    n.words ++ rest = n'.words ++ rest' → n = n' ∧ rest = rest'
  | .lambda body, n', rest, rest', h => by
    cases n' with
    | lambda body' =>
      simp only [words, List.cons_append, List.cons.injEq, true_and] at h
      obtain ⟨rfl, rest⟩ := words_append_inj h
      exact ⟨rfl, rest⟩
    | literal text => cases text <;> cases h
    | _ => cases h
  | .binary op left right, n', rest, rest', h => by
    cases n' with
    | binary op' left' right' =>
      simp only [words, List.cons_append, List.append_assoc, List.cons.injEq, true_and] at h
      obtain ⟨sameOp, tails⟩ := h
      obtain rfl := operatorWord_injective sameOp
      obtain ⟨rfl, afterLeft⟩ := words_append_inj tails
      obtain ⟨rfl, rest⟩ := words_append_inj afterLeft
      exact ⟨rfl, rest⟩
    | literal text => cases text <;> cases h
    | _ => cases h
  | .call name args, n', rest, rest', h => by
    cases n' with
    | call name' args' =>
      simp only [words, List.cons_append, List.append_assoc, List.cons.injEq, true_and] at h
      obtain ⟨rfl, tails⟩ := textWords_append_inj h
      obtain ⟨length, tails⟩ := List.cons.inj tails
      obtain ⟨rfl, rest⟩ := wordsAll_append_inj length tails
      exact ⟨rfl, rest⟩
    | literal text => cases text <;> cases h
    | _ => cases h
  | .member receiver name, n', rest, rest', h => by
    cases n' with
    | member receiver' name' =>
      simp only [words, List.cons_append, List.append_assoc, List.cons.injEq, true_and] at h
      obtain ⟨rfl, tails⟩ := textWords_append_inj h
      obtain ⟨rfl, rest⟩ := words_append_inj tails
      exact ⟨rfl, rest⟩
    | literal text => cases text <;> cases h
    | _ => cases h
  | .ident reference, n', rest, rest', h => by
    cases n' with
    | ident reference' =>
      simp only [words, List.cons_append, List.cons.injEq, true_and] at h
      obtain ⟨rfl, rest⟩ := reference_words_append_inj h
      exact ⟨rfl, rest⟩
    | literal text => cases text <;> cases h
    | _ => cases h
  | .literal none, n', rest, rest', h => by
    cases n' with
    | literal text' =>
      cases text' with
      | none => exact ⟨rfl, by simpa [words] using h⟩
      | some _ => cases h
    | _ => cases h
  | .literal (some text), n', rest, rest', h => by
    cases n' with
    | literal text' =>
      cases text' with
      | none => cases h
      | some text' =>
        simp only [words, List.cons_append, List.cons.injEq, true_and] at h
        obtain ⟨chars, rest⟩ := textWords_append_inj h
        obtain rfl := String.toList_injective chars
        exact ⟨rfl, rest⟩
    | _ => cases h

theorem wordsAll_append_inj : ∀ {ns ns' : List Nameless} {rest rest' : List Nat},
    ns.length = ns'.length → wordsAll ns ++ rest = wordsAll ns' ++ rest' → ns = ns' ∧ rest = rest'
  | [], [], _, _, _, h => ⟨rfl, h⟩
  | n :: ns, n' :: ns', _, _, length, h => by
    simp only [wordsAll, List.append_assoc] at h
    obtain ⟨rfl, tails⟩ := words_append_inj h
    obtain ⟨rfl, rest⟩ := wordsAll_append_inj (Nat.succ.inj length) tails
    exact ⟨rfl, rest⟩
end

theorem words_injective {n n' : Nameless} (h : n.words = n'.words) : n = n' := by
  have padded : n.words ++ [] = n'.words ++ [] := by rw [h]
  exact (words_append_inj padded).1

end Nameless

/-- Equality up to the names of parameters is equality of nameless forms, and so an equivalence; and
the queries equal to a query are those with its fingerprint. -/
theorem alphaEq_exactly_nameless {α : Type} :
    (∀ a b : Term α, a.alphaEq b = true ↔ a.nameless = b.nameless) ∧
      Equivalence (fun a b : Term α => a.alphaEq b = true) ∧
      ∀ a b : Term α, a.alphaEq b = true ↔ a.fingerprint = b.fingerprint := by
  refine ⟨Term.alphaEq_iff, ⟨fun a => ?_, fun {a b} h => ?_, fun {a b c} h h' => ?_⟩, fun a b => ?_⟩
  · exact (Term.alphaEq_iff a a).2 rfl
  · exact (Term.alphaEq_iff b a).2 ((Term.alphaEq_iff a b).1 h).symm
  · exact (Term.alphaEq_iff a c).2 (((Term.alphaEq_iff a b).1 h).trans ((Term.alphaEq_iff b c).1 h'))
  · rw [Term.alphaEq_iff, Term.fingerprint_eq, Term.fingerprint_eq]
    exact ⟨congrArg Nameless.words, Nameless.words_injective⟩

end LambdaQuery
