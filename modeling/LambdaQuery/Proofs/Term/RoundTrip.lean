import LambdaQuery.Proofs.Term.Reading
import LambdaQuery.Proofs.Term.Scoping

/-!
# Queries are read as they are written

Trees with proper names that are written alike are equal up to the names of their parameters. A tree
that is read from a text has proper names. So writing a tree and reading the text gives the tree.
-/

namespace LambdaQuery

open Token

namespace Term

variable {α β : Type}

/-- Under parameters of the same names, the same name stands for the same parameter. -/
theorem refer_eq {xs ys : List Symbol} (names : xs.map Symbol.name = ys.map Symbol.name)
    {a b : Symbol} (sameName : a.name = b.name) {i j : Nat} (isBound : refer xs a = .bound i)
    (isNamed : xs.findIdx? (fun param => param.name == a.name) = some i)
    (isBound' : refer ys b = .bound j)
    (isNamed' : ys.findIdx? (fun param => param.name == b.name) = some j) : refer xs a = refer ys b := by
  have byName (zs : List Symbol) (name : String) : zs.findIdx? (fun param => param.name == name) =
      (zs.map Symbol.name).findIdx? (fun other => other == name) := by
    rw [List.findIdx?_map]
    rfl
  rw [byName, names, sameName, ← byName, isNamed'] at isNamed
  cases isNamed
  rw [isBound, isBound']

mutual
/-- Trees with proper names that are written alike are equal up to the names of parameters. -/
theorem alphaEqUnder_of_spelling : ∀ {t : Term α} {t' : Term β} {xs ys : List Symbol},
    xs.map Symbol.name = ys.map Symbol.name → t.WellNamed xs → t'.WellNamed ys →
    t.spelling = t'.spelling → alphaEqUnder xs ys t t' = true
  | .lambda _ param body, t', xs, ys, names, named, named', alike => by
    cases t' with
    | lambda _ param' body' =>
      simp only [spelling, lambda.injEq, true_and, Binder.mk.injEq, Symbol.mk.injEq, and_true]
        at alike
      have names' : (param.symbol :: xs).map Symbol.name = (param'.symbol :: ys).map Symbol.name := by
        simp [alike.1, names]
      rw [alphaEqUnder]
      exact alphaEqUnder_of_spelling names' named.2 named'.2 alike.2
    | _ => cases alike
  | .binary _ op left right, t', xs, ys, names, named, named', alike => by
    cases t' with
    | binary _ op' left' right' =>
      simp only [spelling, binary.injEq, true_and] at alike
      simp [alphaEqUnder, alike.1, alphaEqUnder_of_spelling names named.1 named'.1 alike.2.1,
        alphaEqUnder_of_spelling names named.2 named'.2 alike.2.2]
    | _ => cases alike
  | .call _ name args, t', xs, ys, names, named, named', alike => by
    cases t' with
    | call _ name' args' =>
      simp only [spelling, call.injEq, true_and] at alike
      simp [alphaEqUnder, alike.1, alphaEqAll_of_spelling names named.2 named'.2 alike.2]
    | _ => cases alike
  | .member _ receiver name, t', xs, ys, names, named, named', alike => by
    cases t' with
    | member _ receiver' name' =>
      simp only [spelling, member.injEq, true_and] at alike
      simp [alphaEqUnder, alike.2, alphaEqUnder_of_spelling names named.2 named'.2 alike.1]
    | _ => cases alike
  | .ident _ symbol, t', xs, ys, names, ⟨_, isBound, isNamed⟩, named', alike => by
    cases t' with
    | ident _ symbol' =>
      obtain ⟨_, isBound', isNamed'⟩ := named'
      simp only [spelling, ident.injEq, true_and, Symbol.mk.injEq] at alike
      simp [alphaEqUnder, refer_eq names alike isBound isNamed isBound' isNamed']
    | _ => cases alike
  | .literal _ text, t', xs, ys, _, _, _, alike => by
    cases t' with
    | literal _ text' =>
      simp only [spelling, literal.injEq, true_and] at alike
      simp [alphaEqUnder, alike]
    | _ => cases alike

theorem alphaEqAll_of_spelling : ∀ {ts : List (Term α)} {ts' : List (Term β)} {xs ys : List Symbol},
    xs.map Symbol.name = ys.map Symbol.name → WellNamedAll xs ts → WellNamedAll ys ts' →
    spellingAll ts = spellingAll ts' → alphaEqAll xs ys ts ts' = true
  | [], ts', xs, ys, _, _, _, alike => by
    cases ts' with
    | nil => rfl
    | cons _ _ => cases alike
  | t :: ts, ts', xs, ys, names, named, named', alike => by
    cases ts' with
    | nil => cases alike
    | cons t' ts' =>
      simp only [spellingAll, List.cons.injEq] at alike
      simp [alphaEqAll, alphaEqUnder_of_spelling names named.1 named'.1 alike.1,
        alphaEqAll_of_spelling names named.2 named'.2 alike.2]
end

/-- If inner parameters have larger symbols, the innermost parameter of a name is also the innermost
with its symbol. -/
theorem refer_of_find? {scope : Scope} {symbol : Symbol}
    (rising : scope.Pairwise fun inner outer => outer.id < inner.id)
    (found : scope.find? symbol.name = some symbol) : ∃ distance,
      refer scope symbol = .bound distance ∧
        scope.findIdx? (fun param => param.name == symbol.name) = some distance := by
  obtain ⟨sameName, i, inside, isSymbol, before⟩ := List.find?_eq_some_iff_getElem.1 found
  have byName : scope.findIdx? (fun param => param.name == symbol.name) = some i := by
    rw [List.findIdx?_eq_some_iff_getElem]
    refine ⟨inside, by rw [isSymbol]; exact sameName, fun j lt => ?_⟩
    simpa using before j lt
  have bySymbol : scope.findIdx? (· == symbol) = some i := by
    rw [List.findIdx?_eq_some_iff_getElem]
    refine ⟨inside, by simp [isSymbol, BEq.beq], fun j lt => ?_⟩
    have inner := List.pairwise_iff_getElem.1 rising j i (by omega) inside lt
    rw [isSymbol] at inner
    have different : scope[j].id ≠ symbol.id := by omega
    simpa [BEq.beq] using different
  exact ⟨i, by simp [refer, bySymbol], byName⟩

mutual
/-- What is scoped has proper names. -/
theorem wellNamed_of_scoped : ∀ {t : Term Span} {scope : Scope} {low high : Nat},
    scope.Pairwise (fun inner outer => outer.id < inner.id) → (∀ symbol ∈ scope, symbol.id < low) →
    Scoped scope low t high → t.WellNamed scope
  | .lambda _ param body, scope, low, high, rising, below, .lambda le isName onBody => by
    have rising' : (param.symbol :: scope).Pairwise fun inner outer => outer.id < inner.id := by
      refine List.pairwise_cons.2 ⟨fun symbol mem => ?_, rising⟩
      have := below symbol mem
      omega
    have below' : ∀ symbol ∈ param.symbol :: scope, symbol.id < param.symbol.id + 1 := by
      intro symbol mem
      rcases List.mem_cons.1 mem with rfl | inRest
      · omega
      · have := below symbol inRest
        omega
    exact ⟨isName, wellNamed_of_scoped rising' below' onBody⟩
  | .binary .., _, _, _, rising, below, .binary onLeft onRight =>
    ⟨wellNamed_of_scoped rising below onLeft, wellNamed_of_scoped rising
      (fun symbol mem => Nat.lt_of_lt_of_le (below symbol mem) onLeft.le) onRight⟩
  | .call .., _, _, _, rising, below, .call isName onArgs =>
    ⟨isName, wellNamedAll_of_scoped rising below onArgs⟩
  | .member .., _, _, _, rising, below, .member isName onReceiver =>
    ⟨isName, wellNamed_of_scoped rising below onReceiver⟩
  | .ident .., _, _, _, rising, _, .ident found => refer_of_find? rising found
  | .literal .., _, _, _, _, _, .literal => trivial

theorem wellNamedAll_of_scoped : ∀ {ts : List (Term Span)} {scope : Scope} {low high : Nat},
    scope.Pairwise (fun inner outer => outer.id < inner.id) → (∀ symbol ∈ scope, symbol.id < low) →
    ScopedAll scope low ts high → WellNamedAll scope ts
  | [], _, _, _, _, _, .nil => trivial
  | _ :: _, _, _, _, rising, below, .cons first rest =>
    ⟨wellNamed_of_scoped rising below first, wellNamedAll_of_scoped rising
      (fun symbol mem => Nat.lt_of_lt_of_le (below symbol mem) first.le) rest⟩
end

theorem wellNamed_of_ofText {limit : Nat} {text : String} {t : Term Span}
    (h : ofText limit text = .ok t) : t.WellNamed [] := by
  obtain ⟨high, inScope⟩ := scoped_of_ofText h
  exact wellNamed_of_scoped .nil (by simp) inScope

namespace Parser

mutual
theorem tooTall?_eq_none {limit : Nat} : ∀ {t : Term Span} {depth : Nat},
    depth + t.height ≤ limit + 1 → tooTall? limit depth t = none
  | .lambda _ _ body, depth, fits => by
    rw [height] at fits
    rw [tooTall?, if_neg (by omega)]
    exact tooTall?_eq_none (by omega)
  | .binary _ _ left right, depth, fits => by
    rw [height] at fits
    rw [tooTall?, if_neg (by omega)]
    have onLeft : tooTall? limit (depth + 1) left = none := tooTall?_eq_none (by omega)
    have onRight : tooTall? limit (depth + 1) right = none := tooTall?_eq_none (by omega)
    simp [onLeft, onRight]
  | .call _ _ args, depth, fits => by
    rw [height] at fits
    rw [tooTall?, if_neg (by omega)]
    exact anyTooTall?_eq_none (by omega)
  | .member _ receiver _, depth, fits => by
    rw [height] at fits
    rw [tooTall?, if_neg (by omega)]
    exact tooTall?_eq_none (by omega)
  | .ident .., depth, fits => by
    rw [height] at fits
    rw [tooTall?, if_neg (by omega)]
  | .literal .., depth, fits => by
    rw [height] at fits
    rw [tooTall?, if_neg (by omega)]

theorem anyTooTall?_eq_none {limit : Nat} : ∀ {ts : List (Term Span)} {depth : Nat},
    depth + heightAll ts ≤ limit + 1 → anyTooTall? limit depth ts = none
  | [], _, _ => rfl
  | t :: ts, depth, fits => by
    rw [heightAll] at fits
    have first : tooTall? limit depth t = none := tooTall?_eq_none (by omega)
    have rest : anyTooTall? limit depth ts = none := anyTooTall?_eq_none (by omega)
    simp [anyTooTall?, first, rest]
end

end Parser

/-- What is written of a tree with proper names can be read, and the tree that is read is written the
same way. -/
theorem ofText_source {t : Term α} (named : t.WellNamed []) {limit : Nat}
    (enough : 2 * t.height ≤ limit) :
    ∃ t', ofText limit t.source = .ok t' ∧ t'.spelling = t.spelling := by
  have spelled : (Tokens.ofText t.source).significant.Spells (t.sourceChars ++ []) := by
    refine ⟨0, ?_⟩
    rw [List.append_nil, Tokens.ofText, source, String.toList_ofList]
  obtain ⟨t', rest, isRead, alike, ⟨offset, rfl⟩, -⟩ :=
    (Parser.readable (by simp) named).query limit limit rfl enough .done spelled
  refine ⟨t', ?_, alike⟩
  have sameHeight : t'.height = t.height := by
    rw [← height_spelling, alike, height_spelling]
  have fits : Parser.tooTall? limit 1 t' = none := Parser.tooTall?_eq_none (by omega)
  have atEnd : (Tokens.scan offset []).significant.peek = .ok ⟨.eof, "", ⟨offset, offset⟩⟩ := by
    rw [Tokens.scan_nil]
    rfl
  simp [ofText, isRead, bind, Except.bind, atEnd, fits]

theorem exists_alphaEq {t : Term α} (named : t.WellNamed []) {limit : Nat}
    (enough : 2 * t.height ≤ limit) :
    ∃ t', ofText limit t.source = .ok t' ∧ t'.alphaEq t = true := by
  obtain ⟨t', isRead, alike⟩ := ofText_source named enough
  exact ⟨t', isRead, alphaEqUnder_of_spelling rfl (wellNamed_of_ofText isRead) named alike⟩

end Term

/-- A tree with proper names that is written as a text and read again, with a nesting limit of at
least twice its height, comes out equal up to the names of its parameters. Every tree that is read
from a text is such a tree. -/
theorem source_roundtrip {α : Type} :
    (∀ (t : Term α) (limit : Nat), t.WellNamed [] → 2 * t.height ≤ limit →
      ∃ t', Term.ofText limit t.source = .ok t' ∧ t'.alphaEq t = true) ∧
    ∀ (limit : Nat) (text : String) (t : Term Span), Term.ofText limit text = .ok t →
      t.WellNamed [] ∧ ∀ limit', 2 * t.height ≤ limit' →
        ∃ t', Term.ofText limit' t.source = .ok t' ∧ t'.alphaEq t = true := by
  constructor
  · intro t limit named enough
    exact Term.exists_alphaEq named enough
  · intro limit text t isRead
    have named := Term.wellNamed_of_ofText isRead
    exact ⟨named, fun limit' enough => Term.exists_alphaEq named enough⟩

/-- A parameter inside another of its name, and a negative number with a member named like a
literal: `x => x - F(x => -1.5.true, x)`. -/
def shadowed : Term Unit :=
  .lambda () ⟨⟨0, "x"⟩, ()⟩ <| .binary () .sub (.ident () ⟨0, "x"⟩) <| .call () "F"
    [.lambda () ⟨⟨1, "x"⟩, ()⟩ (.member () (.literal () (some "-1.5")) "true"),
      .ident () ⟨0, "x"⟩]

theorem wellNamed_shadowed : shadowed.WellNamed [] := by
  have isName : IsFreeName "x" := ⟨⟨⟨.ident, "x", ⟨0, 1⟩⟩, 1, rfl, by cbv⟩, rfl⟩
  have isName' : IsFreeName "F" := ⟨⟨⟨.ident, "F", ⟨0, 1⟩⟩, 1, rfl, by cbv⟩, rfl⟩
  exact ⟨isName, ⟨0, rfl, rfl⟩, isName', ⟨isName, Term.Parser.isName_true, trivial⟩, ⟨0, rfl, rfl⟩,
    trivial⟩

theorem source_roundtrip_shadowed : shadowed.WellNamed [] ∧ 2 * shadowed.height ≤ 12 ∧
    (∃ t', Term.ofText 12 shadowed.source = .ok t' ∧ t'.alphaEq shadowed = true) ∧
    ∃ t, Term.ofText 12 shadowed.source = .ok t ∧ t.WellNamed [] ∧ 2 * t.height ≤ 12 ∧
      ∃ t', Term.ofText 12 t.source = .ok t' ∧ t'.alphaEq t = true := by
  have enough : 2 * shadowed.height ≤ 12 := by decide
  obtain ⟨t, isRead, alike⟩ := Term.ofText_source wellNamed_shadowed enough
  have enough' : 2 * t.height ≤ 12 := by
    rwa [← Term.height_spelling, alike, Term.height_spelling]
  obtain ⟨named, again⟩ := (source_roundtrip (α := Unit)).2 12 shadowed.source t isRead
  exact ⟨wellNamed_shadowed, enough, source_roundtrip.1 shadowed 12 wellNamed_shadowed enough,
    t, isRead, named, enough', again 12 enough'⟩

end LambdaQuery
