import LambdaQuery.Proofs.Term.NestingLimit
import LambdaQuery.Proofs.Term.Parsing
import LambdaQuery.Proofs.Token.Spacing

/-!
# White space does not matter

The rules of the parser see the kinds and texts of tokens, and put the places of tokens into trees
and errors only. So on tokens of the same kinds and texts they go the same way: they read trees that
are written alike, or come to errors of the same message. A text that is spaced otherwise has such
tokens.
-/

namespace LambdaQuery

/-- Both readings give something and the two are related, or both come to a syntax error and the
messages are the same. -/
inductive ReadsAlike {α β : Type} (R : α → β → Prop) :
    Except ParseError α → Except ParseError β → Prop
  | ok {a : α} {b : β} : R a b → ReadsAlike R (.ok a) (.ok b)
  | error {e e' : SyntaxError} : e.message = e'.message →
    ReadsAlike R (.error (.grammar e)) (.error (.grammar e'))

namespace Tokens.SameWords

variable {ts ts' : Tokens}

theorem tail (h : SameWords ts ts') : SameWords ts.tail ts'.tail := by
  cases h with
  | done => exact .done
  | token others => exact others

theorem length_eq (h : SameWords ts ts') : ts.length = ts'.length := by
  induction h with
  | done => rfl
  | token _ ih => rw [length, length, ih]

theorem error?_eq_none (h : SameWords ts ts') : ts'.error? = none := by
  induction h with
  | done => rfl
  | token _ ih => exact ih

theorem map_toList (h : SameWords ts ts') :
    ts.toList.map (fun t => (t.kind, t.text)) = ts'.toList.map (fun t => (t.kind, t.text)) := by
  induction h with
  | done => rfl
  | token _ ih => rw [toList, toList, List.map_cons, List.map_cons, ih]

end Tokens.SameWords

open Tokens (SameWords)

namespace ReadsAlike

variable {α β γ δ : Type} {R : α → β → Prop} {S : γ → δ → Prop} {ts ts' : Tokens}

theorem bind {x : Except ParseError α} {x' : Except ParseError β} {f : α → Except ParseError γ}
    {f' : β → Except ParseError δ} (first : ReadsAlike R x x')
    (next : ∀ a b, R a b → ReadsAlike S (f a) (f' b)) : ReadsAlike S (x >>= f) (x' >>= f') := by
  cases first with
  | ok related => exact next _ _ related
  | error same => exact .error same

theorem imp {R' : α → β → Prop} {x : Except ParseError α} {x' : Except ParseError β}
    (h : ReadsAlike R x x')
    (implies : ∀ a b, x = .ok a → x' = .ok b → R a b → R' a b) : ReadsAlike R' x x' := by
  cases h with
  | ok related => exact .ok (implies _ _ rfl rfl related)
  | error same => exact .error same

/-- The next token is the same but for its place. -/
theorem peek {f : Token → Except ParseError α} {f' : Token → Except ParseError β}
    (same : SameWords ts ts') (next : ∀ kind text span span',
      ReadsAlike R (f ⟨kind, text, span⟩) (f' ⟨kind, text, span'⟩)) :
    ReadsAlike R (ts.peek >>= f) (ts'.peek >>= f') := by
  cases same with
  | done => exact next _ _ _ _
  | token => exact next _ _ _ _

theorem unexpected {expected expected' : Expectation} (same : expected.message = expected'.message)
    (kind : TokenKind) (text : String) (span span' : Span) :
    ReadsAlike R (Term.Parser.unexpected expected ⟨kind, text, span⟩)
      (Term.Parser.unexpected expected' ⟨kind, text, span'⟩) := by
  refine .error ?_
  simp only [SyntaxError.message, same]

theorem tooDeep (same : SameWords ts ts') (limit : Nat) (span span' : Span) :
    ReadsAlike R (Term.Parser.tooDeep limit span ts) (Term.Parser.tooDeep limit span' ts') :=
  .peek same fun _ _ _ _ => .error rfl

end ReadsAlike

namespace Term.Parser

variable {limit budget : Nat} {scope scope' : Scope} {ts ts' : Tokens}

/-- Nodes that are written alike, in front of tokens of the same kinds and texts. -/
def SameNode (read read' : Term Span × Tokens) : Prop :=
  read.1.spelling = read'.1.spelling ∧ SameWords read.2 read'.2

/-- The same for the arguments of a call. -/
def SameArguments (read read' : (List (Term Span) × Nat) × Tokens) : Prop :=
  spellingAll read.1.1 = spellingAll read'.1.1 ∧ SameWords read.2 read'.2

/-- Parameters of the same names. -/
def SameScope (scope scope' : Scope) : Prop :=
  scope.map Symbol.name = scope'.map Symbol.name

theorem SameScope.find? (same : SameScope scope scope') (name : String) :
    (scope.find? name).map Symbol.name = (scope'.find? name).map Symbol.name := by
  have byName (scope : Scope) :
      (scope.find? name).map Symbol.name = (scope.map Symbol.name).find? (· == name) := by
    rw [List.find?_map]
    rfl
  rw [byName, same, byName]

theorem members_alike : ∀ {budget : Nat} {receiver receiver' : Term Span} {ts ts' : Tokens},
    receiver.spelling = receiver'.spelling → SameWords ts ts' →
    ReadsAlike SameNode (members limit budget receiver ts) (members limit budget receiver' ts')
  | budget, receiver, receiver', ts, ts', alike, same => by
    rw [members.eq_def, members.eq_def]
    refine .peek same fun kind _ _ _ => ?_
    dsimp only
    split
    · refine .peek same.tail fun kind text _ _ => ?_
      dsimp only
      split
      · cases budget with
        | zero => exact .tooDeep same.tail.tail _ _ _
        | succ budget =>
          refine members_alike ?_ same.tail.tail
          rw [spelling, spelling, alike]
      · exact .unexpected (by rfl) _ _ _ _
    · exact .ok ⟨alike, same⟩

/-- Two rules that read alike. -/
def AlikeRules (rule rule' : Rule) : Prop :=
  ∀ ts ts', SameWords ts ts' → ReadsAlike SameNode (rule ts) (rule' ts')

section

variable {query query' : Rule} (rules : AlikeRules query query')

include rules

theorem arguments_alike (function function' : Token) (opened opened' : Span)
    (same : SameWords ts ts') : ReadsAlike SameArguments (arguments query function opened ts)
      (arguments query' function' opened' ts') := by
  induction isLength : ts.length using Nat.strongRecOn generalizing ts ts' with
  | ind length ih =>
    subst isLength
    rw [arguments.eq_def query, arguments.eq_def query']
    refine .bind (rules ts ts' same) ?_
    rintro ⟨arg, rest⟩ ⟨arg', rest'⟩ ⟨alike, same'⟩
    refine .peek same' fun kind text span span' => ?_
    dsimp only at alike same' ⊢
    split
    -- the tokens get fewer on both sides or on none
    · rw [← same.length_eq, ← same'.tail.length_eq]
      split
      · rename_i shorter
        refine .bind (ih _ shorter same'.tail rfl) ?_
        rintro ⟨⟨args, stop⟩, more⟩ ⟨⟨args', stop'⟩, more'⟩ ⟨alikeAll, sameRest⟩
        refine .ok ⟨?_, sameRest⟩
        simp only [spellingAll, alike, List.cons.injEq, true_and]
        exact alikeAll
      · exact .unexpected (by rfl) _ _ _ _
    · split
      · exact .ok ⟨by simp only [spellingAll, alike], same'.tail⟩
      · exact .unexpected (by rfl) _ _ _ _

theorem named_alike (inScope : SameScope scope scope') {kind : TokenKind} {text : String}
    (span span' : Span) (same : SameWords ts ts') :
    ReadsAlike SameNode (named query limit budget scope ⟨kind, text, span⟩ ts)
      (named query' limit budget scope' ⟨kind, text, span'⟩ ts') := by
  rw [named, named]
  refine .peek same fun kind _ opened opened' => ?_
  dsimp only
  split
  · refine .peek same.tail fun kind _ _ _ => ?_
    dsimp only
    split
    · exact members_alike rfl same.tail.tail
    · refine .bind (arguments_alike rules _ _ opened opened' same.tail) ?_
      rintro ⟨⟨args, stop⟩, rest⟩ ⟨⟨args', stop'⟩, rest'⟩ ⟨alike, same'⟩
      refine members_alike ?_ same'
      simp only [spelling, call.injEq, true_and]
      exact alike
  · have sameName := inScope.find? text
    cases found : scope.find? text with
    | none =>
      rw [found, Option.map_none, eq_comm, Option.map_eq_none_iff] at sameName
      rw [sameName]
      exact .error rfl
    | some symbol =>
      rw [found, Option.map_some, eq_comm, Option.map_eq_some_iff] at sameName
      obtain ⟨symbol', found', isName⟩ := sameName
      rw [found']
      refine members_alike ?_ same
      rw [spelling, spelling, isName]

theorem operand_alike (inScope : SameScope scope scope') (same : SameWords ts ts') :
    ReadsAlike SameNode (operand query limit budget scope ts)
      (operand query' limit budget scope' ts') := by
  rw [operand, operand]
  refine .peek same fun kind text _ _ => ?_
  dsimp only
  split
  · refine .bind (rules _ _ same.tail) ?_
    rintro ⟨inner, rest⟩ ⟨inner', rest'⟩ ⟨alike, same'⟩
    refine .peek same' fun kind _ _ _ => ?_
    dsimp only at alike same' ⊢
    split
    · exact members_alike (by simpa using alike) same'.tail
    · exact .unexpected (by rfl) _ _ _ _
  · exact members_alike rfl same.tail
  · exact members_alike rfl same.tail
  · refine .peek same.tail fun kind _ _ _ => ?_
    dsimp only
    split
    · exact members_alike rfl same.tail.tail
    · exact .unexpected (by rfl) _ _ _ _
  · split
    · exact members_alike rfl same.tail
    · split
      · exact members_alike rfl same.tail
      · exact named_alike rules inScope _ _ same.tail
  · exact .unexpected (by rfl) _ _ _ _

end

mutual
theorem query_alike : ∀ (budget : Nat) {scope scope' : Scope}, SameScope scope scope' →
    AlikeRules (query limit budget scope) (query limit budget scope')
  | 0, scope, scope', _, ts, ts', same => by
    rw [query, query]
    exact .peek same fun _ _ _ _ => .tooDeep same _ _ _
  | budget + 1, scope, scope', inScope, ts, ts', same => by
    have rules := query_alike budget inScope
    rw [query, query]
    refine .peek same fun kind text span span' => ?_
    dsimp only
    split
    · refine .peek same.tail fun kind _ _ _ => ?_
      dsimp only
      split
      -- the new parameter has another symbol if it stands elsewhere, but the same name
      · have inScope' : SameScope (⟨span.start, text⟩ :: scope) (⟨span'.start, text⟩ :: scope') :=
          congrArg (text :: ·) inScope
        refine .bind (query_alike budget inScope' _ _ same.tail.tail) ?_
        rintro ⟨body, rest⟩ ⟨body', rest'⟩ ⟨alike, same'⟩
        refine .ok ⟨?_, same'⟩
        simp only [spelling, lambda.injEq, true_and]
        exact alike
      · refine .bind (named_alike rules inScope span span' same.tail) ?_
        rintro ⟨left, rest⟩ ⟨left', rest'⟩ ⟨alike, same'⟩
        exact operators_alike budget inScope 0 alike same'
    · refine .bind (operand_alike rules inScope same) ?_
      rintro ⟨left, rest⟩ ⟨left', rest'⟩ ⟨alike, same'⟩
      exact operators_alike budget inScope 0 alike same'

theorem operators_alike : ∀ (budget : Nat) {scope scope' : Scope}, SameScope scope scope' →
    ∀ (least : Nat) {left left' : Term Span} {ts ts' : Tokens}, left.spelling = left'.spelling →
    SameWords ts ts' → ReadsAlike SameNode (operators limit budget scope least left ts)
      (operators limit budget scope' least left' ts')
  | budget, scope, scope', inScope, least, left, left', ts, ts', alike, same => by
    rw [operators.eq_def limit, operators.eq_def limit]
    refine .peek same fun kind _ _ _ => ?_
    dsimp only
    split
    · exact .ok ⟨alike, same⟩
    · split
      · exact .ok ⟨alike, same⟩
      · cases budget with
        | zero => exact .tooDeep same.tail _ _ _
        | succ budget =>
          have rules := query_alike budget inScope
          refine .bind (operand_alike rules inScope same.tail) ?_
          rintro ⟨first, rest⟩ ⟨first', rest'⟩ ⟨alikeFirst, same'⟩
          refine .bind (operators_alike budget inScope _ alikeFirst same') ?_
          rintro ⟨right, rest⟩ ⟨right', rest'⟩ ⟨alikeRight, sameRest⟩
          refine operators_alike budget inScope least ?_ sameRest
          simp only [spelling, alike, binary.injEq, true_and]
          exact alikeRight
end

theorem tooTall?_eq_none_iff {t : Term Span} : tooTall? limit 1 t = none ↔ t.height ≤ limit := by
  constructor
  · intro fits
    have := height_le_of_tooTall? fits
    omega
  · intro le
    exact tooTall?_eq_none (by omega)

end Term.Parser

namespace Term

theorem ofText_alike {text text' : String}
    (same : SameWords (Tokens.ofText text).significant (Tokens.ofText text').significant)
    (limit : Nat) : ReadsAlike (fun t t' => t.spelling = t'.spelling) (ofText limit text)
      (ofText limit text') := by
  rw [ofText, ofText]
  refine .bind (Parser.query_alike limit rfl _ _ same) ?_
  rintro ⟨tree, rest⟩ ⟨tree', rest'⟩ ⟨alike, same'⟩
  refine .peek same' fun kind _ _ _ => ?_
  dsimp only at alike same' ⊢
  split
  · exact .unexpected (by rfl) _ _ _ _
  · have sameHeight : tree.height = tree'.height := by
      rw [← height_spelling, alike, height_spelling]
    cases tall : Parser.tooTall? limit 1 tree with
    | some span =>
      cases tall' : Parser.tooTall? limit 1 tree' with
      | some span' => exact .error rfl
      | none =>
        rw [Parser.tooTall?_eq_none_iff, ← sameHeight, ← Parser.tooTall?_eq_none_iff, tall] at tall'
        cases tall'
    | none =>
      rw [Parser.tooTall?_eq_none_iff, sameHeight, ← Parser.tooTall?_eq_none_iff] at tall
      rw [tall]
      exact .ok alike

end Term

/-- A text that has only tokens, and one with the same tokens and other white space between them:
the second one has only tokens, and of the same kinds and texts but for the white space. Under every
nesting limit both are read, as trees that are equal up to the names of their parameters, or both
come to a syntax error and the messages are the same. -/
theorem respaced_reads_alike {text text' : String} (noFault : (Tokens.ofText text).error? = none)
    (respaced : Tokens.Respaced text (Tokens.ofText text).toList text'.toList) :
    (Tokens.ofText text').error? = none ∧
      (Tokens.ofText text).significant.toList.map (fun t => (t.kind, t.text)) =
        (Tokens.ofText text').significant.toList.map (fun t => (t.kind, t.text)) ∧
      ∀ limit, ReadsAlike (fun t t' => t.alphaEq t' = true) (Term.ofText limit text)
        (Term.ofText limit text') := by
  have spacing : Tokens.Respacing text.toList text'.toList :=
    respaced.respacing (List.nil_append _).symm rfl noFault
  have same : SameWords (Tokens.ofText text).significant (Tokens.ofText text').significant :=
    spacing.sameWords ⟨0, rfl⟩ ⟨0, rfl⟩
  refine ⟨?_, same.map_toList, fun limit => ?_⟩
  · rw [← Tokens.error?_significant]
    exact same.error?_eq_none
  · refine (Term.ofText_alike same limit).imp fun t t' isRead isRead' alike => ?_
    exact Term.alphaEqUnder_of_spelling rfl (Term.wellNamed_of_ofText isRead)
      (Term.wellNamed_of_ofText isRead') alike

/-- A number that runs into a point, and a sign of two characters behind a blank. -/
def dense : String := "x=>1.A >=x"

/-- The same with white space around most tokens. -/
def airy : String := "x => 1 .\tA  >= x\n"

theorem respaced_airy : Tokens.Respaced dense (Tokens.ofText dense).toList airy.toList := by
  have isTokens : (Tokens.ofText dense).toList = [⟨.ident, "x", ⟨0, 1⟩⟩, ⟨.arrow, "=>", ⟨1, 3⟩⟩,
      ⟨.number, "1", ⟨3, 4⟩⟩, ⟨.dot, ".", ⟨4, 5⟩⟩, ⟨.ident, "A", ⟨5, 6⟩⟩,
      ⟨.whitespace, " ", ⟨6, 7⟩⟩, ⟨.gtEq, ">=", ⟨7, 9⟩⟩, ⟨.ident, "x", ⟨9, 10⟩⟩,
      ⟨.eof, "", ⟨10, 10⟩⟩] := by cbv
  have isText : airy.toList =
      [] ++ (Span.slice ⟨0, 1⟩ dense).toList ++
      ([' '] ++ (Span.slice ⟨1, 3⟩ dense).toList ++
      ([' '] ++ (Span.slice ⟨3, 4⟩ dense).toList ++
      ([' '] ++ (Span.slice ⟨4, 5⟩ dense).toList ++
      (['\t'] ++ (Span.slice ⟨5, 6⟩ dense).toList ++
      ([' ', ' '] ++
      ([] ++ (Span.slice ⟨7, 9⟩ dense).toList ++
      ([' '] ++ (Span.slice ⟨9, 10⟩ dense).toList ++
      (['\n'] ++ (Span.slice ⟨10, 10⟩ dense).toList ++ [])))))))) := by cbv
  have blank (space : List Char) (h : space.all Text.isBlank = true) :
      ∀ c ∈ space, Text.isBlank c = true := List.all_eq_true.1 h
  rw [isTokens, isText]
  exact .token (by decide) (blank [] rfl) <| .token (by decide) (blank [' '] rfl) <|
    .token (by decide) (blank [' '] rfl) <| .token (by decide) (blank [' '] rfl) <|
    .token (by decide) (blank ['\t'] rfl) <| .space rfl (by decide) (blank [' ', ' '] rfl) <|
    .token (by decide) (blank [] rfl) <| .token (by decide) (blank [' '] rfl) <|
    .token (by decide) (blank ['\n'] rfl) <| .done (blank [] rfl)

theorem respaced_reads_alike_airy : (Tokens.ofText dense).error? = none ∧
    Tokens.Respaced dense (Tokens.ofText dense).toList airy.toList ∧
    (Tokens.ofText airy).error? = none ∧
    ReadsAlike (fun t t' => t.alphaEq t' = true) (Term.ofText 3 dense) (Term.ofText 3 airy) ∧
    ReadsAlike (fun t t' => t.alphaEq t' = true) (Term.ofText 2 dense) (Term.ofText 2 airy) := by
  have noFault : (Tokens.ofText dense).error? = none := by cbv
  obtain ⟨noFault', -, alike⟩ := respaced_reads_alike noFault respaced_airy
  exact ⟨noFault, respaced_airy, noFault', alike 3, alike 2⟩

end LambdaQuery
