import LambdaQuery.Term
import LambdaQuery.Text.Caseless

/-!
Equality of queries up to the names of parameters. Two trees are equal when they have the same
shape, operators, literals and function and member names, these up to ASCII case, and when
identifiers point to binders at the same distance. Where the nodes stand in the text plays no
part.
-/

namespace LambdaQuery.Term

variable {α β : Type}

/-- What an identifier points to, seen from where it stands. -/
inductive Reference where
  /-- The binder this many lambdas further out, the innermost being at distance 0. -/
  | bound (distance : Nat)
  /-- No binder around it; it stands for itself. -/
  | free (id : Nat)
deriving DecidableEq, Repr

/-- What a symbol refers to under the given binders, the innermost first. -/
def refer (binders : List Symbol) (symbol : Symbol) : Reference :=
  match binders.findIdx? (· == symbol) with
  | some distance => .bound distance
  | none => .free symbol.id

mutual
/-- Equality of two trees, each under its own binders. -/
def alphaEqUnder (xs ys : List Symbol) : Term α → Term β → Bool
  | lambda _ p body, lambda _ q body' => alphaEqUnder (p.symbol :: xs) (q.symbol :: ys) body body'
  | binary _ op l r, binary _ op' l' r' =>
    op == op' && alphaEqUnder xs ys l l' && alphaEqUnder xs ys r r'
  | call _ name args, call _ name' args' =>
    Text.sameName name name' && alphaEqAll xs ys args args'
  | member _ receiver name, member _ receiver' name' =>
    Text.sameName name name' && alphaEqUnder xs ys receiver receiver'
  | ident _ s, ident _ s' => refer xs s == refer ys s'
  | literal _ text, literal _ text' => text == text'
  | _, _ => false

def alphaEqAll (xs ys : List Symbol) : List (Term α) → List (Term β) → Bool
  | [], [] => true
  | a :: as, b :: bs => alphaEqUnder xs ys a b && alphaEqAll xs ys as bs
  | _, _ => false
end

/-- Equality up to the names of parameters. -/
def alphaEq (a : Term α) (b : Term β) : Bool :=
  alphaEqUnder [] [] a b

/-! A fingerprint of a query, for hashing: a sequence of numbers that equal queries share. -/

/-- The bytes of a text in UTF-8. -/
def utf8 (cs : List Char) : List Nat :=
  cs.flatMap fun c => (String.utf8EncodeChar c).map UInt8.toNat

/-- A text with a mark at its end that is no byte of a text. -/
def textWords (cs : List Char) : List Nat :=
  utf8 cs ++ [0xff]

def Reference.words : Reference → List Nat
  | bound distance => [0, distance]
  | free id => [1, id]

/-- The number of an operator in the list of all operators. -/
def operatorWord (op : Operator) : Nat :=
  Operator.all.idxOf op

mutual
/-- The fingerprint of a tree under the given binders. -/
def wordsUnder (xs : List Symbol) : Term α → List Nat
  | lambda _ param body => 0 :: wordsUnder (param.symbol :: xs) body
  | binary _ op left right =>
    1 :: operatorWord op :: wordsUnder xs left ++ wordsUnder xs right
  | call _ name args =>
    2 :: textWords (Text.folded name) ++ args.length :: wordsUnderAll xs args
  | member _ receiver name => 3 :: textWords (Text.folded name) ++ wordsUnder xs receiver
  | ident _ symbol => 4 :: (refer xs symbol).words
  | literal _ none => [5, 0]
  | literal _ (some text) => 5 :: 1 :: textWords text.toList

def wordsUnderAll (xs : List Symbol) : List (Term α) → List Nat
  | [] => []
  | arg :: rest => wordsUnder xs arg ++ wordsUnderAll xs rest
end

/-- The words that a hash of the query is made from. -/
def fingerprint (t : Term α) : List Nat :=
  wordsUnder [] t

end LambdaQuery.Term
