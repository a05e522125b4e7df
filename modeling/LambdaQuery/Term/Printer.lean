import LambdaQuery.Term

/-!
Writing a tree. The source form can be read back: compound operands stand in parentheses, so
that it does not depend on precedence, and a literal that is not plain is quoted. The dump shows
the structure instead.
-/

namespace LambdaQuery.Term

variable {α : Type}

/-- Whether a text is made of ASCII digits and there is at least one. -/
def isDigits (cs : List Char) : Bool :=
  !cs.isEmpty && cs.all Char.isDigit

/-- Whether a text is a whole number, or one with a point and digits on both sides. -/
def isPlainNumber (cs : List Char) : Bool :=
  match cs.dropWhile (· != '.') with
  | [] => isDigits cs
  | _ :: fraction => isDigits (cs.takeWhile (· != '.')) && isDigits fraction

/-- Whether the text of a literal reads back without quotes. -/
def isBare (text : List Char) : Bool :=
  text == "true".toList || text == "false".toList ||
    match text with
    | '-' :: digits => isPlainNumber digits
    | digits => isPlainNumber digits

/-- A literal between quotes, with a backslash before each quote and backslash. -/
def quoted (text : List Char) : List Char :=
  '"' :: text.flatMap (fun c => if c = '"' ∨ c = '\\' then ['\\', c] else [c]) ++ ['"']

def literalSource : Option String → List Char
  | none => "null".toList
  | some text => if isBare text.toList then text.toList else quoted text.toList

/-- Whether an operand needs parentheses. -/
def isCompound : Term α → Bool
  | lambda .. | binary .. => true
  | _ => false

/-- An operand, in parentheses if it needs them. -/
def enclose (compound : Bool) (text : List Char) : List Char :=
  if compound then '(' :: text ++ [')'] else text

mutual
/-- The query as it would be written. -/
def sourceChars : Term α → List Char
  | lambda _ param body => param.symbol.name.toList ++ " => ".toList ++ sourceChars body
  | binary _ op left right =>
    enclose left.isCompound (sourceChars left) ++ ' ' :: op.symbol.toList ++ ' ' ::
      enclose right.isCompound (sourceChars right)
  | call _ name args => name.toList ++ '(' :: argumentChars args ++ [')']
  | member _ receiver name =>
    enclose receiver.isCompound (sourceChars receiver) ++ '.' :: name.toList
  | ident _ symbol => symbol.name.toList
  | literal _ text => literalSource text

/-- Arguments with a comma and a blank between them. -/
def argumentChars : List (Term α) → List Char
  | [] => []
  | [arg] => sourceChars arg
  | arg :: rest => sourceChars arg ++ ',' :: ' ' :: argumentChars rest
end

def source (t : Term α) : String :=
  String.ofList t.sourceChars

mutual
/-- The structure of the tree, each node by its kind. -/
def dumpChars : Term α → List Char
  | lambda _ param body =>
    "Lambda(".toList ++ param.symbol.name.toList ++ ", ".toList ++ dumpChars body ++ [')']
  | binary _ op left right =>
    op.name.toList ++ '(' :: dumpChars left ++ ", ".toList ++ dumpChars right ++ [')']
  | call _ name args => "Call(".toList ++ name.toList ++ dumpArguments args ++ [')']
  | member _ receiver name =>
    "Member(".toList ++ dumpChars receiver ++ ", ".toList ++ name.toList ++ [')']
  | ident _ symbol => "Identifier(".toList ++ symbol.name.toList ++ [')']
  | literal _ text => "Constant(".toList ++ literalSource text ++ [')']

def dumpArguments : List (Term α) → List Char
  | [] => []
  | arg :: rest => ", ".toList ++ dumpChars arg ++ dumpArguments rest
end

def dump (t : Term α) : String :=
  String.ofList t.dumpChars

end LambdaQuery.Term
