import LambdaQuery.Ty
import LambdaQuery.Text.Numeric
import LambdaQuery.Text.Blank

/-!
Types as they are written. A name is followed by any number of `?` and `[]`; the sequence types
take their element in angle brackets. Lambda types are shown, but cannot be written.
-/

namespace LambdaQuery

namespace Ty

mutual
def chars : Ty → List Char
  | bool => "Bool".toList
  | int => "Int".toList
  | float => "Float".toList
  | string => "String".toList
  | date => "Date".toList
  | enum name | record name => name.toList
  | optional inner => chars inner ++ ['?']
  | list e => "List<".toList ++ chars e ++ ['>']
  | array e => chars e ++ "[]".toList
  | enumerable e => "Enumerable<".toList ++ chars e ++ ['>']
  | lambda params result => '(' :: charsAll params ++ ") => ".toList ++ chars result

def charsAll : List Ty → List Char
  | [] => []
  | [ty] => chars ty
  | ty :: rest => chars ty ++ ", ".toList ++ charsAll rest
end

def toString (ty : Ty) : String :=
  String.ofList ty.chars

instance : ToString Ty := ⟨Ty.toString⟩

/-- Why a text is not a type. -/
inductive TextFault where
  | noName
  | noOpeningBracket
  | noClosingBracket
  | unknownName (name : String)
  | alreadyNullable (ty : Ty)
  | trailing
deriving DecidableEq, Repr

def TextFault.message : TextFault → String
  | noName => "expected a type name"
  | noOpeningBracket => "expected `<`"
  | noClosingBracket => "expected `>`"
  | unknownName name => "unknown type name `" ++ name ++ "`"
  | alreadyNullable ty => "`" ++ ty.toString ++ "` is already nullable"
  | trailing => "unexpected trailing characters"

/-- A fault and the byte offset in the text where it was found. -/
structure TextError where
  text : String
  offset : Nat
  fault : TextFault
deriving DecidableEq, Repr

def TextError.message (e : TextError) : String :=
  "invalid type `" ++ e.text ++ "` at offset " ++ Nat.repr e.offset ++ ": " ++ e.fault.message

namespace Reader

/-- The fault, and the text that was left when it was found. -/
abbrev Failure := TextFault × List Char

/-- The type names that are built in and take no element. -/
def builtIn? : List Char → Option Ty
  | ['B', 'o', 'o', 'l'] => some bool
  | ['I', 'n', 't'] => some int
  | ['F', 'l', 'o', 'a', 't'] => some float
  | ['S', 't', 'r', 'i', 'n', 'g'] => some string
  | ['D', 'a', 't', 'e'] => some date
  | _ => none

/-- The type names that take an element. -/
def sequence? : List Char → Option (Ty → Ty)
  | ['L', 'i', 's', 't'] => some list
  | ['A', 'r', 'r', 'a', 'y'] => some array
  | ['E', 'n', 'u', 'm', 'e', 'r', 'a', 'b', 'l', 'e'] => some enumerable
  | _ => none

def isNameChar (c : Char) : Bool :=
  Text.isAlphanumeric c || c == '_'

theorem length_trimStart_le (cs : List Char) : (Text.trimStart cs).length ≤ cs.length :=
  (List.dropWhile_sublist Text.isBlank).length_le

/-- The `?` and `[]` behind a type. Only a value type that is not optional takes a `?`. -/
def marks (ty : Ty) (cs : List Char) : Except Failure (Ty × List Char) :=
  match _h : Text.trimStart cs with
  | '?' :: rest =>
    if ty.isValueType && !ty.isOptional then marks ty.orNull rest
    else .error (.alreadyNullable ty, rest)
  | '[' :: ']' :: rest => marks (array ty) rest
  | rest => .ok (ty, rest)
termination_by cs.length
decreasing_by
  all_goals
    have shorter := length_trimStart_le cs
    simp only [_h, List.length_cons] at shorter
    omega

/-- A type and what follows it. -/
def type (resolve : String → Option Ty) (cs : List Char) : Except Failure (Ty × List Char) :=
  let start := Text.trimStart cs
  let name := start.takeWhile isNameChar
  let rest := start.dropWhile isNameChar
  if name.isEmpty then .error (.noName, start)
  else
    match builtIn? name, sequence? name with
    | some ty, _ => marks ty rest
    | none, some sequence =>
      match _h : Text.trimStart rest with
      | '<' :: inside =>
        match type resolve inside with
        | .error failure => .error failure
        | .ok (element, rest) =>
          match Text.trimStart rest with
          | '>' :: rest => marks (sequence element) rest
          | rest => .error (.noClosingBracket, rest)
      | rest => .error (.noOpeningBracket, rest)
    | none, none =>
      match resolve (String.ofList name) with
      | some ty => marks ty rest
      | none => .error (.unknownName (String.ofList name), cs)
termination_by cs.length
decreasing_by
  have inside_lt := length_trimStart_le rest
  have rest_le : rest.length ≤ start.length := (List.dropWhile_sublist isNameChar).length_le
  have start_le : start.length ≤ cs.length := length_trimStart_le cs
  simp only [_h, List.length_cons] at inside_lt
  omega

end Reader

/-- The type that a text denotes, with names that are not built in looked up by `resolve`. -/
def ofText (resolve : String → Option Ty) (text : String) : Except TextError Ty :=
  let fail (fault : TextFault) (rest : List Char) : Except TextError Ty :=
    .error ⟨text, text.utf8ByteSize - (String.ofList rest).utf8ByteSize, fault⟩
  match Reader.type resolve text.toList with
  | .error (fault, rest) => fail fault rest
  | .ok (ty, rest) => if rest.isEmpty then .ok ty else fail .trailing rest

end Ty

end LambdaQuery
