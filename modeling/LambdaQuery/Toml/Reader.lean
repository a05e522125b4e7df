import LambdaQuery.Toml
import LambdaQuery.Number.Reading

/-!
Reading TOML. Strings are of one line; dates are not read.
-/

namespace LambdaQuery.Toml

namespace Reader

def isBlank (c : Char) : Bool :=
  c == ' ' || c == '\t'

def skipBlanks (cs : List Char) : List Char :=
  cs.dropWhile isBlank

/-- Characters that may stand in a comment or a string. -/
def isText (c : Char) : Bool :=
  c == '\t' || (32 ≤ c.toNat && c.toNat != 127)

/-- Skip blanks, comments and ends of lines. The first argument is whether a comment has begun. -/
def skipLines : Bool → List Char → List Char
  | _, [] => []
  | _, '\n' :: cs => skipLines false cs
  | _, '\r' :: '\n' :: cs => skipLines false cs
  | true, c :: cs => if isText c then skipLines true cs else c :: cs
  | false, c :: cs =>
    if isBlank c then skipLines false cs else if c == '#' then skipLines true cs else c :: cs

/-- What follows the line, if nothing but blanks and a comment is left on it. -/
def endLine? (cs : List Char) : Option (List Char) :=
  let rest := match skipBlanks cs with
    | '#' :: comment => comment.dropWhile isText
    | rest => rest
  match rest with
  | [] => some []
  | '\n' :: more => some more
  | '\r' :: '\n' :: more => some more
  | _ => none

def hexValue? (c : Char) : Option Nat :=
  if c.isDigit then some (c.toNat - '0'.toNat)
  else if 'a' ≤ c && c ≤ 'f' then some (c.toNat - 'a'.toNat + 10)
  else if 'A' ≤ c && c ≤ 'F' then some (c.toNat - 'A'.toNat + 10)
  else none

/-- The character with a number in hexadecimal. -/
def charOfHex? (digits : List Char) : Option Char := do
  let values ← readAll hexValue? digits
  let code := values.foldl (fun n d => 16 * n + d) 0
  if code.isValidChar then some (Char.ofNat code) else none

/-- The rest of a string in double quotes, where a backslash escapes. -/
def basicString? : List Char → Option (List Char × List Char)
  | '"' :: rest => some ([], rest)
  | '\\' :: 'u' :: a :: b :: c :: d :: rest => do
    let (text, rest) ← basicString? rest
    return ((← charOfHex? [a, b, c, d]) :: text, rest)
  | '\\' :: 'U' :: a :: b :: c :: d :: e :: f :: g :: h :: rest => do
    let (text, rest) ← basicString? rest
    return ((← charOfHex? [a, b, c, d, e, f, g, h]) :: text, rest)
  | '\\' :: c :: rest => do
    let escaped ← [('b', '\x08'), ('t', '\t'), ('n', '\n'), ('f', '\x0c'), ('r', '\r'),
      ('"', '"'), ('\\', '\\')].lookup c
    let (text, rest) ← basicString? rest
    return (escaped :: text, rest)
  | c :: rest =>
    if isText c then do
      let (text, rest) ← basicString? rest
      return (c :: text, rest)
    else
      none
  | [] => none

/-- The rest of a string in single quotes. -/
def literalString? : List Char → Option (List Char × List Char)
  | [] => none
  | c :: rest =>
    if c == '\'' then some ([], rest)
    else if isText c then (literalString? rest).map fun (text, rest) => (c :: text, rest)
    else none

def isBareKey (c : Char) : Bool :=
  c.isAlphanum || c == '_' || c == '-'

/-- One key, bare or quoted. -/
def simpleKey? (cs : List Char) : Option (String × List Char) :=
  match cs with
  | '"' :: rest => (basicString? rest).map fun (text, rest) => (String.ofList text, rest)
  | '\'' :: rest => (literalString? rest).map fun (text, rest) => (String.ofList text, rest)
  | cs =>
    let key := cs.takeWhile isBareKey
    if key.isEmpty then none else some (String.ofList key, cs.dropWhile isBareKey)

/-- Keys with points between them, and the blanks after them. -/
def keyPath? (cs : List Char) : Option ((String × List String) × List Char) := do
  let (key, rest) ← simpleKey? cs
  match skipBlanks rest with
  | '.' :: more =>
    let next := skipBlanks more
    if next.length < cs.length then
      let ((second, path), rest) ← keyPath? next
      return ((key, second :: path), rest)
    else
      none
  | rest => return ((key, []), rest)
termination_by cs.length

/-- Digits, with an underscore only between two of them. -/
def digits? (isDigit : Char → Bool) (cs : List Char) : Option (List Char) :=
  let separated := cs.zip cs.tail |>.all fun (a, b) => a != '_' || b != '_'
  if !cs.isEmpty && cs.all (fun c => isDigit c || c == '_') && cs.head? != some '_' &&
      cs.getLast? != some '_' && separated then
    some (cs.filter (· != '_'))
  else
    none

/-- Digits of a decimal number, which does not start with a zero unless it is one. -/
def wholePart? (cs : List Char) : Option (List Char) := do
  let digits ← digits? Char.isDigit cs
  match digits with
  | '0' :: _ :: _ => none
  | digits => return digits

/-- The sign of a number, and what follows it. -/
def splitSign : List Char → List Char × List Char
  | '-' :: cs => (['-'], cs)
  | '+' :: cs => (['+'], cs)
  | cs => ([], cs)

/-- A number in base 16, 8 or 2. -/
def radixInteger? : List Char → Option Nat
  | '0' :: 'x' :: cs => number 16 cs
  | '0' :: 'o' :: cs => number 8 cs
  | '0' :: 'b' :: cs => number 2 cs
  | _ => none
where
  number (base : Nat) (cs : List Char) : Option Nat := do
    let digits ← digits? (fun c => (hexValue? c).any (· < base)) cs
    let values ← readAll hexValue? digits
    return values.foldl (fun n d => base * n + d) 0

/-- An integer of 64 bits. -/
def integer? (cs : List Char) : Option Int :=
  let decimal := do
    let (sign, rest) := splitSign cs
    let digits ← wholePart? rest
    Number.readInt? (sign ++ digits)
  let n := match radixInteger? cs with
    | some n => some (Int.ofNat n)
    | none => decimal
  n.filter Number.fits

/-- A point and the digits after it, or nothing. -/
def fraction? : List Char → Option (List Char)
  | [] => some []
  | point :: cs => (digits? Char.isDigit cs).map (point :: ·)

/-- The mark of an exponent and the exponent, or nothing. -/
def exponent? : List Char → Option (List Char)
  | [] => some []
  | mark :: cs =>
    let (sign, digits) := splitSign cs
    (digits? Char.isDigit digits).map fun digits => mark :: sign ++ digits

/-- A number with a fraction or an exponent, or one of the names of infinity and of the value that
is no number. -/
def float? (cs : List Char) : Option Float := do
  let (sign, rest) := splitSign cs
  if rest == "inf".toList || rest == "nan".toList then
    Number.readFloat? cs
  else
    let isMark (c : Char) := c == 'e' || c == 'E'
    let mantissa := rest.takeWhile fun c => !isMark c
    let whole ← wholePart? (mantissa.takeWhile (· != '.'))
    let fraction ← fraction? (mantissa.dropWhile (· != '.'))
    let exponent ← exponent? (rest.dropWhile fun c => !isMark c)
    if fraction.isEmpty && exponent.isEmpty then
      none
    else
      Number.readFloat? (sign ++ whole ++ fraction ++ exponent)

/-- A value that is one word. -/
def word? (cs : List Char) : Option Toml :=
  if cs == "true".toList then some (.boolean true)
  else if cs == "false".toList then some (.boolean false)
  else
    match integer? cs with
    | some n => some (.integer n)
    | none => (float? cs).map .float

/-- The items of an array up to its end, each read by the given rule. -/
def items? (value : List Char → Option (Toml × List Char)) (cs : List Char) :
    Option (List Toml × List Char) :=
  match skipLines false cs with
  | ']' :: rest => some ([], rest)
  | start => do
    let (item, rest) ← value start
    match skipLines false rest with
    | ',' :: more =>
      if more.length < cs.length then
        let (items, rest) ← items? value more
        return (item :: items, rest)
      else
        none
    | ']' :: rest => return ([item], rest)
    | _ => none
termination_by cs.length

/-- A key and its value. -/
def pair? (value : List Char → Option (Toml × List Char)) (cs : List Char) :
    Option ((String × List String) × Toml × List Char) := do
  let (path, rest) ← keyPath? cs
  match rest with
  | '=' :: rest =>
    let (v, rest) ← value (skipBlanks rest)
    return (path, v, rest)
  | _ => none

/-- The entries of an inline table up to its end. -/
def inlineEntries? (value : List Char → Option (Toml × List Char)) (cs : List Char)
    (entries : Entries) : Option (Entries × List Char) := do
  let ((key, path), v, rest) ← pair? value (skipBlanks cs)
  let entries ← putAt v true key path entries
  match skipBlanks rest with
  | ',' :: more => if more.length < cs.length then inlineEntries? value more entries else none
  | '\x7d' :: rest => return (entries, rest)
  | _ => none
termination_by cs.length

/-- A value, with at most so many arrays and inline tables around each other. -/
def value? : (nesting : Nat) → List Char → Option (Toml × List Char)
  | 0, _ => none
  | nesting + 1, cs =>
    match cs with
    | '"' :: rest => (basicString? rest).map fun (text, rest) => (.string (String.ofList text), rest)
    | '\'' :: rest =>
      (literalString? rest).map fun (text, rest) => (.string (String.ofList text), rest)
    | '[' :: rest => (items? (value? nesting) rest).map fun (items, rest) => (.array items, rest)
    | '\x7b' :: rest =>
      match skipBlanks rest with
      | '\x7d' :: rest => some (.inline [], rest)
      | start =>
        (inlineEntries? (value? nesting) start []).map fun (entries, rest) => (.inline entries, rest)
    | cs =>
      let isWord (c : Char) := isBareKey c || c == '+' || c == '.'
      (word? (cs.takeWhile isWord)).map fun v => (v, cs.dropWhile isWord)

/-- How deep values may nest. -/
def maxNesting : Nat := 80

/-- The entries so far, and the path of the header they are under. -/
structure Document where
  entries : Entries
  header : List String

/-- A header or a key with its value. -/
def statement? (d : Document) (cs : List Char) : Option (Document × List Char) :=
  match cs with
  | '[' :: '[' :: rest => do
    let ((key, path), rest) ← keyPath? (skipBlanks rest)
    match rest with
    | ']' :: ']' :: rest => return (← opened openNext key path, rest)
    | _ => none
  | '[' :: rest => do
    let ((key, path), rest) ← keyPath? (skipBlanks rest)
    match rest with
    | ']' :: rest => return (← opened openTable key path, rest)
    | _ => none
  | cs => do
    let ((key, path), v, rest) ← pair? (value? maxNesting) cs
    let entries ← changeAt (putAt v true key path) d.header d.entries
    return (⟨entries, d.header⟩, rest)
where
  opened (openAt : String → Entries → Option Entries) (key : String) (path : List String) :
      Option Document := do
    let full := key :: path
    let last ← full.getLast?
    return ⟨← changeAt (openAt last) full.dropLast d.entries, full⟩

/-- All statements up to the end, each on lines of its own. -/
def statements? (d : Document) (cs : List Char) : Option Entries :=
  match skipLines false cs with
  | [] => some d.entries
  | start => do
    let (d, rest) ← statement? d start
    let rest ← endLine? rest
    if rest.length < cs.length then statements? d rest else none
termination_by cs.length

end Reader

/-- The entries of a document, unless there is a fault in it. -/
def ofText? (text : String) : Option Entries :=
  Reader.statements? ⟨[], []⟩ <|
    match text.toList with
    | '\ufeff' :: cs => cs
    | cs => cs

end LambdaQuery.Toml
