import LambdaQuery.Catalog.Declared
import LambdaQuery.Proofs.Evaluation.Arithmetic
import LambdaQuery.Proofs.Safety.Conformance
import LambdaQuery.Proofs.Token.Lexing
import Mathlib

/-!
# Literals are read as they are written

Truth values, whole numbers, dates and the values of enums are written as texts that denote them. A
text that is a number denotes the variant of an enum with that ordinal, whatever the variants are
called. So a variant that has a number for a name is read back only if the number is its ordinal.
-/

namespace LambdaQuery

/-! ### Numbers -/

namespace Number

theorem digitsValue_eq_ofDigitChars (cs : List Char) : digitsValue cs = Nat.ofDigitChars 10 cs 0 :=
  Nat.ofDigitChars_eq_foldl.symm

theorem isDigit_of_mem_writeNat {n : Nat} : ∀ c ∈ writeNat n, c.isDigit = true :=
  fun _ mem => Nat.isDigit_of_mem_toDigits (by decide) (by decide) mem

theorem digitsValue_writeNat (n : Nat) : digitsValue (writeNat n) = n := by
  rw [digitsValue_eq_ofDigitChars, writeNat, Nat.ofDigitChars_ten_toDigits]

theorem exists_writeNat_eq_cons (n : Nat) : ∃ c cs, writeNat n = c :: cs ∧ c.isDigit = true := by
  obtain ⟨c, cs, isCons⟩ := List.exists_cons_of_ne_nil (Nat.toDigits_ne_nil (b := 10) (n := n))
  exact ⟨c, cs, isCons, isDigit_of_mem_writeNat c (by rw [writeNat, isCons]; simp)⟩

theorem readNat?_writeNat (n : Nat) : readNat? (writeNat n) = some n := by
  have nonempty : (writeNat n).isEmpty = false := by
    simp [writeNat]
  have digits : (writeNat n).all Char.isDigit = true := List.all_eq_true.2 isDigit_of_mem_writeNat
  simp [readNat?, nonempty, digits, digitsValue_writeNat]

/-- Digits without a sign in front. -/
theorem readInt?_digit {c : Char} (isDigit : c.isDigit = true) (cs : List Char) :
    readInt? (c :: cs) = (readNat? (c :: cs)).map fun n => (n : Int) := by
  rw [readInt?]
  · rintro cs' ⟨rfl, -⟩
    cases isDigit
  · rintro cs' ⟨rfl, -⟩
    cases isDigit

theorem readInt?_writeInt (n : Int) : readInt? (writeInt n) = some n := by
  rw [writeInt]
  split
  · have negative : -(n.natAbs : Int) = n := by omega
    rw [readInt?, readNat?_writeNat]
    exact congrArg some negative
  · have positive : (n.natAbs : Int) = n := by omega
    obtain ⟨c, cs, isCons, isDigit⟩ := exists_writeNat_eq_cons n.natAbs
    rw [isCons, readInt?_digit isDigit, ← isCons, readNat?_writeNat]
    exact congrArg some positive

theorem readInt64?_writeInt64 (n : Int64) : readInt64? (writeInt64 n) = some n := by
  rw [readInt64?, writeInt64, readInt?_writeInt]
  simp [ofInt?, fits_toInt]

end Number

/-! ### Dates -/

namespace Date

open Calendar

section padded

variable {width n : Nat}

theorem isDigit_of_mem_padded : ∀ c ∈ padded width n, c.isDigit = true := by
  intro c mem
  rcases List.mem_append.1 mem with isZero | inDigits
  · rw [List.eq_of_mem_replicate isZero]
    rfl
  · exact Number.isDigit_of_mem_writeNat c inDigits

theorem digitsValue_padded : Number.digitsValue (padded width n) = n := by
  rw [Number.digitsValue_eq_ofDigitChars, padded, Nat.ofDigitChars_append,
    Nat.ofDigitChars_replicate_zero, Nat.mul_zero, ← Number.digitsValue_eq_ofDigitChars,
    Number.digitsValue_writeNat]

theorem length_padded (positive : 0 < width) (fits : n < 10 ^ width) :
    (padded width n).length = width := by
  have := (Nat.length_toDigits_le_iff (by decide) positive).2 fits
  simp only [padded, Number.writeNat, List.length_append, List.length_replicate]
  omega

theorem padded_ne_nil : padded width n ≠ [] := by
  simp [padded, Number.writeNat, Nat.toDigits_ne_nil]

end padded

/-- There is no white space in front of a digit. -/
theorem trimStart_digits {digits : List Char} (nonempty : digits ≠ [])
    (areDigits : ∀ c ∈ digits, c.isDigit = true) (rest : List Char) :
    Text.trimStart (digits ++ rest) = digits ++ rest := by
  obtain ⟨c, cs, rfl⟩ := List.exists_cons_of_ne_nil nonempty
  have visible := Lexeme.isBlank_of_isDigit (areDigits c (by simp))
  simp [Text.trimStart, visible]

theorem readNumber?_padded {width n : Nat} (positive : 0 < width) (fits : n < 10 ^ width)
    (rest : List Char) : readNumber? width (padded width n ++ rest) = some (n, rest) := by
  have trimmed : Text.trimStart (padded width n ++ rest) = padded width n ++ rest :=
    trimStart_digits padded_ne_nil isDigit_of_mem_padded rest
  have taken : (padded width n ++ rest).take width = padded width n :=
    List.take_left' (length_padded positive fits)
  have digits : (padded width n).takeWhile Char.isDigit = padded width n :=
    List.takeWhile_eq_self_iff.2 isDigit_of_mem_padded
  simp [readNumber?, trimmed, taken, digits, padded_ne_nil, digitsValue_padded]

/-- A year is read up to the sign behind it. -/
theorem readYear?_yearText (year : Int) (rest : List Char) :
    readYear? (yearText year ++ '-' :: rest) = some (year, '-' :: rest) := by
  have nonempty : padded 4 year.natAbs ≠ [] := padded_ne_nil
  have areDigits : ∀ c ∈ padded 4 year.natAbs, c.isDigit = true := isDigit_of_mem_padded
  rw [yearText]
  split
  · rename_i inside
    have fits : year.natAbs < 10 ^ 4 := by omega
    have isYear : (year.natAbs : Int) = year := by omega
    have number := readNumber?_padded (by decide) fits ('-' :: rest)
    obtain ⟨c, cs, isCons⟩ := List.exists_cons_of_ne_nil nonempty
    have isDigit : c.isDigit = true := areDigits c (by simp [isCons])
    rw [readYear?, trimStart_digits nonempty areDigits]
    -- a digit in front is no sign
    split
    · rename_i starts
      rw [isCons] at starts
      cases starts
      cases isDigit
    · rename_i starts
      rw [isCons] at starts
      cases starts
      cases isDigit
    · rw [number, Option.map_some]
      simp [isYear]
  · have stop : ∀ c ∈ ('-' :: rest).head?, c.isDigit = false := by
      intro c isHead
      cases isHead
      rfl
    obtain ⟨taken, dropped⟩ := takeWhile_append_of_stop areDigits stop
    have signed (sign : Char) (visible : Text.isBlank sign = false) :
        Text.trimStart ((sign :: padded 4 year.natAbs) ++ '-' :: rest) =
          sign :: (padded 4 year.natAbs ++ '-' :: rest) := by
      simp [Text.trimStart, visible]
    split
    · have isYear : -(year.natAbs : Int) = year := by omega
      rw [readYear?, signed '-' rfl]
      simp only [taken, dropped, List.isEmpty_iff, nonempty, if_false, digitsValue_padded,
        Option.map_some, isYear]
    · have isYear : (year.natAbs : Int) = year := by omega
      rw [readYear?, signed '+' rfl]
      simp only [taken, dropped, List.isEmpty_iff, nonempty, if_false, digitsValue_padded,
        Option.map_some, isYear]

theorem month_day_lt (d : Date) : d.month < 10 ^ 2 ∧ d.day < 10 ^ 2 := by
  have valid := d.valid
  simp only [exists?, Bool.and_eq_true, decide_eq_true_eq] at valid
  obtain ⟨⟨-, first⟩, last⟩ := valid
  have long : daysInMonth d.year d.month ≤ 31 ∧ (0 < daysInMonth d.year d.month → d.month ≤ 12) := by
    rw [daysInMonth.eq_def]
    split <;> grind
  omega

theorem ofChars?_toChars (d : Date) : ofChars? d.toChars = some d := by
  obtain ⟨month, day⟩ := d.month_day_lt
  have isText : d.toChars = yearText d.year ++ '-' :: (padded 2 d.month ++ '-' :: padded 2 d.day) := by
    simp [toChars]
  have isDay := readNumber?_padded (by decide) day []
  rw [List.append_nil] at isDay
  have isDate : ofYmd? d.year d.month d.day = some d := dif_pos d.valid
  simp [ofChars?, isText, readYear?_yearText, readMinus?, readNumber?_padded (by decide) month,
    isDay, isDate]

end Date

/-! ### Variants -/

theorem find?_eq_some_of_unique {α : Type} {p : α → Bool} {a : α} {l : List α} (mem : a ∈ l)
    (isA : p a = true) (unique : ∀ b ∈ l, p b = true → b = a) : l.find? p = some a := by
  cases found : l.find? p with
  | none => exact absurd isA (List.find?_eq_none.1 found a mem)
  | some b => rw [unique b (List.mem_of_find?_eq_some found) (List.find?_some found)]

namespace Schema

variable {s : Schema} {name : String} {values : List EnumValue} {a b e : EnumValue}

/-- The variants of each enum have names that differ, also up to ASCII case. -/
def DistinctVariants (s : Schema) : Prop :=
  ∀ name variants, s.variants? name = some variants →
    variants.Pairwise fun a b => Text.sameName a b = false

theorem mem_enumValues (isEnum : s.enumValues? name = some values) (mem : e ∈ values) :
    ∃ variants, s.variants? name = some variants ∧ variants[e.ordinal]? = some e.name ∧
      e.enumName = name := by
  obtain ⟨variants, isVariants, rfl⟩ := Option.map_eq_some_iff.1 isEnum
  obtain ⟨⟨variant, ordinal⟩, inside, rfl⟩ := List.mem_map.1 mem
  exact ⟨variants, isVariants, List.mem_zipIdx_iff_getElem?.1 inside, rfl⟩

theorem eq_of_ordinal (isEnum : s.enumValues? name = some values) (memA : a ∈ values)
    (memB : b ∈ values) (same : a.ordinal = b.ordinal) : a = b := by
  obtain ⟨variants, isVariants, isA, ofA⟩ := mem_enumValues isEnum memA
  obtain ⟨variants', isVariants', isB, ofB⟩ := mem_enumValues isEnum memB
  cases isVariants.symm.trans isVariants'
  rw [same, isB] at isA
  obtain ⟨enumA, nameA, ordinalA⟩ := a
  obtain ⟨enumB, nameB, ordinalB⟩ := b
  simp_all

theorem eq_of_sameName (distinct : s.DistinctVariants) (isEnum : s.enumValues? name = some values)
    (memA : a ∈ values) (memB : b ∈ values) (same : Text.sameName a.name b.name = true) : a = b := by
  obtain ⟨variants, isVariants, isA, -⟩ := mem_enumValues isEnum memA
  obtain ⟨variants', isVariants', isB, -⟩ := mem_enumValues isEnum memB
  cases isVariants.symm.trans isVariants'
  obtain ⟨inA, isA⟩ := List.getElem?_eq_some_iff.1 isA
  obtain ⟨inB, isB⟩ := List.getElem?_eq_some_iff.1 isB
  have apart := List.pairwise_iff_getElem.1 (distinct name variants isVariants)
  refine eq_of_ordinal isEnum memA memB ?_
  rcases Nat.lt_trichotomy a.ordinal b.ordinal with before | equal | behind
  · have := apart _ _ inA inB before
    rw [isA, isB, same] at this
    cases this
  · exact equal
  · have := apart _ _ inB inA behind
    rw [isA, isB, Text.sameName_symm same] at this
    cases this

end Schema

/-- The name of a variant is a number, and not its ordinal. -/
def EnumValue.Misnumbered (e : EnumValue) : Prop :=
  ∃ n, Number.readOrdinal? e.name.toList = some n ∧ n ≠ e.ordinal

/-- The name of a variant denotes it unless it is the number of another. -/
theorem EnumValue.ofText?_name_iff {s : Schema} (distinct : s.DistinctVariants) {name : String}
    {values : List EnumValue} {e : EnumValue} (isEnum : s.enumValues? name = some values)
    (mem : e ∈ values) : ofText? values e.name = some e ↔ ¬ e.Misnumbered := by
  rw [ofText?, Misnumbered]
  cases number : Number.readOrdinal? e.name.toList with
  | none =>
    have found : values.find? (fun v => Text.sameName v.name e.name) = some e :=
      find?_eq_some_of_unique mem (Text.sameName_refl _)
        fun b inside same => Schema.eq_of_sameName distinct isEnum inside mem same
    simp [found]
  | some n =>
    simp only [Option.some.injEq, exists_eq_left', not_not]
    constructor
    · intro found
      have isNumber := List.find?_some found
      exact (beq_iff_eq.1 isNumber).symm
    · rintro rfl
      refine find?_eq_some_of_unique mem (beq_self_eq_true _) fun b inside same => ?_
      exact Schema.eq_of_ordinal isEnum inside mem (beq_iff_eq.1 same)

/-! ### Literals of a type -/

namespace Schema

/-- The types whose literals are written as their values are. -/
inductive WritesLiterals (s : Schema) : Ty → Prop
  | bool : WritesLiterals s .bool
  | int : WritesLiterals s .int
  | date : WritesLiterals s .date
  | enum {name : String} {variants : List String} : s.variants? name = some variants →
      WritesLiterals s (.enum name)
  | optional {ty : Ty} : ty.isOptional = false → WritesLiterals s ty →
      WritesLiterals s (.optional ty)

variable {s : Schema} {ty : Ty} {v : Value}

theorem WritesLiterals.describe (writes : s.WritesLiterals ty) :
    s.catalog.describe ty = some (s.info ty) := by
  have known : s.knows ty = true := by
    induction writes with
    | bool | int | date => rfl
    | enum isEnum => simp [knows, isEnum]
    | optional _ inner ih => cases inner <;> simp_all [knows, Ty.isValueType]
  exact if_pos known

/-- What a description reads are the literals of its type, null left aside. -/
theorem parse_eq_ok_iff {text : String} :
    (s.info ty).parse text = .ok v ↔ s.readLiteral ty.underlying text = .ok v := by
  simp only [info]
  cases s.readLiteral ty.underlying text <;> simp [Except.mapError]

theorem WritesLiterals.stringify (writes : s.WritesLiterals ty) (single : ty.isOptional = false)
    (conforms : Conforms s ty v) {whole : Ty} : (s.info whole).stringify v = v.toString := by
  cases writes with
  | bool | int | date =>
    obtain ⟨x, rfl⟩ := conforms
    rfl
  | enum isVariants =>
    obtain ⟨e, values, rfl, -⟩ := conforms
    rfl
  | optional => cases single

/-- The text of a value is a literal of its type, unless it is the number of another variant. -/
theorem readLiteral_toString_iff (distinct : s.DistinctVariants) (writes : s.WritesLiterals ty)
    (single : ty.isOptional = false) (conforms : Conforms s ty v) :
    s.readLiteral ty v.toString = .ok v ↔ ∀ e, v = .enum e → ¬ e.Misnumbered := by
  cases writes with
  | bool =>
    obtain ⟨b, rfl⟩ := conforms
    have read : s.readLiteral .bool (Data.bool b : Value).toString = .ok (.bool b) := by
      cases b <;> rfl
    simp [read]
  | int =>
    obtain ⟨n, rfl⟩ := conforms
    have written : (Data.int n : Value).toString.toList = Number.writeInt64 n := String.toList_ofList
    simp [readLiteral, written, Number.readInt64?_writeInt64]
  | date =>
    obtain ⟨d, rfl⟩ := conforms
    have written : (Data.date d : Value).toString.toList = d.toChars := String.toList_ofList
    simp [readLiteral, written, Date.ofChars?_toChars]
  | enum isVariants =>
    obtain ⟨e, values, rfl, isEnum, mem⟩ := conforms
    have written : (Data.enum e : Value).toString = e.name := String.ofList_toList
    have read := EnumValue.ofText?_name_iff distinct isEnum mem
    simp only [readLiteral, written, isEnum, Data.enum.injEq, forall_eq', ← read]
    cases EnumValue.ofText? values e.name <;> simp
  | optional => cases single

/-- A value other than null of such a type is read back from its text, unless it is a variant whose
name is the number of another. -/
theorem literals_read_back (distinct : s.DistinctVariants)
    (writes : s.WritesLiterals ty) (conforms : Conforms s ty v) (nonnull : v ≠ .null) :
    ∃ info, s.catalog.describe ty = some info ∧
      (info.parse (info.stringify v) = .ok v ↔ ∀ e, v = .enum e → ¬ e.Misnumbered) := by
  refine ⟨s.info ty, writes.describe, ?_⟩
  obtain ⟨writes', single, conforms'⟩ : s.WritesLiterals ty.underlying ∧
      ty.underlying.isOptional = false ∧ Conforms s ty.underlying v := by
    cases writes with
    | optional single inner => exact ⟨inner, single, conforms.resolve_left nonnull⟩
    | bool => exact ⟨.bool, rfl, conforms⟩
    | int => exact ⟨.int, rfl, conforms⟩
    | date => exact ⟨.date, rfl, conforms⟩
    | enum isVariants => exact ⟨.enum isVariants, rfl, conforms⟩
  have written : (s.info ty).stringify v = v.toString := writes'.stringify single conforms'
  rw [written, parse_eq_ok_iff]
  exact readLiteral_toString_iff distinct writes' single conforms'

/-- A schema with one enum. -/
def ofEnum (name : String) (variants : List String) : Schema :=
  empty.addEnum name variants

theorem distinctVariants_ofEnum {name : String} {variants : List String}
    (apart : variants.Pairwise fun a b => Text.sameName a b = false) :
    (ofEnum name variants).DistinctVariants := by
  intro other variants' isEnum
  simp only [ofEnum, empty, addEnum, variants?, List.lookup_cons, List.lookup_nil] at isEnum
  split at isEnum
  · cases isEnum
    exact apart
  · cases isEnum

/-- A variant that has its ordinal for a name. -/
theorem literals_read_back_grade :
    let s := ofEnum "Grade" ["Failed", "1"]
    let v : Value := .enum ⟨"Grade", "1", 1⟩
    s.DistinctVariants ∧ s.WritesLiterals (.optional (.enum "Grade")) ∧
    Conforms s (.optional (.enum "Grade")) v ∧ v ≠ .null ∧
    ∃ info, s.catalog.describe (.optional (.enum "Grade")) = some info ∧
      info.parse (info.stringify v) = .ok v := by
  intro s v
  have distinct : s.DistinctVariants := distinctVariants_ofEnum (by decide)
  have isEnum : s.variants? "Grade" = some ["Failed", "1"] := rfl
  have writes : s.WritesLiterals (.optional (.enum "Grade")) := .optional rfl (.enum isEnum)
  have conforms : Conforms s (.optional (.enum "Grade")) v :=
    .inr ⟨_, [⟨"Grade", "Failed", 0⟩, ⟨"Grade", "1", 1⟩], rfl, rfl, by simp⟩
  have nonnull : v ≠ .null := by simp [v]
  obtain ⟨info, described, read⟩ := literals_read_back distinct writes conforms nonnull
  refine ⟨distinct, writes, conforms, nonnull, info, described, read.2 ?_⟩
  rintro e isValue ⟨n, isNumber, other⟩
  obtain rfl : ⟨"Grade", "1", 1⟩ = e := Data.enum.inj isValue
  have isOne : Number.readOrdinal? "1".toList = some 1 := by cbv
  exact other (Option.some.inj (isNumber.symm.trans isOne))

/-- Of two variants each has the number of the other for a name, and is read as the other. -/
theorem number_denotes_other_variant :
    let s := ofEnum "Digit" ["1", "0"]
    let v : Value := .enum ⟨"Digit", "1", 0⟩
    s.DistinctVariants ∧ s.WritesLiterals (.enum "Digit") ∧ Conforms s (.enum "Digit") v ∧
    ∃ info, s.catalog.describe (.enum "Digit") = some info ∧ info.stringify v = "1" ∧
      info.parse (info.stringify v) = .ok (.enum ⟨"Digit", "0", 1⟩) := by
  intro s v
  let values : List EnumValue := [⟨"Digit", "1", 0⟩, ⟨"Digit", "0", 1⟩]
  have isVariants : s.variants? "Digit" = some ["1", "0"] := rfl
  have isEnum : s.enumValues? "Digit" = some values := rfl
  have isNumber : Number.readOrdinal? "1".toList = some 1 := by cbv
  have isOther : EnumValue.ofText? values "1" = some ⟨"Digit", "0", 1⟩ := by
    rw [EnumValue.ofText?, isNumber]
    rfl
  have written : (s.info (.enum "Digit")).stringify v = "1" := String.ofList_toList
  refine ⟨distinctVariants_ofEnum (by decide), .enum isVariants,
    ⟨_, values, rfl, isEnum, by simp [values]⟩, s.info (.enum "Digit"), rfl, written, ?_⟩
  have read : s.readLiteral (.enum "Digit") "1" = .ok (.enum ⟨"Digit", "0", 1⟩) := by
    simp [readLiteral, isEnum, isOther]
  rw [written]
  exact parse_eq_ok_iff.2 read

end Schema

end LambdaQuery
