import LambdaQuery.Catalog.Declared
import LambdaQuery.Proofs.Safety.Conformance
import LambdaQuery.Proofs.Token.Tiling

/-!
# Types as they are written

The texts that can be read with the names of a schema denote exactly the types that its catalog
describes, but for lambda types and for types that null was added to twice: these have no text. What
is read from the text that such a type is shown as is the type. A text that is no type is faulted
between two of its characters, or at an end of it.
-/

namespace LambdaQuery

namespace Ty.Reader

/-! ## Names -/

theorem not_isNameChar_of_isBlank {c : Char} (h : Text.isBlank c = true) :
    isNameChar c = false :=
  Token.not_continuesName_of_isBlank h

/-- A name ends before this. -/
def Stops (rest : List Char) : Prop :=
  ∀ c ∈ rest.head?, isNameChar c = false

/-- A name of a type: some letters, numerals and underscores. -/
structure IsTypeName (name : List Char) : Prop where
  nonempty : name ≠ []
  chars : ∀ c ∈ name, isNameChar c = true

section

variable {resolve : String → Option Ty} {name rest inside : List Char} {ty element : Ty}

theorem stops_of_not {c : Char} (h : isNameChar c = false) : Stops (c :: rest) := by
  simpa [Stops] using h

theorem IsTypeName.trimStart (isName : IsTypeName name) :
    Text.trimStart (name ++ rest) = name ++ rest := by
  obtain ⟨c, cs, rfl⟩ := List.exists_cons_of_ne_nil isName.nonempty
  have notBlank : Text.isBlank c = false := by
    by_contra blank
    have := not_isNameChar_of_isBlank (Bool.eq_true_of_not_eq_false blank)
    rw [isName.chars c List.mem_cons_self] at this
    cases this
  simp [Text.trimStart, notBlank]

theorem Stops.takeWhile (stops : Stops rest) :
    rest.takeWhile isNameChar = [] ∧ rest.dropWhile isNameChar = rest := by
  cases rest with
  | nil => exact ⟨rfl, rfl⟩
  | cons c cs =>
    have notName : isNameChar c = false := stops c rfl
    simp [notName]

theorem IsTypeName.split (isName : IsTypeName name) (stops : Stops rest) :
    (name ++ rest).takeWhile isNameChar = name ∧ (name ++ rest).dropWhile isNameChar = rest := by
  rw [List.takeWhile_append_of_pos isName.chars, List.dropWhile_append_of_pos isName.chars,
    stops.takeWhile.1, stops.takeWhile.2, List.append_nil]
  exact ⟨rfl, rfl⟩

theorem isName_of_builtIn (h : builtIn? name = some ty) : IsTypeName name := by
  unfold builtIn? at h
  split at h
  case h_6 => cases h
  all_goals exact ⟨by simp, List.all_eq_true.1 (by decide +kernel)⟩

theorem isName_of_sequence {sequence : Ty → Ty} (h : sequence? name = some sequence) :
    IsTypeName name ∧ builtIn? name = none := by
  unfold sequence? at h
  split at h
  case h_4 => cases h
  all_goals exact ⟨⟨by simp, List.all_eq_true.1 (by decide +kernel)⟩, rfl⟩

theorem type_builtIn (builtIn : builtIn? name = some ty) (stops : Stops rest) :
    type resolve (name ++ rest) = marks ty rest := by
  have isName := isName_of_builtIn builtIn
  have nonempty : name.isEmpty = false := by simpa using isName.nonempty
  rw [type]
  simp only [isName.trimStart, isName.split stops, nonempty, builtIn, Bool.false_eq_true, if_false]

theorem type_declared (isName : IsTypeName name) (stops : Stops rest)
    (notBuiltIn : builtIn? name = none) (notSequence : sequence? name = none)
    (resolved : resolve (String.ofList name) = some ty) :
    type resolve (name ++ rest) = marks ty rest := by
  have nonempty : name.isEmpty = false := by simpa using isName.nonempty
  rw [type]
  simp only [isName.trimStart, isName.split stops, nonempty, notBuiltIn, notSequence, resolved,
    Bool.false_eq_true, if_false]

/-! ## Marks -/

theorem orNull_of_not_isOptional (plain : ty.isOptional = false) : ty.orNull = optional ty := by
  cases ty <;> first | rfl | cases plain

theorem marks_optional (value : ty.isValueType = true) (plain : ty.isOptional = false) :
    marks ty ('?' :: rest) = marks (optional ty) rest := by
  have start : Text.trimStart ('?' :: rest) = '?' :: rest := rfl
  rw [marks]
  split
  · rename_i trimmed
    cases start.symm.trans trimmed
    simp [value, plain, orNull_of_not_isOptional plain]
  · rename_i trimmed
    cases start.symm.trans trimmed
  · rename_i notQuestion _
    exact absurd rfl (notQuestion rest)

theorem marks_array : marks ty ('[' :: ']' :: rest) = marks (array ty) rest := by
  have start : Text.trimStart ('[' :: ']' :: rest) = '[' :: ']' :: rest := rfl
  rw [marks]
  split
  · rename_i trimmed
    cases start.symm.trans trimmed
  · rename_i trimmed
    cases start.symm.trans trimmed
    rfl
  · rename_i notArray
    exact absurd rfl (notArray rest)

theorem marks_closing : marks ty ('>' :: rest) = .ok (ty, '>' :: rest) := by
  rw [marks]
  rfl

theorem marks_end : marks ty [] = .ok (ty, []) := by
  rw [marks]
  rfl

theorem type_sequence {sequence : Ty → Ty} (isSequence : sequence? name = some sequence)
    (onElement : type resolve inside = .ok (element, '>' :: rest)) :
    type resolve (name ++ '<' :: inside) = marks (sequence element) rest := by
  obtain ⟨isName, notBuiltIn⟩ := isName_of_sequence isSequence
  have nonempty : name.isEmpty = false := by simpa using isName.nonempty
  have stops : Stops ('<' :: inside) := stops_of_not (by decide +kernel)
  have opening : Text.trimStart ((Text.trimStart (name ++ '<' :: inside)).dropWhile isNameChar) =
      '<' :: inside := by
    rw [isName.trimStart, (isName.split stops).2]
    rfl
  have closing : Text.trimStart ('>' :: rest) = '>' :: rest := rfl
  rw [type]
  simp only [isName.trimStart, isName.split stops, nonempty, notBuiltIn, isSequence,
    Bool.false_eq_true, if_false]
  split
  · rename_i trimmed
    cases opening.symm.trans trimmed
    simp only [onElement, closing]
  · rename_i notOpening
    exact absurd opening (notOpening inside)

end

end Ty.Reader

namespace Ty

theorem chars_optional (inner : Ty) : (optional inner).chars = inner.chars ++ ['?'] := rfl

theorem chars_array (element : Ty) : (array element).chars = element.chars ++ ['[', ']'] := rfl

theorem chars_list (element : Ty) :
    (list element).chars = "List".toList ++ '<' :: (element.chars ++ ['>']) := rfl

theorem chars_enumerable (element : Ty) :
    (enumerable element).chars = "Enumerable".toList ++ '<' :: (element.chars ++ ['>']) := rfl

end Ty

namespace Schema

open Ty.Reader

/-- The name of a record or of an enum. -/
def Declares (s : Schema) (name : String) : Prop :=
  (s.fields? name).isSome = true ∨ (s.variants? name).isSome = true

/-- What a schema declares can be written: its names are such as can be read, they are no names of
the language, and each is that of a record or of an enum but not of both. -/
structure Written (s : Schema) : Prop where
  isName : ∀ name, s.Declares name → IsTypeName name.toList
  notBuiltIn : ∀ name, s.Declares name → builtIn? name.toList = none
  notSequence : ∀ name, s.Declares name → sequence? name.toList = none
  once : ∀ name, ¬ ((s.fields? name).isSome = true ∧ (s.variants? name).isSome = true)

variable {s : Schema} {ty : Ty} {name : String} {cs rest : List Char}

/-! ## What is shown is read back -/

theorem resolve_record (h : (s.fields? name).isSome = true) :
    s.resolve name = some (.record name) := by
  simp [resolve, h]

theorem Written.resolve_enum (written : s.Written) (h : (s.variants? name).isSome = true) :
    s.resolve name = some (.enum name) := by
  have notRecord : (s.fields? name).isSome = false :=
    Bool.eq_false_iff.2 fun isRecord => written.once name ⟨isRecord, h⟩
  simp [resolve, notRecord, h]

/-- A declared name is read as the type it stands for. -/
theorem Written.type_name (written : s.Written) (declared : s.Declares name)
    (resolved : s.resolve name = some ty) (stops : Stops rest) :
    type s.resolve (name.toList ++ rest) = marks ty rest :=
  type_declared (written.isName name declared) stops (written.notBuiltIn name declared)
    (written.notSequence name declared) (by rwa [String.ofList_toList])

/-- A known type is read from the text it is shown as, up to the marks that may follow. -/
theorem Written.type_chars (written : s.Written) : ∀ (ty : Ty) (rest : List Char),
    ty.FirstOrder → ty.Proper → s.knows ty = true → Stops rest →
      type s.resolve (ty.chars ++ rest) = marks ty rest
  | .bool, _, _, _, _, stops | .int, _, _, _, _, stops | .float, _, _, _, _, stops
  | .string, _, _, _, _, stops | .date, _, _, _, _, stops =>
    type_builtIn (by decide +kernel) stops
  | .record _, _, _, _, known, stops =>
    written.type_name (.inl known) (resolve_record known) stops
  | .enum _, _, _, _, known, stops =>
    written.type_name (.inr known) (written.resolve_enum known) stops
  | .optional inner, rest, first, proper, known, _ => by
    obtain ⟨value, knownInner⟩ : inner.isValueType = true ∧ s.knows inner = true := by
      simpa [knows] using known
    have onInner := written.type_chars inner ('?' :: rest) first proper.2 knownInner
      (stops_of_not (by decide +kernel))
    rw [Ty.chars_optional, List.append_assoc]
    exact onInner.trans (marks_optional value proper.1)
  | .array element, rest, first, proper, known, _ => by
    have onElement := written.type_chars element ('[' :: ']' :: rest) first proper known
      (stops_of_not (by decide +kernel))
    rw [Ty.chars_array, List.append_assoc]
    exact onElement.trans marks_array
  | .list element, rest, first, proper, known, _ => by
    have onElement := written.type_chars element ('>' :: rest) first proper known
      (stops_of_not (by decide +kernel))
    rw [Ty.chars_list, List.append_assoc, List.cons_append, List.append_assoc]
    exact type_sequence rfl (onElement.trans marks_closing)
  | .enumerable element, rest, first, proper, known, _ => by
    have onElement := written.type_chars element ('>' :: rest) first proper known
      (stops_of_not (by decide +kernel))
    rw [Ty.chars_enumerable, List.append_assoc, List.cons_append, List.append_assoc]
    exact type_sequence rfl (onElement.trans marks_closing)

theorem Written.ofText_toString (written : s.Written) (first : ty.FirstOrder) (proper : ty.Proper)
    (known : s.knows ty = true) : Ty.ofText s.resolve ty.toString = .ok ty := by
  have read : type s.resolve ty.toString.toList = .ok (ty, []) := by
    rw [Ty.toString, String.toList_ofList, ← List.append_nil ty.chars,
      written.type_chars ty [] first proper known (by simp [Stops]), marks_end]
  simp [Ty.ofText, read]

/-! ## What is read is known -/

/-- A type that can be written, and whose names are declared. -/
def Denotable (s : Schema) (ty : Ty) : Prop :=
  ty.FirstOrder ∧ ty.Proper ∧ s.knows ty = true

theorem denotable_marks {ty ty' : Ty} (h : s.Denotable ty)
    (marked : marks ty cs = .ok (ty', rest)) : s.Denotable ty' := by
  fun_induction marks ty cs with
  | case1 ty cs more trimmed value ih =>
    obtain ⟨first, proper, known⟩ := h
    obtain ⟨isValue, notOptional⟩ := Bool.and_eq_true_iff.1 value
    have plain : ty.isOptional = false := by simpa using notOptional
    refine ih ?_ marked
    rw [orNull_of_not_isOptional plain]
    exact ⟨first, ⟨plain, proper⟩, Bool.and_eq_true_iff.2 ⟨isValue, known⟩⟩
  | case2 => cases marked
  | case3 ty cs more trimmed ih => exact ih h marked
  | case4 =>
    cases marked
    exact h

theorem denotable_of_resolve (h : s.resolve name = some ty) : s.Denotable ty := by
  unfold resolve at h
  split at h
  · cases h
    exact ⟨trivial, trivial, by assumption⟩
  · split at h
    · cases h
      exact ⟨trivial, trivial, by assumption⟩
    · cases h

theorem denotable_of_builtIn {name : List Char} (h : builtIn? name = some ty) : s.Denotable ty := by
  unfold builtIn? at h
  split at h <;> cases h <;> exact ⟨trivial, trivial, rfl⟩

theorem denotable_sequence {name : List Char} {sequence : Ty → Ty}
    (h : sequence? name = some sequence) (onElement : s.Denotable ty) :
    s.Denotable (sequence ty) := by
  unfold sequence? at h
  split at h <;> cases h <;> exact onElement

/-- What is read is known to the schema. -/
theorem denotable_type (h : type s.resolve cs = .ok (ty, rest)) : s.Denotable ty := by
  fun_induction type s.resolve cs generalizing ty rest with
  | case2 =>
    rename_i builtIn
    exact denotable_marks (denotable_of_builtIn builtIn) h
  | case4 =>
    rename_i isSequence _ _ _ _ _ onElement _ _ ih
    exact denotable_marks (denotable_sequence isSequence (ih onElement)) h
  | case7 =>
    rename_i resolved
    exact denotable_marks (denotable_of_resolve resolved) h
  | _ => cases h

theorem denotable_of_ofText {text : String} (h : Ty.ofText s.resolve text = .ok ty) :
    s.Denotable ty := by
  unfold Ty.ofText at h
  split at h
  · cases h
  · rename_i read
    dsimp only at h
    split at h
    · cases h
      exact denotable_type read
    · cases h

end Schema

/-! ## Where a fault is found -/

namespace Ty.Reader

open Token

variable {resolve : String → Option Ty}

/-- What is left of the text when the reader is done, or at the fault. -/
def unread : Except Failure (Ty × List Char) → List Char
  | .ok (_, rest) | .error (_, rest) => rest

theorem trimStart_suffix (cs : List Char) : Text.trimStart cs <:+ cs :=
  List.dropWhile_suffix _

theorem marks_suffix (ty : Ty) (cs : List Char) : unread (marks ty cs) <:+ cs := by
  fun_induction marks ty cs with
  | case1 _ cs more trimmed _ ih =>
    exact ih.trans ((List.suffix_cons _ _).trans (trimmed ▸ trimStart_suffix cs))
  | case2 _ cs more trimmed => exact (List.suffix_cons _ _).trans (trimmed ▸ trimStart_suffix cs)
  | case3 _ cs more trimmed ih =>
    exact ih.trans (((List.suffix_cons _ _).trans (List.suffix_cons _ _)).trans
      (trimmed ▸ trimStart_suffix cs))
  | case4 _ cs => exact trimStart_suffix cs

/-- What is left of a text behind the name it starts with. -/
theorem behind_name_suffix (cs : List Char) :
    (Text.trimStart cs).dropWhile isNameChar <:+ cs :=
  (List.dropWhile_suffix _).trans (trimStart_suffix cs)

theorem type_suffix (cs : List Char) : unread (type resolve cs) <:+ cs := by
  fun_induction type resolve cs with
  | case1 cs => exact trimStart_suffix cs
  | case2 cs => exact (marks_suffix _ _).trans (behind_name_suffix cs)
  | case3 cs =>
    rename_i opened _ failed ih
    have inside := (List.suffix_cons _ _).trans (opened ▸ trimStart_suffix _)
    rw [failed] at ih
    exact ih.trans (inside.trans (behind_name_suffix cs))
  | case4 cs =>
    rename_i opened _ _ onElement _ closed ih
    have inside := (List.suffix_cons _ _).trans (opened ▸ trimStart_suffix _)
    have behind := (List.suffix_cons _ _).trans (closed ▸ trimStart_suffix _)
    rw [onElement] at ih
    exact (marks_suffix _ _).trans (behind.trans (ih.trans (inside.trans (behind_name_suffix cs))))
  | case5 cs =>
    rename_i opened _ _ onElement _ ih
    have inside := (List.suffix_cons _ _).trans (opened ▸ trimStart_suffix _)
    rw [onElement] at ih
    exact (trimStart_suffix _).trans (ih.trans (inside.trans (behind_name_suffix cs)))
  | case6 cs => exact (trimStart_suffix _).trans (behind_name_suffix cs)
  | case7 cs => exact (marks_suffix _ _).trans (behind_name_suffix cs)
  | case8 cs => exact List.suffix_refl cs

/-- A fault is found where a character starts, or at the end of the text. -/
theorem valid_offset {text : String} {e : TextError} (h : ofText resolve text = .error e) :
    String.Pos.Raw.Valid text ⟨e.offset⟩ := by
  obtain ⟨rest, suffix, isOffset⟩ : ∃ rest, rest <:+ text.toList ∧
      e.offset = text.utf8ByteSize - (String.ofList rest).utf8ByteSize := by
    have suffix : unread (type resolve text.toList) <:+ text.toList := type_suffix text.toList
    unfold ofText at h
    split at h
    · rename_i failed
      rw [failed] at suffix
      cases h
      exact ⟨_, suffix, rfl⟩
    · rename_i read
      rw [read] at suffix
      dsimp only at h
      split at h
      · cases h
      · cases h
        exact ⟨_, suffix, rfl⟩
  obtain ⟨front, parts⟩ := suffix
  refine String.Pos.Raw.Valid.intro ⟨front, rest, parts, ?_⟩
  have length : text.utf8ByteSize = byteLength front + byteLength rest := by
    rw [← byteLength_toList, ← parts, byteLength_append]
  rw [isOffset, length, ← byteLength_toList, String.toList_ofList, Nat.add_sub_cancel,
    byteLength_eq_utf8Len]

end Ty.Reader

namespace Schema

open Ty.Reader

/-- With the names of a schema that can be written, the types that texts denote are those that the
catalog describes, lambda types and optionals of optionals aside. Each is read back from the text it
is shown as. A fault of a text is found within the text, between two characters. -/
theorem texts_denote_described (s : Schema) (written : s.Written) :
    (∀ ty : Ty, (∃ text, Ty.ofText s.resolve text = .ok ty) ↔
        ty.FirstOrder ∧ ty.Proper ∧ (s.catalog.describe ty).isSome = true) ∧
      (∀ ty : Ty, ty.FirstOrder → ty.Proper → (s.catalog.describe ty).isSome = true →
        Ty.ofText s.resolve ty.toString = .ok ty) ∧
      ∀ (text : String) (e : Ty.TextError), Ty.ofText s.resolve text = .error e →
        e.offset ≤ text.utf8ByteSize ∧ String.Pos.Raw.Valid text ⟨e.offset⟩ := by
  have described (ty : Ty) : (s.catalog.describe ty).isSome = true ↔ s.knows ty = true := by
    simp [catalog]
  simp only [described]
  refine ⟨fun ty => ⟨fun ⟨_, read⟩ => denotable_of_ofText read, fun ⟨first, proper, known⟩ =>
    ⟨_, written.ofText_toString first proper known⟩⟩, fun ty => written.ofText_toString, ?_⟩
  intro text e faulted
  have valid := valid_offset faulted
  exact ⟨String.Pos.Raw.le_iff.1 valid.le_rawEndPos, valid⟩

/-- Tags, and the colors they can have. -/
def tagSchema : Schema :=
  (Schema.empty.addRecord "Tag" [("Color", .enum "Color")]).addEnum "Color" ["Red", "Blue"]

theorem tagSchema_written : tagSchema.Written := by
  have records : ∀ name, (tagSchema.fields? name).isSome = true → name = "Tag" := by
    intro name isRecord
    by_contra other
    have different : (name == "Tag") = false := beq_eq_false_iff_ne.2 other
    simp [tagSchema, fields?, addRecord, addEnum, empty, List.lookup_cons, different] at isRecord
  have enums : ∀ name, (tagSchema.variants? name).isSome = true → name = "Color" := by
    intro name isEnum
    by_contra other
    have different : (name == "Color") = false := beq_eq_false_iff_ne.2 other
    simp [tagSchema, variants?, addRecord, addEnum, empty, List.lookup_cons, different] at isEnum
  have names : ∀ name, tagSchema.Declares name → name = "Tag" ∨ name = "Color" :=
    fun name declared => declared.imp (records name) (enums name)
  refine ⟨fun name declared => ?_, fun name declared => ?_, fun name declared => ?_, ?_⟩
  · rcases names name declared with rfl | rfl <;>
      exact ⟨by decide, List.all_eq_true.1 (by decide +kernel)⟩
  · rcases names name declared with rfl | rfl <;> rfl
  · rcases names name declared with rfl | rfl <;> rfl
  · rintro name ⟨isRecord, isEnum⟩
    exact absurd ((records name isRecord).symm.trans (enums name isEnum)) (by decide)

theorem texts_denote_described_tags :
    tagSchema.Written ∧ (Ty.array (.optional (.enum "Color"))).FirstOrder ∧
      (Ty.array (.optional (.enum "Color"))).Proper ∧
      Ty.ofText tagSchema.resolve (Ty.array (.optional (.enum "Color"))).toString =
        .ok (.array (.optional (.enum "Color"))) ∧
      ¬ ∃ text, Ty.ofText tagSchema.resolve text = .ok (.optional (.record "Tag")) := by
  have h := texts_denote_described tagSchema tagSchema_written
  refine ⟨tagSchema_written, trivial, ⟨rfl, trivial⟩, ?_, ?_⟩
  · exact h.2.1 _ trivial ⟨rfl, trivial⟩ (by decide)
  · rw [h.1]
    rintro ⟨_, _, described⟩
    cases described

end Schema

end LambdaQuery
