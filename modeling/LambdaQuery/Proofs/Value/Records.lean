import LambdaQuery.Value
import Mathlib

/-!
# Records by the fields that are set

A record that was built by setting fields has one field of each name, with the value that was set
last. The order and the spelling of the names stay as they were set first, and equality looks at them:
two records are equal if they are laid out alike and the same is read from them.
-/

namespace LambdaQuery

namespace Record

variable {V : Type}

/-- The record after fields are set one after another. -/
def ofWrites (type : String) (writes : List (String × V)) : Record V :=
  writes.foldl (fun r write => r.set write.1 write.2) (new type)

/-- The names without repetitions up to ASCII case, each where it comes first and as it is spelled
there. -/
def firstSpelled : List String → List String
  | [] => []
  | name :: rest => name :: (firstSpelled rest).filter fun other => !Text.sameName name other

/-- No name occurs twice, up to ASCII case. -/
def Apart (fields : List (String × V)) : Prop :=
  fields.Pairwise fun a b => Text.sameName a.1 b.1 = false

/-- The value of the first field of a name. -/
def read (fields : List (String × V)) (name : String) : Option V :=
  (fields.find? fun field => Text.sameName field.1 name).map Prod.snd

theorem get?_eq_read (r : Record V) (name : String) : r.get? name = read r.fields name :=
  rfl

/-! ### Setting one field -/

theorem sameName_congr {a b : String} (same : Text.sameName a b = true) (c : String) :
    Text.sameName a c = Text.sameName b c := by
  simp [Text.sameName, Text.sameName_iff.1 same]

theorem read_cons (field : String × V) (fields : List (String × V)) (name : String) :
    read (field :: fields) name =
      if Text.sameName field.1 name then some field.2 else read fields name := by
  by_cases same : Text.sameName field.1 name <;> simp [read, same]

theorem read_setField (name : String) (value : V) (fields : List (String × V)) (other : String) :
    read (setField name value fields) other =
      if Text.sameName name other then some value else read fields other := by
  induction fields with
  | nil => rw [setField, read_cons]
  | cons field rest ih =>
    obtain ⟨old, oldValue⟩ := field
    rw [setField]
    split
    · rename_i same
      rw [read_cons, read_cons]
      simp only [sameName_congr same other]
      split <;> rfl
    · rename_i different
      rw [read_cons, read_cons, ih]
      -- the field in front is not the one that is set
      by_cases here : Text.sameName old other = true
      · have apart : Text.sameName name other = false := by
          rw [Bool.eq_false_iff]
          intro same
          exact different (Text.sameName_trans here (Text.sameName_symm same))
        simp [here, apart]
      · simp [here]

theorem names_setField (name : String) (value : V) (fields : List (String × V)) :
    (setField name value fields).map Prod.fst =
      if (fields.map Prod.fst).any (Text.sameName · name) then fields.map Prod.fst
      else fields.map Prod.fst ++ [name] := by
  induction fields with
  | nil => rfl
  | cons field rest ih =>
    obtain ⟨old, oldValue⟩ := field
    rw [setField]
    split
    · rename_i same
      simp [same]
    · rename_i different
      rw [List.map_cons, ih]
      simp only [List.map_cons, List.any_cons, different, Bool.false_or]
      split <;> simp

/-! ### Setting many -/

theorem ofWrites_concat (type : String) (writes : List (String × V)) (write : String × V) :
    ofWrites type (writes ++ [write]) = (ofWrites type writes).set write.1 write.2 := by
  simp [ofWrites]

theorem type_ofWrites (type : String) (writes : List (String × V)) :
    (ofWrites type writes).type = type := by
  induction writes using List.reverseRecOn with
  | nil => rfl
  | append_singleton writes write ih => rwa [ofWrites_concat]

/-- What was set last is read. -/
theorem get?_ofWrites (type : String) (writes : List (String × V)) (name : String) :
    (ofWrites type writes).get? name =
      (writes.reverse.find? fun write => Text.sameName write.1 name).map Prod.snd := by
  induction writes using List.reverseRecOn with
  | nil => rfl
  | append_singleton writes write ih =>
    rw [ofWrites_concat, get?_eq_read]
    show read (setField write.1 write.2 (ofWrites type writes).fields) name = _
    rw [read_setField, ← get?_eq_read, ih]
    by_cases same : Text.sameName write.1 name <;> simp [same]

theorem any_firstSpelled (names : List String) (name : String) :
    (firstSpelled names).any (Text.sameName · name) = names.any (Text.sameName · name) := by
  induction names with
  | nil => rfl
  | cons first rest ih =>
    rw [firstSpelled, List.any_cons, List.any_cons, List.any_filter, ← ih]
    by_cases same : Text.sameName first name = true
    · simp [same]
    · have kept : ∀ other, (!Text.sameName first other && Text.sameName other name) =
          Text.sameName other name := by
        intro other
        by_cases isName : Text.sameName other name = true
        · have apart : Text.sameName first other = false := by
            rw [Bool.eq_false_iff]
            exact fun alike => same (Text.sameName_trans alike isName)
          simp [isName, apart]
        · simp [isName]
      simp [same, kept]

theorem firstSpelled_concat (names : List String) (name : String) :
    firstSpelled (names ++ [name]) =
      if names.any (Text.sameName · name) then firstSpelled names
      else firstSpelled names ++ [name] := by
  induction names with
  | nil => rfl
  | cons first rest ih =>
    rw [List.cons_append, firstSpelled, firstSpelled, ih, List.any_cons]
    by_cases inRest : rest.any (Text.sameName · name) = true
    · simp [inRest]
    · by_cases same : Text.sameName first name = true <;> simp [inRest, same]

/-- The names stay as they were set first. -/
theorem names_ofWrites (type : String) (writes : List (String × V)) :
    (ofWrites type writes).fields.map Prod.fst = firstSpelled (writes.map Prod.fst) := by
  induction writes using List.reverseRecOn with
  | nil => rfl
  | append_singleton writes write ih =>
    rw [ofWrites_concat, List.map_append, List.map_singleton, firstSpelled_concat, ← any_firstSpelled,
      ← ih]
    exact names_setField write.1 write.2 _

theorem apart_firstSpelled (names : List String) :
    (firstSpelled names).Pairwise fun a b => Text.sameName a b = false := by
  induction names with
  | nil => exact .nil
  | cons name rest ih =>
    rw [firstSpelled]
    refine List.pairwise_cons.2 ⟨fun other mem => ?_, ih.filter _⟩
    simpa using (List.mem_filter.1 mem).2

theorem apart_ofWrites (type : String) (writes : List (String × V)) :
    Apart (ofWrites type writes).fields := by
  have apart := apart_firstSpelled (writes.map Prod.fst)
  rw [← names_ofWrites type] at apart
  exact List.pairwise_map.1 apart

theorem forall_setField {P : V → Prop} {name : String} {value : V} {fields : List (String × V)}
    (isP : P value) (areP : ∀ field ∈ fields, P field.2) :
    ∀ field ∈ setField name value fields, P field.2 := by
  induction fields with
  | nil => simpa [setField] using isP
  | cons field rest ih =>
    obtain ⟨onFirst, onRest⟩ := List.forall_mem_cons.1 areP
    rw [setField]
    split
    · exact List.forall_mem_cons.2 ⟨isP, onRest⟩
    · exact List.forall_mem_cons.2 ⟨onFirst, ih onRest⟩

theorem forall_ofWrites {P : V → Prop} (type : String) {writes : List (String × V)}
    (areP : ∀ write ∈ writes, P write.2) : ∀ field ∈ (ofWrites type writes).fields, P field.2 := by
  induction writes using List.reverseRecOn with
  | nil => intro field mem; cases mem
  | append_singleton writes write ih =>
    rw [ofWrites_concat]
    have onLast : P write.2 := areP write (by simp)
    exact forall_setField onLast (ih fun w mem => areP w (by simp [mem]))

end Record

/-! ### Equality -/

namespace Data

variable {F : Type}

/-- Two answers are equal: none twice, or equal values. -/
abbrev EqualAnswers : Option (Data F) → Option (Data F) → Prop :=
  Option.Rel fun a b => a.equal b = true

/-- The same is read from fields that are equal one by one. -/
theorem equalAnswers_of_equalFields : ∀ {fields fields' : List (String × Data F)},
    equalFields fields fields' = true → fields.map Prod.fst = fields'.map Prod.fst ∧
      ∀ name, EqualAnswers (Record.read fields name) (Record.read fields' name)
  | [], [], _ => ⟨rfl, fun _ => .none⟩
  | [], _ :: _, h => by cases h
  | _ :: _, [], h => by cases h
  | (name, a) :: rest, (name', b) :: rest', h => by
    simp only [equalFields, Bool.and_eq_true, beq_iff_eq] at h
    obtain ⟨⟨rfl, onFirst⟩, onRest⟩ := h
    obtain ⟨names, answers⟩ := equalAnswers_of_equalFields onRest
    refine ⟨by simp [names], fun other => ?_⟩
    rw [Record.read_cons, Record.read_cons]
    split
    · exact .some onFirst
    · exact answers other

theorem read_eq_none_of_apart {fields : List (String × Data F)} {name other : String}
    (apart : ∀ field ∈ fields, Text.sameName name field.1 = false)
    (same : Text.sameName name other = true) : Record.read fields other = none := by
  have missing : ∀ field ∈ fields, ¬ Text.sameName field.1 other = true := by
    intro field mem isOther
    have := apart field mem
    rw [Text.sameName_trans same (Text.sameName_symm isOther)] at this
    cases this
  rw [Record.read, List.find?_eq_none.2 missing]
  rfl

/-- Fields of the same names are equal one by one if the same is read from them, as long as no name
hides another. -/
theorem equalFields_of_equalAnswers : ∀ {fields fields' : List (String × Data F)},
    Record.Apart fields → Record.Apart fields' → fields.map Prod.fst = fields'.map Prod.fst →
    (∀ name, EqualAnswers (Record.read fields name) (Record.read fields' name)) →
    equalFields fields fields' = true
  | [], [], _, _, _, _ => rfl
  | [], _ :: _, _, _, names, _ => by cases names
  | _ :: _, [], _, _, names, _ => by cases names
  | (name, a) :: rest, (name', b) :: rest', apart, apart', names, answers => by
    obtain ⟨rfl, names'⟩ : name = name' ∧ rest.map Prod.fst = rest'.map Prod.fst := by
      simpa using names
    obtain ⟨onFirst, onRest⟩ := List.pairwise_cons.1 apart
    obtain ⟨onFirst', onRest'⟩ := List.pairwise_cons.1 apart'
    have first : a.equal b = true := by
      have here := answers name
      simp only [Record.read_cons, Text.sameName_refl, if_true] at here
      cases here with
      | some equal => exact equal
    have others (other : String) :
        EqualAnswers (Record.read rest other) (Record.read rest' other) := by
      by_cases same : Text.sameName name other = true
      · rw [read_eq_none_of_apart onFirst same, read_eq_none_of_apart onFirst' same]
        exact .none
      · simpa [Record.read_cons, same] using answers other
    simp [equalFields, first, equalFields_of_equalAnswers onRest onRest' names' others]

mutual
/-- Without binary numbers and functions, at any depth. -/
def Plain : Data F → Prop
  | float _ | function _ => False
  | list items => PlainAll items
  | record ⟨_, fields⟩ => PlainFields fields
  | null | bool _ | int _ | string _ | date _ | enum _ => True

def PlainAll : List (Data F) → Prop
  | [] => True
  | item :: rest => Plain item ∧ PlainAll rest

def PlainFields : List (String × Data F) → Prop
  | [] => True
  | (_, value) :: rest => Plain value ∧ PlainFields rest
end

theorem plainFields_of_forall {fields : List (String × Data F)}
    (each : ∀ field ∈ fields, field.2.Plain) : PlainFields fields := by
  induction fields with
  | nil => trivial
  | cons field rest ih =>
    obtain ⟨onFirst, onRest⟩ := List.forall_mem_cons.1 each
    exact ⟨onFirst, ih onRest⟩

theorem compare_date_eq_iff {a b : Date} : a.compare b = .eq ↔ a = b := by
  cases a
  cases b
  simp [Date.compare, Ordering.then_eq_eq]

mutual
/-- Plain values are equal only to themselves. -/
theorem equal_iff_eq : ∀ {a b : Data F}, a.Plain → b.Plain → (a.equal b = true ↔ a = b)
  | .list items, b, plain, plain' => by
    cases b with
    | list items' => rw [equal, equalAll_iff_eq plain plain', list.injEq]
    | _ => simp [equal, compare?]
  | .record ⟨type, fields⟩, b, plain, plain' => by
    cases b with
    | record r =>
      obtain ⟨type', fields'⟩ := r
      rw [equal, Bool.and_eq_true, beq_iff_eq, equalFields_iff_eq plain plain', record.injEq,
        Record.mk.injEq]
    | _ => simp [equal, compare?]
  | .null, b, _, plain' => by cases b <;> simp [equal, compare?]
  | .bool x, b, _, plain' => by cases b <;> simp [equal, compare?]
  | .int n, b, _, plain' => by
    cases b with
    | float x => exact plain'.elim
    | _ => simp [equal, compare?, Int64.toInt_inj]
  | .string text, b, _, plain' => by cases b <;> simp [equal, compare?]
  | .date d, b, _, plain' => by cases b <;> simp [equal, compare?, compare_date_eq_iff]
  | .enum e, b, _, plain' => by cases b <;> simp [equal, compare?]
  | .float _, _, plain, _ => plain.elim
  | .function _, _, plain, _ => plain.elim

theorem equalAll_iff_eq : ∀ {as bs : List (Data F)}, PlainAll as → PlainAll bs →
    (equalAll as bs = true ↔ as = bs)
  | [], [], _, _ => by simp [equalAll]
  | [], _ :: _, _, _ => by simp [equalAll]
  | _ :: _, [], _, _ => by simp [equalAll]
  | a :: as, b :: bs, plain, plain' => by
    rw [equalAll, Bool.and_eq_true, equal_iff_eq plain.1 plain'.1,
      equalAll_iff_eq plain.2 plain'.2, List.cons.injEq]

theorem equalFields_iff_eq : ∀ {fields fields' : List (String × Data F)}, PlainFields fields →
    PlainFields fields' → (equalFields fields fields' = true ↔ fields = fields')
  | [], [], _, _ => by simp [equalFields]
  | [], _ :: _, _, _ => by simp [equalFields]
  | _ :: _, [], _, _ => by simp [equalFields]
  | (name, a) :: fields, (name', b) :: fields', plain, plain' => by
    rw [equalFields, Bool.and_eq_true, Bool.and_eq_true, beq_iff_eq,
      equal_iff_eq plain.1 plain'.1, equalFields_iff_eq plain.2 plain'.2, List.cons.injEq,
      Prod.mk.injEq]
end

end Data

namespace Record

/-- A record has one field of each name that was set, and what is read is what was set last. Two
records are equal if they are of one type, their names were first set in the same order and spelling
and the same is read from them; if they hold no binary numbers and no functions, that is to say that
they are the same. -/
theorem equal_iff_read_and_layout (type type' : String) (writes writes' : List (String × Value)) :
    let r := ofWrites type writes
    let r' := ofWrites type' writes'
    Apart r.fields ∧
    (∀ name, r.get? name =
      (writes.reverse.find? fun write => Text.sameName write.1 name).map Prod.snd) ∧
    ((Data.record r).equal (.record r') = true ↔ type = type' ∧
      firstSpelled (writes.map Prod.fst) = firstSpelled (writes'.map Prod.fst) ∧
      ∀ name, Data.EqualAnswers (r.get? name) (r'.get? name)) ∧
    ((∀ write ∈ writes, write.2.Plain) → (∀ write ∈ writes', write.2.Plain) →
      ((Data.record r).equal (.record r') = true ↔ r = r')) := by
  intro r r'
  have apart : Apart r.fields := apart_ofWrites type writes
  have apart' : Apart r'.fields := apart_ofWrites type' writes'
  refine ⟨apart, get?_ofWrites type writes, ?_, fun plain plain' => ?_⟩
  · rw [← names_ofWrites type, ← names_ofWrites type']
    have equal_eq : (Data.record r).equal (.record r') =
        (r.type == r'.type && Data.equalFields r.fields r'.fields) := rfl
    rw [equal_eq, Bool.and_eq_true, beq_iff_eq, type_ofWrites, type_ofWrites]
    refine and_congr_right fun _ => ⟨Data.equalAnswers_of_equalFields, fun h => ?_⟩
    exact Data.equalFields_of_equalAnswers apart apart' h.1 h.2
  · have onFields := Data.plainFields_of_forall (forall_ofWrites type plain)
    have onFields' := Data.plainFields_of_forall (forall_ofWrites type' plain')
    rw [Data.equal_iff_eq (a := .record r) (b := .record r') onFields onFields', Data.record.injEq]

/-- A name is set again in another spelling and another order. -/
theorem equal_iff_read_and_layout_order :
    let writes : List (String × Value) := [("Order", .int 2), ("Name", .null), ("order", .int 3)]
    let writes' : List (String × Value) := [("Order", .int 3), ("Name", .int 1), ("NAME", .null)]
    (∀ write ∈ writes, write.2.Plain) ∧ (∀ write ∈ writes', write.2.Plain) ∧
    (ofWrites "Item" writes).get? "ORDER" = some (.int 3) ∧
    (Data.record (ofWrites "Item" writes)).equal (.record (ofWrites "Item" writes')) = true := by
  intro writes writes'
  have plain : ∀ write ∈ writes, write.2.Plain := by simp [writes, Data.Plain]
  have plain' : ∀ write ∈ writes', write.2.Plain := by simp [writes', Data.Plain]
  obtain ⟨-, reads, -, same⟩ := equal_iff_read_and_layout "Item" "Item" writes writes'
  exact ⟨plain, plain', (reads "ORDER").trans rfl, (same plain plain').2 rfl⟩

/-- The same is read from records that are not equal: the order of the fields differs, or the
spelling of a name. -/
theorem equal_answers_not_equal :
    let r : Record Value := ofWrites "T" [("a", .int 1), ("b", .int 2)]
    let reordered : Record Value := ofWrites "T" [("b", .int 2), ("a", .int 1)]
    let respelled : Record Value := ofWrites "T" [("A", .int 1), ("b", .int 2)]
    (∀ name, Data.EqualAnswers (r.get? name) (reordered.get? name) ∧
      Data.EqualAnswers (r.get? name) (respelled.get? name)) ∧
    (Data.record r).equal (.record reordered) = false ∧
    (Data.record r).equal (.record respelled) = false := by
  intro r reordered respelled
  refine ⟨fun name => ?_, rfl, rfl⟩
  have onA : Text.sameName "A" name = Text.sameName "a" name := sameName_congr (by decide) name
  have notBoth : Text.sameName "a" name = true → Text.sameName "b" name = false := by
    intro isA
    rw [Bool.eq_false_iff]
    intro isB
    cases Text.sameName_trans isA (Text.sameName_symm isB)
  have isR : r.get? name = read [("a", .int 1), ("b", .int 2)] name := rfl
  have isReordered : reordered.get? name = read [("b", .int 2), ("a", .int 1)] name := rfl
  have isRespelled : respelled.get? name = read [("A", .int 1), ("b", .int 2)] name := rfl
  have none : read ([] : List (String × Value)) name = none := rfl
  simp only [isR, isReordered, isRespelled, read_cons, onA, none]
  by_cases isA : Text.sameName "a" name = true
  · simp only [isA, notBoth isA, if_true, Bool.false_eq_true, if_false]
    exact ⟨.some rfl, .some rfl⟩
  · by_cases isB : Text.sameName "b" name = true
    · simp only [isA, isB, if_true, Bool.false_eq_true, if_false]
      exact ⟨.some rfl, .some rfl⟩
    · simp only [isA, isB, Bool.false_eq_true, if_false]
      exact ⟨.none, .none⟩

end Record

end LambdaQuery
