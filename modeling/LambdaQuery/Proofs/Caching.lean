import LambdaQuery.Resolver.Cached
import Mathlib

/-!
# Answers from shared tables

Whatever callers do at the same time, each gets the answer that it would get without any tables.
Every entry of a table is the value of its key, and each step of each caller keeps it so: a caller
that computes a value computes the one of its key, whatever the others wrote in the meantime. Keys
of names forget the case of letters, and so do the values.
-/

namespace LambdaQuery

/-! Tables. -/

namespace Memo

variable {κ ν ε : Type} [BEq κ]

/-- Every key has a value that is right for it. -/
def Right (right : κ → ν → Prop) (m : Memo κ ν) : Prop :=
  ∀ key value, m.get? key = some value → right key value

/-- Keys keep their values. -/
def Keeps (m m' : Memo κ ν) : Prop :=
  ∀ key value, m.get? key = some value → m'.get? key = some value

theorem right_empty (right : κ → ν → Prop) : (empty : Memo κ ν).Right right := by
  intro key value found
  cases found

theorem Keeps.refl (m : Memo κ ν) : m.Keeps m :=
  fun _ _ found => found

theorem Keeps.trans {m m' m'' : Memo κ ν} (first : m.Keeps m') (second : m'.Keeps m'') :
    m.Keeps m'' :=
  fun key value found => second key value (first key value found)

variable [LawfulBEq κ]

/-- After writing, the key has the value that is given back, and the other keys have theirs. -/
theorem get?_insertIfAbsent (m : Memo κ ν) (key : κ) (value : ν) (other : κ) :
    (m.insertIfAbsent key value).2.get? other =
      if other == key then some (m.insertIfAbsent key value).1 else m.get? other := by
  unfold insertIfAbsent
  cases found : m.get? key with
  | some old =>
    by_cases same : other = key
    · simp [same, found]
    · simp [same]
  | none =>
    by_cases same : other = key
    · simp [same, get?]
    · have differ : (other == key) = false := by simpa using same
      simp [get?, List.lookup_cons, differ]

theorem keeps_insertIfAbsent (m : Memo κ ν) (key : κ) (value : ν) :
    m.Keeps (m.insertIfAbsent key value).2 := by
  intro other old found
  rw [get?_insertIfAbsent]
  by_cases same : other = key
  · subst same
    simp [insertIfAbsent, found]
  · simpa [same] using found

theorem keeps_getOrInsert (m : Memo κ ν) (key : κ) (compute : Unit → ν) :
    m.Keeps (m.getOrInsert key compute).2 := by
  unfold getOrInsert
  split
  · exact .refl m
  · exact m.keeps_insertIfAbsent key _

theorem keeps_tryGetOrInsert (m : Memo κ ν) (key : κ) (compute : Unit → Except ε ν) :
    m.Keeps (m.tryGetOrInsert key compute).2 := by
  unfold tryGetOrInsert
  split
  · exact .refl m
  · split
    · exact m.keeps_insertIfAbsent key _
    · exact .refl m

omit [LawfulBEq κ] in
theorem eq_of_tryGetOrInsert_error {m : Memo κ ν} {key : κ} {compute : Unit → Except ε ν} {e : ε}
    (failed : (m.tryGetOrInsert key compute).1 = .error e) :
    (m.tryGetOrInsert key compute).2 = m := by
  unfold tryGetOrInsert at failed ⊢
  split at failed
  · cases failed
  · split at failed
    · cases failed
    · rfl

/-- A right value may be written, and what is given back is right. -/
theorem Right.insertIfAbsent {right : κ → ν → Prop} {m : Memo κ ν} (h : m.Right right) {key : κ}
    {value : ν} (isRight : right key value) :
    (m.insertIfAbsent key value).2.Right right ∧ right key (m.insertIfAbsent key value).1 := by
  have given : right key (m.insertIfAbsent key value).1 := by
    unfold Memo.insertIfAbsent
    split
    · exact h key _ ‹_›
    · exact isRight
  refine ⟨fun other found isFound => ?_, given⟩
  rw [get?_insertIfAbsent] at isFound
  by_cases same : other = key
  · subst same
    simp only [beq_self_eq_true, if_true] at isFound
    cases isFound
    exact given
  · have differ : (other == key) = false := by simpa using same
    simp only [differ, Bool.false_eq_true, if_false] at isFound
    exact h other found isFound

end Memo

/-! Routines. -/

namespace Routine

variable {σ α β : Type} {inv : σ → Prop} {guar : σ → σ → Prop} {post : α → Prop}

/-- From any states that satisfy the invariant, each step keeps it, changes the state only in the
allowed way, and the result is as said. The state at one step need not be what the step before left,
since others may have acted. -/
def Ensures (inv : σ → Prop) (guar : σ → σ → Prop) (post : α → Prop) : Routine σ α → Prop
  | done a => post a
  | step act next => ∀ s, inv s → inv (act s) ∧ guar s (act s) ∧ Ensures inv guar post (next s)

theorem Ensures.bind {r : Routine σ α} {f : α → Routine σ β} {post' : β → Prop}
    (h : r.Ensures inv guar post) (next : ∀ a, post a → (f a).Ensures inv guar post') :
    (r.bind f).Ensures inv guar post' := by
  induction r with
  | done a => exact next a h
  | step act rest ih =>
    intro s holds
    obtain ⟨kept, allowed, onRest⟩ := h s holds
    exact ⟨kept, allowed, ih s onRest⟩

theorem Ensures.mono {r : Routine σ α} {post' : α → Prop} (h : r.Ensures inv guar post)
    (imp : ∀ a, post a → post' a) : r.Ensures inv guar post' := by
  induction r with
  | done a => exact imp a h
  | step act rest ih =>
    intro s holds
    obtain ⟨kept, allowed, onRest⟩ := h s holds
    exact ⟨kept, allowed, ih s onRest⟩

theorem Ensures.of_run {r : Routine σ α} (h : r.Ensures inv guar post) {s : σ} (holds : inv s) :
    post (r.run s).1 := by
  induction r generalizing s with
  | done a => exact h
  | step act next ih =>
    obtain ⟨kept, -, onNext⟩ := h s holds
    exact ih s onNext kept

end Routine

namespace Shared

/-- A lookup that nobody comes between is one of the table. -/
theorem run_fetch {σ κ ν : Type} [BEq κ] (table : Shared σ κ ν) (key : κ) (compute : Unit → ν)
    (s : σ) : (table.fetch key (.done (compute ()))).run s =
      (((table.read s).getOrInsert key compute).1,
        table.write s ((table.read s).getOrInsert key compute).2) := by
  unfold fetch Memo.getOrInsert
  cases found : (table.read s).get? key with
  | some value => simp [Routine.run, found, table.write_read]
  | none => simp [Routine.run, Routine.bind, found]

variable {σ κ ν : Type} [BEq κ] [LawfulBEq κ] {table : Shared σ κ ν} {inv : σ → Prop}
  {guar : σ → σ → Prop} {right : κ → ν → Prop}

/-- The invariant says that the entries of the table are right, and asks no more of it. -/
structure Keeps (table : Shared σ κ ν) (inv : σ → Prop) (guar : σ → σ → Prop)
    (right : κ → ν → Prop) : Prop where
  sound : ∀ {s}, inv s → (table.read s).Right right
  same : ∀ s, guar s s
  write : ∀ {s m}, inv s → m.Right right → (table.read s).Keeps m →
    inv (table.write s m) ∧ guar s (table.write s m)

/-- What a table gives is right if what is computed for it is. -/
theorem Keeps.fetch (keeps : table.Keeps inv guar right) {key : κ} {compute : Routine σ ν}
    (computes : compute.Ensures inv guar (right key)) :
    (table.fetch key compute).Ensures inv guar (right key) := by
  intro s holds
  refine ⟨holds, keeps.same s, ?_⟩
  dsimp only
  split
  · rename_i value found
    exact keeps.sound holds key value found
  · -- the table may have changed since it was read, but only by right values
    refine computes.bind fun value isRight later holds' => ?_
    obtain ⟨stillRight, given⟩ := (keeps.sound holds').insertIfAbsent isRight
    obtain ⟨kept, allowed⟩ :=
      keeps.write holds' stillRight ((table.read later).keeps_insertIfAbsent key value)
    exact ⟨kept, allowed, given⟩

end Shared

/-! Names up to the case of letters. -/

namespace TypeInfo

variable {a b : String}

theorem property?_congr (i : TypeInfo) (same : Text.folded a = Text.folded b) :
    i.property? a = i.property? b := by
  simp only [property?, Text.sameName, same]

theorem methodsNamed_congr (i : TypeInfo) (same : Text.folded a = Text.folded b) :
    i.methodsNamed a = i.methodsNamed b := by
  simp only [methodsNamed, Text.sameName, same]

end TypeInfo

namespace Resolver

variable {a b : String}

theorem propertyOf?_congr (c : Catalog) (ty : Ty) (same : Text.folded a = Text.folded b) :
    propertyOf? c ty a = propertyOf? c ty b := by
  simp only [propertyOf?, TypeInfo.property?_congr _ same]

theorem methodsOf_congr (c : Catalog) (ty : Ty) (same : Text.folded a = Text.folded b) :
    methodsOf c ty a = methodsOf c ty b := by
  simp only [methodsOf, TypeInfo.methodsNamed_congr _ same]

end Resolver

/-! The tables of a catalog. -/

namespace Caches

/-- The value of a type and a name, for every spelling of the name. -/
def InAnySpelling {ν : Type} (value : Ty → String → ν) (key : Ty × List Char) (found : ν) : Prop :=
  ∀ name, Text.folded name = key.2 → found = value key.1 name

/-- Every entry is what the schema says of its key. -/
structure Right (s : Schema) (c : Caches) : Prop where
  infos : c.infos.Right fun ty info => info = s.info ty
  variants : c.variants.Right fun name values => s.enumValues? name = some values
  properties : c.properties.Right (InAnySpelling (Resolver.propertyOf? s.catalog))
  methods : c.methods.Right (InAnySpelling (Resolver.methodsOf s.catalog))

/-- The keys of all tables keep their values. -/
structure Keeps (c c' : Caches) : Prop where
  infos : c.infos.Keeps c'.infos
  variants : c.variants.Keeps c'.variants
  properties : c.properties.Keeps c'.properties
  methods : c.methods.Keeps c'.methods

theorem right_empty (s : Schema) : Caches.empty.Right s :=
  ⟨Memo.right_empty _, Memo.right_empty _, Memo.right_empty _, Memo.right_empty _⟩

theorem Keeps.refl (c : Caches) : c.Keeps c :=
  ⟨.refl _, .refl _, .refl _, .refl _⟩

theorem Keeps.trans {c c' c'' : Caches} (first : c.Keeps c') (second : c'.Keeps c'') :
    c.Keeps c'' where
  infos := first.infos.trans second.infos
  variants := first.variants.trans second.variants
  properties := first.properties.trans second.properties
  methods := first.methods.trans second.methods

variable (s : Schema)

theorem infoTable_keeps : infoTable.Keeps (Right s) Keeps fun ty info => info = s.info ty where
  sound h := h.infos
  same := .refl
  write h right kept := ⟨{ h with infos := right }, { Keeps.refl _ with infos := kept }⟩

theorem variantTable_keeps : variantTable.Keeps (Right s) Keeps fun name values =>
    s.enumValues? name = some values where
  sound h := h.variants
  same := .refl
  write h right kept := ⟨{ h with variants := right }, { Keeps.refl _ with variants := kept }⟩

theorem propertyTable_keeps : propertyTable.Keeps (Right s) Keeps
    (InAnySpelling (Resolver.propertyOf? s.catalog)) where
  sound h := h.properties
  same := .refl
  write h right kept := ⟨{ h with properties := right }, { Keeps.refl _ with properties := kept }⟩

theorem methodTable_keeps : methodTable.Keeps (Right s) Keeps
    (InAnySpelling (Resolver.methodsOf s.catalog)) where
  sound h := h.methods
  same := .refl
  write h right kept := ⟨{ h with methods := right }, { Keeps.refl _ with methods := kept }⟩

end Caches

namespace Cached

variable (s : Schema)

/-- The routine gives what is said, whatever others do with the tables. -/
abbrev Gives {α : Type} (r : Routine Caches α) (result : α) : Prop :=
  r.Ensures (Caches.Right s) Caches.Keeps (· = result)

variable {s}

theorem Gives.map {α β : Type} {r : Routine Caches α} {a : α} (h : Gives s r a) (f : α → β) :
    Gives s (r.map f) (f a) :=
  Routine.Ensures.bind h fun _ same => congrArg f same

variable (s)

theorem enumValues_gives (name : String) : Gives s (enumValues s name) (s.enumValues? name) := by
  unfold enumValues
  cases declared : s.variants? name with
  | none =>
    show none = s.enumValues? name
    simp [Schema.enumValues?, declared]
  | some variants =>
    refine ((Caches.variantTable_keeps s).fetch ?_).bind fun values isRight => isRight.symm
    show s.enumValues? name = some _
    simp [Schema.enumValues?, declared]

theorem info_gives (ty : Ty) : Gives s (info s ty) (s.info ty) := by
  unfold info
  split
  · rename_i name isEnum
    refine (enumValues_gives s name).bind ?_
    rintro _ rfl
    show _ = s.info ty
    simp only [Schema.info, isEnum]
    rfl
  · rfl

theorem describe_gives (ty : Ty) : Gives s (describe s ty) (s.catalog.describe ty) := by
  unfold describe
  simp only [Schema.catalog]
  split
  · refine ((Caches.infoTable_keeps s).fetch (info_gives s ty)).bind ?_
    rintro _ rfl
    rfl
  · rfl

/-- The property is looked up in one spelling of its name, and kept for all. -/
theorem propertyOf_gives (ty : Ty) (name : String) :
    Gives s (propertyOf s ty name) (Resolver.propertyOf? s.catalog ty name) := by
  refine ((Caches.propertyTable_keeps s).fetch ?_).mono fun found isRight => isRight name rfl
  refine (describe_gives s ty).bind ?_
  rintro _ rfl other same
  exact Resolver.propertyOf?_congr s.catalog ty same.symm

theorem methodsOf_gives (ty : Ty) (name : String) :
    Gives s (methodsOf s ty name) (Resolver.methodsOf s.catalog ty name) := by
  refine ((Caches.methodTable_keeps s).fetch ?_).mono fun found isRight => isRight name rfl
  refine (describe_gives s ty).bind ?_
  rintro _ rfl other same
  exact Resolver.methodsOf_congr s.catalog ty same.symm

theorem propertyCandidates_gives (r : Request) :
    Gives s (propertyCandidates s r) ((Resolver.properties s.catalog).candidates r) := by
  obtain ⟨name, site, args, result⟩ := r
  rcases args with _ | ⟨hint, _ | ⟨hint', rest⟩⟩
  · exact rfl
  · cases hint with
    | known ty => exact (propertyOf_gives s ty name).map fun found =>
        Overload.bestFits found.toList ⟨name, site, [.known ty], result⟩
    | unknown _ => exact rfl
  · cases hint <;> exact rfl

theorem methodCandidates_gives (r : Request) :
    Gives s (methodCandidates s r) ((Resolver.methods s.catalog).candidates r) := by
  obtain ⟨name, site, args, result⟩ := r
  cases site with
  | member => exact rfl
  | call =>
    rcases args with _ | ⟨hint, rest⟩
    · exact rfl
    · cases hint with
      | known ty => exact (methodsOf_gives s ty name).map fun found =>
          Overload.bestFits found ⟨name, .call, .known ty :: rest, result⟩
      | unknown _ => exact rfl

theorem ask_gives (question : Question) : Gives s (question.ask s) (question.answer s) := by
  cases question with
  | describe ty => exact (describe_gives s ty).map Answer.info
  | enumValues name => exact (enumValues_gives s name).map Answer.variants
  | properties r => exact (propertyCandidates_gives s r).map Answer.overloads
  | methods r => exact (methodCandidates_gives s r).map Answer.overloads

end Cached

/-! Callers that share the tables. -/

namespace Session

variable {s : Schema} {x : Session}

/-- Tables and answers are right so far, and every caller will get its answer. -/
structure Right (s : Schema) (x : Session) : Prop where
  caches : x.caches.Right s
  pending : ∀ p ∈ x.pending, Cached.Gives s p.2 (p.1.answer s)
  answers : ∀ p ∈ x.answers, p.2 = p.1.answer s

theorem right_start (s : Schema) : Session.start.Right s :=
  ⟨Caches.right_empty s, by simp [start], by simp [start]⟩

theorem Right.turn (h : x.Right s) (t : Turn) :
    (x.turn s t).Right s ∧ x.caches.Keeps (x.turn s t).caches := by
  cases t with
  | ask question =>
    refine ⟨⟨h.caches, ?_, h.answers⟩, .refl _⟩
    intro p mem
    rcases List.mem_append.1 mem with before | isNew
    · exact h.pending p before
    · cases List.mem_singleton.1 isNew
      exact Cached.ask_gives s question
  | act caller =>
    unfold Session.turn
    dsimp only
    split
    · exact ⟨h, .refl _⟩
    · rename_i question answer found
      have gives := h.pending _ (List.mem_of_getElem? found)
      refine ⟨⟨h.caches, fun p mem => h.pending p (List.mem_of_mem_eraseIdx mem), ?_⟩, .refl _⟩
      intro p mem
      rcases List.mem_append.1 mem with before | isNew
      · exact h.answers p before
      · cases List.mem_singleton.1 isNew
        exact gives
    · rename_i question act next found
      have gives := h.pending _ (List.mem_of_getElem? found)
      obtain ⟨right, kept, onNext⟩ := gives x.caches h.caches
      refine ⟨⟨right, ?_, h.answers⟩, kept⟩
      intro p mem
      rcases List.mem_or_eq_of_mem_set mem with before | rfl
      · exact h.pending p before
      · exact onNext

theorem Right.turns (h : x.Right s) (ts : List Turn) :
    (x.turns s ts).Right s ∧ x.caches.Keeps (x.turns s ts).caches := by
  induction ts generalizing x with
  | nil => exact ⟨h, .refl _⟩
  | cons t rest ih =>
    obtain ⟨first, kept⟩ := h.turn t
    obtain ⟨right, kept'⟩ := ih first
    exact ⟨right, kept.trans kept'⟩

/-- A caller that goes on alone gets the result of its routine. -/
theorem answers_of_run {question : Question} {r : Routine Caches Answer} {caller : Nat}
    (waits : x.pending[caller]? = some (question, r)) :
    ∃ n, (x.turns s (List.replicate n (.act caller))).answers =
      x.answers ++ [(question, (r.run x.caches).1)] := by
  induction r generalizing x with
  | done answer =>
    refine ⟨1, ?_⟩
    simp [turns, turn, waits, Routine.run]
  | step act next ih =>
    have lt := (List.getElem?_eq_some_iff.1 waits).1
    have acted : x.turn s (.act caller) = { x with
        caches := act x.caches
        pending := x.pending.set caller (question, next x.caches) } := by
      simp only [turn, waits]
    obtain ⟨n, answered⟩ := ih x.caches
      (x := { x with
        caches := act x.caches
        pending := x.pending.set caller (question, next x.caches) })
      (by simp [lt])
    refine ⟨n + 1, ?_⟩
    rw [List.replicate_succ, turns, List.foldl_cons, acted]
    exact answered

end Session

/-- Callers that share the tables of a catalog and its resolvers get the answers that they would get
without tables, whatever they ask, in whatever spelling of names, and in whatever order they act; and
a caller that is left to act does get its answer. What a key has in a table stays, a lookup that
nobody comes between is one of the table alone, and a computation that fails changes no table. -/
theorem caches_transparent (s : Schema) (ts : List Turn) :
    (∀ p ∈ (Session.start.turns s ts).answers, p.2 = p.1.answer s) ∧
    (∀ {caller : Nat} {question : Question} {r : Routine Caches Answer},
      (Session.start.turns s ts).pending[caller]? = some (question, r) →
      ∃ n, ((Session.start.turns s ts).turns s (List.replicate n (.act caller))).answers =
        (Session.start.turns s ts).answers ++ [(question, question.answer s)]) ∧
    (∀ later, (Session.start.turns s ts).caches.Keeps
      ((Session.start.turns s ts).turns s later).caches) ∧
    (∀ {σ κ ν : Type} [BEq κ] (table : Shared σ κ ν) (key : κ) (compute : Unit → ν) (c : σ),
      (table.fetch key (.done (compute ()))).run c =
        (((table.read c).getOrInsert key compute).1,
          table.write c ((table.read c).getOrInsert key compute).2)) ∧
    ∀ {κ ν ε : Type} [BEq κ] [LawfulBEq κ] (m : Memo κ ν) (key : κ),
      (∀ value, m.Keeps (m.insertIfAbsent key value).2) ∧
      (∀ compute, m.Keeps (m.getOrInsert key compute).2) ∧
      ∀ compute : Unit → Except ε ν, m.Keeps (m.tryGetOrInsert key compute).2 ∧
        ∀ e, (m.tryGetOrInsert key compute).1 = .error e →
          (m.tryGetOrInsert key compute).2 = m := by
  obtain ⟨right, -⟩ := (Session.right_start s).turns ts
  refine ⟨right.answers, ?_, fun later => (right.turns later).2, Shared.run_fetch, ?_⟩
  · intro caller question r waits
    obtain ⟨n, answered⟩ := Session.answers_of_run waits
    refine ⟨n, answered.trans ?_⟩
    have gives := right.pending _ (List.mem_of_getElem? waits)
    rw [gives.of_run right.caches]
  · intro κ ν ε _ _ m key
    refine ⟨m.keeps_insertIfAbsent key, m.keeps_getOrInsert key, fun compute => ?_⟩
    exact ⟨m.keeps_tryGetOrInsert key compute, fun e failed =>
      Memo.eq_of_tryGetOrInsert_error failed⟩

/-- Rows with one field. -/
def lowSchema : Schema :=
  Schema.empty.addRecord "Row" [("Low", .int)]

/-- Two callers ask for a property in different spellings, find nothing, and both compute it. -/
def race : List Turn :=
  let ask (name : String) := Turn.ask (.properties
    ⟨name, .member, [.known (.record "Row")], .nothing⟩)
  [ask "Low", ask "LOW", .act 0, .act 1, .act 0, .act 1, .act 0, .act 1, .act 0, .act 1]

theorem caches_transparent_race :
    (Session.start.turns lowSchema race).caches.properties.size = 1 ∧
      (∃ p, (Session.start.turns lowSchema race).pending[1]? = some p ∧
        ∃ n, ((Session.start.turns lowSchema race).turns lowSchema
            (List.replicate n (.act 1))).answers =
          (Session.start.turns lowSchema race).answers ++ [(p.1, p.1.answer lowSchema)]) ∧
      (Session.start.turns lowSchema (race ++ [.act 0, .act 0])).answers.length = 2 ∧
      (∀ p ∈ (Session.start.turns lowSchema (race ++ [.act 0, .act 0])).answers,
        p.2 = p.1.answer lowSchema) ∧
      ((⟨[(1, 2)]⟩ : Memo Nat Nat).tryGetOrInsert 3 fun _ => .error ()).1 = .error () ∧
      ((⟨[(1, 2)]⟩ : Memo Nat Nat).tryGetOrInsert 3 fun _ => .error ()).2 = ⟨[(1, 2)]⟩ := by
  have waiting : ((Session.start.turns lowSchema race).pending[1]?).isSome = true := by cbv
  obtain ⟨p, waits⟩ := Option.isSome_iff_exists.1 waiting
  have failed : ((⟨[(1, 2)]⟩ : Memo Nat Nat).tryGetOrInsert 3 fun _ => .error ()).1 = .error () :=
    rfl
  obtain ⟨-, goesOn, -, -, table⟩ := caches_transparent lowSchema race
  obtain ⟨-, -, fallible⟩ := table (⟨[(1, 2)]⟩ : Memo Nat Nat) 3
  have unchanged := (fallible _).2 () failed
  obtain ⟨right, -⟩ := caches_transparent lowSchema (race ++ [.act 0, .act 0])
  have written : (Session.start.turns lowSchema race).caches.properties.size = 1 := by cbv
  have answered : (Session.start.turns lowSchema (race ++ [.act 0, .act 0])).answers.length = 2 := by
    cbv
  exact ⟨written, ⟨p, waits, goesOn waits⟩, answered, right, failed, unchanged⟩

end LambdaQuery
