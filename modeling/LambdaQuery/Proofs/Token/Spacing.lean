import LambdaQuery.Proofs.Token.Spelling
import LambdaQuery.Proofs.Token.Tiling

/-!
# White space between tokens

A text is spaced otherwise if white space is put in front of some of its tokens or at its end, and
where it has white space, any other stands instead. How a token is read depends on at most two
characters behind it, and none of them can be white space that would be read as a part of it. So a
text that is spaced otherwise has the same tokens, at other places.
-/

namespace LambdaQuery

open Token

/-! ## A token and what follows it -/

theorem Token.not_isDigit_of_isBlank {c : Char} (h : Text.isBlank c = true) :
    c.isDigit = false := by
  by_contra isDigit
  rw [Lexeme.isBlank_of_isDigit (Bool.eq_true_of_not_eq_false isDigit)] at h
  cases h

/-- The second text starts with white space or as the first one does. -/
def StartsAlike (cs cs' : List Char) : Prop :=
  ∀ d ∈ cs'.head?, Text.isBlank d = true ∨ cs.head? = some d

/-- The second text can stand behind a token instead of the first one. The token may look at what
follows a point, too. -/
structure Resumes (cs cs' : List Char) : Prop where
  starts : StartsAlike cs cs'
  point : ∀ {more'}, cs' = '.' :: more' → ∃ more, cs = '.' :: more ∧ StartsAlike more more'

/-- A run of characters that ends in front of the first text ends in front of the second one. -/
theorem StartsAlike.stop {p : Char → Bool} {cs cs' : List Char} (h : StartsAlike cs cs')
    (blank : ∀ {d}, Text.isBlank d = true → p d = false) (stop : ∀ d ∈ cs.head?, p d = false) :
    ∀ d ∈ cs'.head?, p d = false := by
  intro d isHead
  rcases h d isHead with isBlank | same
  · exact blank isBlank
  · exact stop d same

namespace Lexeme

variable {c : Char} {cs rest' : List Char} {l : Lexeme}

theorem oneOrTwo_stop {second : Char} (one two : TokenKind)
    (stop : ∀ d ∈ cs.head?, (d == second) = false) :
    oneOrTwo c second one two cs = plain one [c] cs := by
  cases cs with
  | nil => rfl
  | cons d cs => exact if_neg (by simpa using stop d rfl)

theorem oneOrTwo_resumes {second : Char} {one two : TokenKind}
    (visible : Text.isBlank second = false)
    (resumes : Resumes (oneOrTwo c second one two cs).rest rest') :
    ∃ more, (oneOrTwo c second one two cs).source = c :: more ∧
      oneOrTwo c second one two (more ++ rest') =
        { oneOrTwo c second one two cs with rest := rest' } := by
  by_cases follows : cs.head? = some second
  · obtain ⟨more, rfl⟩ := List.head?_eq_some_iff.1 follows
    exact ⟨[second], by simp [oneOrTwo, plain], by simp [oneOrTwo, plain]⟩
  · have stop : ∀ d ∈ cs.head?, (d == second) = false := by
      intro d isHead
      rw [beq_eq_false_iff_ne]
      rintro rfl
      exact follows isHead
    have blank {d : Char} (isBlank : Text.isBlank d = true) : (d == second) = false := by
      rw [beq_eq_false_iff_ne]
      rintro rfl
      rw [visible] at isBlank
      cases isBlank
    rw [oneOrTwo_stop one two stop] at resumes ⊢
    exact ⟨[], rfl, oneOrTwo_stop one two (resumes.starts.stop blank stop)⟩

theorem pair_resumes {second : Char} {kind : TokenKind} (found : pair c second kind cs = .ok l)
    (rest' : List Char) : ∃ more, l.source = c :: more ∧
      pair c second kind (more ++ rest') = .ok { l with rest := rest' } := by
  unfold pair at found
  split at found
  · split at found
    · rename_i isSecond
      cases found
      exact ⟨_, rfl, if_pos isSecond⟩
    · cases found
  · cases found

theorem splitString_resumes {text source rest : List Char}
    (found : splitString cs = some (text, source, rest)) (rest' : List Char) :
    splitString (source ++ rest') = some (text, source, rest') := by
  fun_induction splitString cs generalizing text source rest with
  | case1 => cases found
  | case2 rest =>
    cases found
    rfl
  | case3 => cases found
  | case4 => cases found
  | case5 d cs text source rest isSplit ih =>
    cases found
    simp only [List.cons_append]
    rw [splitString, ih isSplit]
  | case6 => cases found
  | case7 d cs quote single escape text source rest isSplit ih =>
    cases found
    have backslash : d ≠ '\\' := by
      rintro rfl
      cases cs with
      | nil => exact single rfl rfl
      | cons e cs => exact escape e cs rfl rfl
    simp only [List.cons_append]
    rw [splitString, ih isSplit]
    · exact quote
    · exact fun isBackslash _ => backslash isBackslash
    · exact fun _ _ isBackslash _ => backslash isBackslash

theorem string_resumes (found : string cs = .ok l) (rest' : List Char) :
    ∃ more, l.source = '"' :: more ∧ string (more ++ rest') = .ok { l with rest := rest' } := by
  unfold string at found
  split at found
  · cases found
  · rename_i text source rest isSplit
    cases found
    refine ⟨source, rfl, ?_⟩
    rw [string, splitString_resumes isSplit rest']

/-- A number is the only token that looks at two characters behind it: at a point and at the
character after the point. -/
theorem splitNumber_resumes (resumes : Resumes (splitNumber c cs).2 rest') :
    ∃ more, (splitNumber c cs).1 = c :: more ∧ splitNumber c (more ++ rest') = (c :: more, rest') := by
  have areDigits : ∀ d ∈ cs.takeWhile Char.isDigit, d.isDigit = true := of_mem_takeWhile
  by_cases fraction : ∃ d more, cs.dropWhile Char.isDigit = '.' :: d :: more ∧ d.isDigit = true
  · obtain ⟨d, more, dropped, isDigit⟩ := fraction
    have isSplit : splitNumber c cs = (c :: cs.takeWhile Char.isDigit ++
        '.' :: d :: more.takeWhile Char.isDigit, more.dropWhile Char.isDigit) := by
      simp [splitNumber, dropped, isDigit]
    rw [isSplit] at resumes ⊢
    have stop := resumes.starts.stop not_isDigit_of_isBlank stop_dropWhile
    refine ⟨_, rfl, ?_⟩
    simpa using splitNumber_fraction areDigits isDigit of_mem_takeWhile stop
  · have isSplit : splitNumber c cs =
        (c :: cs.takeWhile Char.isDigit, cs.dropWhile Char.isDigit) := by
      unfold splitNumber
      split
      · rename_i d more dropped
        rw [if_neg fun isDigit => fraction ⟨d, more, dropped, isDigit⟩, dropped]
      · rfl
    rw [isSplit] at resumes ⊢
    have stop := resumes.starts.stop not_isDigit_of_isBlank stop_dropWhile
    refine ⟨_, rfl, splitNumber_whole areDigits stop ?_⟩
    rintro d more' rfl
    obtain ⟨more, isRest, starts⟩ := resumes.point rfl
    rcases starts d rfl with isBlank | same
    · exact not_isDigit_of_isBlank isBlank
    · obtain ⟨others, rfl⟩ := List.head?_eq_some_iff.1 same
      by_contra isDigit
      exact fraction ⟨d, others, isRest, Bool.eq_true_of_not_eq_false isDigit⟩

theorem number_resumes (found : number c cs = .ok l) (resumes : Resumes l.rest rest') :
    ∃ more, l.source = c :: more ∧ number c (more ++ rest') = .ok { l with rest := rest' } := by
  unfold number at found
  dsimp only at found
  split at found
  · rename_i noName
    cases found
    obtain ⟨more, isSource, isSplit⟩ := splitNumber_resumes resumes
    have stop := resumes.starts.stop not_continuesName_of_isBlank
      (takeWhile_eq_nil_iff_stop.1 noName)
    have noName' := takeWhile_eq_nil_iff_stop.2 stop
    refine ⟨more, isSource, ?_⟩
    simp [number, isSplit, noName', plain, isSource]
  · cases found

theorem run_resumes {kind : TokenKind} {p : Char → Bool}
    (blank : ∀ {d}, Text.isBlank d = true → p d = false)
    (resumes : Resumes (run kind p c cs).rest rest') :
    run kind p c (cs.takeWhile p ++ rest') = { run kind p c cs with rest := rest' } := by
  have stop := resumes.starts.stop blank stop_dropWhile
  have inside : ∀ d ∈ cs.takeWhile p, p d = true := of_mem_takeWhile
  obtain ⟨taken, dropped⟩ := takeWhile_append_of_stop inside stop
  simp [run, plain, taken, dropped]

/-- A token is found again where something else stands behind it that starts with white space or as
what stood there. -/
theorem next_resumes (found : next c cs = .ok l) (visible : l.kind ≠ .whitespace)
    (resumes : Resumes l.rest rest') :
    ∃ more, l.source = c :: more ∧ next c (more ++ rest') = .ok { l with rest := rest' } := by
  have isName := next_of_ident found
  unfold next at found
  split at found
  case h_10 | h_11 | h_12 =>
    cases found
    obtain ⟨more, isSource, again⟩ := oneOrTwo_resumes rfl resumes
    exact ⟨more, isSource, congrArg Except.ok again⟩
  case h_13 | h_14 | h_15 => exact pair_resumes found rest'
  case h_16 => exact string_resumes found rest'
  case h_17 =>
    split at found
    · cases found
      exact absurd rfl visible
    split at found
    · rename_i isDigit
      obtain ⟨more, isSource, again⟩ := number_resumes found resumes
      exact ⟨more, isSource, (next_digit isDigit _).trans again⟩
    split at found
    · cases found
      refine ⟨cs.takeWhile continuesName, rfl, (isName rfl _).trans ?_⟩
      exact congrArg Except.ok (run_resumes not_continuesName_of_isBlank resumes)
    · cases found
  all_goals
    cases found
    exact ⟨[], rfl, rfl⟩

end Lexeme

/-! ## Texts that are spaced otherwise -/

namespace Tokens

/-- The tokens of a text, written down one behind another with other white space: some may stand in
front of any of them and at the end, and some has to stand where there was some. -/
inductive Respaced (text : String) : List Token → List Char → Prop
  | done {space : List Char} : (∀ c ∈ space, Text.isBlank c = true) → Respaced text [] space
  | token {t : Token} {ts : List Token} {space rest : List Char} : t.kind ≠ .whitespace →
    (∀ c ∈ space, Text.isBlank c = true) → Respaced text ts rest →
    Respaced text (t :: ts) (space ++ (t.span.slice text).toList ++ rest)
  | space {t : Token} {ts : List Token} {space rest : List Char} : t.kind = .whitespace →
    space ≠ [] → (∀ c ∈ space, Text.isBlank c = true) → Respaced text ts rest →
    Respaced text (t :: ts) (space ++ rest)

/-- The same for the characters of a text, as its tokens are cut off its front. -/
inductive Respacing : List Char → List Char → Prop
  | done {space : List Char} : (∀ c ∈ space, Text.isBlank c = true) → Respacing [] space
  | token {c : Char} {cs space rest : List Char} {l : Lexeme} : Lexeme.next c cs = .ok l →
    l.kind ≠ .whitespace → (∀ c ∈ space, Text.isBlank c = true) → Respacing l.rest rest →
    Respacing (c :: cs) (space ++ l.source ++ rest)
  | space {c : Char} {cs space rest : List Char} {l : Lexeme} : Lexeme.next c cs = .ok l →
    l.kind = .whitespace → space ≠ [] → (∀ c ∈ space, Text.isBlank c = true) →
    Respacing l.rest rest → Respacing (c :: cs) (space ++ rest)

theorem Respaced.respacing {text : String} {offset : Nat} {front cs cs' : List Char}
    (isText : text.toList = front ++ cs) (isOffset : offset = byteLength front)
    (noFault : (scan offset cs).error? = none)
    (respaced : Respaced text (scan offset cs).toList cs') : Respacing cs cs' := by
  fun_induction scan offset cs generalizing front cs' with
  | case1 offset =>
    have here : text.toList = front ++ [] ++ [] := by simpa using isText
    have noSource : (Span.slice ⟨offset, offset⟩ text).toList = [] := by
      rw [isOffset]
      exact (congrArg String.toList (Span.within_slice here).2).trans String.toList_ofList
    rw [toList] at respaced
    cases respaced with
    | space isSpace => cases isSpace
    | token _ blank atEnd =>
      cases atEnd with
      | done blank' =>
        rw [noSource, List.append_nil]
        exact .done (List.forall_mem_append.2 ⟨blank, blank'⟩)
  | case2 offset c cs cause source failed => cases noFault
  | case3 offset c cs l found stop =>
    rename_i ih
    have parts := (Lexeme.cuts_next found).parts
    have here : text.toList = front ++ l.source ++ l.rest := by
      rw [isText, ← parts, List.append_assoc]
    have isSource : (Span.slice ⟨offset, offset + byteLength l.source⟩ text).toList = l.source := by
      rw [isOffset]
      exact (congrArg String.toList (Span.within_slice here).2).trans String.toList_ofList
    have isStop : offset + byteLength l.source = byteLength (front ++ l.source) := by
      rw [isOffset, byteLength_append]
    cases respaced with
    | token visible blank others =>
      rw [isSource]
      exact .token found visible blank (ih here isStop noFault others)
    | space isSpace nonempty blank others =>
      exact .space found isSpace nonempty blank (ih here isStop noFault others)

namespace Respacing

variable {cs cs' : List Char}

theorem startsAlike (h : Respacing cs cs') : StartsAlike cs cs' := by
  intro d isHead
  cases h with
  | done blank => exact .inl (blank d (List.mem_of_mem_head? isHead))
  | @token c cs space rest l found visible blank others =>
    cases space with
    | nil =>
      obtain ⟨more, isSource⟩ := List.head?_eq_some_iff.1 (Lexeme.head_next found)
      rw [isSource] at isHead
      exact .inr isHead
    | cons e space =>
      cases isHead
      exact .inl (blank d List.mem_cons_self)
  | @space c cs space rest l found isSpace nonempty blank others =>
    cases space with
    | nil => exact absurd rfl nonempty
    | cons e space =>
      cases isHead
      exact .inl (blank d List.mem_cons_self)

/-- A point is a token of its own, so what follows it is spaced otherwise, too. -/
theorem resumes (h : Respacing cs cs') : Resumes cs cs' := by
  refine ⟨h.startsAlike, fun {more'} isPoint => ?_⟩
  have isHead : cs.head? = some '.' := by
    rcases h.startsAlike '.' (by rw [isPoint]; rfl) with isBlank | same
    · cases isBlank
    · exact same
  obtain ⟨more, rfl⟩ := List.head?_eq_some_iff.1 isHead
  refine ⟨more, rfl, ?_⟩
  cases h with
  | @token _ _ space rest l found visible blank others =>
    cases found
    cases space with
    | nil =>
      cases isPoint
      exact others.startsAlike
    | cons e space =>
      cases isPoint
      cases blank '.' List.mem_cons_self
  | space found isSpace =>
    cases found
    cases isSpace

end Respacing

/-! ## Their tokens -/

/-- Tokens of the same kinds and texts, wherever they stand, up to the end of the input. -/
inductive SameWords : Tokens → Tokens → Prop
  | done {offset offset' : Nat} : SameWords (.done offset) (.done offset')
  | token {kind : TokenKind} {text : String} {span span' : Span} {ts ts' : Tokens} :
    SameWords ts ts' → SameWords (.token ⟨kind, text, span⟩ ts) (.token ⟨kind, text, span'⟩ ts')

theorem Spells.blanks {ts : Tokens} {space cs : List Char}
    (blank : ∀ c ∈ space, Text.isBlank c = true) (h : ts.Spells (space ++ cs)) : ts.Spells cs := by
  induction space with
  | nil => exact h
  | cons c space ih =>
    rw [List.forall_mem_cons] at blank
    exact ih blank.2 (h.blank blank.1)

theorem Spells.skip {ts : Tokens} {c : Char} {cs : List Char} {l : Lexeme}
    (h : ts.Spells (c :: cs)) (found : Lexeme.next c cs = .ok l)
    (isSpace : l.kind = .whitespace) : ts.Spells l.rest := by
  obtain ⟨offset, rfl⟩ := h
  rw [scan_cons offset found, significant, if_pos isSpace]
  exact ⟨_, rfl⟩

theorem Spells.eq_done {ts : Tokens} (h : ts.Spells []) : ∃ offset, ts = .done offset := by
  obtain ⟨offset, rfl⟩ := h
  exact ⟨offset, by rw [scan_nil, significant]⟩

/-- A text that is spaced otherwise has the same tokens. -/
theorem Respacing.sameWords {cs cs' : List Char} (h : Respacing cs cs') {ts ts' : Tokens}
    (spells : ts.Spells cs) (spells' : ts'.Spells cs') : SameWords ts ts' := by
  induction h generalizing ts ts' with
  | @done space blank =>
    obtain ⟨offset, rfl⟩ := spells.eq_done
    rw [← List.append_nil space] at spells'
    obtain ⟨offset', rfl⟩ := (spells'.blanks blank).eq_done
    exact .done
  | @token c cs space rest l found visible blank others ih =>
    obtain ⟨more, isSource, again⟩ := Lexeme.next_resumes found visible others.resumes
    rw [List.append_assoc, isSource] at spells'
    obtain ⟨⟨_, _, span⟩, behind, rfl, rfl, rfl, onRest⟩ := spells.begins found visible
    obtain ⟨⟨_, _, span'⟩, behind', rfl, rfl, rfl, onRest'⟩ :=
      (spells'.blanks blank).begins again visible
    exact .token (ih onRest onRest')
  | space found isSpace nonempty blank others ih =>
    exact ih (spells.skip found isSpace) (spells'.blanks blank)

end Tokens

end LambdaQuery
