import Mathlib.Data.String.Basic
import LambdaQuery.Proofs.Token.Lexing

/-!
# Tokens tile the text

The tokens of a text stand one behind another without gaps, from its start to its end or to the
first fault. What a token denotes is read off the stretch of text it stands for, so nothing is lost.
-/

namespace LambdaQuery

open Token

/-! ## Stretches of text -/

theorem byteLength_eq_utf8Len (cs : List Char) : byteLength cs = String.utf8Len cs := by
  induction cs with
  | nil => rfl
  | cons c cs ih => rw [byteLength, String.utf8Len_cons, ih, Nat.add_comm]

theorem byteLength_append (cs ds : List Char) :
    byteLength (cs ++ ds) = byteLength cs + byteLength ds := by
  simp [byteLength_eq_utf8Len]

theorem byteLength_toList (text : String) : byteLength text.toList = text.utf8ByteSize := by
  rw [byteLength_eq_utf8Len, String.utf8Len_toList]

theorem byteLength_pos {cs : List Char} (h : cs ≠ []) : 0 < byteLength cs := by
  cases cs with
  | nil => exact absurd rfl h
  | cons c cs =>
    have := c.utf8Size_pos
    rw [byteLength]
    omega

namespace Span

/-- The source of a stretch of text. -/
def slice (span : Span) (text : String) : String :=
  String.Pos.Raw.extract text ⟨span.start⟩ ⟨span.stop⟩

/-- A stretch of text that starts and stops between characters. -/
structure Within (span : Span) (text : String) : Prop where
  starts : String.Pos.Raw.Valid text ⟨span.start⟩
  stops : String.Pos.Raw.Valid text ⟨span.stop⟩
  ordered : span.start ≤ span.stop

theorem Within.stop_le {span : Span} {text : String} (h : span.Within text) :
    span.stop ≤ text.utf8ByteSize :=
  String.Pos.Raw.le_iff.1 h.stops.le_rawEndPos

/-- The characters behind some others, as a stretch of text. -/
theorem within_slice {text : String} {front source back : List Char}
    (parts : text.toList = front ++ source ++ back) :
    let span : Span := ⟨byteLength front, byteLength front + byteLength source⟩
    span.Within text ∧ span.slice text = String.ofList source := by
  have isText : text = String.ofList (front ++ source ++ back) := by
    rw [← parts, String.ofList_toList]
  refine ⟨⟨?_, ?_, Nat.le_add_right _ _⟩, ?_⟩
  · refine String.Pos.Raw.Valid.intro ⟨front, source ++ back, ?_, byteLength_eq_utf8Len front⟩
    rw [parts, List.append_assoc]
  · refine String.Pos.Raw.Valid.intro ⟨front ++ source, back, parts.symm, ?_⟩
    exact (byteLength_append front source).symm.trans (byteLength_eq_utf8Len _)
  · rw [slice, isText, byteLength_eq_utf8Len, byteLength_eq_utf8Len]
    exact String.extract_of_valid front source back

end Span

/-! ## What a token denotes -/

namespace Token

/-- The text with each pair of a backslash and a quote or another backslash, read from left to
right, replaced by its second character. -/
def unescaped : List Char → List Char
  | '\\' :: '"' :: cs => '"' :: unescaped cs
  | '\\' :: '\\' :: cs => '\\' :: unescaped cs
  | c :: cs => c :: unescaped cs
  | [] => []

/-- What a token of a kind denotes, by its source: itself, or for texts what stands between the
quotes. -/
def Denotes (kind : TokenKind) (source text : List Char) : Prop :=
  if kind = .string then ∃ inner, source = '"' :: (inner ++ ['"']) ∧ text = unescaped inner
  else text = source

theorem unescaped_cons {c : Char} (cs : List Char) (backslash : c ≠ '\\') :
    unescaped (c :: cs) = c :: unescaped cs := by
  rw [unescaped]
  all_goals simp_all

/-- A backslash before any other character stays. -/
theorem unescaped_backslash {c : Char} (cs : List Char) : unescaped ('\\' :: c :: cs) =
    if c = '"' ∨ c = '\\' then c :: unescaped cs else '\\' :: c :: unescaped cs := by
  split
  · rename_i isEscape
    rcases isEscape with rfl | rfl <;> rw [unescaped]
  · rename_i other
    rw [not_or] at other
    rw [unescaped, unescaped_cons cs other.2]
    all_goals simp_all

end Token

namespace Lexeme

/-- The inside of a literal is its source up to the closing quote. -/
theorem splitString_parts {cs text source rest : List Char}
    (h : splitString cs = some (text, source, rest)) :
    ∃ inner, source = inner ++ ['"'] ∧ text = unescaped inner ∧ source ++ rest = cs := by
  fun_induction splitString cs generalizing text source rest with
  | case1 => cases h
  | case2 rest' =>
    cases h
    exact ⟨[], rfl, rfl, rfl⟩
  | case3 => cases h
  | case4 => cases h
  | case5 c cs text' source' rest' split ih =>
    obtain ⟨inner, rfl, rfl, rfl⟩ := ih split
    cases h
    exact ⟨'\\' :: c :: inner, rfl, (unescaped_backslash inner).symm, rfl⟩
  | case6 => cases h
  | case7 c cs quote single pair text' source' rest' split ih =>
    obtain ⟨inner, rfl, rfl, rfl⟩ := ih split
    cases h
    have backslash : c ≠ '\\' := by
      rintro rfl
      cases inner <;> exact pair _ _ rfl rfl
    exact ⟨c :: inner, rfl, (unescaped_cons inner backslash).symm, rfl⟩

/-- A token cut off the front of a text. -/
structure Cuts (l : Lexeme) (cs : List Char) : Prop where
  parts : l.source ++ l.rest = cs
  denotes : Denotes l.kind l.source l.text

theorem cuts_plain {kind : TokenKind} {source rest cs : List Char} (parts : source ++ rest = cs)
    (text : kind ≠ .string) : (plain kind source rest).Cuts cs :=
  ⟨parts, (if_neg text).mpr rfl⟩

theorem cuts_run {kind : TokenKind} (p : Char → Bool) (c : Char) (cs : List Char)
    (text : kind ≠ .string) : (run kind p c cs).Cuts (c :: cs) :=
  cuts_plain (congrArg (c :: ·) List.takeWhile_append_dropWhile) text

theorem cuts_oneOrTwo {one two : TokenKind} (c second : Char) (cs : List Char)
    (texts : one ≠ .string ∧ two ≠ .string) : (oneOrTwo c second one two cs).Cuts (c :: cs) := by
  unfold oneOrTwo
  split
  · split
    · exact cuts_plain rfl texts.2
    · exact cuts_plain rfl texts.1
  · exact cuts_plain rfl texts.1

theorem cuts_pair {kind : TokenKind} {c second : Char} {cs : List Char} {l : Lexeme}
    (text : kind ≠ .string) (h : pair c second kind cs = .ok l) : l.Cuts (c :: cs) := by
  unfold pair at h
  split at h
  · split at h
    · cases h
      exact cuts_plain rfl text
    · cases h
  · cases h

theorem splitNumber_parts (c : Char) (cs : List Char) :
    (splitNumber c cs).1 ++ (splitNumber c cs).2 = c :: cs := by
  have parts := List.takeWhile_append_dropWhile (p := Char.isDigit) (l := cs)
  unfold splitNumber
  split
  · rename_i d more dropped
    rw [dropped] at parts
    split
    · have parts' := List.takeWhile_append_dropWhile (p := Char.isDigit) (l := more)
      simp only [List.append_assoc, List.cons_append, parts', parts]
    · exact congrArg (c :: ·) parts
  · exact congrArg (c :: ·) parts

theorem cuts_number {c : Char} {cs : List Char} {l : Lexeme} (h : number c cs = .ok l) :
    l.Cuts (c :: cs) := by
  simp only [number] at h
  split at h
  · cases h
    exact cuts_plain (splitNumber_parts c cs) (by decide)
  · cases h

theorem cuts_string {cs : List Char} {l : Lexeme} (h : string cs = .ok l) :
    l.Cuts ('"' :: cs) := by
  unfold string at h
  split at h
  · cases h
  · rename_i split
    cases h
    obtain ⟨inner, isSource, isText, parts⟩ := splitString_parts split
    refine ⟨congrArg ('"' :: ·) parts, (if_pos rfl).mpr ⟨inner, ?_, isText⟩⟩
    exact congrArg ('"' :: ·) isSource

/-- A token takes a stretch from the front of the text and denotes what it should. -/
theorem cuts_next {c : Char} {cs : List Char} {l : Lexeme} (h : next c cs = .ok l) :
    l.Cuts (c :: cs) := by
  unfold next at h
  split at h
  case h_10 | h_11 | h_12 =>
    cases h
    exact cuts_oneOrTwo _ _ _ (by decide)
  case h_13 | h_14 | h_15 => exact cuts_pair (by decide) h
  case h_16 => exact cuts_string h
  case h_17 =>
    split at h
    · cases h
      exact cuts_run _ _ _ (by decide)
    split at h
    · exact cuts_number h
    split at h
    · cases h
      exact cuts_run _ _ _ (by decide)
    · cases h
  all_goals
    cases h
    exact cuts_plain rfl (by decide)

theorem number_error {c : Char} {cs source : List Char} {cause : LexFault}
    (h : number c cs = .error (cause, source)) :
    source.head? = some c ∧ source <+: c :: cs := by
  simp only [number] at h
  split at h
  · cases h
  · cases h
    have parts := splitNumber_parts c cs
    refine ⟨by simp [head_splitNumber], ?_⟩
    rw [← parts, List.prefix_append_right_inj]
    exact List.takeWhile_prefix _

/-- A fault covers characters from the front of the text. -/
theorem next_error {c : Char} {cs source : List Char} {cause : LexFault}
    (h : next c cs = .error (cause, source)) :
    source.head? = some c ∧ source <+: c :: cs := by
  have lone : [c].head? = some c ∧ [c] <+: c :: cs := ⟨rfl, cs, rfl⟩
  unfold next at h
  split at h
  case h_13 | h_14 | h_15 =>
    unfold pair at h
    split at h
    · split at h
      · cases h
      · cases h
        exact lone
    · cases h
      exact lone
  case h_16 =>
    unfold string at h
    split at h
    · cases h
      exact ⟨rfl, List.prefix_rfl⟩
    · cases h
  case h_17 =>
    split at h
    · cases h
    split at h
    · exact number_error h
    split at h
    · cases h
    · cases h
      exact lone
  all_goals cases h

end Lexeme

/-! ## The tiling -/

/-- Tokens that stand one behind another without gaps, from one offset to another. -/
inductive Token.Tile : Nat → List Token → Nat → Prop
  | nil {offset : Nat} : Tile offset [] offset
  | cons {t : Token} {ts : List Token} {stop : Nat} :
    Tile t.span.stop ts stop → Tile t.span.start (t :: ts) stop

namespace Tokens

/-- The tokens of a text that starts at an offset, as they are cut off its front one by one. -/
inductive Tiling : Nat → List Char → Tokens → Prop
  | done {offset : Nat} : Tiling offset [] (.done offset)
  | fault {offset : Nat} {cause : LexFault} {source rest : List Char} : source ≠ [] →
    Tiling offset (source ++ rest) (.fault ⟨cause, ⟨offset, offset + byteLength source⟩⟩)
  | token {offset : Nat} {kind : TokenKind} {source text rest : List Char} {ts : Tokens} :
    source ≠ [] → kind ≠ .eof → Denotes kind source text →
    Tiling (offset + byteLength source) rest ts →
    Tiling offset (source ++ rest)
      (.token ⟨kind, String.ofList text, ⟨offset, offset + byteLength source⟩⟩ ts)

theorem tiling_scan (offset : Nat) (cs : List Char) : Tiling offset cs (scan offset cs) := by
  fun_induction scan offset cs with
  | case1 => exact .done
  | case2 offset c cs cause source failed =>
    obtain ⟨starts, rest, parts⟩ := Lexeme.next_error failed
    rw [← parts]
    refine .fault ?_
    rintro rfl
    cases starts
  | case3 offset c cs l found stop ih =>
    obtain ⟨parts, denotes⟩ := Lexeme.cuts_next found
    rw [← parts]
    refine .token ?_ (Lexeme.kind_ne_eof found) denotes ih
    intro none
    have starts := Lexeme.head_next found
    rw [none] at starts
    cases starts

namespace Tiling

variable {offset : Nat} {cs front : List Char} {ts : Tokens} {text : String}

theorem length_le (h : Tiling offset cs ts) : ts.toList.length ≤ cs.length + 1 := by
  induction h with
  | done => exact Nat.le_refl _
  | fault => exact Nat.zero_le _
  | token nonempty _ _ _ ih =>
    have := List.length_pos_iff.2 nonempty
    simp only [toList, List.length_cons, List.length_append]
    omega

/-- A token stands for a stretch of the text and denotes what stands there; only the end of the
input stands for nothing. -/
theorem mem (h : Tiling offset cs ts) (isText : text.toList = front ++ cs)
    (isOffset : offset = byteLength front) :
    ∀ t ∈ ts.toList, t.span.Within text ∧ (t.span.start = t.span.stop ↔ t.kind = .eof) ∧
      Denotes t.kind (t.span.slice text).toList t.text.toList := by
  induction h generalizing front with
  | @done offset =>
    have here : text.toList = front ++ [] ++ [] := by rw [isText, List.append_assoc]; rfl
    obtain ⟨within, isSlice⟩ := Span.within_slice here
    rw [← isOffset] at within isSlice
    intro t mem
    cases List.mem_singleton.1 mem
    refine ⟨within, by simp, ?_⟩
    rw [show (⟨offset, offset⟩ : Span).slice text = String.ofList [] from isSlice]
    exact (if_neg TokenKind.noConfusion).mpr rfl
  | fault => simp [toList]
  | @token offset kind source text' rest ts nonempty visible denotes _ ih =>
    rw [← List.append_assoc] at isText
    obtain ⟨within, isSlice⟩ := Span.within_slice isText
    rw [← isOffset] at within isSlice
    refine List.forall_mem_cons.2 ⟨⟨within, ?_, ?_⟩, ?_⟩
    · have := byteLength_pos nonempty
      exact iff_of_false (by simp; omega) visible
    · rw [isSlice, String.toList_ofList, String.toList_ofList]
      exact denotes
    · exact ih isText (by rw [byteLength_append, isOffset])

/-- Without a fault, the sources of the tokens make up the text. -/
theorem flatMap_slice (h : Tiling offset cs ts) (isText : text.toList = front ++ cs)
    (isOffset : offset = byteLength front) (none : ts.error? = none) :
    ts.toList.flatMap (fun t => (t.span.slice text).toList) = cs := by
  induction h generalizing front with
  | @done offset =>
    have here : text.toList = front ++ [] ++ [] := by rw [isText, List.append_assoc]; rfl
    have isSlice := (Span.within_slice here).2
    rw [← isOffset] at isSlice
    simp only [toList, List.flatMap_cons, List.flatMap_nil, List.append_nil]
    rw [show (⟨offset, offset⟩ : Span).slice text = String.ofList [] from isSlice]
    rfl
  | fault => cases none
  | @token offset kind source text' rest ts _ _ _ _ ih =>
    rw [← List.append_assoc] at isText
    have isSlice := (Span.within_slice isText).2
    rw [← isOffset] at isSlice
    have others := ih isText (by rw [byteLength_append, isOffset]) none
    simp only [toList, List.flatMap_cons, isSlice, String.toList_ofList, others]

/-- Without a fault, the tokens go up to the end of the text. -/
theorem complete (h : Tiling offset cs ts) (none : ts.error? = none) :
    Tile offset ts.toList (offset + byteLength cs) ∧ ∃ words,
      ts.toList = words ++ [⟨.eof, "", ⟨offset + byteLength cs, offset + byteLength cs⟩⟩] ∧
      ∀ t ∈ words, t.kind ≠ .eof := by
  induction h with
  | @done offset => exact ⟨.cons (t := ⟨.eof, "", ⟨offset, offset⟩⟩) .nil, [], rfl, by simp⟩
  | fault => cases none
  | @token offset kind source text' rest ts _ visible _ _ ih =>
    obtain ⟨tile, words, isWords, others⟩ := ih none
    rw [byteLength_append, ← Nat.add_assoc]
    let first : Token := ⟨kind, String.ofList text', ⟨offset, offset + byteLength source⟩⟩
    refine ⟨.cons (t := first) tile, first :: words, ?_, ?_⟩
    · rw [toList, isWords]
      rfl
    · exact List.forall_mem_cons.2 ⟨visible, others⟩

/-- A fault stands right behind the last token. -/
theorem faulty {e : LexError} (h : Tiling offset cs ts) (isError : ts.error? = some e) :
    Tile offset ts.toList e.span.start ∧ (∀ t ∈ ts.toList, t.kind ≠ .eof) ∧
      ∃ before source behind, cs = before ++ source ++ behind ∧ source ≠ [] ∧
        e.span = ⟨offset + byteLength before, offset + byteLength before + byteLength source⟩ := by
  induction h with
  | done => cases isError
  | @fault offset cause source rest nonempty =>
    cases isError
    exact ⟨.nil, by simp [toList], [], source, rest, rfl, nonempty, rfl⟩
  | @token offset kind source text' rest ts _ visible _ _ ih =>
    obtain ⟨tile, others, before, covered, behind, parts, nonempty, isSpan⟩ := ih isError
    refine ⟨.cons (t := ⟨kind, _, ⟨offset, _⟩⟩) tile, ?_, source ++ before, covered, behind, ?_,
      nonempty, ?_⟩
    · exact List.forall_mem_cons.2 ⟨visible, others⟩
    · simp [parts]
    · simp [isSpan, byteLength_append, Nat.add_assoc]

end Tiling

end Tokens

/-- Tokens that lose nothing of a text. -/
structure Tokens.Lossless (ts : Tokens) (text : String) : Prop where
  finite : ts.toList.length ≤ text.toList.length + 1
  /-- A token stands for a stretch between characters and denotes what stands there. Only the end of
  the input stands for nothing. -/
  denote : ∀ t ∈ ts.toList, t.span.Within text ∧ (t.span.start = t.span.stop ↔ t.kind = .eof) ∧
    Denotes t.kind (t.span.slice text).toList t.text.toList
  /-- Without a fault the tokens go without gaps from the start of the text to its end, the end of
  the input comes last and only there, and the sources of the tokens make up the text. -/
  complete : ts.error? = none → Tile 0 ts.toList text.utf8ByteSize ∧
    (∃ words, ts.toList = words ++ [⟨.eof, "", ⟨text.utf8ByteSize, text.utf8ByteSize⟩⟩] ∧
      ∀ t ∈ words, t.kind ≠ .eof) ∧
    ts.toList.flatMap (fun t => (t.span.slice text).toList) = text.toList
  /-- The tokens before a fault go without gaps from the start of the text to the fault, which is in
  the text. -/
  faulty : ∀ e, ts.error? = some e → Tile 0 ts.toList e.span.start ∧
    (∀ t ∈ ts.toList, t.kind ≠ .eof) ∧ e.span.Within text ∧ e.span.start < e.span.stop ∧
    e.span.stop ≤ text.utf8ByteSize

/-- Splitting a text into tokens loses nothing of it. -/
theorem Tokens.ofText_lossless (text : String) : (ofText text).Lossless text := by
  have tiling : Tiling 0 text.toList (ofText text) := tiling_scan 0 text.toList
  have whole : text.toList = [] ++ text.toList := rfl
  refine ⟨tiling.length_le, tiling.mem whole rfl, ?_, ?_⟩
  · intro none
    obtain ⟨tile, ends⟩ := tiling.complete none
    rw [Nat.zero_add, byteLength_toList] at tile ends
    exact ⟨tile, ends, tiling.flatMap_slice whole rfl none⟩
  · intro e isError
    obtain ⟨tile, words, before, source, behind, parts, nonempty, isSpan⟩ := tiling.faulty isError
    rw [Nat.zero_add] at isSpan
    have within := (Span.within_slice parts).1
    rw [← isSpan] at within
    have room : e.span.start < e.span.stop := by
      have := byteLength_pos nonempty
      rw [isSpan]
      exact Nat.lt_add_of_pos_right this
    exact ⟨tile, words, within, room, within.stop_le⟩

end LambdaQuery
