import LambdaQuery.Proofs.Term.Parsing

/-!
# Where tokens stand

Tokens stand apart from each other in the order of the text. So of all tokens the ones in the
stretch from the first token of a piece to its last are those of the piece.
-/

namespace LambdaQuery

/-- Whether a stretch of text lies in another. -/
def Span.contains (span other : Span) : Bool :=
  decide (span.start ≤ other.start) && decide (other.stop ≤ span.stop)

namespace Token

/-- Tokens in the order of the text, none of them empty. -/
structure InPlace (ts : List Token) : Prop where
  apart : ts.Pairwise fun a b => a.span.stop ≤ b.span.start
  room : ∀ t ∈ ts, t.span.start < t.span.stop

/-- The stretch of text goes from the first token to the last. -/
def Cover (ts : List Token) (span : Span) : Prop :=
  (∃ first rest, ts = first :: rest ∧ first.span.start = span.start) ∧
    ∃ front last, ts = front ++ [last] ∧ last.span.stop = span.stop

theorem cover_singleton (t : Token) : Cover [t] t.span :=
  ⟨⟨t, [], rfl, rfl⟩, [], t, rfl, rfl⟩

/-- A piece with a token in front and one behind. -/
theorem cover_enclosed (opening closing : Token) (ts : List Token) :
    Cover (opening :: (ts ++ [closing])) ⟨opening.span.start, closing.span.stop⟩ :=
  ⟨⟨opening, _, rfl, rfl⟩, opening :: ts, closing, rfl, rfl⟩

variable {front piece back : List Token} {span : Span}

theorem InPlace.contains (inPlace : InPlace piece) (covers : Cover piece span) :
    ∀ t ∈ piece, span.contains t.span = true := by
  obtain ⟨⟨first, rest, isFirst, starts⟩, others, last, isLast, stops⟩ := covers
  intro t mem
  have room := inPlace.room t mem
  have after : span.start ≤ t.span.start := by
    have apart := inPlace.apart
    rw [isFirst] at mem apart
    have roomFirst := inPlace.room first (by simp [isFirst])
    rcases List.mem_cons.1 mem with rfl | inRest
    · omega
    · have := (List.pairwise_cons.1 apart).1 t inRest
      omega
  have before : t.span.stop ≤ span.stop := by
    have apart := inPlace.apart
    rw [isLast] at mem apart
    have roomLast := inPlace.room last (by simp [isLast])
    rcases List.mem_append.1 mem with inOthers | isLast
    · have := (List.pairwise_append.1 apart).2.2 t inOthers last (by simp)
      omega
    · cases List.mem_singleton.1 isLast
      omega
  simp [Span.contains, after, before]

/-- The tokens in the stretch of a piece are those of the piece. -/
theorem InPlace.filter_contains (inPlace : InPlace (front ++ piece ++ back))
    (covers : Cover piece span) :
    (front ++ piece ++ back).filter (fun t => span.contains t.span) = piece := by
  obtain ⟨apartFront, apartBack, across⟩ := List.pairwise_append.1 inPlace.apart
  obtain ⟨_, apartPiece, across'⟩ := List.pairwise_append.1 apartFront
  have onPiece : InPlace piece := ⟨apartPiece, fun t mem => inPlace.room t (by simp [mem])⟩
  have inside := onPiece.contains covers
  obtain ⟨⟨first, rest, isFirst, starts⟩, others, last, isLast, stops⟩ := covers
  have outsideFront : ∀ t ∈ front, span.contains t.span = false := by
    intro t mem
    have := across' t mem first (by simp [isFirst])
    have := inPlace.room t (by simp [mem])
    have : ¬ span.start ≤ t.span.start := by omega
    simp [Span.contains, this]
  have outsideBack : ∀ t ∈ back, span.contains t.span = false := by
    intro t mem
    have := across last (by simp [isLast]) t mem
    have := inPlace.room t (by simp [mem])
    have : ¬ t.span.stop ≤ span.stop := by omega
    simp [Span.contains, this]
  rw [List.filter_append, List.filter_append, List.filter_eq_self.2 inside,
    List.filter_eq_nil_iff.2 fun t mem => by simp [outsideFront t mem],
    List.filter_eq_nil_iff.2 fun t mem => by simp [outsideBack t mem]]
  simp

end Token

namespace Tokens

open Token

/-- Tokens stand one behind another from `low` on, and none of them is empty. -/
def Apart (low : Nat) : Tokens → Prop
  | token first rest => low ≤ first.span.start ∧ first.span.start < first.span.stop ∧
      Apart first.span.stop rest
  | done _ | fault _ => True

theorem Apart.mono {low low' : Nat} {ts : Tokens} (h : ts.Apart low) (le : low' ≤ low) :
    ts.Apart low' := by
  cases ts with
  | token first rest => exact ⟨Nat.le_trans le h.1, h.2⟩
  | _ => trivial

theorem apart_scan (offset : Nat) (cs : List Char) : (scan offset cs).Apart offset := by
  fun_induction scan offset cs with
  | case1 => trivial
  | case2 => trivial
  | case3 offset c cs l found stop ih =>
    refine ⟨Nat.le_refl _, ?_, ih⟩
    obtain ⟨more, isSource⟩ := List.head?_eq_some_iff.1 (Lexeme.head_next found)
    have positive := c.utf8Size_pos
    show offset < offset + byteLength l.source
    rw [isSource, byteLength]
    omega

theorem Apart.significant {low : Nat} {ts : Tokens} (h : ts.Apart low) :
    ts.significant.Apart low := by
  induction ts generalizing low with
  | token first rest ih =>
    obtain ⟨le, room, others⟩ := h
    unfold Tokens.significant
    split
    · exact (ih others).mono (by omega)
    · exact ⟨le, room, ih others⟩
  | done _ => trivial
  | fault _ => trivial

theorem Apart.inPlace {low : Nat} {ts : Tokens} (h : ts.Apart low) :
    InPlace ts.words ∧ ∀ t ∈ ts.words, low ≤ t.span.start := by
  induction ts generalizing low with
  | token first rest ih =>
    obtain ⟨le, room, others⟩ := h
    obtain ⟨inPlace, above⟩ := ih others
    refine ⟨⟨List.pairwise_cons.2 ⟨above, inPlace.apart⟩, ?_⟩, ?_⟩
    · exact List.forall_mem_cons.2 ⟨room, inPlace.room⟩
    · refine List.forall_mem_cons.2 ⟨le, fun t mem => ?_⟩
      have := above t mem
      omega
  | done _ => exact ⟨⟨.nil, by simp [words]⟩, by simp [words]⟩
  | fault _ => exact ⟨⟨.nil, by simp [words]⟩, by simp [words]⟩

/-- The tokens of a text are in its order. -/
theorem inPlace_ofText (text : String) : InPlace (ofText text).significant.words :=
  (apart_scan 0 text.toList).significant.inPlace.1

end Tokens

end LambdaQuery
