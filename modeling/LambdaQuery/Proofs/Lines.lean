import LambdaQuery.Lines
import Mathlib

/-!
# Lines and columns of offsets

A line feed is one byte, which occurs in the encoding of no other character, so that the table of
line starts, which is made from characters, holds the offsets right behind the line feeds among the
bytes. The entries up to an offset are those that the bytes before it give. One byte on, the
column grows by one, or behind a line feed the line grows by one and the column starts again; lines
and columns of all offsets follow from that.
-/

namespace LambdaQuery

namespace Lines

/-- The bytes of a text. -/
def bytes (text : String) : List UInt8 :=
  text.toByteArray.data.toList

def lineFeed : UInt8 := 10

/-- The offsets right behind the line feeds among bytes of which the first stands at `offset`. -/
def feedEnds (offset : Nat) : List UInt8 → List Nat
  | [] => []
  | b :: rest =>
    if b = lineFeed then (offset + 1) :: feedEnds (offset + 1) rest else feedEnds (offset + 1) rest

theorem feedEnds_append (offset : Nat) (front back : List UInt8) :
    feedEnds offset (front ++ back) =
      feedEnds offset front ++ feedEnds (offset + front.length) back := by
  induction front generalizing offset with
  | nil => rfl
  | cons b rest ih =>
    have next : offset + 1 + rest.length = offset + (b :: rest).length := by
      rw [List.length_cons]
      omega
    by_cases isFeed : b = lineFeed <;> simp [feedEnds, isFeed, ih, next]

theorem feedEnds_eq_nil {bs : List UInt8} (offset : Nat) (noFeed : lineFeed ∉ bs) :
    feedEnds offset bs = [] := by
  induction bs generalizing offset with
  | nil => rfl
  | cons b rest ih =>
    obtain ⟨notFirst, notRest⟩ := not_or.1 (mt List.mem_cons.2 noFeed)
    rw [feedEnds, if_neg (Ne.symm notFirst), ih _ notRest]

theorem bounds_of_mem_feedEnds {offset start : Nat} {bs : List UInt8}
    (h : start ∈ feedEnds offset bs) : offset < start ∧ start ≤ offset + bs.length := by
  induction bs generalizing offset with
  | nil => cases h
  | cons b rest ih =>
    have inRest (h : start ∈ feedEnds (offset + 1) rest) :
        offset < start ∧ start ≤ offset + (b :: rest).length := by
      obtain ⟨lower, upper⟩ := ih h
      rw [List.length_cons]
      omega
    rw [feedEnds] at h
    split at h
    · rcases List.mem_cons.1 h with rfl | later
      · rw [List.length_cons]
        omega
      · exact inRest later
    · exact inRest h

theorem length_feedEnds (offset : Nat) (bs : List UInt8) :
    (feedEnds offset bs).length = bs.count lineFeed := by
  induction bs generalizing offset with
  | nil => rfl
  | cons b rest ih => by_cases isFeed : b = lineFeed <;> simp [feedEnds, isFeed, ih]

/-! The table by bytes. -/

/-- A character that is not ASCII has no byte below 0x80. -/
theorem le_of_mem_utf8EncodeChar {c : Char} {b : UInt8} (notAscii : ¬ c.val.toNat ≤ 127)
    (mem : b ∈ String.utf8EncodeChar c) : 128 ≤ b.toNat := by
  unfold String.utf8EncodeChar at mem
  rw [if_neg notAscii] at mem
  split at mem
  · simp only [List.mem_cons, List.not_mem_nil, or_false] at mem
    rcases mem with rfl | rfl <;> rw [UInt8.toNat_ofNat'] <;> omega
  split at mem
  · simp only [List.mem_cons, List.not_mem_nil, or_false] at mem
    rcases mem with rfl | rfl | rfl <;> rw [UInt8.toNat_ofNat'] <;> omega
  · simp only [List.mem_cons, List.not_mem_nil, or_false] at mem
    rcases mem with rfl | rfl | rfl | rfl <;> rw [UInt8.toNat_ofNat'] <;> omega

/-- Only a line feed has the byte of a line feed in it. -/
theorem lineFeed_not_mem_utf8EncodeChar {c : Char} (notFeed : c ≠ '\n') :
    lineFeed ∉ String.utf8EncodeChar c := by
  intro mem
  by_cases ascii : c.val.toNat ≤ 127
  · rw [String.utf8EncodeChar, if_pos ascii] at mem
    have isFeed : lineFeed.toNat = (UInt8.ofNat c.val.toNat).toNat :=
      congrArg UInt8.toNat (List.mem_singleton.1 mem)
    rw [UInt8.toNat_ofNat', Nat.mod_eq_of_lt (by omega)] at isFeed
    exact notFeed (Char.ext (UInt32.toNat_inj.1 isFeed.symm))
  · exact absurd (le_of_mem_utf8EncodeChar ascii mem) (by decide)

theorem bytes_eq (text : String) : bytes text = text.toList.flatMap String.utf8EncodeChar := by
  rw [bytes, ← String.utf8Encode_toList, List.utf8Encode, List.data_toByteArray]

theorem lineStartsFrom_eq (offset : Nat) (cs : List Char) :
    lineStartsFrom offset cs = feedEnds offset (cs.flatMap String.utf8EncodeChar) := by
  induction cs generalizing offset with
  | nil => rfl
  | cons c rest ih =>
    rw [List.flatMap_cons, feedEnds_append, String.length_utf8EncodeChar, ← ih]
    by_cases isFeed : c = '\n'
    · subst isFeed
      rfl
    · rw [feedEnds_eq_nil _ (lineFeed_not_mem_utf8EncodeChar isFeed), lineStartsFrom, if_neg isFeed]
      rfl

theorem lineStarts_eq (text : String) : lineStarts text = 0 :: feedEnds 0 (bytes text) := by
  rw [lineStarts, lineStartsFrom_eq, bytes_eq]

/-! Searching the table. -/

/-- The entries before the index are at or before the offset, the others behind it. That is what
any search for the offset has to find, however it goes through the table. -/
structure Splits (starts : List Nat) (offset index : Nat) : Prop where
  inTable : index ≤ starts.length
  before : ∀ start ∈ starts.take index, start ≤ offset
  behind : ∀ start ∈ starts.drop index, offset < start

theorem Splits.takeWhile_eq {starts : List Nat} {offset index : Nat}
    (h : Splits starts offset index) :
    starts.takeWhile (· ≤ offset) = starts.take index := by
  have noneBehind : (starts.drop index).takeWhile (· ≤ offset) = [] := by
    cases isDrop : starts.drop index with
    | nil => rfl
    | cons start rest =>
      have later := h.behind start (by simp [isDrop])
      rw [List.takeWhile_cons_of_neg (by simpa using later)]
  calc starts.takeWhile (· ≤ offset)
    _ = (starts.take index ++ starts.drop index).takeWhile (· ≤ offset) := by
      rw [List.take_append_drop]
    _ = starts.take index := by
      rw [List.takeWhile_append_of_pos (by simpa using h.before), noneBehind,
        List.append_nil]

theorem Splits.line_eq {starts : List Nat} {offset index : Nat} (h : Splits starts offset index) :
    (position starts offset).1 = index := by
  rw [position, h.takeWhile_eq, List.length_take, Nat.min_eq_left h.inTable]

theorem Splits.append {front back : List Nat} {offset : Nat}
    (before : ∀ start ∈ front, start ≤ offset) (behind : ∀ start ∈ back, offset < start) :
    Splits (front ++ back) offset front.length where
  inTable := by simp
  before := by simpa using before
  behind := by simpa using behind

/-! One byte on. -/

/-- The starts of the lines up to the one that an offset stands in. -/
def startsUpTo (text : String) (offset : Nat) : List Nat :=
  0 :: feedEnds 0 ((bytes text).take offset)

variable (text : String) (offset : Nat)

theorem lineStarts_eq_append :
    lineStarts text = startsUpTo text offset ++ feedEnds offset ((bytes text).drop offset) := by
  have parted := feedEnds_append 0 ((bytes text).take offset) ((bytes text).drop offset)
  rw [List.take_append_drop, Nat.zero_add, List.length_take] at parted
  rw [lineStarts_eq, parted, startsUpTo, List.cons_append]
  -- past the end no bytes are left, and it does not matter where they would stand
  rcases Nat.le_total offset (bytes text).length with inside | outside
  · rw [Nat.min_eq_left inside]
  · rw [List.drop_eq_nil_of_le outside, feedEnds, feedEnds]

theorem le_of_mem_startsUpTo {start : Nat} (mem : start ∈ startsUpTo text offset) :
    start ≤ offset := by
  rcases List.mem_cons.1 mem with rfl | behindFeed
  · exact Nat.zero_le _
  · have upper := (bounds_of_mem_feedEnds behindFeed).2
    have taken := List.length_take_le offset (bytes text)
    omega

theorem splits_lineStarts : Splits (lineStarts text) offset (startsUpTo text offset).length := by
  rw [lineStarts_eq_append text offset]
  exact .append (fun _ mem => le_of_mem_startsUpTo text offset mem)
    fun _ mem => (bounds_of_mem_feedEnds mem).1

theorem takeWhile_lineStarts :
    (lineStarts text).takeWhile (· ≤ offset) = startsUpTo text offset := by
  rw [(splits_lineStarts text offset).takeWhile_eq, lineStarts_eq_append text offset,
    List.take_left]

/-- The start of the line that an offset stands in. -/
def lineStart (text : String) (offset : Nat) : Nat :=
  (startsUpTo text offset).getLastD 0

theorem position_lineStarts : position (lineStarts text) offset =
    ((startsUpTo text offset).length, offset - lineStart text offset + 1) := by
  rw [position, takeWhile_lineStarts, lineStart]

theorem length_startsUpTo :
    (startsUpTo text offset).length = 1 + ((bytes text).take offset).count lineFeed := by
  rw [startsUpTo, List.length_cons, length_feedEnds, Nat.add_comm]

theorem getLast?_startsUpTo : (startsUpTo text offset).getLast? = some (lineStart text offset) := by
  rw [lineStart, List.getLastD_eq_getLast?, startsUpTo, List.getLast?_cons]
  rfl

theorem lineStart_le : lineStart text offset ≤ offset :=
  le_of_mem_startsUpTo text offset (List.mem_of_getLast? (getLast?_startsUpTo text offset))

/-- The search ends at an entry, which is the start of the line. -/
theorem getElem?_lineStarts :
    (lineStarts text)[(startsUpTo text offset).length - 1]? = some (lineStart text offset) := by
  have last := getLast?_startsUpTo text offset
  rw [List.getLast?_eq_getElem?] at last
  rw [lineStarts_eq_append text offset, List.getElem?_append_left (by simp [startsUpTo]), last]

variable {text offset}

theorem startsUpTo_succ_of_feed (feed : (bytes text)[offset]? = some lineFeed) :
    startsUpTo text (offset + 1) = startsUpTo text offset ++ [offset + 1] := by
  have inside : ((bytes text).take offset).length = offset := by
    rw [List.length_take, Nat.min_eq_left (List.getElem?_eq_some_iff.1 feed).1.le]
  rw [startsUpTo, List.take_add_one, feed, feedEnds_append, inside, Nat.zero_add]
  rfl

theorem startsUpTo_succ (noFeed : (bytes text)[offset]? ≠ some lineFeed) :
    startsUpTo text (offset + 1) = startsUpTo text offset := by
  have nothing : lineFeed ∉ (bytes text)[offset]?.toList := by simpa using noFeed
  rw [startsUpTo, List.take_add_one, feedEnds_append, feedEnds_eq_nil _ nothing, List.append_nil,
    startsUpTo]

theorem lineStart_succ_of_feed (feed : (bytes text)[offset]? = some lineFeed) :
    lineStart text (offset + 1) = offset + 1 := by
  rw [lineStart, startsUpTo_succ_of_feed feed, List.getLastD_concat]

theorem lineStart_succ (noFeed : (bytes text)[offset]? ≠ some lineFeed) :
    lineStart text (offset + 1) = lineStart text offset := by
  rw [lineStart, startsUpTo_succ noFeed, lineStart]

/-- Behind a line feed a line begins. -/
theorem position_succ_of_feed (feed : (bytes text)[offset]? = some lineFeed) :
    position (lineStarts text) (offset + 1) =
      ((position (lineStarts text) offset).1 + 1, 1) := by
  simp [position_lineStarts, startsUpTo_succ_of_feed feed, lineStart_succ_of_feed feed]

/-- Behind anything else the line goes on. -/
theorem position_succ (noFeed : (bytes text)[offset]? ≠ some lineFeed) :
    position (lineStarts text) (offset + 1) =
      ((position (lineStarts text) offset).1, (position (lineStarts text) offset).2 + 1) := by
  -- the difference grows with the offset only because nothing is cut off at zero
  have le := lineStart_le text offset
  simp only [position_lineStarts, startsUpTo_succ noFeed, lineStart_succ noFeed]
  congr 1
  omega

/-- Where the line of an offset starts: at the start of the text or right behind a line feed, with
no line feed from there up to the offset. -/
structure LineBegins (bs : List UInt8) (offset start : Nat) : Prop where
  le : start ≤ offset
  atLine : start = 0 ∨ bs[start - 1]? = some lineFeed
  unbroken : ∀ i, start ≤ i → i < offset → bs[i]? ≠ some lineFeed

theorem lineBegins_lineStart (text : String) (offset : Nat) :
    LineBegins (bytes text) offset (lineStart text offset) := by
  induction offset with
  | zero => exact ⟨lineStart_le text 0, .inl rfl, by omega⟩
  | succ offset ih =>
    by_cases feed : (bytes text)[offset]? = some lineFeed
    · rw [lineStart_succ_of_feed feed]
      exact ⟨Nat.le_refl _, .inr feed, by omega⟩
    · rw [lineStart_succ feed]
      refine ⟨Nat.le_succ_of_le ih.le, ih.atLine, fun i lower upper => ?_⟩
      rcases Nat.lt_succ_iff_lt_or_eq.1 upper with before | rfl
      · exact ih.unbroken i lower before
      · exact feed

/-- Each offset stands behind the one before it. -/
theorem position_strictMono (text : String) :
    StrictMono fun offset => toLex (position (lineStarts text) offset) := by
  refine strictMono_nat_of_lt_succ fun offset => Prod.Lex.toLex_lt_toLex.2 ?_
  by_cases feed : (bytes text)[offset]? = some lineFeed
  · rw [position_succ_of_feed feed]
    exact .inl (Nat.lt_succ_self _)
  · rw [position_succ feed]
    exact .inr ⟨rfl, Nat.lt_succ_self _⟩

end Lines

open Lines

/-- Every offset, also one past the end of the text, has as its line one more than the line feeds
before it, and as its column one more than the bytes from the start of the line. That start is the
entry of the table which the line number leads to, so that there is one to subtract, and it is not
behind the offset. The line number is the one index at which the table splits. No number is above
`offset + 1`. Lines and columns grow with the offset, so that no two offsets share them. -/
theorem positions_exact_and_increasing (text : String) :
    (∀ offset, ∃ start, LineBegins (bytes text) offset start ∧
      (lineStarts text)[(position (lineStarts text) offset).1 - 1]? = some start ∧
      position (lineStarts text) offset =
        (1 + ((bytes text).take offset).count lineFeed, 1 + (offset - start))) ∧
    (∀ offset index, Splits (lineStarts text) offset index ↔
      index = (position (lineStarts text) offset).1) ∧
    (∀ offset, (position (lineStarts text) offset).1 ≤ offset + 1 ∧
      (position (lineStarts text) offset).2 ≤ offset + 1) ∧
    StrictMono (fun offset => toLex (position (lineStarts text) offset)) ∧
    Function.Injective (position (lineStarts text)) := by
  refine ⟨fun offset => ?_, fun offset index => ⟨fun h => h.line_eq.symm, ?_⟩, fun offset => ?_,
    position_strictMono text, (position_strictMono text).injective⟩
  · refine ⟨lineStart text offset, lineBegins_lineStart text offset, ?_, ?_⟩
    · rw [position_lineStarts]
      exact getElem?_lineStarts text offset
    · rw [position_lineStarts, length_startsUpTo, Nat.add_comm 1 (offset - _)]
  · rintro rfl
    rw [position_lineStarts]
    exact splits_lineStarts text offset
  · have fewFeeds : ((bytes text).take offset).count lineFeed ≤ offset :=
      List.count_le_length.trans (List.length_take_le offset (bytes text))
    rw [position_lineStarts, length_startsUpTo]
    constructor <;> omega

example : position (lineStarts "é\n\nx") 4 = (3, 1) := by decide

end LambdaQuery
