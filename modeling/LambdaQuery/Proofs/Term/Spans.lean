import LambdaQuery.Proofs.Term.Binding
import LambdaQuery.Proofs.Token.Tiling

/-!
# Where the nodes of a query stand

A node of a query that was read from a text stands for the stretch from the first of its tokens to
the last. So the stretches of its children lie in its own, one behind another.
-/

namespace LambdaQuery

theorem Span.contains_trans {outer middle inner : Span} (h : outer.contains middle = true)
    (h' : middle.contains inner = true) : outer.contains inner = true := by
  simp only [Span.contains, Bool.and_eq_true, decide_eq_true_eq] at h h' ⊢
  omega

namespace Token

/-- A stretch of text that starts where a token starts and stops where a token stops. -/
structure Stands (ts : List Token) (span : Span) : Prop where
  room : span.start < span.stop
  starts : ∃ first ∈ ts, first.span.start = span.start
  stops : ∃ last ∈ ts, last.span.stop = span.stop

variable {ts front back : List Token} {span inner : Span}

theorem Stands.mono (h : Stands ts span) {others : List Token} (sub : ts ⊆ others) :
    Stands others span := by
  obtain ⟨room, ⟨first, isFirst, starts⟩, last, isLast, stops⟩ := h
  exact ⟨room, ⟨first, sub isFirst, starts⟩, last, sub isLast, stops⟩

theorem InPlace.sublist (inPlace : InPlace ts) {others : List Token} (sub : others.Sublist ts) :
    InPlace others :=
  ⟨inPlace.apart.sublist sub, fun t mem => inPlace.room t (sub.subset mem)⟩

/-- The stretch of all tokens holds every stretch that stands among them. -/
theorem InPlace.contains_of_stands (inPlace : InPlace ts) (covers : Cover ts span)
    (stands : Stands ts inner) : span.contains inner = true := by
  obtain ⟨_, ⟨first, isFirst, starts⟩, last, isLast, stops⟩ := stands
  have holdsFirst := inPlace.contains covers first isFirst
  have holdsLast := inPlace.contains covers last isLast
  simp only [Span.contains, Bool.and_eq_true, decide_eq_true_eq] at holdsFirst holdsLast ⊢
  omega

theorem InPlace.stands (inPlace : InPlace ts) (covers : Cover ts span) : Stands ts span := by
  obtain ⟨⟨first, rest, isFirst, starts⟩, others, last, isLast, stops⟩ := covers
  have memFirst : first ∈ ts := by simp [isFirst]
  have memLast : last ∈ ts := by simp [isLast]
  refine ⟨?_, ⟨first, memFirst, starts⟩, last, memLast, stops⟩
  have room := inPlace.room first memFirst
  have holds := inPlace.contains ⟨⟨first, rest, isFirst, starts⟩, others, last, isLast, stops⟩ first
    memFirst
  simp only [Span.contains, Bool.and_eq_true, decide_eq_true_eq] at holds
  omega

/-- A stretch among tokens in front of others stops before one among the others starts. -/
theorem InPlace.stop_le_start (inPlace : InPlace (front ++ back)) {before behind : Span}
    (stands : Stands front before) (stands' : Stands back behind) :
    before.stop ≤ behind.start := by
  obtain ⟨_, _, last, isLast, stops⟩ := stands
  obtain ⟨_, ⟨first, isFirst, starts⟩, _⟩ := stands'
  have := (List.pairwise_append.1 inPlace.apart).2.2 last isLast first isFirst
  omega

end Token

namespace Term

open Token

section At

variable {α : Type} {around : List (Binder α)} {node t : Term α}

theorem note_withNote (note : α) (t : Term α) : (t.withNote note).note = note := by
  cases t <;> rfl

theorem children_withNote (note : α) (t : Term α) : (t.withNote note).children = t.children := by
  cases t <;> rfl

theorem At.root_or_below (h : At around node t) :
    node = t ∨ ∃ around' child, child ∈ t.children ∧ At around' node child := by
  cases h with
  | here => exact .inl rfl
  | body inBody => exact .inr ⟨_, _, List.mem_cons_self, inBody⟩
  | left inLeft => exact .inr ⟨_, _, List.mem_cons_self, inLeft⟩
  | right inRight => exact .inr ⟨_, _, List.mem_cons_of_mem _ List.mem_cons_self, inRight⟩
  | argument isArg inArg => exact .inr ⟨_, _, isArg, inArg⟩
  | receiver inReceiver => exact .inr ⟨_, _, List.mem_cons_self, inReceiver⟩

end At

/-- A node that stands among tokens, with its children one behind another in its own stretch. The
parameter of a lambda stands there before the body. -/
structure Sits (ts : List Token) (node : Term Span) : Prop where
  stands : Stands ts node.note
  inside : ∀ child ∈ node.children, node.note.contains child.note = true
  apart : node.children.Pairwise fun a b => a.note.stop ≤ b.note.start
  binder : ∀ note param body, node = .lambda note param body →
    Stands ts param.note ∧ note.contains param.note = true ∧ param.note.stop ≤ body.note.start

/-- Every node of the tree sits among the tokens. -/
def AllSit (ts : List Token) (t : Term Span) : Prop :=
  ∀ (around : List (Binder Span)) (node : Term Span), At around node t → Sits ts node

variable {ts others : List Token} {t : Term Span}

theorem Sits.mono (h : Sits ts t) (sub : ts ⊆ others) : Sits others t where
  stands := h.stands.mono sub
  inside := h.inside
  apart := h.apart
  binder note param body is :=
    let ⟨stands, rest⟩ := h.binder note param body is
    ⟨stands.mono sub, rest⟩

theorem AllSit.mono (h : AllSit ts t) (sub : ts ⊆ others) : AllSit others t :=
  fun around node place => (h around node place).mono sub

theorem AllSit.stands (h : AllSit ts t) : Stands ts t.note :=
  (h [] t .here).stands

theorem allSit_of_root (root : Sits ts t) (below : ∀ child ∈ t.children, AllSit ts child) :
    AllSit ts t := by
  intro around node place
  rcases place.root_or_below with rfl | ⟨around', child, isChild, inChild⟩
  · exact root
  · exact below child isChild around' node inChild

/-- A tree whose nodes sit among the tokens, and whose stretch goes from the first to the last. -/
structure Placed (ts : List Token) (t : Term Span) : Prop where
  covers : Cover ts t.note
  allSit : AllSit ts t

/-- A node is placed if its children stand in order among its tokens. -/
theorem placed_of_children (inPlace : InPlace ts) (covers : Cover ts t.note)
    (below : ∀ child ∈ t.children, AllSit ts child)
    (apart : t.children.Pairwise fun a b => a.note.stop ≤ b.note.start)
    (noBinder : ∀ note param body, t ≠ .lambda note param body) : Placed ts t := by
  refine ⟨covers, allSit_of_root ⟨inPlace.stands covers, ?_, apart, ?_⟩ below⟩
  · intro child isChild
    exact inPlace.contains_of_stands covers (below child isChild).stands
  · intro note param body is
    exact absurd is (noBinder note param body)

theorem placed_literal (inPlace : InPlace ts) {span : Span} (covers : Cover ts span)
    (text : Option String) : Placed ts (.literal span text) :=
  placed_of_children inPlace covers (by simp [children]) .nil (by simp)

/-- Parentheses widen the stretch of the root. -/
theorem Placed.enclosed {opening closing : Token} (h : Placed ts t)
    (inPlace : InPlace (opening :: (ts ++ [closing]))) :
    Placed (opening :: (ts ++ [closing]))
      (t.withNote ⟨opening.span.start, closing.span.stop⟩) := by
  have covers := cover_enclosed opening closing ts
  have sub : ts ⊆ opening :: (ts ++ [closing]) := by
    intro t mem
    simp [mem]
  have wider := inPlace.contains_of_stands covers (h.allSit.stands.mono sub)
  obtain ⟨_, inside, apart, binder⟩ := (h.allSit [] t .here).mono sub
  have root : Sits (opening :: (ts ++ [closing]))
      (t.withNote ⟨opening.span.start, closing.span.stop⟩) := by
    refine ⟨?_, ?_, ?_, ?_⟩
    · rw [note_withNote]
      exact inPlace.stands covers
    · rw [note_withNote, children_withNote]
      exact fun child isChild => Span.contains_trans wider (inside child isChild)
    · rw [children_withNote]
      exact apart
    · intro note param body is
      cases t with
      | lambda note' param' body' =>
        cases is
        obtain ⟨stands, inNote, before⟩ := binder note' param body rfl
        exact ⟨stands, Span.contains_trans wider inNote, before⟩
      | _ => cases is
  refine ⟨by rwa [note_withNote], fun around node place => ?_⟩
  rcases place.of_withNote with rfl | inInner
  · exact root
  · exact (h.allSit around node inInner).mono sub

theorem Placed.binary {tsLeft tsRight : List Token} {sign : Token} {left right : Term Span}
    (onLeft : Placed tsLeft left) (onRight : Placed tsRight right)
    (inPlace : InPlace (tsLeft ++ sign :: tsRight)) (op : Operator) :
    Placed (tsLeft ++ sign :: tsRight) (.binary (left.note.merge right.note) op left right) := by
  have subLeft : tsLeft ⊆ tsLeft ++ sign :: tsRight := List.subset_append_left _ _
  have subRight : tsRight ⊆ tsLeft ++ sign :: tsRight := fun t mem => by simp [mem]
  have before : left.note.stop ≤ right.note.start := by
    have inOrder : InPlace (tsLeft ++ tsRight) := inPlace.sublist (by simp)
    exact inOrder.stop_le_start onLeft.allSit.stands onRight.allSit.stands
  have merged : left.note.merge right.note = ⟨left.note.start, right.note.stop⟩ := by
    have := onLeft.allSit.stands.room
    have := onRight.allSit.stands.room
    simp only [Span.merge, Span.mk.injEq]
    omega
  refine placed_of_children inPlace ?_ ?_ ?_ (by simp)
  · rw [note, merged]
    obtain ⟨_, others, last, rfl, stops⟩ := onRight.covers
    obtain ⟨⟨first, rest, rfl, starts⟩, _⟩ := onLeft.covers
    exact ⟨⟨first, _, rfl, starts⟩, first :: rest ++ sign :: others, last, by simp, stops⟩
  · simp only [children, List.forall_mem_cons]
    exact ⟨onLeft.allSit.mono subLeft, onRight.allSit.mono subRight, by simp⟩
  · simpa [children] using before

/-! ## Operands with operators between them -/

namespace Grammar

/-- Operators and operands placed among tokens, an operator in front of each operand. -/
inductive Links : List Token → Chain → Prop
  | nil : Links [] []
  | cons {sign : Token} {op : Operator} {ts ts' : List Token} {operand : Term Span}
    {chain : Chain} : Placed ts operand → Links ts' chain →
      Links (sign :: (ts ++ ts')) ((op, operand) :: chain)

theorem Links.split {ts : List Token} {before behind : Chain} {op : Operator}
    {operand : Term Span} (h : Links ts (before ++ (op, operand) :: behind)) :
    ∃ front sign piece back, ts = front ++ sign :: (piece ++ back) ∧ Links front before ∧
      Placed piece operand ∧ Links back behind := by
  induction before generalizing ts with
  | nil =>
    cases h with
    | cons placed rest => exact ⟨[], _, _, _, rfl, .nil, placed, rest⟩
  | cons link before ih =>
    cases h with
    | @cons first _ ts' _ _ _ placed rest =>
      obtain ⟨front, sign, piece, back, rfl, links, onOperand, links'⟩ := ih rest
      refine ⟨first :: (ts' ++ front), sign, piece, back, by simp, ?_, onOperand, links'⟩
      exact .cons placed links

theorem placed_fold {first : Term Span} {chain : Chain} {ts ts' : List Token}
    (onFirst : Placed ts first) (links : Links ts' chain) (inPlace : InPlace (ts ++ ts')) :
    Placed (ts ++ ts') (fold first chain) := by
  fun_induction fold first chain generalizing ts ts' with
  | case1 first chain isNone =>
    rw [eq_nil_of_weakest? isNone] at links
    cases links
    rwa [List.append_nil]
  | case2 first chain before op operand behind isSplit left right =>
    rename_i onLeft onRight
    obtain ⟨rfl, _, _⟩ := of_weakest? isSplit
    obtain ⟨front, sign, piece, back, rfl, links, onOperand, links'⟩ := links.split
    rw [← List.append_assoc] at inPlace ⊢
    have inFront : InPlace (ts ++ front) := inPlace.sublist (List.sublist_append_left _ _)
    have inBack : InPlace (piece ++ back) :=
      inPlace.sublist ((List.sublist_cons_self _ _).trans (List.sublist_append_right _ _))
    exact (onLeft onFirst links inFront).binary (onRight onOperand links' inBack) inPlace op

/-! ## Queries -/

mutual
/-- A query is placed among its tokens. -/
theorem Query.placed : ∀ {scope : Scope} {ts : List Token} {t : Term Span},
    Query scope ts t → InPlace ts → Placed ts t
  | _, _, _, @Query.lambda _ name arrow ts body _ _ _ onBody, inPlace => by
    have inRest : InPlace ts := (inPlace.sublist (List.sublist_cons_self _ _)).sublist
      (List.sublist_cons_self _ _)
    have placed := onBody.placed inRest
    have subset : ts ⊆ name :: arrow :: ts := fun t mem => by simp [mem]
    have covers : Cover (name :: arrow :: ts) ⟨name.span.start, body.note.stop⟩ := by
      obtain ⟨_, others, last, rfl, stops⟩ := placed.covers
      exact ⟨⟨name, _, rfl, rfl⟩, name :: arrow :: others, last, rfl, stops⟩
    have onName : Stands [name] name.span :=
      (inPlace.sublist (by simp)).stands (cover_singleton name)
    have inOrder : InPlace ([name] ++ ts) := inPlace.sublist (by simp)
    have before : name.span.stop ≤ body.note.start :=
      inOrder.stop_le_start onName placed.allSit.stands
    have inName : Stands (name :: arrow :: ts) name.span := onName.mono (by simp)
    refine ⟨covers, allSit_of_root ⟨inPlace.stands covers, ?_, by simp [children], ?_⟩ ?_⟩
    · simp only [children, List.forall_mem_singleton]
      exact inPlace.contains_of_stands covers (placed.allSit.stands.mono subset)
    · intro note param body is
      cases is
      exact ⟨inName, inPlace.contains_of_stands covers inName, before⟩
    · simp only [children, List.forall_mem_singleton]
      exact placed.allSit.mono subset
  | _, _, _, .expression onFirst operations, inPlace => by
    have inFirst := inPlace.sublist (List.sublist_append_left _ _)
    have inRest := inPlace.sublist (List.sublist_append_right _ _)
    exact placed_fold (onFirst.placed inFirst) (operations.links inRest) inPlace

theorem Operations.links : ∀ {scope : Scope} {ts : List Token} {chain : Chain},
    Operations scope ts chain → InPlace ts → Links ts chain
  | _, _, _, .nil, _ => .nil
  | _, _, _, .cons _ operand rest, inPlace => by
    have inRest := inPlace.sublist (List.sublist_cons_self _ _)
    exact .cons (operand.placed (inRest.sublist (List.sublist_append_left _ _)))
      (rest.links (inRest.sublist (List.sublist_append_right _ _)))

theorem Operand.placed : ∀ {scope : Scope} {ts : List Token} {t : Term Span},
    Operand scope ts t → InPlace ts → Placed ts t
  | _, _, _, .paren _ inner _, inPlace => by
    have inInner := (inPlace.sublist (List.sublist_cons_self _ _)).sublist
      (List.sublist_append_left _ _)
    exact (inner.placed inInner).enclosed inPlace
  | _, _, _, @Operand.call _ name opening closing ts _ _ _ _ args _, inPlace => by
    have inArgs : InPlace ts :=
      ((inPlace.sublist (List.sublist_cons_self _ _)).sublist (List.sublist_cons_self _ _)).sublist
        (List.sublist_append_left _ _)
    obtain ⟨sit, apart⟩ := args.placed inArgs
    have covers := cover_enclosed name closing (opening :: ts)
    refine placed_of_children inPlace covers ?_ apart (by simp)
    exact fun arg isArg => (sit arg isArg).mono fun t mem => by simp [mem]
  | _, _, _, .parameter _ _ _, inPlace =>
    placed_of_children inPlace (cover_singleton _) (by simp [children]) .nil (by simp)
  | _, _, _, .literal _, inPlace => placed_literal inPlace (cover_singleton _) _
  | _, _, _, @Operand.negative _ sign number _ _, inPlace => by
    have merged : sign.span.merge number.span = ⟨sign.span.start, number.span.stop⟩ := by
      have := inPlace.room sign (by simp)
      have := inPlace.room number (by simp)
      have : sign.span.stop ≤ number.span.start := by simpa using inPlace.apart
      simp only [Span.merge, Span.mk.injEq]
      omega
    rw [merged]
    exact placed_literal inPlace (cover_enclosed sign number []) _
  | _, _, _, .truth _ _, inPlace => placed_literal inPlace (cover_singleton _) _
  | _, _, _, .null _ _, inPlace => placed_literal inPlace (cover_singleton _) _
  | _, _, _, @Operand.member _ _ dot name _ receiver _ _, inPlace => by
    have placed := receiver.placed (inPlace.sublist (List.sublist_append_left _ _))
    refine placed_of_children inPlace ?_ ?_ (by simp [children]) (by simp)
    · obtain ⟨⟨first, rest, rfl, starts⟩, _⟩ := placed.covers
      exact ⟨⟨first, _, rfl, starts⟩, first :: rest ++ [dot], name, by simp, rfl⟩
    · simp only [children, List.forall_mem_singleton]
      exact placed.allSit.mono (List.subset_append_left _ _)

/-- The arguments of a call stand one behind another. -/
theorem Arguments.placed : ∀ {scope : Scope} {ts : List Token} {args : List (Term Span)},
    Arguments scope ts args → InPlace ts →
    (∀ arg ∈ args, AllSit ts arg) ∧ args.Pairwise fun a b => a.note.stop ≤ b.note.start
  | _, _, _, .none, _ => ⟨by simp, .nil⟩
  | _, _, _, .last arg, inPlace => by
    simp only [List.forall_mem_singleton, List.pairwise_singleton, and_true]
    exact (arg.placed inPlace).allSit
  | _, _, _, @Arguments.more _ ts ts' _ _ _ _ arg _ rest, inPlace => by
    have placed := arg.placed (inPlace.sublist (List.sublist_append_left _ _))
    have inRest : InPlace ts' :=
      inPlace.sublist ((List.sublist_cons_self _ _).trans (List.sublist_append_right _ _))
    obtain ⟨sit, apart⟩ := rest.placed inRest
    refine ⟨List.forall_mem_cons.2 ⟨placed.allSit.mono (List.subset_append_left _ _), ?_⟩,
      List.pairwise_cons.2 ⟨?_, apart⟩⟩
    · intro other mem
      exact (sit other mem).mono fun t inTs' => by simp [inTs']
    · intro other mem
      have inOrder : InPlace (ts ++ ts') := inPlace.sublist (by simp)
      exact inOrder.stop_le_start placed.allSit.stands (sit other mem).stands
end

end Grammar

end Term

open Term

theorem Tokens.mem_toList_of_words {ts : Tokens} {t : Token} (mem : t ∈ ts.significant.words) :
    t ∈ ts.toList := by
  induction ts with
  | token first rest ih =>
    rw [Tokens.significant] at mem
    split at mem
    · exact List.mem_cons_of_mem _ (ih mem)
    · rcases List.mem_cons.1 mem with rfl | inRest
      · exact List.mem_cons_self
      · exact List.mem_cons_of_mem _ (ih inRest)
  | done _ => cases mem
  | fault _ => cases mem

/-- What stands among the tokens of a text stands in the text. -/
theorem Token.Stands.stop_le {text : String} {span : Span}
    (h : Token.Stands (Tokens.ofText text).significant.words span) :
    span.stop ≤ text.utf8ByteSize := by
  obtain ⟨_, _, last, isLast, stops⟩ := h
  have tiling : (Tokens.ofText text).Tiling 0 text.toList := Tokens.tiling_scan 0 text.toList
  have whole : text.toList = [] ++ text.toList := rfl
  have within := (tiling.mem whole rfl last (Tokens.mem_toList_of_words isLast)).1
  rw [← stops]
  exact within.stop_le

/-- Every node of a query stands in the text from the start of a token to the end of a token, holds
the stretches of its children, and its children stand one behind another. So do the parameter and
the body of a lambda. -/
theorem spans_nested {limit : Nat} {text : String} {t : Term Span}
    (read : Term.ofText limit text = .ok t) {around : List (Binder Span)} {node : Term Span}
    (place : At around node t) :
    let words := (Tokens.ofText text).significant.words
    Token.Stands words node.note ∧ node.note.stop ≤ text.utf8ByteSize ∧
    (∀ child ∈ node.children, node.note.contains child.note = true) ∧
    (node.children.Pairwise fun a b => a.note.stop ≤ b.note.start) ∧
    ∀ note param body, node = .lambda note param body → Token.Stands words param.note ∧
      note.contains param.note = true ∧ param.note.stop ≤ body.note.start := by
  intro words
  have placed := (Term.query_of_ofText read).placed (Tokens.inPlace_ofText text)
  obtain ⟨stands, inside, apart, binder⟩ := placed.allSit around node place
  exact ⟨stands, stands.stop_le, inside, apart, binder⟩

/-- A lambda in parentheses stands with them, its parameter and its body between them. -/
theorem spans_nested_parentheses :
    let text := "é => F((y => y.A), -1) = é"
    let inner := .lambda ⟨8, 18⟩ ⟨⟨9, "y"⟩, ⟨9, 10⟩⟩
      (.member ⟨14, 17⟩ (.ident ⟨14, 15⟩ ⟨9, "y"⟩) "A")
    let call := .call ⟨6, 23⟩ "F" [inner, .literal ⟨20, 22⟩ (some "-1")]
    let t := .lambda ⟨0, 28⟩ ⟨⟨0, "é"⟩, ⟨0, 2⟩⟩
      (.binary ⟨6, 28⟩ .eq call (.ident ⟨26, 28⟩ ⟨0, "é"⟩))
    Term.ofText 8 text = .ok t ∧ At [⟨⟨0, "é"⟩, ⟨0, 2⟩⟩] inner t ∧
      Token.Stands (Tokens.ofText text).significant.words inner.note ∧
      inner.note.stop ≤ text.utf8ByteSize := by
  intro text inner call t
  have read : Term.ofText 8 text = .ok t := by cbv
  have place : At [⟨⟨0, "é"⟩, ⟨0, 2⟩⟩] inner t := .body (.left (.argument (.head _) .here))
  obtain ⟨stands, inText, -⟩ := spans_nested read place
  exact ⟨read, place, stands, inText⟩

end LambdaQuery
