import LambdaQuery.Proofs.Inference.Interleaving
import LambdaQuery.Proofs.Ty.Join

/-!
# Work in another order

The operands of an equality have changed places, and with them the work that is below them. If one
of them can be worked on apart from the rest of the query, each round of work ends alike, and so
does the work as a whole.
-/

namespace LambdaQuery

open Solver

/-- An equality whose operands have changed places. Its first operand belongs to the first part, and
its second to either. -/
inductive Item.Crossed (q r : Pairing) : Item → Item → Prop
  | mk {slot slot' left left' right right' : Nat} {op : Operator} (isEquality : op.kind = .equality)
    (onSlot : q slot slot') (onLeft : q left left') (onRight : q right right' ∨ r right right') :
    Item.Crossed q r (.binary slot op left right) (.binary slot' op right' left')

theorem Item.Crossed.mono {q r q' r' : Pairing} {item item' : Item} (h : item.Crossed q r item')
    (leQ : q.Le q') (leR : r.Le r') : item.Crossed q' r' item' := by
  cases h with
  | mk isEquality onSlot onLeft onRight =>
    exact .mk isEquality (leQ onSlot) (leQ onLeft)
      (onRight.imp (fun inQ => leQ inQ) fun inR => leR inR)

/-- Literals of paired slots. -/
def LiteralPaired (q : Pairing) (literal literal' : Nat × String) : Prop :=
  q literal.1 literal'.1 ∧ literal.2 = literal'.2

/-! What is put together in another order. -/

section

variable {β : Type} (join : β → β → β)

/-- Two things that are put together from related parts. -/
inductive Joined (A B : β → β → Prop) : β → β → Prop
  | mk {a a' b b' : β} (first : A a a') (second : B b b') : Joined A B (join a b) (join a' b')

/-- Two things that are put together from related parts, in opposite order. -/
inductive Swapped (A B : β → β → Prop) : β → β → Prop
  | mk {a a' b b' : β} (first : A a a') (second : B b b') : Swapped A B (join a b) (join b' a')

/-- Parts of the first kind are in their place, except for one that has changed places with a part
of the second kind. What comes right behind these two is related in a way of its own. -/
abbrev Rejoined (Q R E : β → β → Prop) : β → β → Prop :=
  Joined join (Joined join (Joined join Q (Swapped join Q R)) E) Q

end

/-- Lists whose members are related one by one, except that two stretches have changed places. -/
abbrev Rearranged {α : Type} (Q R E : α → α → Prop) : List α → List α → Prop :=
  Rejoined (fun l m => l ++ m) (List.Forall₂ Q) (List.Forall₂ R) (List.Forall₂ E)

namespace Rearranged

variable {α : Type} {Q R E : α → α → Prop} {l l' m m' : List α}

theorem of_parts {before before' left left' right right' crossing crossing' behind behind' : List α}
    (onBefore : List.Forall₂ Q before before') (onLeft : List.Forall₂ Q left left')
    (onRight : List.Forall₂ R right right') (onCrossing : List.Forall₂ E crossing crossing')
    (onBehind : List.Forall₂ Q behind behind') :
    Rearranged Q R E (before ++ (left ++ right) ++ crossing ++ behind)
      (before' ++ (right' ++ left') ++ crossing' ++ behind') :=
  .mk (.mk (.mk onBefore (.mk onLeft onRight)) onCrossing) onBehind

theorem length_eq (h : Rearranged Q R E l l') : l.length = l'.length := by
  obtain ⟨⟨⟨onBefore, ⟨onLeft, onRight⟩⟩, onCrossing⟩, onBehind⟩ := h
  simp only [List.length_append, onBefore.length_eq, onLeft.length_eq, onRight.length_eq,
    onCrossing.length_eq, onBehind.length_eq]
  omega

theorem prepend (front : List.Forall₂ Q m m') (h : Rearranged Q R E l l') :
    Rearranged Q R E (m ++ l) (m' ++ l') := by
  obtain ⟨⟨⟨onBefore, ⟨onLeft, onRight⟩⟩, onCrossing⟩, onBehind⟩ := h
  have longer := of_parts (List.rel_append front onBefore) onLeft onRight onCrossing onBehind
  simpa only [List.append_assoc] using longer

theorem append (h : Rearranged Q R E l l') (back : List.Forall₂ Q m m') :
    Rearranged Q R E (l ++ m) (l' ++ m') := by
  obtain ⟨⟨⟨onBefore, ⟨onLeft, onRight⟩⟩, onCrossing⟩, onBehind⟩ := h
  have longer := of_parts onBefore onLeft onRight onCrossing (List.rel_append onBehind back)
  simpa only [List.append_assoc] using longer

end Rearranged

/-- Items of work on both parts, and the equality between them. -/
abbrev ItemsRearranged (q r : Pairing) : List Item → List Item → Prop :=
  Rearranged (Item.Paired q) (Item.Paired r) (Item.Crossed q r)

abbrev TasksRearranged (q r : Pairing) : List Task → List Task → Prop :=
  Rearranged (Task.Paired q) (Task.Paired r) fun _ _ => False

abbrev LiteralsRearranged (q r : Pairing) : List (Nat × String) → List (Nat × String) → Prop :=
  Rearranged (LiteralPaired q) (LiteralPaired r) fun _ _ => False

namespace Inference

/-! Computations that go through a list. -/

section

variable {α β : Type} {q r : Pairing}

/-- Two computations that fail together, or give the same and leave the same. -/
abbrev Same (x y : Inference α) : Prop :=
  ∀ s, Matched (fun a t b t' => a = b ∧ t = t') (x s) (y s)

theorem Same.of_eq {x y : Inference α} (same : x = y) : Same x y := by
  intro s
  rw [same]
  cases y s with
  | ok a t => exact .ok ⟨rfl, rfl⟩
  | error e t => exact .error

theorem Together.congr {x y x' y' : Inference α} {R : Pairing → Pairing → α → α → Prop}
    (h : Together q r y y' R) (same : Same x y) (same' : Same x' y') : Together q r x x' R := by
  intro q₁ r₁ s s' leQ leR joint
  have ends := h leQ leR joint
  have left := same s
  have right := same' s'
  generalize x s = z, y s = w, x' s' = z', y' s' = w' at ends left right
  cases ends with
  | ok related =>
    cases left with
    | ok both =>
      obtain ⟨rfl, rfl⟩ := both
      cases right with
      | ok both' =>
        obtain ⟨rfl, rfl⟩ := both'
        exact .ok related
  | error =>
    cases left
    cases right
    exact .error

/-- What holds of two results still holds when more slots are paired. -/
abbrev Persists (A : Pairing → Pairing → β → β → Prop) : Prop :=
  ∀ ⦃q r q₁ r₁ : Pairing⦄ ⦃a a' : β⦄, q.Le q₁ → r.Le r₁ → A q r a a' → A q₁ r₁ a a'

theorem eq_persists : Persists fun _ _ => @Eq β :=
  fun _ _ _ _ _ _ _ _ same => same

variable {F : List α → Inference β} {join : β → β → β}
  {l l' m m' : List α} {A B : Pairing → Pairing → β → β → Prop}

theorem Persists.joined (persistsA : Persists A) (persistsB : Persists B) :
    Persists fun q r => Joined join (A q r) (B q r) := by
  rintro q r q₁ r₁ _ _ leQ leR ⟨first, second⟩
  exact .mk (persistsA leQ leR first) (persistsB leQ leR second)

theorem Persists.swapped (persistsA : Persists A) (persistsB : Persists B) :
    Persists fun q r => Swapped join (A q r) (B q r) := by
  rintro q r q₁ r₁ _ _ leQ leR ⟨first, second⟩
  exact .mk (persistsA leQ leR first) (persistsB leQ leR second)

theorem Persists.rejoined {Q : Pairing → β → β → Prop} (persistsQ : Persists fun q _ => Q q)
    (persistsA : Persists A) : Persists fun q r => Rejoined join (Q q) (Q r) (A q r) := by
  have persistsR : Persists fun _ r => Q r := fun _ _ _ _ _ _ leQ leR => persistsQ leR leQ
  exact ((persistsQ.joined (persistsQ.swapped persistsR)).joined persistsA).joined persistsQ

variable (append : ∀ l m, Same (F (l ++ m)) (do let a ← F l; let b ← F m; return join a b))

include append

/-- One stretch after the other. -/
theorem together_joined (persistsA : Persists A) (persistsB : Persists B)
    (first : Together q r (F l) (F l') A) (second : Together q r (F m) (F m') B) :
    Together q r (F (l ++ m)) (F (l' ++ m')) fun q r => Joined join (A q r) (B q r) := by
  refine .congr ?_ (append l m) (append l' m')
  refine .bind first fun leQ leR onFirst => ?_
  refine .bind (second.mono leQ leR) fun leQ' leR' onSecond => ?_
  exact .pure fun leQ'' leR'' => .mk
    (persistsA (leQ'.trans leQ'') (leR'.trans leR'') onFirst) (persistsB leQ'' leR'' onSecond)

/-- A stretch of each part, in either order. -/
theorem together_swapped {Q : Pairing → β → β → Prop} (persists : Persists fun q _ => Q q)
    (first : Agree q (F l) (F l') Q) (second : Agree r (F m) (F m') Q) :
    Together q r (F (l ++ m)) (F (m' ++ l')) fun q r => Swapped join (Q q) (Q r) := by
  have exchanged : Together q r
      ((do let b ← F l; let c ← F m; return (b, c)) >>= fun p => pure (join p.1 p.2))
      ((do let c ← F m'; let b ← F l'; return (b, c)) >>= fun p => pure (join p.2 p.1))
      fun q r => Swapped join (Q q) (Q r) := by
    refine .bind (.exchange first second) fun _ _ both => ?_
    exact .pure fun leQ leR => .mk (persists leQ leR both.1) (persists leR leQ both.2)
  simp only [bind_assoc, pure_bind] at exchanged
  exact exchanged.congr (append l m) (append m' l')

/-- The whole list, with two stretches that have changed places. -/
theorem together_rejoined {Q : Pairing → β → β → Prop} {E : Pairing → Pairing → β → β → Prop}
    (persistsQ : Persists fun q _ => Q q) (persistsE : Persists E)
    (h : Rejoined (fun l m => l ++ m) (fun l l' => Agree q (F l) (F l') Q)
      (fun l l' => Agree r (F l) (F l') Q) (fun l l' => Together q r (F l) (F l') E) l l') :
    Together q r (F l) (F l') fun q r => Rejoined join (Q q) (Q r) (E q r) := by
  obtain ⟨⟨⟨onBefore, ⟨onLeft, onRight⟩⟩, onCrossing⟩, onBehind⟩ := h
  have persistsR : Persists fun _ r => Q r := fun _ _ _ _ _ _ leQ leR => persistsQ leR leQ
  have upToSwap := together_joined append persistsQ (persistsQ.swapped persistsR)
    (.left onBefore) (together_swapped append persistsQ onLeft onRight)
  have upToCrossing := together_joined append (persistsQ.joined (persistsQ.swapped persistsR))
    persistsE upToSwap onCrossing
  exact together_joined append ((persistsQ.joined (persistsQ.swapped persistsR)).joined persistsE)
    persistsQ upToCrossing (.left onBehind)

end

/-! A round of attempts. -/

section

variable (catalog : Catalog) (resolver : Resolver) {q r : Pairing}

theorem attemptAll_append (items more : List Item) :
    attemptAll catalog resolver (items ++ more) = do
      let left ← attemptAll catalog resolver items
      let left' ← attemptAll catalog resolver more
      return left ++ left' := by
  induction items with
  | nil => simp [attemptAll]
  | cons item rest ih =>
    simp only [List.cons_append, attemptAll, ih, bind_assoc, pure_bind]
    congr 1
    funext done
    cases done <;> rfl

theorem operands_crossed {slot slot' left left' right right' : Nat} (op : Operator)
    (onLeft : q left left') (onRight : q right right' ∨ r right right') :
    Together q r (operands catalog slot op left right) (operands catalog slot' op right' left')
      fun _ _ done done' => done = done' := by
  refine .get_bind fun {q₁ r₁ s s'} leQ leR joint => ?_
  have knownRight : s.known? right = s'.known? right' := by
    rcases onRight with inQ | inR
    · exact joint.left.known?_eq (leQ inQ)
    · exact joint.right.known?_eq (leR inR)
  have presettableRight : s.presettable right = s'.presettable right' := by
    rcases onRight with inQ | inR
    · exact joint.left.presettable_eq (leQ inQ)
    · exact joint.right.presettable_eq (leR inR)
  have learnRight (ty : Ty) : Together q₁ r₁ (learn catalog [.assign right ty])
      (learn catalog [.assign right' ty]) fun _ _ a b => a = b := by
    rcases onRight with inQ | inR
    · exact .left (.learn catalog (.cons (.assign (leQ inQ) ty) .nil))
    · exact .right (.learn catalog (.cons (.assign (leR inR) ty) .nil))
  simp only [joint.left.known?_eq (leQ onLeft), knownRight,
    joint.left.presettable_eq (leQ onLeft), presettableRight]
  cases s'.known? left' with
  | none => cases s'.known? right' with
    | none => exact .pure fun _ _ => rfl
    | some ty =>
      simp only
      split
      · exact .bind (.left (.learn catalog (.cons (.assign (leQ onLeft) ty) .nil)))
          fun _ _ _ => .pure fun _ _ => rfl
      · exact .pure fun _ _ => rfl
  | some ty => cases s'.known? right' with
    | none =>
      simp only
      split
      · exact .bind (learnRight ty) fun _ _ _ => .pure fun _ _ => rfl
      · exact .pure fun _ _ => rfl
    | some ty' =>
      simp only [Ty.common?_comm ty ty']
      split
      · exact .fail ..
      · exact .pure fun _ _ => rfl

theorem attempt_crossed {item item' : Item} (crossed : item.Crossed q r item') :
    Together q r (attempt catalog resolver item) (attempt catalog resolver item')
      fun _ _ done done' => done = done' := by
  cases crossed with
  | @mk slot slot' _ _ _ _ op isEquality onSlot onLeft onRight =>
    simp only [attempt, attemptBinary, isEquality]
    refine .bind (.left (.learn catalog (.cons (.expect onSlot .bool .outOf) .nil)))
      fun leQ leR _ => ?_
    exact operands_crossed catalog op (leQ onLeft)
      (onRight.imp (fun inQ => leQ inQ) fun inR => leR inR)

theorem paired_persists : Persists fun q _ => List.Forall₂ (Item.Paired q) :=
  fun _ _ _ _ _ _ leQ _ paired => paired.imp fun _ _ one => one.mono leQ

theorem crossed_persists : Persists fun q r => List.Forall₂ (Item.Crossed q r) :=
  fun _ _ _ _ _ _ leQ leR crossed => crossed.imp fun _ _ one => one.mono leQ leR

theorem attemptAll_crossed {items items' : List Item}
    (crossed : List.Forall₂ (Item.Crossed q r) items items') :
    Together q r (attemptAll catalog resolver items) (attemptAll catalog resolver items')
      fun q r => List.Forall₂ (Item.Crossed q r) := by
  induction items generalizing q r items' with
  | nil =>
    cases crossed
    exact .pure fun _ _ => .nil
  | cons item rest ih => cases crossed with
    | cons first others =>
      refine .bind (attempt_crossed catalog resolver first) ?_
      rintro q₁ r₁ done _ leQ leR rfl
      refine .bind (ih (crossed_persists leQ leR others)) fun leQ' leR' left => ?_
      cases done with
      | true => exact .pure fun leQ'' leR'' => crossed_persists leQ'' leR'' left
      | false =>
        exact .pure fun leQ'' leR'' => .cons
          (first.mono ((leQ.trans leQ').trans leQ'') ((leR.trans leR').trans leR''))
          (crossed_persists leQ'' leR'' left)

theorem itemsRearranged_persists : Persists ItemsRearranged :=
  .rejoined paired_persists crossed_persists

theorem attemptAll_together {items items' : List Item} (h : ItemsRearranged q r items items') :
    Together q r (attemptAll catalog resolver items) (attemptAll catalog resolver items')
      ItemsRearranged := by
  refine together_rejoined (fun l m => .of_eq (attemptAll_append catalog resolver l m))
    paired_persists crossed_persists ?_
  obtain ⟨⟨⟨onBefore, ⟨onLeft, onRight⟩⟩, onCrossing⟩, onBehind⟩ := h
  exact .mk (.mk (.mk (attemptAll_agree catalog resolver onBefore)
    (.mk (attemptAll_agree catalog resolver onLeft) (attemptAll_agree catalog resolver onRight)))
    (attemptAll_crossed catalog resolver onCrossing)) (attemptAll_agree catalog resolver onBehind)

/-! Literals that get a type of their own. -/

theorem defaultLiterals_append (literals more : List (Nat × String)) :
    defaultLiterals catalog (literals ++ more) = do
      let progress ← defaultLiterals catalog literals
      let progress' ← defaultLiterals catalog more
      return progress || progress' := by
  induction literals with
  | nil => simp only [List.nil_append, defaultLiterals, pure_bind, Bool.false_or, bind_pure]
  | cons literal rest ih =>
    obtain ⟨slot, text⟩ := literal
    simp only [List.cons_append, defaultLiterals, ih, bind_assoc]
    congr 1
    funext s
    split
    · split <;> simp only [bind_assoc, pure_bind, Bool.true_or]
    · rfl

theorem defaultLiterals_agree {literals literals' : List (Nat × String)}
    (paired : List.Forall₂ (LiteralPaired q) literals literals') :
    AgreeOn q (defaultLiterals catalog literals) (defaultLiterals catalog literals') := by
  induction literals generalizing q literals' with
  | nil =>
    cases paired
    exact .pure fun _ => rfl
  | cons literal rest ih => cases paired with
    | @cons _ literal' _ _ onFirst others =>
      obtain ⟨slot, text⟩ := literal
      obtain ⟨slot', _⟩ := literal'
      obtain ⟨onSlot, rfl⟩ := onFirst
      have onRest {q' : Pairing} (le : q.Le q') := ih (q := q')
        (others.imp fun _ _ both => ⟨le both.1, both.2⟩)
      refine .get_bind fun le alike => ?_
      simp only [alike.isOpen_eq (le onSlot)]
      split
      · split
        · refine .bind (.learn catalog (.cons (.assign (le onSlot) _) .nil))
            fun le' _ => ?_
          exact .bind (onRest (le.trans le')) fun _ _ => .pure fun _ => rfl
        · exact onRest le
      · exact onRest le

theorem literalsRearranged_persists : Persists LiteralsRearranged :=
  .rejoined (fun _ _ _ _ _ _ leQ _ paired => paired.imp fun _ _ both => ⟨leQ both.1, both.2⟩)
    fun _ _ _ _ _ _ _ _ crossed => crossed

theorem defaultLiterals_together {literals literals' : List (Nat × String)}
    (h : LiteralsRearranged q r literals literals') :
    Together q r (defaultLiterals catalog literals) (defaultLiterals catalog literals')
      fun _ _ progress progress' => progress = progress' := by
  have rejoined : Together q r (defaultLiterals catalog literals)
      (defaultLiterals catalog literals') fun _ _ => Rejoined (fun b c => b || c) Eq Eq Eq := by
    refine together_rejoined (fun l m => .of_eq (defaultLiterals_append catalog l m)) eq_persists
      eq_persists ?_
    obtain ⟨⟨⟨onBefore, ⟨onLeft, onRight⟩⟩, onCrossing⟩, onBehind⟩ := h
    refine .mk (.mk (.mk (defaultLiterals_agree catalog onBefore)
      (.mk (defaultLiterals_agree catalog onLeft) (defaultLiterals_agree catalog onRight))) ?_)
      (defaultLiterals_agree catalog onBehind)
    cases onCrossing with
    | nil => exact .pure fun _ _ => rfl
    | cons never _ => exact never.elim
  refine rejoined.imp fun _ _ joined => ?_
  obtain ⟨⟨⟨rfl, ⟨rfl, rfl⟩⟩, rfl⟩, rfl⟩ := joined
  simp only [Bool.or_comm]

/-! What is learnt at the start. -/

theorem narrow_append (tasks more : List Task) (s : Solver) :
    s.narrow catalog (tasks ++ more) = (s.narrow catalog tasks).bind (·.narrow catalog more) := by
  fun_induction narrow catalog tasks s with
  | case1 => rfl
  | case2 s task rest e failed =>
    rw [List.cons_append, Respelling.narrow_eq, failed]
    rfl
  | case3 s task rest left t taken ih =>
    rw [List.cons_append, Respelling.narrow_eq, taken, ← ih, List.append_assoc]

theorem learn_append (tasks more : List Task) :
    Same (learn catalog (tasks ++ more)) (do learn catalog tasks; learn catalog more) := by
  intro s
  have whole := narrow_append catalog tasks more s
  cases first : s.narrow catalog tasks with
  | error e =>
    have failed : learn catalog tasks s = .error e s := by rw [learn, first]
    rw [bind_error failed, learn, whole, first]
    exact .error
  | ok t =>
    have learnt : learn catalog tasks s = .ok () t := by rw [learn, first]
    rw [bind_eq_of_ok learnt, learn, learn, whole, first]
    dsimp only [Except.bind]
    cases t.narrow catalog more with
    | error e => exact .error
    | ok u => exact .ok ⟨rfl, rfl⟩

theorem learn_together {tasks tasks' : List Task} (h : TasksRearranged q r tasks tasks') :
    Together q r (learn catalog tasks) (learn catalog tasks') fun _ _ _ _ => True := by
  have rejoined : Together q r (learn catalog tasks) (learn catalog tasks')
      fun _ _ => Rejoined (fun _ _ => ()) Eq Eq Eq := by
    have append (l m : List Task) : Same (learn catalog (l ++ m))
        (do let _ ← learn catalog l; let _ ← learn catalog m; return ()) := by
      simpa only [bind_pure_unit] using learn_append catalog l m
    refine together_rejoined append eq_persists eq_persists ?_
    obtain ⟨⟨⟨onBefore, ⟨onLeft, onRight⟩⟩, onCrossing⟩, onBehind⟩ := h
    refine .mk (.mk (.mk (.learn catalog onBefore)
      (.mk (.learn catalog onLeft) (.learn catalog onRight))) ?_) (.learn catalog onBehind)
    cases onCrossing with
    | nil => exact .left (.learn catalog .nil)
    | cons never _ => exact never.elim
  exact rejoined.imp fun _ _ _ => trivial

/-! Rounds of work. -/

theorem settle_all_together :
    Together q r (do let s ← get; settle catalog (List.range s.cells.size))
      (do let s ← get; settle catalog (List.range s.cells.size))
      fun _ _ progress progress' => progress = progress' := by
  intro q₁ r₁ s s' _ _ joint
  refine (settle_together catalog joint).imp ?_
  rintro b b' t t' ⟨joint', same⟩
  exact ⟨q₁, r₁, .refl _, .refl _, joint', same⟩

theorem advance_together {literals literals' : List (Nat × String)}
    (h : LiteralsRearranged q r literals literals') :
    Together q r (advance catalog literals) (advance catalog literals')
      fun _ _ progress progress' => progress = progress' := by
  have inTurn : Together q r
      ((do let s ← get; settle catalog (List.range s.cells.size)) >>= fun progress =>
        if progress then pure true else defaultLiterals catalog literals)
      ((do let s ← get; settle catalog (List.range s.cells.size)) >>= fun progress =>
        if progress then pure true else defaultLiterals catalog literals')
      fun _ _ progress progress' => progress = progress' := by
    refine .bind (settle_all_together catalog) ?_
    rintro q₁ r₁ progress _ leQ leR rfl
    split
    · exact .pure fun _ _ => rfl
    · exact (defaultLiterals_together catalog h).mono leQ leR
  simp only [bind_assoc] at inTurn
  exact inTurn

theorem round_together {literals literals' : List (Nat × String)} {items items' : List Item}
    (onLiterals : LiteralsRearranged q r literals literals')
    (onItems : ItemsRearranged q r items items') :
    Together q r (round catalog resolver literals items) (round catalog resolver literals' items')
      fun q r left left' => ItemsRearranged q r left.1 left'.1 ∧ left.2 = left'.2 := by
  refine .bind (attemptAll_together catalog resolver onItems) fun leQ leR onLeft => ?_
  simp only [onItems.length_eq, onLeft.length_eq]
  split
  · exact .pure fun leQ' leR' => ⟨itemsRearranged_persists leQ' leR' onLeft, rfl⟩
  · refine .bind ((advance_together catalog onLiterals).mono leQ leR) ?_
    rintro q₂ r₂ progress _ leQ' leR' rfl
    exact .pure fun leQ'' leR'' =>
      ⟨itemsRearranged_persists (leQ'.trans leQ'') (leR'.trans leR'') onLeft, rfl⟩

theorem solve_together {literals literals' : List (Nat × String)} {items items' : List Item}
    (onLiterals : LiteralsRearranged q r literals literals')
    (onItems : ItemsRearranged q r items items') :
    Together q r (solve catalog resolver literals items) (solve catalog resolver literals' items')
      ItemsRearranged := by
  intro q₁ r₁ s s' leQ leR joint
  replace onLiterals := literalsRearranged_persists leQ leR onLiterals
  replace onItems := itemsRearranged_persists leQ leR onItems
  clear leQ leR
  fun_induction solve catalog resolver literals items s generalizing items' q₁ r₁ s' with
  | case1 items s e t failed =>
    obtain ⟨e', t', failed'⟩ :=
      (round_together catalog resolver onLiterals onItems (.refl _) (.refl _) joint).of_error failed
    rw [solve_eq, failed']
    exact .error
  | case2 items s left t ended =>
    obtain ⟨⟨left', _⟩, t', ended', q₂, r₂, leQ, leR, joint', onLeft, rfl⟩ :=
      (round_together catalog resolver onLiterals onItems (.refl _) (.refl _) joint).of_ok ended
    rw [solve_eq, ended']
    exact .ok ⟨q₂, r₂, leQ, leR, joint', onLeft⟩
  | case3 items s left t went ih =>
    obtain ⟨⟨left', _⟩, t', went', q₂, r₂, leQ, leR, joint', onLeft, rfl⟩ :=
      (round_together catalog resolver onLiterals onItems (.refl _) (.refl _) joint).of_ok went
    rw [solve_eq catalog resolver literals' items', went']
    refine (ih joint' (literalsRearranged_persists leQ leR onLiterals) onLeft).imp ?_
    rintro a b u u' ⟨q₃, r₃, leQ', leR', joint'', onEnd⟩
    exact ⟨q₃, r₃, leQ.trans leQ', leR.trans leR', joint'', onEnd⟩

end

end Inference

end LambdaQuery
