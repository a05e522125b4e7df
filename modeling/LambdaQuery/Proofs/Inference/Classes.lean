import LambdaQuery.Inference.Signature

/-!
# Classes of slots

What the operations on a solver do to the leader of a slot and to what is believed of it. Nothing
outside this module looks at the cells of a solver.
-/

namespace LambdaQuery.Solver

variable {s : Solver}

theorem leader?_eq_some_iff {slot leader : Nat} :
    s.leader? slot = some leader ↔
      (∃ cell, s.cells[slot]? = some cell ∧ cell.leader = leader) ∧
        ∃ cell, s.cells[leader]? = some cell ∧ cell.leader = leader := by
  unfold leader?
  constructor
  · intro h
    split at h
    · rename_i cell there
      split at h
      · rename_i lead leads
        split at h
        · rename_i self
          cases h
          exact ⟨⟨cell, there, rfl⟩, lead, leads, self⟩
        · cases h
      · cases h
    · cases h
  · rintro ⟨⟨cell, there, rfl⟩, lead, leads, self⟩
    simp [there, leads, self]

theorem leader?_self {slot leader : Nat} (h : s.leader? slot = some leader) :
    s.leader? leader = some leader := by
  obtain ⟨_, self⟩ := leader?_eq_some_iff.1 h
  exact leader?_eq_some_iff.2 ⟨self, self⟩

theorem slot_lt_of_leader? {slot leader : Nat} (h : s.leader? slot = some leader) :
    slot < s.cells.size := by
  obtain ⟨⟨cell, there, _⟩, _⟩ := leader?_eq_some_iff.1 h
  exact (Array.getElem?_eq_some_iff.1 there).1

/-- Slots of one class are believed to have the same type. -/
theorem belief_congr {a b leader : Nat} (ha : s.leader? a = some leader)
    (hb : s.leader? b = some leader) : s.belief a = s.belief b := by
  simp [belief, ha, hb]

theorem known?_eq_some_iff {slot : Nat} {ty : Ty} :
    s.known? slot = some ty ↔ s.belief slot = .known ty := by
  unfold known?
  split <;> simp_all

theorem belief_of_leader?_eq_none {slot : Nat} (h : s.leader? slot = none) :
    s.belief slot = .unknown [] := by
  simp [belief, h]

/-! Changing one cell. -/

/-- A solver with one cell changed. -/
def modifyCell (s : Solver) (i : Nat) (f : Cell → Cell) : Solver :=
  { s with cells := s.cells.modify i f }

theorem setBelief_eq (s : Solver) (leader : Nat) (b : Belief) :
    s.setBelief leader b = s.modifyCell leader fun cell => { cell with belief := b } := rfl

theorem setOverload_eq (s : Solver) (slot : Nat) (o : Overload) :
    s.setOverload slot o = s.modifyCell slot fun cell => { cell with overload := some o } := rfl

section

variable {f : Cell → Cell} (leads : ∀ cell, (f cell).leader = cell.leader)
include leads

/-- Who leads does not depend on what else the cells hold. -/
theorem leader?_modifyCell (s : Solver) (i slot : Nat) :
    (s.modifyCell i f).leader? slot = s.leader? slot := by
  have leaderAt (j leader : Nat) :
      (∃ cell, (s.modifyCell i f).cells[j]? = some cell ∧ cell.leader = leader) ↔
        ∃ cell, s.cells[j]? = some cell ∧ cell.leader = leader := by
    simp only [modifyCell, Array.getElem?_modify]
    split
    · cases s.cells[j]? <;> simp [leads]
    · rfl
  refine Option.ext fun leader => ?_
  rw [leader?_eq_some_iff, leader?_eq_some_iff, leaderAt, leaderAt]

theorem belief_modifyCell {i slot : Nat} (h : s.leader? slot ≠ some i ∨
    ∀ cell, (f cell).belief = cell.belief) : (s.modifyCell i f).belief slot = s.belief slot := by
  unfold belief
  rw [leader?_modifyCell leads]
  cases found : s.leader? slot with
  | none => rfl
  | some leader =>
    by_cases same : i = leader
    · rcases h with other | believed
      · exact absurd (same ▸ found) other
      · cases there : s.cells[leader]? <;>
          simp [modifyCell, Array.getElem?_modify, same, there, believed]
    · simp [modifyCell, Array.getElem?_modify, same]

end

@[simp] theorem leader?_setBelief (s : Solver) (leader : Nat) (b : Belief) (slot : Nat) :
    (s.setBelief leader b).leader? slot = s.leader? slot := by
  rw [setBelief_eq]
  exact leader?_modifyCell (by simp) s leader slot

theorem belief_setBelief {slot leader : Nat} (h : s.leader? slot = some leader) (b : Belief) :
    (s.setBelief leader b).belief slot = b := by
  obtain ⟨cell, there, _⟩ := leader?_eq_some h
  unfold belief
  rw [leader?_setBelief, h]
  simp [setBelief, Array.getElem?_modify, there]

theorem belief_setBelief_of_ne {slot leader : Nat} (h : s.leader? slot ≠ some leader)
    (b : Belief) : (s.setBelief leader b).belief slot = s.belief slot := by
  rw [setBelief_eq]
  exact belief_modifyCell (by simp) (.inl h)

@[simp] theorem leader?_setOverload (s : Solver) (slot : Nat) (o : Overload) (i : Nat) :
    (s.setOverload slot o).leader? i = s.leader? i := by
  rw [setOverload_eq]
  exact leader?_modifyCell (by simp) s slot i

@[simp] theorem belief_setOverload (s : Solver) (slot : Nat) (o : Overload) (i : Nat) :
    (s.setOverload slot o).belief i = s.belief i := by
  rw [setOverload_eq]
  exact belief_modifyCell (by simp) (.inr (by simp))

@[simp] theorem size_setOverload (s : Solver) (slot : Nat) (o : Overload) :
    (s.setOverload slot o).cells.size = s.cells.size := by
  simp [setOverload]

/-! Merging two classes. -/

section

variable {winner loser : Nat}

theorem getElem?_merge (s : Solver) (winner loser rank : Nat) (b : Belief) (i : Nat) :
    (s.merge winner loser rank b).cells[i]? = (s.cells[i]?).map fun cell =>
      if i = winner then { cell with rank := rank, belief := b }
      else if cell.leader = loser then { cell with leader := winner, belief := .unknown [] }
      else cell := by
  simp [merge]

theorem size_merge (s : Solver) (winner loser rank : Nat) (b : Belief) :
    (s.merge winner loser rank b).cells.size = s.cells.size := by
  simp [merge]

/-- The class of the loser joins that of the winner, and every other class stays as it is. -/
theorem leader?_merge (hw : s.leader? winner = some winner) (hl : s.leader? loser = some loser)
    (different : winner ≠ loser) (rank : Nat) (b : Belief) (slot : Nat) :
    (s.merge winner loser rank b).leader? slot =
      if s.leader? slot = some loser then some winner else s.leader? slot := by
  have leaderAt (i j : Nat) :
      (∃ cell, (s.merge winner loser rank b).cells[i]? = some cell ∧ cell.leader = j) ↔
        ∃ cell, s.cells[i]? = some cell ∧
          (if i ≠ winner ∧ cell.leader = loser then winner else cell.leader) = j := by
    rw [getElem?_merge]
    cases s.cells[i]? with
    | none => simp
    | some cell =>
      by_cases isWinner : i = winner
      · simp [isWinner]
      · by_cases moved : cell.leader = loser <;> simp [isWinner, moved]
  obtain ⟨⟨w, wThere, wLeads⟩, _⟩ := leader?_eq_some_iff.1 hw
  obtain ⟨⟨l, lThere, lLeads⟩, _⟩ := leader?_eq_some_iff.1 hl
  refine Option.ext fun leader => ?_
  rw [leader?_eq_some_iff, leaderAt, leaderAt]
  constructor
  · rintro ⟨⟨cell, there, leads⟩, lead, leadThere, self⟩
    by_cases isLoser : s.leader? slot = some loser
    · obtain ⟨⟨cell', there', leads'⟩, _⟩ := leader?_eq_some_iff.1 isLoser
      cases there.symm.trans there'
      have : slot ≠ winner := by
        rintro rfl
        rw [hw] at isLoser
        exact different (Option.some.inj isLoser)
      rw [if_pos isLoser]
      rw [if_pos ⟨this, leads'⟩] at leads
      exact congrArg some leads
    · rw [if_neg isLoser]
      have kept : cell.leader ≠ loser := by
        intro eq
        exact isLoser (leader?_eq_some_iff.2 ⟨⟨cell, there, eq⟩, l, lThere, lLeads⟩)
      rw [if_neg (fun both => kept both.2)] at leads
      refine leader?_eq_some_iff.2 ⟨⟨cell, there, leads⟩, lead, leadThere, ?_⟩
      by_cases moved : leader ≠ winner ∧ lead.leader = loser
      · rw [if_pos moved] at self
        exact absurd self.symm moved.1
      · rwa [if_neg moved] at self
  · intro h
    have winnerSelf : ∃ cell, s.cells[winner]? = some cell ∧
        (if winner ≠ winner ∧ cell.leader = loser then winner else cell.leader) = winner :=
      ⟨w, wThere, by simp [wLeads]⟩
    by_cases isLoser : s.leader? slot = some loser
    · rw [if_pos isLoser] at h
      obtain rfl := Option.some.inj h
      obtain ⟨⟨cell, there, leads⟩, _⟩ := leader?_eq_some_iff.1 isLoser
      refine ⟨⟨cell, there, ?_⟩, winnerSelf⟩
      by_cases isWinner : slot = winner
      · rw [isWinner, hw] at isLoser
        exact absurd (Option.some.inj isLoser) different
      · rw [if_pos ⟨isWinner, leads⟩]
    · rw [if_neg isLoser] at h
      obtain ⟨⟨cell, there, leads⟩, lead, leadThere, self⟩ := leader?_eq_some_iff.1 h
      have other : leader ≠ loser := by rintro rfl; exact isLoser h
      exact ⟨⟨cell, there, by rw [if_neg (fun both => other (leads.symm.trans both.2)), leads]⟩,
        lead, leadThere, by rw [if_neg (fun both => other (self.symm.trans both.2)), self]⟩

theorem belief_merge (hw : s.leader? winner = some winner) (hl : s.leader? loser = some loser)
    (different : winner ≠ loser) (rank : Nat) (b : Belief) (slot : Nat) :
    (s.merge winner loser rank b).belief slot =
      if s.leader? slot = some loser ∨ s.leader? slot = some winner then b
      else s.belief slot := by
  have atWinner : ∃ cell, (s.merge winner loser rank b).cells[winner]? = some cell ∧
      cell.belief = b := by
    obtain ⟨⟨w, there, _⟩, _⟩ := leader?_eq_some_iff.1 hw
    exact ⟨_, by rw [getElem?_merge, there]; rfl, by simp⟩
  obtain ⟨cell, there, believed⟩ := atWinner
  unfold belief
  rw [leader?_merge hw hl different]
  by_cases isLoser : s.leader? slot = some loser
  · simp [isLoser, there, believed]
  · by_cases isWinner : s.leader? slot = some winner
    · simp [isWinner, there, believed, different]
    · simp only [isLoser, isWinner, if_false, or_self]
      cases found : s.leader? slot with
      | none => rfl
      | some other =>
        obtain ⟨_, lead, leadThere, self⟩ := leader?_eq_some_iff.1 found
        have notWinner : other ≠ winner := by rintro rfl; exact isWinner found
        have notLoser : other ≠ loser := by rintro rfl; exact isLoser found
        simp [getElem?_merge, leadThere, notWinner, self, notLoser]

end

/-- What a union does: one of the two leaders leads both classes, of which the new belief is held,
and nothing happens to the others. -/
theorem union_spec {x y : Nat} (hx : s.leader? x = some x) (hy : s.leader? y = some y)
    (different : x ≠ y) (b : Belief) :
    ((s.union x y b).1 = x ∨ (s.union x y b).1 = y) ∧
      (s.union x y b).2.cells.size = s.cells.size ∧
      ∀ slot,
        (s.union x y b).2.leader? slot =
            (if s.leader? slot = some x ∨ s.leader? slot = some y then some (s.union x y b).1
              else s.leader? slot) ∧
          (s.union x y b).2.belief slot =
            if s.leader? slot = some x ∨ s.leader? slot = some y then b else s.belief slot := by
  have merged (winner loser rank : Nat) (hw : s.leader? winner = some winner)
      (hl : s.leader? loser = some loser) (ne : winner ≠ loser) (slot : Nat) :
      (s.merge winner loser rank b).leader? slot =
          (if s.leader? slot = some winner ∨ s.leader? slot = some loser then some winner
            else s.leader? slot) ∧
        (s.merge winner loser rank b).belief slot =
          if s.leader? slot = some winner ∨ s.leader? slot = some loser then b
          else s.belief slot := by
    rw [leader?_merge hw hl ne, belief_merge hw hl ne]
    by_cases isLoser : s.leader? slot = some loser
    · simp [isLoser]
    · by_cases isWinner : s.leader? slot = some winner <;> simp [isLoser, isWinner, ne]
  have swapped (slot : Nat) : (s.leader? slot = some x ∨ s.leader? slot = some y) ↔
      (s.leader? slot = some y ∨ s.leader? slot = some x) := or_comm
  unfold union
  split
  · exact ⟨.inl rfl, size_merge .., merged x y _ hx hy different⟩
  · simp only [swapped]
    split
    · exact ⟨.inr rfl, size_merge .., merged y x _ hy hx (Ne.symm different)⟩
    · exact ⟨.inr rfl, size_merge .., merged y x _ hy hx (Ne.symm different)⟩

/-! New slots. -/

theorem size_fresh (s : Solver) (like : Nat) (b : Belief) :
    (s.fresh like b).2.cells.size = s.cells.size + 1 := by
  simp [fresh]

theorem leader?_fresh {like : Nat} {b : Belief} {slot leader : Nat}
    (h : s.leader? slot = some leader) : (s.fresh like b).2.leader? slot = some leader := by
  obtain ⟨⟨cell, there, leads⟩, lead, leadThere, self⟩ := leader?_eq_some_iff.1 h
  have slotLt := (Array.getElem?_eq_some_iff.1 there).1
  have leaderLt := (Array.getElem?_eq_some_iff.1 leadThere).1
  refine leader?_eq_some_iff.2 ⟨⟨cell, ?_, leads⟩, lead, ?_, self⟩
  · simpa [fresh, Array.getElem?_push, Nat.ne_of_lt slotLt] using there
  · simpa [fresh, Array.getElem?_push, Nat.ne_of_lt leaderLt] using leadThere

theorem leader?_fresh_self (s : Solver) (like : Nat) (b : Belief) :
    (s.fresh like b).2.leader? s.cells.size = some s.cells.size := by
  have there : (s.fresh like b).2.cells[s.cells.size]? =
      some ⟨s.cells.size, 0, b, s.origin like, none⟩ := by
    simp [fresh]
  exact leader?_eq_some_iff.2 ⟨⟨_, there, rfl⟩, _, there, rfl⟩

theorem belief_fresh_self (s : Solver) (like : Nat) (b : Belief) :
    (s.fresh like b).2.belief s.cells.size = b := by
  unfold belief
  rw [leader?_fresh_self]
  simp [fresh]

theorem belief_fresh {like : Nat} {b : Belief} {slot leader : Nat}
    (h : s.leader? slot = some leader) : (s.fresh like b).2.belief slot = s.belief slot := by
  unfold belief
  have lt := leader?_lt h
  rw [leader?_fresh h, h]
  simp [fresh, Array.getElem?_push, Nat.ne_of_lt lt]

/-! Overloads stay recorded. -/

@[simp] theorem overload?_setBelief (s : Solver) (leader : Nat) (b : Belief) (slot : Nat) :
    (s.setBelief leader b).overload? slot = s.overload? slot := by
  simp only [overload?, setBelief, Array.getElem?_modify]
  by_cases h : leader = slot <;> cases s.cells[slot]? <;> simp [h]

@[simp] theorem overload?_union (s : Solver) (x y : Nat) (b : Belief) (slot : Nat) :
    (s.union x y b).2.overload? slot = s.overload? slot := by
  have merged (winner loser rank : Nat) :
      (s.merge winner loser rank b).overload? slot = s.overload? slot := by
    simp only [overload?, getElem?_merge]
    cases s.cells[slot]? with
    | none => rfl
    | some cell =>
      by_cases isWinner : slot = winner
      · simp [isWinner]
      · by_cases moved : cell.leader = loser <;> simp [isWinner, moved]
  unfold union
  split
  · exact merged ..
  · split <;> exact merged ..

theorem overload?_fresh (s : Solver) (like : Nat) (b : Belief) (slot : Nat) :
    (s.fresh like b).2.overload? slot = s.overload? slot := by
  simp only [overload?, fresh, Array.getElem?_push]
  by_cases h : slot = s.cells.size <;> simp [h]

theorem overload?_setOverload_self {slot : Nat} (h : slot < s.cells.size) (o : Overload) :
    (s.setOverload slot o).overload? slot = some o := by
  simp [overload?, setOverload, h, Array.getElem_modify]

theorem overload?_setOverload_of_ne {slot other : Nat} (h : other ≠ slot) (o : Overload) :
    (s.setOverload slot o).overload? other = s.overload? other := by
  simp [overload?, setOverload, Array.getElem?_modify, Ne.symm h]

end LambdaQuery.Solver
