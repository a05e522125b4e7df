import LambdaQuery.Inference.Solver

/-!
How much there is left to learn: two for each class of unknown type, one for each class of known
type. It gets less when the type of a class is learnt and when two classes are merged.
-/

namespace LambdaQuery.Solver

/-- How much is still to be learnt of a class of which this is believed. -/
def slackOf : Belief → Nat
  | .known _ => 1
  | .unknown _ => 2

/-- How much is still to be learnt of the class that a slot leads. -/
def slack (s : Solver) (slot : Nat) : Nat :=
  match s.cells[slot]? with
  | some cell => if cell.leader = slot then slackOf cell.belief else 0
  | none => 0

/-- The sum of a function over the numbers below a bound. -/
def total (f : Nat → Nat) : Nat → Nat
  | 0 => 0
  | n + 1 => total f n + f n

/-- How much is still to be learnt. -/
def potential (s : Solver) : Nat :=
  total s.slack s.cells.size

theorem total_le {f g : Nat → Nat} : ∀ {n : Nat}, (∀ i < n, f i ≤ g i) → total f n ≤ total g n
  | 0, _ => Nat.le_refl _
  | n + 1, h =>
    Nat.add_le_add (total_le fun i hi => h i (Nat.lt_succ_of_lt hi)) (h n (Nat.lt_succ_self n))

theorem total_lt {f g : Nat → Nat} {n j : Nat} (hj : j < n) (h : ∀ i < n, f i ≤ g i)
    (hlt : f j < g j) : total f n < total g n := by
  induction n with
  | zero => omega
  | succ n ih =>
    have below : ∀ i < n, f i ≤ g i := fun i hi => h i (by omega)
    rcases Nat.lt_or_ge j n with hjn | hjn
    · have := ih hjn below
      have := h n (by omega)
      simp only [total]
      omega
    · obtain rfl : j = n := by omega
      have := total_le below
      simp only [total]
      omega

/-- A leader leads itself, and the belief of its class is kept with it. -/
theorem leader?_eq_some {s : Solver} {slot leader : Nat} (h : s.leader? slot = some leader) :
    ∃ cell, s.cells[leader]? = some cell ∧ cell.leader = leader ∧ s.belief slot = cell.belief := by
  have self : ∃ cell, s.cells[leader]? = some cell ∧ cell.leader = leader := by
    unfold leader? at h
    split at h
    · split at h
      · split at h
        · obtain rfl := Option.some.inj h
          exact ⟨_, ‹_›, ‹_›⟩
        · cases h
      · cases h
    · cases h
  obtain ⟨cell, there, leads⟩ := self
  exact ⟨cell, there, leads, by simp [belief, h, there]⟩

theorem leader?_lt {s : Solver} {slot leader : Nat} (h : s.leader? slot = some leader) :
    leader < s.cells.size := by
  obtain ⟨cell, there, _⟩ := leader?_eq_some h
  exact (Array.getElem?_eq_some_iff.1 there).1

theorem slack_leader {s : Solver} {slot leader : Nat} (h : s.leader? slot = some leader) :
    s.slack leader = slackOf (s.belief slot) := by
  obtain ⟨cell, there, leads, believed⟩ := leader?_eq_some h
  simp [slack, there, leads, believed]

theorem size_setBelief (s : Solver) (leader : Nat) (b : Belief) :
    (s.setBelief leader b).cells.size = s.cells.size := by
  simp [setBelief]

theorem slack_setBelief_self {s : Solver} {slot leader : Nat} (h : s.leader? slot = some leader)
    (b : Belief) : (s.setBelief leader b).slack leader = slackOf b := by
  obtain ⟨cell, there, leads, _⟩ := leader?_eq_some h
  simp [slack, setBelief, Array.getElem?_modify, there, leads]

theorem slack_setBelief_of_ne {s : Solver} {leader slot : Nat} (h : slot ≠ leader) (b : Belief) :
    (s.setBelief leader b).slack slot = s.slack slot := by
  simp [slack, setBelief, Array.getElem?_modify, Ne.symm h]

/-- Learning the type of a class lowers the potential. -/
theorem potential_setBelief_known {s : Solver} {slot leader : Nat} {cs : List Constraint}
    (h : s.leader? slot = some leader) (hb : s.belief slot = .unknown cs) (ty : Ty) :
    (s.setBelief leader (.known ty)).potential < s.potential := by
  have lower : (s.setBelief leader (.known ty)).slack leader < s.slack leader := by
    rw [slack_setBelief_self h, slack_leader h, hb]
    simp [slackOf]
  rw [potential, potential, size_setBelief]
  refine total_lt (leader?_lt h) (fun i _ => ?_) lower
  by_cases hi : i = leader
  · subst hi
    exact Nat.le_of_lt lower
  · exact Nat.le_of_eq (slack_setBelief_of_ne hi _)

/-- Another constraint leaves the potential as it is. -/
theorem potential_setBelief_unknown {s : Solver} {slot leader : Nat} {cs : List Constraint}
    (h : s.leader? slot = some leader) (hb : s.belief slot = .unknown cs) (ds : List Constraint) :
    (s.setBelief leader (.unknown ds)).potential ≤ s.potential := by
  rw [potential, potential, size_setBelief]
  refine total_le fun i _ => ?_
  by_cases hi : i = leader
  · rw [hi, slack_setBelief_self h, slack_leader h, hb]
    simp [slackOf]
  · exact Nat.le_of_eq (slack_setBelief_of_ne hi _)

/-- Merging two classes lowers the potential, unless what was known of both is forgotten. -/
theorem potential_merge {s : Solver} {winner loser rank : Nat} {b : Belief} {cell cell' : Cell}
    (hw : s.cells[winner]? = some cell) (leads : cell.leader = winner)
    (hl : s.cells[loser]? = some cell') (leads' : cell'.leader = loser) (hne : winner ≠ loser)
    (hb : slackOf b ≤ slackOf cell.belief) :
    (s.merge winner loser rank b).potential < s.potential := by
  have size : (s.merge winner loser rank b).cells.size = s.cells.size := by simp [merge]
  have lower : (s.merge winner loser rank b).slack loser < s.slack loser := by
    have positive : 0 < slackOf cell'.belief := by cases cell'.belief <;> simp [slackOf]
    simp [slack, merge, hl, leads', Ne.symm hne, hne, positive]
  rw [potential, potential, size]
  refine total_lt (Array.getElem?_eq_some_iff.1 hl).1 (fun i hi => ?_) lower
  by_cases isWinner : i = winner
  · subst isWinner
    simp [slack, merge, hw, leads, hb]
  · have there : s.cells[i]? = some s.cells[i] := Array.getElem?_eq_getElem hi
    by_cases moved : s.cells[i].leader = loser
    · simp [slack, merge, there, isWinner, Ne.symm isWinner, moved]
    · simp [slack, merge, there, isWinner, moved]

theorem potential_union {s : Solver} {a b x y : Nat} {belief : Belief}
    (ha : s.leader? a = some x) (hb : s.leader? b = some y) (hne : x ≠ y)
    (hx : slackOf belief ≤ slackOf (s.belief a)) (hy : slackOf belief ≤ slackOf (s.belief b)) :
    (s.union x y belief).2.potential < s.potential := by
  obtain ⟨cell, there, leads, believed⟩ := leader?_eq_some ha
  obtain ⟨cell', there', leads', believed'⟩ := leader?_eq_some hb
  rw [believed] at hx
  rw [believed'] at hy
  unfold union
  split
  · exact potential_merge there leads there' leads' hne hx
  · split
    · exact potential_merge there' leads' there leads (Ne.symm hne) hy
    · exact potential_merge there' leads' there leads (Ne.symm hne) hy

end LambdaQuery.Solver
