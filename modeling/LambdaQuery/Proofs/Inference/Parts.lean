import LambdaQuery.Proofs.Inference.Agreement

/-!
# Two parts of a query

The slots of a query are split in two parts that share nothing but the parameter of the query, whose
type is known from the start. What is done on the one part cannot be seen from the other, so it does
not matter in which order work on the two parts is done.
-/

namespace LambdaQuery

namespace Solver

variable {q r q' r' : Pairing} {s s' t t' : Solver}

theorem size_pos_of_root (root : ∃ ty, s.belief 0 = .known ty) : 0 < s.cells.size := by
  obtain ⟨ty, known⟩ := root
  obtain ⟨leader, led⟩ := leader?_of_known known
  exact slot_lt_of_leader? led

/-- What is done on another part cannot be seen. -/
theorem LookAlike.spared_left (h : LookAlike r s s') (spares : Spares q.Dom s t)
    (root : ∃ ty, s.belief 0 = .known ty) (apart : ∀ {a : Nat}, q.Dom a → r.Dom a → a = 0) :
    LookAlike r t s' := by
  refine h.spared spares fun {a a'} paired inside => ?_
  obtain rfl := apart inside ⟨a', paired⟩
  exact ⟨rfl, root⟩

theorem LookAlike.spared_right (h : LookAlike r s s') (spares : Spares q.Cod s' t')
    (root : ∃ ty, s'.belief 0 = .known ty) (apart : ∀ {a : Nat}, q.Cod a → r.Cod a → a = 0) :
    LookAlike r s t' := by
  refine (h.symm.spared spares fun {a' a} paired inside => ?_).symm
  obtain rfl := apart inside ⟨a, paired⟩
  exact ⟨rfl, root⟩

/-- Two solvers look alike from each of two parts of their slots, which share no slot but the first.
Its type is known. Slots are in the same order within each part only. -/
structure Joint (q r : Pairing) (s s' : Solver) : Prop where
  left : LookAlike q s s'
  right : LookAlike r s s'
  root : ∃ ty, s.belief 0 = .known ty
  root' : ∃ ty, s'.belief 0 = .known ty
  first : ∀ {a a' : Nat}, q a a' ∨ r a a' → (a = 0 ↔ a' = 0)
  apart : ∀ {a : Nat}, q.Dom a → r.Dom a → a = 0
  apart' : ∀ {a : Nat}, q.Cod a → r.Cod a → a = 0
  covers : ∀ {a : Nat}, a < s.cells.size → q.Dom a ∨ r.Dom a
  covers' : ∀ {a : Nat}, a < s'.cells.size → q.Cod a ∨ r.Cod a

namespace Joint

theorem swap (h : Joint q r s s') : Joint r q s s' where
  left := h.right
  right := h.left
  root := h.root
  root' := h.root'
  first either := h.first either.symm
  apart inR inQ := h.apart inQ inR
  apart' inR inQ := h.apart' inQ inR
  covers lt := (h.covers lt).symm
  covers' lt := (h.covers' lt).symm

/-- What is done on the first part leaves the second as it is. -/
theorem grow (h : Joint q r s s') (grows : Grows q s s' q' t t') : Joint q' r t t' where
  left := grows.alike
  right := (h.right.spared_left grows.spares h.root h.apart).spared_right grows.spares' h.root'
    h.apart'
  root := h.root.imp fun _ => grows.spares.known
  root' := h.root'.imp fun _ => grows.spares'.known
  first {a a'} either := by
    have positive := size_pos_of_root h.root
    have positive' := size_pos_of_root h.root'
    rcases either with inQ | inR
    · rcases grows.new inQ with old | new
      · exact h.first (.inl old)
      · omega
    · exact h.first (.inr inR)
  apart := by
    rintro a ⟨a', inQ⟩ inR
    obtain ⟨b, paired⟩ := inR
    rcases grows.new inQ with old | new
    · exact h.apart ⟨a', old⟩ ⟨b, paired⟩
    · have := (h.right.lt_size paired).1
      omega
  apart' := by
    rintro a' ⟨a, inQ⟩ inR
    obtain ⟨b, paired⟩ := inR
    rcases grows.new inQ with old | new
    · exact h.apart' ⟨a, old⟩ ⟨b, paired⟩
    · have := (h.right.lt_size paired).2
      omega
  covers {a} lt := by
    by_cases old : a < s.cells.size
    · exact (h.covers old).imp_left fun ⟨a', paired⟩ => ⟨a', grows.old paired⟩
    · exact .inl (grows.covers (by omega) lt)
  covers' {a} lt := by
    by_cases old : a < s'.cells.size
    · exact (h.covers' old).imp_left fun ⟨a', paired⟩ => ⟨a', grows.old paired⟩
    · exact .inl (grows.covers' (by omega) lt)

/-- On the one side the first part is worked on before the second, on the other side after it. -/
theorem cross (h : Joint q r s s') {u u' : Solver} (onFirst : Grows q s t' q' t u')
    (onSecond : Grows r t s' r' u t') : Joint q' r' u u' := by
  have size := onFirst.spares.size
  have size' := onSecond.spares'.size
  have positive := size_pos_of_root h.root
  have positive' := size_pos_of_root h.root'
  have root := h.root.imp fun _ => onFirst.spares.known
  have root' := h.root'.imp fun _ => onSecond.spares'.known
  constructor
  · refine onFirst.alike.spared_left onSecond.spares root ?_
    rintro a ⟨b, inR⟩ ⟨a', inQ⟩
    have lt := (h.right.lt_size inR).1
    rcases onFirst.new inQ with old | new
    · exact h.apart ⟨a', old⟩ ⟨b, inR⟩
    · omega
  · refine onSecond.alike.spared_right onFirst.spares' root' ?_
    rintro a' ⟨a, inQ⟩ ⟨b, inR⟩
    have lt := (h.left.lt_size inQ).2
    rcases onSecond.new inR with old | new
    · exact h.apart' ⟨a, inQ⟩ ⟨b, old⟩
    · omega
  · exact root.imp fun _ => onSecond.spares.known
  · exact root'.imp fun _ => onFirst.spares'.known
  · rintro a a' (inQ | inR)
    · rcases onFirst.new inQ with old | new
      · exact h.first (.inl old)
      · omega
    · rcases onSecond.new inR with old | new
      · exact h.first (.inr old)
      · omega
  · rintro a ⟨a', inQ⟩ ⟨b, inR⟩
    have lt := (onFirst.alike.lt_size inQ).1
    rcases onFirst.new inQ with oldQ | newQ <;> rcases onSecond.new inR with oldR | newR
    · exact h.apart ⟨a', oldQ⟩ ⟨b, oldR⟩
    · have := (h.left.lt_size oldQ).1
      omega
    · have := (h.right.lt_size oldR).1
      omega
    · omega
  · rintro a' ⟨a, inQ⟩ ⟨b, inR⟩
    have lt := (onSecond.alike.lt_size inR).2
    rcases onFirst.new inQ with oldQ | newQ <;> rcases onSecond.new inR with oldR | newR
    · exact h.apart' ⟨a, oldQ⟩ ⟨b, oldR⟩
    · have := (h.left.lt_size oldQ).2
      omega
    · have := (h.right.lt_size oldR).2
      omega
    · omega
  · intro a lt
    by_cases old : a < s.cells.size
    · exact (h.covers old).imp (fun ⟨b, paired⟩ => ⟨b, onFirst.old paired⟩)
        fun ⟨b, paired⟩ => ⟨b, onSecond.old paired⟩
    · by_cases onlyFirst : a < t.cells.size
      · exact .inl (onFirst.covers (by omega) onlyFirst)
      · exact .inr (onSecond.covers (by omega) lt)
  · intro a' lt
    by_cases old : a' < s'.cells.size
    · exact (h.covers' old).imp (fun ⟨b, paired⟩ => ⟨b, onFirst.old paired⟩)
        fun ⟨b, paired⟩ => ⟨b, onSecond.old paired⟩
    · by_cases onlySecond : a' < t'.cells.size
      · exact .inr (onSecond.covers' (by omega) onlySecond)
      · exact .inl (onFirst.covers' (by omega) lt)

end Joint

end Solver

namespace Inference

open Solver

variable {α β γ δ : Type} {q r : Pairing}

theorem bind_eq_of_ok {x : Inference α} {f : α → Inference β} {s t : Solver} {a : α}
    (ran : x s = .ok a t) : (x >>= f) s = f a t := by
  show EStateM.bind x f s = _
  simp only [EStateM.bind, ran]

theorem bind_error {x : Inference α} {f : α → Inference β} {s t : Solver} {e : TypeError}
    (ran : x s = .error e t) : (x >>= f) s = .error e t := by
  show EStateM.bind x f s = _
  simp only [EStateM.bind, ran]

/-- From solvers that look alike from both parts, two computations fail together or give something
related, and leave solvers that look alike from both parts. -/
def Together (q r : Pairing) (x : Inference α) (x' : Inference β)
    (R : Pairing → Pairing → α → β → Prop) : Prop :=
  ∀ ⦃q₁ r₁ : Pairing⦄ ⦃s s' : Solver⦄, q.Le q₁ → r.Le r₁ → Joint q₁ r₁ s s' →
    Matched (fun a t b t' => ∃ q₂ r₂, q₁.Le q₂ ∧ r₁.Le r₂ ∧ Joint q₂ r₂ t t' ∧ R q₂ r₂ a b)
      (x s) (x' s')

namespace Together

variable {R : Pairing → Pairing → α → β → Prop} {R' : Pairing → Pairing → γ → δ → Prop}

theorem pure {a : α} {b : β} (related : ∀ {q₁ r₁ : Pairing}, q.Le q₁ → r.Le r₁ → R q₁ r₁ a b) :
    Together q r (Pure.pure a) (Pure.pure b) R :=
  fun _ _ _ _ leQ leR joint => .ok ⟨_, _, .refl _, .refl _, joint, related leQ leR⟩

theorem bind {x : Inference α} {x' : Inference β} {f : α → Inference γ} {f' : β → Inference δ}
    (first : Together q r x x' R) (next : ∀ {q₁ r₁ : Pairing} {a : α} {b : β}, q.Le q₁ → r.Le r₁ →
      R q₁ r₁ a b → Together q₁ r₁ (f a) (f' b) R') :
    Together q r (x >>= f) (x' >>= f') R' := by
  intro q₁ r₁ s s' leQ leR joint
  refine (first leQ leR joint).bind ?_
  rintro a b t t' ⟨q₂, r₂, leQ', leR', joint', related⟩
  refine (next (leQ.trans leQ') (leR.trans leR') related (.refl _) (.refl _) joint').imp ?_
  rintro c d u u' ⟨q₃, r₃, leQ'', leR'', joint'', related'⟩
  exact ⟨q₃, r₃, leQ'.trans leQ'', leR'.trans leR'', joint'', related'⟩

theorem mono {x : Inference α} {x' : Inference β} (h : Together q r x x' R) {q' r' : Pairing}
    (leQ : q.Le q') (leR : r.Le r') : Together q' r' x x' R :=
  fun _ _ _ _ leQ' leR' joint => h (leQ.trans leQ') (leR.trans leR') joint

theorem get_bind {f : Solver → Inference γ} {f' : Solver → Inference δ}
    (next : ∀ {q₁ r₁ : Pairing} {s s' : Solver}, q.Le q₁ → r.Le r₁ → Joint q₁ r₁ s s' →
      Together q₁ r₁ (f s) (f' s') R') : Together q r (get >>= f) (get >>= f') R' :=
  fun _ _ _ _ leQ leR joint => next leQ leR joint (.refl _) (.refl _) joint

theorem fail (a a' : Nat) (fault fault' : TypeFault) :
    Together q r (Inference.fail a fault) (Inference.fail a' fault') R :=
  fun _ _ _ _ _ _ _ => .error

theorem imp {x : Inference α} {x' : Inference β} {Q : Pairing → Pairing → α → β → Prop}
    (h : Together q r x x' R) (implies : ∀ {q₁ r₁ : Pairing} {a : α} {b : β}, q.Le q₁ → r.Le r₁ →
      R q₁ r₁ a b → Q q₁ r₁ a b) : Together q r x x' Q := by
  intro q₁ r₁ s s' leQ leR joint
  refine (h leQ leR joint).imp ?_
  rintro a b t t' ⟨q₂, r₂, leQ', leR', joint', related⟩
  exact ⟨q₂, r₂, leQ', leR', joint', implies (leQ.trans leQ') (leR.trans leR') related⟩

/-- Parts may change places. -/
theorem swap {x : Inference α} {x' : Inference β} (h : Together r q x x' fun r q => R q r) :
    Together q r x x' R := by
  intro q₁ r₁ s s' leQ leR joint
  refine (h leR leQ joint.swap).imp ?_
  rintro a b t t' ⟨r₂, q₂, leR', leQ', joint', related⟩
  exact ⟨q₂, r₂, leQ', leR', joint'.swap, related⟩

/-- Work on the first part. -/
theorem left {x : Inference α} {x' : Inference β} {Q : Pairing → α → β → Prop}
    (h : Agree q x x' Q) : Together q r x x' fun q _ => Q q := by
  intro q₁ r₁ s s' leQ leR joint
  refine (h leQ joint.left).imp ?_
  rintro a b t t' ⟨q₂, grows, related⟩
  exact ⟨q₂, r₁, grows.old, .refl _, joint.grow grows, related⟩

/-- Work on the second part. -/
theorem right {x : Inference α} {x' : Inference β} {Q : Pairing → α → β → Prop}
    (h : Agree r x x' Q) : Together q r x x' fun _ r => Q r :=
  .swap (.left h)

/-- Work on the one part and work on the other may change places. -/
theorem exchange {x : Inference α} {x' : Inference β} {y : Inference γ} {y' : Inference δ}
    {Q : Pairing → α → β → Prop} {Q' : Pairing → γ → δ → Prop} (onLeft : Agree q x x' Q)
    (onRight : Agree r y y' Q') :
    Together q r (do let a ← x; let c ← y; return (a, c)) (do let d ← y'; let b ← x'; return (b, d))
      fun q r p p' => Q q p.1 p'.1 ∧ Q' r p.2 p'.2 := by
  intro q₁ r₁ s s' leQ leR joint
  -- what the second part does from here on does not depend on whether the first was worked on
  have behind {d : δ} {t' : Solver} (ran : y' s' = .ok d t') : LookAlike q₁ s t' := by
    obtain ⟨_, _, _, r₂, grows, _⟩ := (onRight leR joint.right).of_ok' ran
    exact joint.left.spared_right grows.spares' joint.root' fun inR inQ => joint.apart' inQ inR
  cases ranX : x s with
  | error e t =>
    have left : (do let a ← x; let c ← y; return (a, c) : Inference (α × γ)) s = .error e t := by
      rw [bind_error ranX]
    rw [left]
    cases ranY' : y' s' with
    | error e' t' =>
      rw [bind_error ranY']
      exact .error
    | ok d t' =>
      obtain ⟨e', u', ranX'⟩ := (onLeft leQ (behind ranY')).of_error ranX
      rw [bind_eq_of_ok ranY', bind_error ranX']
      exact .error
  | ok a t =>
    obtain ⟨_, _, _, _, grows, _⟩ := (onLeft leQ joint.left).of_ok ranX
    have onY := onRight leR (joint.right.spared_left grows.spares joint.root joint.apart)
    rw [bind_eq_of_ok ranX]
    cases ranY : y t with
    | error e u =>
      obtain ⟨e', t', ranY'⟩ := onY.of_error ranY
      rw [bind_error ranY, bind_error ranY']
      exact .error
    | ok c u =>
      obtain ⟨d, t', ranY', r₂, growsR, relatedR⟩ := onY.of_ok ranY
      obtain ⟨b, u', ranX', q₂, growsQ, relatedQ⟩ := (onLeft leQ (behind ranY')).of_ok ranX
      rw [bind_eq_of_ok ranY, bind_eq_of_ok ranY', bind_eq_of_ok ranX']
      exact .ok ⟨q₂, r₂, growsQ.old, growsR.old, joint.cross growsQ growsR, relatedQ, relatedR⟩

end Together

end Inference

end LambdaQuery
