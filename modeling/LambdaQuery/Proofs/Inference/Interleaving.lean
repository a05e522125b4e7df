import Mathlib.Data.List.Sort
import LambdaQuery.Proofs.Inference.Parts

/-!
# Going through the slots of two parts

When trying gets nowhere, types are put together slot by slot, and slots of the two parts come in
any order. What comes out is what comes out when each part is gone through by itself. So it is the
same in whatever order the parts come.
-/

namespace LambdaQuery

open Solver

/-! Lists of slots of both parts. -/

/-- The slots of a list, in their order, are paired with those of two others, in theirs. -/
inductive Merges (q r : Pairing) : List Nat → List Nat → List Nat → Prop
  | nil : Merges q r [] [] []
  | left {a a' : Nat} {all onLeft onRight : List Nat} (paired : q a a')
    (rest : Merges q r all onLeft onRight) : Merges q r (a :: all) (a' :: onLeft) onRight
  | right {a a' : Nat} {all onLeft onRight : List Nat} (paired : r a a')
    (rest : Merges q r all onLeft onRight) : Merges q r (a :: all) onLeft (a' :: onRight)

/-- Slots in order are paired with slots in order, the first with the first. -/
theorem exists_tail_of_sorted {r : Pairing}
    (order : ∀ {a a' b b' : Nat}, r a a' → r b b' → (a < b ↔ a' < b')) {a a' : Nat}
    {slots slots' : List Nat} (sorted : (a :: slots).Pairwise (· < ·))
    (sorted' : slots'.Pairwise (· < ·)) (onto : ∀ c' ∈ slots', ∃ c ∈ a :: slots, r c c')
    (paired : r a a') (mem : a' ∈ slots') :
    ∃ rest, slots' = a' :: rest ∧ (∀ c' ∈ rest, ∃ c ∈ slots, r c c') ∧
      ∀ {c c' : Nat}, c ∈ slots → c' ∈ slots' → r c c' → c' ∈ rest := by
  obtain ⟨first, _⟩ := List.pairwise_cons.1 sorted
  cases slots' with
  | nil => cases mem
  | cons b' rest =>
    obtain ⟨first', _⟩ := List.pairwise_cons.1 sorted'
    have isFirst : b' = a' := by
      obtain ⟨b, memB, pairedB⟩ := onto b' List.mem_cons_self
      rcases List.mem_cons.1 mem with same | later'
      · exact same.symm
      · have less := (order pairedB paired).2 (first' a' later')
        rcases List.mem_cons.1 memB with rfl | later
        · omega
        · have := first b later
          omega
    subst isFirst
    refine ⟨rest, rfl, ?_, ?_⟩
    · intro c' memC'
      obtain ⟨c, memC, pairedC⟩ := onto c' (List.mem_cons_of_mem _ memC')
      rcases List.mem_cons.1 memC with rfl | later
      · have := (order paired pairedC).2 (first' c' memC')
        omega
      · exact ⟨c, later, pairedC⟩
    · intro c c' memC memC' pairedC
      rcases List.mem_cons.1 memC' with rfl | later
      · have := (order paired pairedC).1 (first c memC)
        omega
      · exact later

theorem merges_of_sorted {q r : Pairing}
    (orderQ : ∀ {a a' b b' : Nat}, q a a' → q b b' → (a < b ↔ a' < b'))
    (orderR : ∀ {a a' b b' : Nat}, r a a' → r b b' → (a < b ↔ a' < b'))
    {all onLeft onRight : List Nat} (sorted : all.Pairwise (· < ·))
    (sortedLeft : onLeft.Pairwise (· < ·)) (sortedRight : onRight.Pairwise (· < ·))
    (covers : ∀ a ∈ all, (∃ a' ∈ onLeft, q a a') ∨ ∃ a' ∈ onRight, r a a')
    (ontoLeft : ∀ a' ∈ onLeft, ∃ a ∈ all, q a a') (ontoRight : ∀ a' ∈ onRight, ∃ a ∈ all, r a a')
    (apart : ∀ {a a' b' : Nat}, a' ∈ onLeft → b' ∈ onRight → q a a' → r a b' → False) :
    Merges q r all onLeft onRight := by
  induction all generalizing onLeft onRight with
  | nil =>
    have noneLeft : onLeft = [] := List.eq_nil_iff_forall_not_mem.2 fun a' mem => by
      simpa using ontoLeft a' mem
    have noneRight : onRight = [] := List.eq_nil_iff_forall_not_mem.2 fun a' mem => by
      simpa using ontoRight a' mem
    rw [noneLeft, noneRight]
    exact .nil
  | cons a all ih =>
    obtain ⟨_, sortedRest⟩ := List.pairwise_cons.1 sorted
    have coversRest := fun b mem => covers b (List.mem_cons_of_mem _ mem)
    rcases covers a List.mem_cons_self with ⟨a', mem, paired⟩ | ⟨a', mem, paired⟩
    · obtain ⟨rest, rfl, ontoRest, inRest⟩ :=
        exists_tail_of_sorted orderQ sorted sortedLeft ontoLeft paired mem
      refine .left paired (ih sortedRest (List.pairwise_cons.1 sortedLeft).2 sortedRight ?_ ontoRest
        ?_ fun memLeft => apart (List.mem_cons_of_mem _ memLeft))
      · intro b memB
        refine (coversRest b memB).imp_left ?_
        rintro ⟨b', memB', pairedB⟩
        exact ⟨b', inRest memB memB' pairedB, pairedB⟩
      · intro b' memB'
        obtain ⟨b, memB, pairedB⟩ := ontoRight b' memB'
        rcases List.mem_cons.1 memB with rfl | later
        · exact (apart mem memB' paired pairedB).elim
        · exact ⟨b, later, pairedB⟩
    · obtain ⟨rest, rfl, ontoRest, inRest⟩ :=
        exists_tail_of_sorted orderR sorted sortedRight ontoRight paired mem
      refine .right paired (ih sortedRest sortedLeft (List.pairwise_cons.1 sortedRight).2 ?_ ?_
        ontoRest fun memLeft memRight => apart memLeft (List.mem_cons_of_mem _ memRight))
      · intro b memB
        refine (coversRest b memB).imp_right ?_
        rintro ⟨b', memB', pairedB⟩
        exact ⟨b', inRest memB memB' pairedB, pairedB⟩
      · intro b' memB'
        obtain ⟨b, memB, pairedB⟩ := ontoLeft b' memB'
        rcases List.mem_cons.1 memB with rfl | later
        · exact (apart memB' mem pairedB paired).elim
        · exact ⟨b, later, pairedB⟩

/-- The slots that others are paired with, paired with themselves. -/
abbrev Pairing.onCod (r : Pairing) : Pairing :=
  Relation.Comp (flip r) r

namespace Solver

variable {q r : Pairing} {s s' t t' u : Solver}

theorem LookAlike.onCod (h : LookAlike r s s') : LookAlike r.onCod s' s' :=
  h.symm.trans h

theorem LookAlike.eq_of_onCod (h : LookAlike r s s') {a b : Nat} (paired : r.onCod a b) :
    a = b := by
  obtain ⟨c, first, second⟩ := paired
  exact (h.eq_iff first second).1 rfl

theorem onCod_self {a : Nat} (inside : r.Cod a) : r.onCod a a := by
  obtain ⟨c, paired⟩ := inside
  exact ⟨c, paired, paired⟩

/-- Solvers that look like a third one. -/
theorem LookAlike.join (h : LookAlike r s s') (first : LookAlike r t u)
    (second : LookAlike r.onCod t' u) : LookAlike r t t' := by
  have same : Relation.Comp r (flip r.onCod) = r := by
    funext a b
    refine propext ⟨?_, fun paired => ⟨b, paired, a, paired, paired⟩⟩
    rintro ⟨c, pairedC, d, pairedD, pairedD'⟩
    rw [(h.eq_iff pairedC pairedD').2 rfl]
    exact pairedD
  rw [← same]
  exact first.trans second.symm

open Classical in
/-- All slots of both solvers come from the same slots of each part. -/
theorem Joint.exists_merges (h : Joint q r s s') : ∃ onLeft onRight,
    Merges q r (List.range s.cells.size) onLeft onRight ∧
      Merges q.onCod r.onCod (List.range s'.cells.size) onLeft onRight := by
  have sorted (p : Nat → Bool) : ((List.range s'.cells.size).filter p).Pairwise (· < ·) :=
    List.pairwise_lt_range.filter p
  -- a slot of the second part that is not shared is paired with one that is not shared
  have unshared {a a' : Nat} (paired : r a a') (out : ¬ q.Dom a) : ¬ q.Cod a' := by
    rintro ⟨b, pairedB⟩
    obtain rfl := h.apart' ⟨b, pairedB⟩ ⟨a, paired⟩
    obtain rfl := (h.first (.inl pairedB)).2 rfl
    obtain rfl := (h.first (.inr paired)).2 rfl
    exact out ⟨0, pairedB⟩
  refine ⟨(List.range s'.cells.size).filter fun a => q.Cod a,
    (List.range s'.cells.size).filter fun a => ¬ q.Cod a, ?_, ?_⟩
  · refine merges_of_sorted h.left.order h.right.order List.pairwise_lt_range (sorted _) (sorted _)
      ?_ ?_ ?_ ?_
    · intro a mem
      by_cases inside : q.Dom a
      · obtain ⟨a', paired⟩ := inside
        exact .inl ⟨a', by simpa using ⟨(h.left.lt_size paired).2, a, paired⟩, paired⟩
      · obtain ⟨a', paired⟩ := (h.covers (List.mem_range.1 mem)).resolve_left inside
        exact .inr ⟨a', by simpa using ⟨(h.right.lt_size paired).2, unshared paired inside⟩, paired⟩
    · intro a' mem
      obtain ⟨_, a, paired⟩ : _ ∧ q.Cod a' := by simpa using mem
      exact ⟨a, List.mem_range.2 (h.left.lt_size paired).1, paired⟩
    · intro a' mem
      obtain ⟨lt, out⟩ : a' < s'.cells.size ∧ ¬ q.Cod a' := by simpa using mem
      obtain ⟨a, paired⟩ := (h.covers' lt).resolve_left out
      exact ⟨a, List.mem_range.2 (h.right.lt_size paired).1, paired⟩
    · intro a a' b' _ mem pairedQ pairedR
      obtain rfl := h.apart ⟨a', pairedQ⟩ ⟨b', pairedR⟩
      obtain rfl := (h.first (.inl pairedQ)).1 rfl
      obtain rfl := (h.first (.inr pairedR)).1 rfl
      have out : ¬ q.Cod 0 := (by simpa using mem : _ ∧ ¬ q.Cod 0).2
      exact out ⟨0, pairedQ⟩
  · refine merges_of_sorted h.left.onCod.order h.right.onCod.order List.pairwise_lt_range
      (sorted _) (sorted _) ?_ ?_ ?_ ?_
    · intro a mem
      by_cases inside : q.Cod a
      · exact .inl ⟨a, by simpa using ⟨List.mem_range.1 mem, inside⟩, onCod_self inside⟩
      · have inRight := (h.covers' (List.mem_range.1 mem)).resolve_left inside
        exact .inr ⟨a, by simpa using ⟨List.mem_range.1 mem, inside⟩, onCod_self inRight⟩
    · intro a mem
      obtain ⟨lt, inside⟩ : a < s'.cells.size ∧ q.Cod a := by simpa using mem
      exact ⟨a, List.mem_range.2 lt, onCod_self inside⟩
    · intro a mem
      obtain ⟨lt, out⟩ : a < s'.cells.size ∧ ¬ q.Cod a := by simpa using mem
      exact ⟨a, List.mem_range.2 lt, onCod_self ((h.covers' lt).resolve_left out)⟩
    · intro a a' b' memLeft memRight pairedQ pairedR
      obtain rfl := h.left.eq_of_onCod pairedQ
      obtain rfl := h.right.eq_of_onCod pairedR
      have inside : q.Cod a := (by simpa using memLeft : _ ∧ q.Cod a).2
      have out : ¬ q.Cod a := (by simpa using memRight : _ ∧ ¬ q.Cod a).2
      exact out inside

end Solver

namespace Inference

variable (catalog : Catalog) {q r : Pairing} {s s' u v : Solver}

/-! Putting types together. -/

theorem settle_cons (slot : Nat) (rest : List Nat) (s : Solver) :
    settle catalog (slot :: rest) s =
      match s.settledTy? slot with
      | none => settle catalog rest s
      | some ty =>
        match s.narrow catalog [.assign slot ty] with
        | .error e => .error e s
        | .ok t => (settle catalog rest >>= fun _ => pure true) t := by
  rw [settle, bind_eq_of_ok (rfl : (get : Inference Solver) s = .ok s s)]
  cases s.settledTy? slot with
  | none => rfl
  | some ty =>
    simp only
    cases narrowed : s.narrow catalog [.assign slot ty] with
    | error e => rw [bind_error (by simp only [learn, narrowed]; rfl)]
    | ok t => rw [bind_eq_of_ok (by simp only [learn, narrowed]; rfl)]

/-- Going through both parts comes to going through each by itself: it fails if one of these does,
and from each part it looks as if nothing but that part had been gone through. -/
inductive Projects (q r : Pairing) (s : Solver) :
    (both left right : EStateM.Result TypeError Solver Bool) → Prop
  | ok {b c : Bool} {t u v : Solver} (onLeft : LookAlike q t u) (onRight : LookAlike r t v)
    (size : t.cells.size = s.cells.size) (root : ∃ ty, t.belief 0 = .known ty) :
    Projects q r s (.ok (b || c) t) (.ok b u) (.ok c v)
  | left {e e' : TypeError} {t u : Solver} {right : EStateM.Result TypeError Solver Bool} :
    Projects q r s (.error e t) (.error e' u) right
  | right {e e' : TypeError} {t v : Solver} {left : EStateM.Result TypeError Solver Bool} :
    Projects q r s (.error e t) left (.error e' v)

theorem settle_projects {all onLeft onRight : List Nat} (merges : Merges q r all onLeft onRight)
    (apart : ∀ {a : Nat}, q.Dom a → r.Dom a → a = 0) (alikeLeft : LookAlike q s u)
    (alikeRight : LookAlike r s v) (root : ∃ ty, s.belief 0 = .known ty) :
    Projects q r s (settle catalog all s) (settle catalog onLeft u) (settle catalog onRight v) := by
  induction merges generalizing s u v with
  | nil => exact .ok (b := false) (c := false) alikeLeft alikeRight rfl root
  | @left a a' all onLeft onRight paired _ ih =>
    rw [settle_cons, settle_cons, alikeLeft.settledTy?_eq paired]
    cases u.settledTy? a' with
    | none => exact ih alikeLeft alikeRight root
    | some ty =>
      have narrowed := narrow_matched catalog alikeLeft (.cons (.assign paired ty) .nil)
      simp only
      generalize s.narrow catalog [.assign a ty] = n, u.narrow catalog [.assign a' ty] = n'
        at narrowed
      cases narrowed with
      | error => exact .left
      | @ok t t' grows =>
        have rest := ih grows.alike (alikeRight.spared_left grows.spares root apart)
          (root.imp fun _ => grows.spares.known)
        simp only
        generalize ranAll : settle catalog all t = y, ranLeft : settle catalog onLeft t' = z,
          settle catalog onRight v = z' at rest
        cases rest with
        | ok onLeft' onRight' size root' =>
          rw [bind_eq_of_ok ranAll, bind_eq_of_ok ranLeft]
          exact .ok (b := true) onLeft' onRight' (size.trans (grows.size_eq alikeLeft).1) root'
        | left =>
          rw [bind_error ranAll, bind_error ranLeft]
          exact .left
        | right =>
          rw [bind_error ranAll]
          exact .right
  | @right a a' all onLeft onRight paired _ ih =>
    rw [settle_cons, settle_cons, alikeRight.settledTy?_eq paired]
    cases v.settledTy? a' with
    | none => exact ih alikeLeft alikeRight root
    | some ty =>
      have narrowed := narrow_matched catalog alikeRight (.cons (.assign paired ty) .nil)
      simp only
      generalize s.narrow catalog [.assign a ty] = n, v.narrow catalog [.assign a' ty] = n'
        at narrowed
      cases narrowed with
      | error => exact .right
      | @ok t t' grows =>
        have rest := ih (alikeLeft.spared_left grows.spares root fun inR inQ => apart inQ inR)
          grows.alike (root.imp fun _ => grows.spares.known)
        simp only
        generalize ranAll : settle catalog all t = y, settle catalog onLeft u = z,
          ranRight : settle catalog onRight t' = z' at rest
        cases rest with
        | @ok b _ _ _ _ onLeft' onRight' size root' =>
          rw [bind_eq_of_ok ranAll, bind_eq_of_ok ranRight]
          have done := Projects.ok (b := b) (c := true) onLeft' onRight'
            (size.trans (grows.size_eq alikeRight).1) root'
          rwa [Bool.or_true] at done
        | left =>
          rw [bind_error ranAll]
          exact .left
        | right =>
          rw [bind_error ranAll, bind_error ranRight]
          exact .right

/-- Putting types together ends alike, in whatever order the two parts come. -/
theorem settle_together (h : Joint q r s s') :
    Matched (fun b t b' t' => Joint q r t t' ∧ b = b')
      (settle catalog (List.range s.cells.size) s)
      (settle catalog (List.range s'.cells.size) s') := by
  obtain ⟨onLeft, onRight, merges, merges'⟩ := h.exists_merges
  have first := settle_projects catalog merges h.apart h.left h.right h.root
  have second := settle_projects catalog merges'
    (by
      rintro a ⟨b, inQ⟩ ⟨c, inR⟩
      obtain ⟨_, inQ, _⟩ := inQ
      obtain ⟨_, inR, _⟩ := inR
      exact h.apart' ⟨_, inQ⟩ ⟨_, inR⟩)
    h.left.onCod h.right.onCod h.root'
  generalize settle catalog (List.range s.cells.size) s = y,
    settle catalog (List.range s'.cells.size) s' = y', settle catalog onLeft s' = z,
    settle catalog onRight s' = z' at first second
  cases first with
  | ok alikeLeft alikeRight size root => cases second with
    | ok alikeLeft' alikeRight' size' root' =>
      refine .ok ⟨?_, rfl⟩
      exact {
        left := h.left.join alikeLeft alikeLeft'
        right := h.right.join alikeRight alikeRight'
        root := root
        root' := root'
        first := h.first
        apart := h.apart
        apart' := h.apart'
        covers := fun lt => h.covers (size ▸ lt)
        covers' := fun lt => h.covers' (size' ▸ lt) }
  | left => cases second <;> exact .error
  | right => cases second <;> exact .error

end Inference

end LambdaQuery
