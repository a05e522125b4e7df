import LambdaQuery.Proofs.Resolver
import Mathlib

/-!
# Resolvers that are put together

A resolver answers in two ways: with all candidates for a use of a name, and with the one overload
that the use stands for. A chain resolves to the first success but has the candidates of all its
members, and an exhaustive resolver goes by the candidates alone. However they are nested, the two
answers agree: what is resolved is a candidate, and a lone candidate is resolved.

The candidates of a table are its best fits, so the order of its functions does not matter.
-/

namespace LambdaQuery

theorem only?_eq_some_iff {α : Type} {a : α} {as : List α} : only? as = some a ↔ as = [a] := by
  constructor
  · intro h
    unfold only? at h
    split at h
    · cases h
      rfl
    · cases h
  · rintro rfl
    rfl

theorem only?_perm {α : Type} {as bs : List α} (h : as.Perm bs) : only? as = only? bs := by
  apply Option.ext
  intro a
  rw [only?_eq_some_iff, only?_eq_some_iff]
  constructor
  · rintro rfl
    exact (List.singleton_perm.1 h).symm
  · rintro rfl
    exact List.perm_singleton.1 h

/-! ## Best fits -/

theorem Fit.rank_injective {f g : Fit} (h : f.rank = g.rank) : f = g := by
  revert h
  cases f <;> cases g <;> decide

namespace Overload

variable {os os' : List Overload} {r : Request}

/-- The overload fits a use, and no other fits it better. -/
def IsBest (os : List Overload) (r : Request) (o : Overload) : Prop :=
  o.fit r ≠ .no ∧ ∀ other ∈ os, (other.fit r).rank ≤ (o.fit r).rank

instance (os : List Overload) (r : Request) : DecidablePred (IsBest os r) := fun o =>
  inferInstanceAs (Decidable (o.fit r ≠ .no ∧ ∀ other ∈ os, (other.fit r).rank ≤ (o.fit r).rank))

/-- The best fit there is, if any is better than none. -/
structure Summit (os : List Overload) (r : Request) (top : Fit) : Prop where
  fits : top ≠ .no
  above : ∀ o ∈ os, (o.fit r).rank ≤ top.rank
  /-- Unless one reaches it, it is no more than the least that counts as a fit. -/
  reached : top = .loose ∨ ∃ o ∈ os, o.fit r = top

/-- The best overloads are those that fit as well as any does. -/
theorem Summit.filter_eq {top : Fit} (summit : Summit os r top) :
    (os.filter fun o => o.fit r == top) = os.filter (IsBest os r) := by
  refine List.filter_congr fun o mem => ?_
  rw [Bool.eq_iff_iff, beq_iff_eq, decide_eq_true_iff]
  constructor
  · intro isTop
    refine ⟨isTop ▸ summit.fits, ?_⟩
    rw [isTop]
    exact summit.above
  · rintro ⟨some, best⟩
    refine Fit.rank_injective (Nat.le_antisymm (summit.above o mem) ?_)
    rcases summit.reached with rfl | ⟨o', mem', isTop⟩
    · cases fits : o.fit r with
      | no => exact absurd fits some
      | loose | exact => decide
    · rw [← isTop]
      exact best o' mem'

/-- The best fits are the overloads that fit and that no other outdoes, in their order. -/
theorem bestFits_eq_filter (os : List Overload) (r : Request) :
    bestFits os r = os.filter (IsBest os r) := by
  unfold bestFits
  split
  · rename_i noExact
    refine Summit.filter_eq ⟨by decide, fun o mem => ?_, .inl rfl⟩
    have notExact : o.fit r ≠ .exact := by
      simpa using List.filter_eq_nil_iff.1 noExact o mem
    cases fits : o.fit r with
    | no | loose => decide
    | exact => exact absurd fits notExact
  · rename_i someExact
    refine Summit.filter_eq ⟨by decide, fun o _ => ?_, .inr ?_⟩
    · cases o.fit r <;> decide
    · obtain ⟨o, mem⟩ := List.exists_mem_of_ne_nil _ someExact
      simp only [List.mem_filter, beq_iff_eq] at mem
      exact ⟨o, mem⟩

theorem isBest_perm (h : os.Perm os') (o : Overload) : IsBest os r o ↔ IsBest os' r o := by
  unfold IsBest
  simp only [h.mem_iff]

/-- In another order the best fits are the same in another order. -/
theorem bestFits_perm (h : os.Perm os') (r : Request) :
    (bestFits os r).Perm (bestFits os' r) := by
  rw [bestFits_eq_filter, bestFits_eq_filter]
  have same : (fun o => decide (IsBest os r o)) = fun o => decide (IsBest os' r o) := by
    funext o
    exact decide_eq_decide.2 (isBest_perm h o)
  rw [same]
  exact h.filter _

/-! Best fits in one pass. -/

/-- The best overloads met so far and how well they fit, when one more is met. -/
def meetBest (r : Request) (best : Fit × List Overload) (o : Overload) : Fit × List Overload :=
  if (o.fit r).rank < best.1.rank then best
  else if best.1.rank < (o.fit r).rank then (o.fit r, [o])
  else (best.1, best.2 ++ [o])

/-- What is kept are the overloads met so far that fit best. -/
structure Kept (seen : List Overload) (r : Request) (best : Fit × List Overload) : Prop where
  summit : Summit seen r best.1
  found : best.2 = seen.filter fun o => o.fit r == best.1

theorem Kept.meetBest {seen : List Overload} {best : Fit × List Overload} (kept : Kept seen r best)
    (o : Overload) : Kept (seen ++ [o]) r (meetBest r best o) := by
  obtain ⟨⟨fits, above, reached⟩, found⟩ := kept
  have reached' : best.1 = .loose ∨ ∃ o' ∈ seen ++ [o], o'.fit r = best.1 := by
    refine reached.imp_right ?_
    rintro ⟨o', mem, isTop⟩
    exact ⟨o', List.mem_append_left _ mem, isTop⟩
  unfold Overload.meetBest
  split
  · rename_i worse
    refine ⟨⟨fits, ?_, reached'⟩, ?_⟩
    · simpa [or_imp, forall_and] using ⟨above, Nat.le_of_lt worse⟩
    · have different : (o.fit r == best.1) = false :=
        beq_eq_false_iff_ne.2 fun same => Nat.lt_irrefl _ (same ▸ worse)
      simp [found, different]
  · split
    · rename_i better
      refine ⟨⟨?_, ?_, .inr ⟨o, by simp, rfl⟩⟩, ?_⟩
      · intro isNo
        have isNo : o.fit r = .no := isNo
        rw [isNo] at better
        exact Nat.not_lt_zero _ better
      · have below : ∀ o' ∈ seen, (o'.fit r).rank ≤ (o.fit r).rank := fun o' mem =>
          Nat.le_trans (above o' mem) (Nat.le_of_lt better)
        simpa [or_imp, forall_and] using below
      · -- what was kept before is outdone
        have outdone : (seen.filter fun o' => o'.fit r == o.fit r) = [] := by
          rw [List.filter_eq_nil_iff]
          intro o' mem same
          have le := above o' mem
          rw [beq_iff_eq.1 same] at le
          omega
        simp [outdone]
    · rename_i notWorse notBetter
      have same : o.fit r = best.1 := Fit.rank_injective (by omega)
      refine ⟨⟨fits, ?_, reached'⟩, ?_⟩
      · simpa [or_imp, forall_and, same] using above
      · simp [found, same]

theorem Kept.foldl (rest : List Overload) {seen : List Overload} {best : Fit × List Overload}
    (kept : Kept seen r best) : Kept (seen ++ rest) r (rest.foldl (Overload.meetBest r) best) := by
  induction rest generalizing seen best with
  | nil => simpa using kept
  | cons o rest ih => simpa using ih (kept.meetBest o)

/-- One pass that keeps the best so far ends with the best fits. -/
theorem foldl_meetBest (os : List Overload) (r : Request) :
    (os.foldl (meetBest r) (.loose, [])).2 = bestFits os r := by
  have start : Kept [] r (.loose, []) := ⟨⟨by decide, by simp, .inl rfl⟩, rfl⟩
  obtain ⟨summit, found⟩ := start.foldl os
  rw [List.nil_append] at summit found
  rw [found, summit.filter_eq, bestFits_eq_filter]

end Overload

/-! ## Resolvers inside resolvers -/

namespace Resolver

open Overload

/-- Resolvers that are put together from properties, methods, tables and rules that resolve to the
only candidate. -/
inductive Composed : Resolver → Prop
  | properties (catalog : Catalog) : Composed (.properties catalog)
  | methods (catalog : Catalog) : Composed (.methods catalog)
  | table (functions : List Overload) : Composed (.table functions)
  | rule (candidates : Request → List Overload) : Composed (.ofCandidates candidates)
  | observer : Composed .observer
  | chain {resolvers : List Resolver} :
    (∀ resolver ∈ resolvers, Composed resolver) → Composed (.chain resolvers)
  | exhaustive {resolver : Resolver} : Composed resolver → Composed (.exhaustive resolver)

variable {r : Request} {o : Overload}

/-- What is resolved is a candidate, and a lone candidate is resolved. -/
structure Agrees (r : Request) (resolver : Resolver) : Prop where
  mem : ∀ {o : Overload}, resolver.resolve? r = some o → o ∈ resolver.candidates r
  lone : ∀ {o : Overload}, resolver.candidates r = [o] → resolver.resolve? r = some o

theorem agrees_of_only {resolver : Resolver}
    (isOnly : resolver.resolve? r = only? (resolver.candidates r)) : Agrees r resolver where
  mem h := only?_eq_some (isOnly ▸ h)
  lone h := isOnly.trans (only?_eq_some_iff.2 h)

theorem mem_candidatesAll {resolvers : List Resolver} :
    o ∈ candidatesAll r resolvers ↔ ∃ resolver ∈ resolvers, o ∈ resolver.candidates r := by
  induction resolvers with
  | nil => simp [candidatesAll]
  | cons first rest ih => simp [candidatesAll, ih]

/-- If only one of the resolvers has a candidate, those before it resolve nothing. -/
theorem resolveFirst?_of_lone {resolvers : List Resolver}
    (agree : ∀ resolver ∈ resolvers, Agrees r resolver) (lone : candidatesAll r resolvers = [o]) :
    resolveFirst? r resolvers = some o := by
  induction resolvers with
  | nil => cases lone
  | cons first rest ih =>
    obtain ⟨onFirst, onRest⟩ := List.forall_mem_cons.1 agree
    rw [candidatesAll, List.append_eq_singleton_iff] at lone
    rw [resolveFirst?]
    rcases lone with ⟨noCandidate, lone⟩ | ⟨lone, -⟩
    · have resolvesNot : first.resolve? r = none := by
        cases resolved : first.resolve? r with
        | none => rfl
        | some o' =>
          have mem := onFirst.mem resolved
          rw [noCandidate] at mem
          cases mem
      simp only [resolvesNot, ih onRest lone]
    · simp only [onFirst.lone lone]

theorem agrees_chain {resolvers : List Resolver}
    (agree : ∀ resolver ∈ resolvers, Agrees r resolver) : Agrees r (.chain resolvers) where
  mem {o} h := by
    rw [resolve?] at h
    obtain ⟨resolver, mem, resolves⟩ := mem_of_resolveFirst? h
    rw [candidates, mem_candidatesAll]
    exact ⟨resolver, mem, (agree resolver mem).mem resolves⟩
  lone {o} h := by
    rw [candidates] at h
    rw [resolve?]
    exact resolveFirst?_of_lone agree h

theorem agrees_exhaustive (r : Request) (resolver : Resolver) : Agrees r (.exhaustive resolver) :=
  agrees_of_only (by rw [resolve?, candidates])

theorem Composed.agrees {resolver : Resolver} (h : Composed resolver) (r : Request) :
    Agrees r resolver := by
  induction h with
  | properties | methods | table => exact agrees_of_only (by rw [resolve?, candidates])
  | rule => exact agrees_of_only (by rw [ofCandidates, resolve?, candidates])
  | observer => exact agrees_of_only (by rw [resolve?, candidates]; rfl)
  | chain _ ih => exact agrees_chain ih
  | exhaustive => exact agrees_exhaustive r _

/-! Tables in another order. -/

mutual
/-- The same resolver with the functions of its tables in another order. -/
inductive Reordered : Resolver → Resolver → Prop
  | same (resolver : Resolver) : Reordered resolver resolver
  | table {functions functions' : List Overload} : functions.Perm functions' →
    Reordered (.table functions) (.table functions')
  | rule {functions functions' : List Overload} : functions.Perm functions' →
    Reordered (.ofCandidates (bestFits functions)) (.ofCandidates (bestFits functions'))
  | chain {resolvers resolvers' : List Resolver} : ReorderedAll resolvers resolvers' →
    Reordered (.chain resolvers) (.chain resolvers')
  | exhaustive {resolver resolver' : Resolver} : Reordered resolver resolver' →
    Reordered (.exhaustive resolver) (.exhaustive resolver')

inductive ReorderedAll : List Resolver → List Resolver → Prop
  | nil : ReorderedAll [] []
  | cons {first first' : Resolver} {rest rest' : List Resolver} : Reordered first first' →
    ReorderedAll rest rest' → ReorderedAll (first :: rest) (first' :: rest')
end

theorem tableCandidates_perm {functions functions' : List Overload} (h : functions.Perm functions')
    (r : Request) : (tableCandidates functions r).Perm (tableCandidates functions' r) := by
  unfold tableCandidates
  split
  · exact bestFits_perm h r
  · exact .refl _

mutual
theorem Reordered.candidates_perm (r : Request) : ∀ {resolver resolver' : Resolver},
    Reordered resolver resolver' → (resolver.candidates r).Perm (resolver'.candidates r)
  | _, _, .same _ => .refl _
  | _, _, .table perm => by
    rw [candidates, candidates]
    exact tableCandidates_perm perm r
  | _, _, .rule perm => by
    rw [ofCandidates, ofCandidates, candidates, candidates]
    exact bestFits_perm perm r
  | _, _, .chain all => by
    rw [candidates, candidates]
    exact all.candidates_perm r
  | _, _, .exhaustive inner => by
    rw [candidates, candidates]
    exact inner.candidates_perm r

theorem ReorderedAll.candidates_perm (r : Request) : ∀ {resolvers resolvers' : List Resolver},
    ReorderedAll resolvers resolvers' →
      (candidatesAll r resolvers).Perm (candidatesAll r resolvers')
  | _, _, .nil => .refl _
  | _, _, .cons first rest => by
    rw [candidatesAll, candidatesAll]
    exact (first.candidates_perm r).append (rest.candidates_perm r)
end

mutual
theorem Reordered.resolve?_eq (r : Request) : ∀ {resolver resolver' : Resolver},
    Reordered resolver resolver' → resolver.resolve? r = resolver'.resolve? r
  | _, _, .same _ => rfl
  | _, _, .table perm => by
    rw [resolve?, resolve?]
    exact only?_perm (tableCandidates_perm perm r)
  | _, _, .rule perm => by
    rw [ofCandidates, ofCandidates, resolve?, resolve?]
    exact only?_perm (bestFits_perm perm r)
  | _, _, .chain all => by
    rw [resolve?, resolve?]
    exact all.resolveFirst?_eq r
  | _, _, .exhaustive inner => by
    rw [resolve?, resolve?]
    exact only?_perm (inner.candidates_perm r)

theorem ReorderedAll.resolveFirst?_eq (r : Request) : ∀ {resolvers resolvers' : List Resolver},
    ReorderedAll resolvers resolvers' → resolveFirst? r resolvers = resolveFirst? r resolvers'
  | _, _, .nil => rfl
  | _, _, .cons first rest => by
    rw [resolveFirst?, resolveFirst?, first.resolve?_eq r, rest.resolveFirst?_eq r]
end

/-- A resolver that is put together resolves only to candidates, and to the candidate if there is
just one; so an exhaustive resolver resolves only what the one inside it does. The best fits are the
overloads that fit and that no other outdoes, as one pass finds them, and they are what a table
offers for calls. So the order of the functions in tables does not matter. -/
theorem resolve?_coherent {resolver : Resolver} (composed : Composed resolver) (r : Request) :
    (∀ o, resolver.resolve? r = some o → o ∈ resolver.candidates r) ∧
    (∀ o, resolver.candidates r = [o] → resolver.resolve? r = some o) ∧
    (∀ o, (exhaustive resolver).resolve? r = some o → resolver.resolve? r = some o) ∧
    (∀ functions, bestFits functions r = functions.filter (IsBest functions r) ∧
      (functions.foldl (meetBest r) (.loose, [])).2 = bestFits functions r ∧
      (table functions).candidates r = if r.site = .call then bestFits functions r else []) ∧
    ∀ other, Reordered resolver other → other.resolve? r = resolver.resolve? r := by
  have agrees := composed.agrees r
  refine ⟨fun _ => agrees.mem, fun _ => agrees.lone, fun o h => ?_, fun functions => ?_,
    fun _ reordered => (reordered.resolve?_eq r).symm⟩
  · rw [resolve?, only?_eq_some_iff] at h
    exact agrees.lone h
  · refine ⟨bestFits_eq_filter functions r, foldl_meetBest functions r, ?_⟩
    rw [candidates, tableCandidates]
    cases r.site <;> rfl

/-- Two tables with the same functions hide each other from an exhaustive resolver; the chain around
it goes on to the next table and takes the exact fit, in whatever order its functions are. -/
theorem resolve?_coherent_hidden :
    let whole := free "Abs" [.concrete .int] (.concrete .int) .absWhole
    let other := free "Abs" [.concrete .float] (.concrete .float) .absFloat
    let hidden := exhaustive (.chain [.table [whole, other], .table [other, whole]])
    let resolver := chain [hidden, .table [other, whole]]
    let r : Request := ⟨"abs", .call, [.known .int], .nothing⟩
    Composed resolver ∧ hidden.resolve? r = none ∧ resolver.resolve? r = some whole ∧
      whole ∈ resolver.candidates r ∧
      (chain [hidden, .table [whole, other]]).resolve? r = some whole := by
  intro whole other hidden resolver r
  have composed : Composed resolver := by
    refine .chain (List.forall_mem_cons.2 ⟨.exhaustive (.chain ?_), ?_⟩)
    · simp only [List.forall_mem_cons]
      exact ⟨.table _, .table _, by simp⟩
    · simpa using Composed.table _
  have resolves : resolver.resolve? r = some whole := by cbv
  obtain ⟨mem, -, -, -, reorders⟩ := resolve?_coherent composed r
  refine ⟨composed, by cbv, resolves, mem _ resolves, ?_⟩
  rw [← resolves]
  exact reorders _ (.chain (.cons (.same _) (.cons (.table (.swap ..)) .nil)))

end Resolver

end LambdaQuery
