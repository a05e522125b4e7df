import LambdaQuery.Catalog.Declared
import LambdaQuery.Compiler

/-!
# What the resolvers of a compiler offer

A name stands for a property or a method of a type that the catalog describes, or for a standard
function; it has as many parameters as there are arguments, and its name is the one asked for.
-/

namespace LambdaQuery

theorem only?_eq_some {α : Type} {a : α} {as : List α} (h : only? as = some a) : a ∈ as := by
  unfold only? at h
  split at h
  · cases h
    exact List.mem_singleton_self _
  · cases h

namespace Overload

/-- An overload fits a use only if the names agree and so do the numbers of arguments. -/
theorem of_fit_ne_no {o : Overload} {r : Request} (h : o.fit r ≠ .no) :
    Text.sameName o.name r.name = true ∧ o.params.length = r.args.length := by
  unfold fit at h
  cases isMeant : Text.sameName o.name r.name && o.params.length == r.args.length with
  | true => simpa using isMeant
  | false =>
    rw [isMeant] at h
    exact absurd rfl h

theorem of_mem_bestFits {os : List Overload} {o : Overload} {r : Request}
    (h : o ∈ bestFits os r) :
    o ∈ os ∧ Text.sameName o.name r.name = true ∧ o.params.length = r.args.length := by
  have fits : o ∈ os ∧ o.fit r ≠ .no := by
    unfold bestFits at h
    split at h
    · simp only [List.mem_filter, beq_iff_eq] at h
      exact ⟨h.1, by simp [h.2]⟩
    · simp only [List.mem_filter, beq_iff_eq] at h
      exact ⟨h.1, by simp [h.2]⟩
  exact ⟨fits.1, of_fit_ne_no fits.2⟩

/-- What a name can stand for, by the arguments of its use. -/
inductive Offered (catalog : Catalog) : Request → Overload → Prop
  | property {r : Request} {ty : Ty} {info : TypeInfo} {p : Property Value} :
    r.args = [.known ty] → catalog.describe ty = some info → info.property? r.name = some p →
      Offered catalog r (.ofProperty ty p)
  | method {r : Request} {ty : Ty} {rest : List Hint} {info : TypeInfo} {m : Method} :
    r.site = .call → r.args = .known ty :: rest → catalog.describe ty = some info →
      m ∈ info.methods → Offered catalog r (.ofMethod ty m)
  | standard {r : Request} {o : Overload} :
    r.site = .call → o ∈ Resolver.standardFunctions → Offered catalog r o

end Overload

namespace Resolver

open Overload

variable {catalog : Catalog} {r : Request} {o : Overload}

theorem of_mem_propertyCandidates (h : o ∈ propertyCandidates catalog r) :
    Offered catalog r o ∧ Text.sameName o.name r.name = true ∧
      o.params.length = r.args.length := by
  unfold propertyCandidates at h
  split at h
  · rename_i ty isArg
    obtain ⟨isProperty, fits⟩ := of_mem_bestFits h
    refine ⟨?_, fits⟩
    simp only [Option.mem_toList, propertyOf?, Option.bind_eq_bind,
      Option.bind_eq_some_iff] at isProperty
    obtain ⟨info, described, p, found, isOverload⟩ := isProperty
    cases isOverload
    exact .property isArg described found
  · cases h

theorem of_mem_methodCandidates (h : o ∈ methodCandidates catalog r) :
    Offered catalog r o ∧ Text.sameName o.name r.name = true ∧
      o.params.length = r.args.length := by
  unfold methodCandidates at h
  split at h
  · rename_i ty rest isCall isArg
    obtain ⟨isMethod, fits⟩ := of_mem_bestFits h
    refine ⟨?_, fits⟩
    unfold methodsOf at isMethod
    split at isMethod
    · rename_i info described
      obtain ⟨m, named, rfl⟩ := List.mem_map.1 isMethod
      exact .method isCall isArg described (List.mem_filter.1 named).1
    · cases isMethod
  · cases h

theorem of_mem_standardCandidates (h : o ∈ tableCandidates standardFunctions r) :
    Offered catalog r o ∧ Text.sameName o.name r.name = true ∧
      o.params.length = r.args.length := by
  unfold tableCandidates at h
  split at h
  · rename_i isCall
    obtain ⟨isStandard, fits⟩ := of_mem_bestFits h
    exact ⟨.standard isCall isStandard, fits⟩
  · cases h

/-- A chain takes the answer of one of its resolvers. -/
theorem mem_of_resolveFirst? {resolvers : List Resolver} (h : resolveFirst? r resolvers = some o) :
    ∃ resolver ∈ resolvers, resolver.resolve? r = some o := by
  induction resolvers with
  | nil => cases h
  | cons first rest ih =>
    unfold resolveFirst? at h
    split at h
    · cases h
      exact ⟨first, List.mem_cons_self, by assumption⟩
    · obtain ⟨resolver, mem, resolves⟩ := ih h
      exact ⟨resolver, List.mem_cons_of_mem _ mem, resolves⟩

/-- What a name stands for to a compiler. -/
theorem offered_of_resolve? {options : Options}
    (h : (Compiler.withOptions catalog options).resolver.resolve? r = some o) :
    Offered catalog r o ∧ Text.sameName o.name r.name = true ∧
      o.params.length = r.args.length := by
  unfold Compiler.resolver resolve? at h
  obtain ⟨resolver, mem, resolves⟩ := mem_of_resolveFirst? h
  have among : resolver = .properties catalog ∨ resolver = .methods catalog ∨
      resolver = .standard := by
    simp only [Compiler.withOptions] at mem
    cases hasStandard : options.standardFunctions with
    | true => simpa [hasStandard] using mem
    | false =>
      have : resolver = .properties catalog ∨ resolver = .methods catalog := by
        simpa [hasStandard] using mem
      exact this.imp_right .inl
  rcases among with rfl | rfl | rfl
  · unfold resolve? at resolves
    exact of_mem_propertyCandidates (only?_eq_some resolves)
  · unfold resolve? at resolves
    exact of_mem_methodCandidates (only?_eq_some resolves)
  · unfold standard resolve? at resolves
    exact of_mem_standardCandidates (only?_eq_some resolves)

end Resolver

end LambdaQuery
