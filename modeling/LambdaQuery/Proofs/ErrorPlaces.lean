import LambdaQuery.Proofs.Inference.Blame
import LambdaQuery.Proofs.Safety.Queries
import LambdaQuery.Proofs.Term.ErrorPlaces

/-!
# Where errors point

Whatever goes wrong with a query, the error points into its text. What is wrong with types is said
of a node of the tree, or of a parameter.
-/

namespace LambdaQuery

theorem error_of_bind {ε α β : Type} {x : Except ε α} {f : α → Except ε β} {e : ε}
    (h : (x >>= f) = .error e) : x = .error e ∨ ∃ a, x = .ok a ∧ f a = .error e := by
  cases x with
  | error e' =>
    cases h
    exact .inl rfl
  | ok a => exact .inr ⟨a, rfl, h⟩

theorem error_of_mapError {ε ε' α : Type} {x : Except ε α} {f : ε → ε'} {e : ε'}
    (h : x.mapError f = .error e) : ∃ cause, x = .error cause ∧ f cause = e := by
  cases x with
  | ok a => cases h
  | error cause =>
    cases h
    exact ⟨cause, rfl, rfl⟩

/-! ### Lowering -/

namespace Expr

variable {catalog : Catalog} {e : LoweringError}

theorem span_of_describe {n : Typed} {ty : Ty} (h : describe catalog n ty = .error e) :
    e.span = n.span := by
  unfold describe at h
  split at h <;> cases h
  rfl

theorem span_of_ofBinary {n : Typed} {op : Operator} {leftTy rightTy : Ty} {left right : Expr}
    (h : ofBinary catalog n op leftTy rightTy left right = .error e) : e.span = n.span := by
  unfold ofBinary at h
  split at h
  · cases h
    rfl
  · rcases error_of_bind h with notDescribed | ⟨info, _, h⟩
    · exact span_of_describe notDescribed
    · split at h <;> cases h
      rfl

theorem span_of_ofCall {n : Typed} {o : Overload} {argTys : List Ty} {args : List Expr}
    (h : ofCall n o argTys args = .error e) : e.span = n.span := by
  unfold ofCall at h
  split at h <;> cases h
  rfl

theorem shows_root {t : Term Typed} {span : Span} (isRoot : span = t.note.span) :
    ∃ tag, (t.map Typed.span).Shows tag span := by
  subst isRoot
  cases t <;> exact ⟨_, .root _⟩

mutual
/-- What cannot be lowered is a node of the query. -/
theorem shows_of_ofTyped : ∀ {t : Term Typed} {p : ParamSupply} {e : LoweringError},
    ofTyped catalog t p = .error e → ∃ tag, (t.map Typed.span).Shows tag e.span
  | .lambda n binder body, p, e, h => by
    rcases error_of_bind h with inBody | ⟨_, _, h⟩
    · obtain ⟨tag, shown⟩ := shows_of_ofTyped inBody
      exact ⟨tag, shown.of_child List.mem_cons_self⟩
    · cases h
  | .ident n symbol, p, e, h => by
    unfold ofTyped at h
    split at h <;> cases h
    exact shows_root rfl
  | .literal n text, p, e, h => by
    unfold ofTyped at h
    split at h
    · rcases error_of_bind h with notDescribed | ⟨_, _, h⟩
      · exact shows_root (span_of_describe notDescribed)
      · cases h
    · cases h
      exact shows_root rfl
  | .binary n op left right, p, e, h => by
    rcases error_of_bind h with inLeft | ⟨_, _, h⟩
    · obtain ⟨tag, shown⟩ := shows_of_ofTyped inLeft
      exact ⟨tag, shown.of_child List.mem_cons_self⟩
    · rcases error_of_bind h with inRight | ⟨_, _, h⟩
      · obtain ⟨tag, shown⟩ := shows_of_ofTyped inRight
        exact ⟨tag, shown.of_child (List.mem_cons_of_mem _ List.mem_cons_self)⟩
      · rcases error_of_bind h with notBuilt | ⟨_, _, h⟩
        · exact shows_root (span_of_ofBinary notBuilt)
        · cases h
  | .call n name args, p, e, h => by
    unfold ofTyped at h
    split at h
    · rcases error_of_bind h with inArgs | ⟨_, _, h⟩
      · obtain ⟨t, isArg, tag, shown⟩ := shows_of_ofArgs inArgs
        exact ⟨tag, shown.of_child isArg⟩
      · rcases error_of_bind h with notBuilt | ⟨_, _, h⟩
        · exact shows_root (span_of_ofCall notBuilt)
        · cases h
    · cases h
      exact shows_root rfl
  | .member n receiver name, p, e, h => by
    unfold ofTyped at h
    split at h
    · rcases error_of_bind h with inReceiver | ⟨_, _, h⟩
      · obtain ⟨tag, shown⟩ := shows_of_ofTyped inReceiver
        exact ⟨tag, shown.of_child List.mem_cons_self⟩
      · rcases error_of_bind h with notBuilt | ⟨_, _, h⟩
        · exact shows_root (span_of_ofCall notBuilt)
        · cases h
    · rcases error_of_bind h with notBuilt | ⟨_, _, h⟩
      · exact shows_root (span_of_ofCall notBuilt)
      · cases h
    · cases h
      exact shows_root rfl

theorem shows_of_ofArgs : ∀ {ts : List (Term Typed)} {types : List Ty} {p : ParamSupply}
    {e : LoweringError}, ofArgs catalog ts types p = .error e →
    ∃ t ∈ Term.mapAll Typed.span ts, ∃ tag, t.Shows tag e.span
  | t :: rest, ty :: types, p, e, h => by
    rcases error_of_bind h with inFirst | ⟨_, _, h⟩
    · exact ⟨_, List.mem_cons_self, shows_of_ofTyped inFirst⟩
    · rcases error_of_bind h with inRest | ⟨_, _, h⟩
      · obtain ⟨other, mem, shown⟩ := shows_of_ofArgs inRest
        exact ⟨other, List.mem_cons_of_mem _ mem, shown⟩
      · cases h
  | [], _, _, _, h => by cases h
  | _ :: _, [], _, _, h => by cases h
end

end Expr

theorem LambdaExpr.shows_of_ofTyped {catalog : Catalog} {t : Term Typed} {e : LoweringError}
    (h : LambdaExpr.ofTyped catalog t = .error e) : ∃ tag, (t.map Typed.span).Shows tag e.span := by
  cases t with
  | lambda n binder body =>
    rcases error_of_bind h with inBody | ⟨_, _, h⟩
    · obtain ⟨tag, shown⟩ := Expr.shows_of_ofTyped inBody
      exact ⟨tag, shown.of_child List.mem_cons_self⟩
    · cases h
  | _ =>
    cases h
    exact Expr.shows_root rfl

/-! ### The text -/

/-- The nodes and parameters of a query that was read from a text stand in the text. -/
theorem Term.Shows.inside {limit : Nat} {text : String} {query : Term Span}
    (read : Term.ofText limit text = .ok query) {tag : NodeTag} {span : Span}
    (shown : query.Shows tag span) : span.Inside text.utf8ByteSize := by
  have placed := (Term.query_of_ofText read).placed (Tokens.inPlace_ofText text)
  rcases shown with ⟨around, node, place, -, rfl⟩ | ⟨-, around, note, param, body, place, rfl⟩
  · exact (placed.allSit around node place).stands.inside
  · exact ((placed.allSit around _ place).binder note param body rfl).1.inside

/-- Inference puts types into the tree of a query that was read. -/
theorem map_span_of_infer {catalog : Catalog} {resolver : Resolver} {limit : Nat} {text : String}
    {query : Term Span} (read : Term.ofText limit text = .ok query) {root : Ty} {expected : Option Ty}
    {t : Term Typed} (typed : (infer catalog resolver query root expected).outcome = .ok t) :
    t.map Typed.span = query := by
  have ends := ends_infer catalog resolver query root expected
  rw [typed] at ends
  obtain ⟨high, inScope⟩ := Term.scoped_of_ofText read
  cases ends with
  | typed run isTyped =>
    have valid := ((staysInRange catalog query).runs run).1.solver.toValid
    rw [(Solver.map_typed valid inScope.bound_number isTyped).1, query.map_number]

namespace Compiler

variable {c : Compiler} {text : String} {root : Ty} {expected : Option Ty} {e : QueryError}

/-- The error points into the text, and a type error shows a node or a parameter of the query. -/
structure Points (c : Compiler) (text : String) (e : QueryError) : Prop where
  span : e.span.Inside text.utf8ByteSize
  related : ∀ place ∈ e.related, place.2.Inside text.utf8ByteSize
  shows : ∀ error, e.fault = .typing error →
    ∃ query, c.parse text = .ok query ∧ query.Shows error.node error.span

theorem points_of_parse (failed : c.parse text = .error e) : c.Points text e := by
  simp only [parse] at failed
  split at failed
  · rename_i tooLong
    cases failed
    exact ⟨⟨Nat.le_of_lt tooLong, Nat.le_refl _⟩, by simp [QueryError.related, SyntaxError.related],
      by simp⟩
  · split at failed
    · cases failed
    · rename_i error notRead
      cases failed
      exact ⟨Term.ofText_points notRead, by simp [QueryError.related], by simp⟩
    · rename_i error notRead
      cases failed
      obtain ⟨span, related⟩ := Term.ofText_points notRead
      exact ⟨span, related, by simp⟩

theorem points_of_check (failed : c.check text root expected = .error e) : c.Points text e := by
  rcases error_of_bind failed with notInferred | ⟨inferred, isInferred, notTyped⟩
  · rcases error_of_bind notInferred with notRead | ⟨_, _, h⟩
    · exact points_of_parse notRead
    · cases h
  · obtain ⟨query, parsed, isInfer⟩ := ok_of_bind isInferred
    cases isInfer
    obtain ⟨error, isError, rfl⟩ := error_of_mapError notTyped
    have shown := shows_of_infer_error isError
    refine ⟨shown.inside (ofText_of_parse parsed), by simp [QueryError.related], ?_⟩
    rintro _ ⟨⟩
    exact ⟨query, parsed, shown⟩

theorem points_of_build (failed : c.build text root expected = .error e) : c.Points text e := by
  rcases error_of_bind failed with notChecked | ⟨t, checked, notLowered⟩
  · exact points_of_check notChecked
  · obtain ⟨inferred, isInferred, typed⟩ := ok_of_bind checked
    obtain ⟨query, parsed, isInfer⟩ := ok_of_bind isInferred
    cases isInfer
    obtain ⟨error, isError, rfl⟩ := error_of_mapError notLowered
    obtain ⟨tag, shown⟩ := LambdaExpr.shows_of_ofTyped isError
    rw [map_span_of_infer (ofText_of_parse parsed) (ok_of_mapError typed)] at shown
    exact ⟨shown.inside (ofText_of_parse parsed), by simp [QueryError.related], by simp⟩

/-- Reading, checking and compiling a query fail with errors that point into its text. -/
theorem errors_point_into_text (c : Compiler) (text : String) (root : Ty) (expected : Option Ty)
    (e : QueryError)
    (failed : c.parse text = .error e ∨ c.check text root expected = .error e ∨
      c.build text root expected = .error e) : c.Points text e := by
  rcases failed with notRead | notChecked | notBuilt
  · exact points_of_parse notRead
  · exact points_of_check notChecked
  · exact points_of_build notBuilt

/-- Nothing gives `y` a type: the parameter is to blame, and not the lambda or its body. -/
theorem check_untyped_parameter :
    (Compiler.withOptions rowSchema.catalog .standard).check "x => (y => 1)" (.record "Row") none =
      .error ⟨.typing ⟨.untyped, .parameter, ⟨6, 7⟩⟩, "x => (y => 1)", some (.record "Row")⟩ := by
  simp only [check, infer, LambdaQuery.infer, Inference.run, Inference.work,
    Inference.solve_eq_solveBy 4]
  cbv

theorem errors_point_into_text_parameter :
    let c := Compiler.withOptions rowSchema.catalog .standard
    let text := "x => (y => 1)"
    let error : TypeError := ⟨.untyped, .parameter, ⟨6, 7⟩⟩
    c.check text (.record "Row") none = .error ⟨.typing error, text, some (.record "Row")⟩ ∧
      error.span.stop ≤ text.utf8ByteSize ∧
      ∃ query, c.parse text = .ok query ∧ query.Shows .parameter ⟨6, 7⟩ := by
  intro c text error
  have points := errors_point_into_text c text (.record "Row") none _
    (.inr (.inl check_untyped_parameter))
  exact ⟨check_untyped_parameter, points.span.stop_le, points.shows error rfl⟩

end Compiler

end LambdaQuery
