import LambdaQuery.Ty.Order

/-!
# Conversion between types
-/

namespace LambdaQuery.Ty

@[simp] theorem assignable_refl (ty : Ty) : ty.assignable ty = true := by
  unfold assignable
  simp

@[simp] theorem common?_self (ty : Ty) : ty.common? ty = some ty := by
  unfold common?
  simp

end LambdaQuery.Ty
