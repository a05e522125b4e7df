/-!
Names that differ only in the case of ASCII letters. Functions, members, fields and enum
variants are looked up this way; parameters are not.
-/

namespace LambdaQuery.Text

/-- The characters of a name with ASCII capitals made small. -/
def folded (name : String) : List Char :=
  name.toList.map Char.toLower

/-- Whether two names are the same up to the case of ASCII letters. -/
def sameName (a b : String) : Bool :=
  folded a == folded b

theorem sameName_iff {a b : String} : sameName a b = true ↔ folded a = folded b := by
  simp [sameName]

@[simp] theorem sameName_refl (a : String) : sameName a a = true :=
  sameName_iff.2 rfl

theorem sameName_symm {a b : String} (h : sameName a b = true) : sameName b a = true :=
  sameName_iff.2 (sameName_iff.1 h).symm

theorem sameName_trans {a b c : String} (hab : sameName a b = true) (hbc : sameName b c = true) :
    sameName a c = true :=
  sameName_iff.2 ((sameName_iff.1 hab).trans (sameName_iff.1 hbc))

end LambdaQuery.Text
