import Mathlib.Algebra.Order.Ring.Rat
import Mathlib.Data.Rat.Sqrt

/-!
# Arithmetic of `double`

`Scalar` has the operations that the C++ sources use on `double`, without any law: what is proved
over it holds for IEEE arithmetic as well. `ℚ` is the instance on which programs are evaluated.
-/

namespace Portfolio

/-- The operations on `double`; `lit q` is the literal `q`. -/
class Scalar (α : Type) extends Add α, Sub α, Mul α, Div α, Neg α, LT α, LE α where
  decLt : DecidableLT α
  decLe : DecidableLE α
  abs : α → α
  sqrt : α → α
  lit : ℚ → α

namespace Scalar

variable {α : Type} [Scalar α]

instance : DecidableLT α := decLt
instance : DecidableLE α := decLe

/-- `std::clamp` -/
def clamp (v lo hi : α) : α := if v < lo then lo else if hi < v then hi else v

/-- `std::max` -/
def max (a b : α) : α := if a < b then b else a

/-- `==` -/
def eq (a b : α) : Bool := decide (a ≤ b) && decide (b ≤ a)

end Scalar

/-- Laws of exact arithmetic: literals are compared and negated as the numbers they stand for, and
`1` and `-1` are neutral and change the sign. -/
class LawfulScalar (α : Type) [Scalar α] : Prop where
  one_mul : ∀ x : α, Scalar.lit 1 * x = x
  neg_one_mul : ∀ x : α, Scalar.lit (-1) * x = -x
  neg_lit : ∀ q : ℚ, -(Scalar.lit q : α) = Scalar.lit (-q)
  lit_lt : ∀ p q : ℚ, (Scalar.lit p : α) < Scalar.lit q ↔ p < q
  lit_le : ∀ p q : ℚ, (Scalar.lit p : α) ≤ Scalar.lit q ↔ p ≤ q

theorem Scalar.clamp_lit {α : Type} [Scalar α] [LawfulScalar α] {q lo hi : ℚ} (hlo : lo ≤ q)
    (hhi : q ≤ hi) : Scalar.clamp (Scalar.lit q : α) (Scalar.lit lo) (Scalar.lit hi) = Scalar.lit q := by
  have hlow : ¬ (Scalar.lit q : α) < Scalar.lit lo := by
    rw [LawfulScalar.lit_lt]
    exact not_lt.2 hlo
  have hhigh : ¬ (Scalar.lit hi : α) < Scalar.lit q := by
    rw [LawfulScalar.lit_lt]
    exact not_lt.2 hhi
  rw [Scalar.clamp, if_neg hlow, if_neg hhigh]

instance : Scalar ℚ where
  decLt := inferInstance
  decLe := inferInstance
  abs x := |x|
  sqrt := Rat.sqrt
  lit q := q

instance : LawfulScalar ℚ where
  one_mul := Rat.one_mul
  neg_one_mul x := neg_one_mul x
  neg_lit _ := rfl
  lit_lt _ _ := Iff.rfl
  lit_le _ _ := Iff.rfl

end Portfolio
