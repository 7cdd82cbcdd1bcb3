import Mathlib.Algebra.Order.Ring.Nat
import Mathlib.Data.Nat.ModEq

/-!
# Rows with padding

A plane of rows in memory, in which a row may be followed by padding up to the next one, and the same
rows without padding.
-/

namespace Portfolio

/-- The least multiple of `align` that is not less than `n`. -/
def roundUp (align n : Nat) : Nat := (n + align - 1) / align * align

theorem le_roundUp {align n : Nat} (h : 0 < align) : n ≤ roundUp align n := by
  have hmod := Nat.mod_lt (n + align - 1) h
  have hdiv := Nat.div_add_mod' (n + align - 1) align
  rw [roundUp]
  omega

theorem roundUp_eq_self_iff {align n : Nat} (h : 0 < align) : roundUp align n = n ↔ align ∣ n := by
  constructor
  · intro heq
    rw [← heq]
    exact Nat.dvd_mul_left align _
  · rintro ⟨k, rfl⟩
    have hdiv : (align * k + align - 1) / align = k := by
      rw [Nat.add_sub_assoc h, Nat.mul_add_div h, Nat.div_eq_of_lt (Nat.sub_lt h Nat.one_pos),
        Nat.add_zero]
    rw [roundUp, hdiv, Nat.mul_comm]

/-- `cell row i` is the `i`-th cell of a row with its padding; the padding starts at `width`. -/
structure Plane (β : Type) where
  width : Nat
  pitch : Nat
  rows : Nat
  cell : Nat → Nat → β
  width_le : width ≤ pitch

variable {β : Type}

/-- The cells in the order in which they are in memory. -/
def Plane.toList (plane : Plane β) : List β :=
  (List.range (plane.pitch * plane.rows)).map fun i => plane.cell (i / plane.pitch) (i % plane.pitch)

/-- `rows` rows of `width` cells each, with nothing between them. -/
structure Packed (cell : Nat → Nat → β) (width rows : Nat) (bytes : List β) : Prop where
  length : bytes.length = width * rows
  get : ∀ y < rows, ∀ i < width, bytes[y * width + i]? = some (cell y i)

namespace Plane
variable (plane : Plane β)

theorem length_toList : plane.toList.length = plane.pitch * plane.rows := by
  rw [toList, List.length_map, List.length_range]

theorem getElem?_toList {y i : Nat} (hy : y < plane.rows) (hi : i < plane.pitch) :
    plane.toList[y * plane.pitch + i]? = some (plane.cell y i) := by
  have hpos : 0 < plane.pitch := Nat.zero_lt_of_lt hi
  have hrow : y * plane.pitch + plane.pitch ≤ plane.pitch * plane.rows := by
    rw [Nat.mul_comm plane.pitch, ← Nat.succ_mul]
    exact Nat.mul_le_mul_right plane.pitch hy
  have hlt : y * plane.pitch + i < plane.pitch * plane.rows := by omega
  have hdiv : (y * plane.pitch + i) / plane.pitch = y := by
    rw [Nat.mul_comm, Nat.mul_add_div hpos, Nat.div_eq_of_lt hi, Nat.add_zero]
  have hmod : (y * plane.pitch + i) % plane.pitch = i := by
    rw [Nat.mul_comm, Nat.mul_add_mod, Nat.mod_eq_of_lt hi]
  rw [toList, List.getElem?_map, List.getElem?_range hlt, Option.map_some, hdiv, hmod]

/-- The copy of a plane is packed if it has no padding. -/
theorem packed_toList_iff (h : 0 < plane.rows) :
    Packed plane.cell plane.width plane.rows plane.toList ↔ plane.pitch = plane.width := by
  constructor
  · intro hpacked
    have hlen := hpacked.length
    rw [length_toList] at hlen
    exact Nat.eq_of_mul_eq_mul_right h hlen
  · intro heq
    refine ⟨by rw [length_toList, heq], fun y hy i hi => ?_⟩
    rw [← heq] at hi ⊢
    exact plane.getElem?_toList hy hi

end Plane

end Portfolio
