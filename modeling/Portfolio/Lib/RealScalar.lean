import Portfolio.Lib.Scalar
import Mathlib.Analysis.Complex.Norm

/-!
# Exact arithmetic

The real numbers as a `Scalar`, for what is said of `double` computations in exact arithmetic,
rounding to integers, vectors of the plane that are normalised before they are scaled, and instants
that keep a distance.
-/

namespace Portfolio

noncomputable instance : Scalar ℝ where
  decLt := inferInstance
  decLe := inferInstance
  abs x := |x|
  sqrt := Real.sqrt
  lit q := q

namespace Scalar

@[simp] theorem lit_real (q : ℚ) : (Scalar.lit q : ℝ) = q := rfl

@[simp] theorem sqrt_real (x : ℝ) : Scalar.sqrt x = √x := rfl

theorem clamp_mem {lo hi : ℝ} (h : lo ≤ hi) (v : ℝ) : clamp v lo hi ∈ Set.Icc lo hi := by
  unfold clamp
  by_cases hlo : v < lo
  · rw [if_pos hlo]
    exact ⟨le_refl lo, h⟩
  · rw [if_neg hlo]
    by_cases hhi : hi < v
    · rw [if_pos hhi]
      exact ⟨h, le_refl hi⟩
    · rw [if_neg hhi]
      exact ⟨not_lt.1 hlo, not_lt.1 hhi⟩

end Scalar

/-- `std::lround`: the nearest integer, halves away from zero. -/
noncomputable def lround (x : ℝ) : ℤ := if 0 ≤ x then round x else -round (-x)

theorem abs_lround_sub_le (x : ℝ) : |lround x - x| ≤ 1 / 2 := by
  unfold lround
  split
  · rw [abs_sub_comm]
    exact abs_sub_round x
  · have hround := abs_sub_round (-x)
    rw [show -x - round (-x) = ((-round (-x) : ℤ) : ℝ) - x by push_cast; ring] at hround
    exact hround

/-- A number between two integers is rounded to a number between them. -/
theorem lround_mem {a b : ℤ} {x : ℝ} (ha : (a : ℝ) ≤ x) (hb : x ≤ b) : a ≤ lround x ∧ lround x ≤ b := by
  obtain ⟨hlow, hhigh⟩ := abs_le.1 (abs_lround_sub_le x)
  constructor
  · have h : (a : ℝ) < lround x + 1 := by linarith
    exact Int.lt_add_one_iff.1 (by exact_mod_cast h)
  · have h : (lround x : ℝ) < b + 1 := by linarith
    exact Int.lt_add_one_iff.1 (by exact_mod_cast h)

/-- Two numbers whose sum is an integer keep it up to one when both are rounded. -/
theorem abs_lround_add_sub_le {x y : ℝ} {n : ℤ} (h : x + y = n) : |lround x + lround y - n| ≤ 1 := by
  have hx := abs_lround_sub_le x
  have hy := abs_lround_sub_le y
  have hsum : |((lround x + lround y - n : ℤ) : ℝ)| ≤ 1 := by
    calc |((lround x + lround y - n : ℤ) : ℝ)|
        = |(lround x - x) + (lround y - y)| := by
          push_cast
          rw [← h]
          ring_nf
      _ ≤ |lround x - x| + |lround y - y| := abs_add_le _ _
      _ ≤ 1 := by linarith
  exact_mod_cast hsum

/-- The length of the vector `(x, y)`. -/
noncomputable def length2 (x y : ℝ) : ℝ := √(x ^ 2 + y ^ 2)

theorem length2_eq_norm (x y : ℝ) : length2 x y = ‖(⟨x, y⟩ : ℂ)‖ := by
  rw [length2, Complex.norm_def, Complex.normSq_mk, sq, sq]

theorem length2_add_le (x y x' y' : ℝ) : length2 (x + x') (y + y') ≤ length2 x y + length2 x' y' := by
  rw [length2_eq_norm, length2_eq_norm, length2_eq_norm]
  exact norm_add_le (⟨x, y⟩ : ℂ) ⟨x', y'⟩

theorem length2_of_level {x : ℝ} (h : 0 ≤ x) : length2 x 0 = x := by
  simp [length2, Real.sqrt_sq h]

@[simp] theorem length2_zero : length2 0 0 = 0 := length2_of_level (le_refl 0)

/-- A vector, normalised unless it is zero and then scaled by `d`, has length at most `|d|`. -/
theorem length2_normalised_le (x y d : ℝ) {m : ℝ} (hm : m = √(x * x + y * y)) :
    length2 ((if 0 < m then x / m else x) * d) ((if 0 < m then y / m else y) * d) ≤ |d| := by
  have hnonneg : 0 ≤ x * x + y * y := add_nonneg (mul_self_nonneg x) (mul_self_nonneg y)
  by_cases hpos : 0 < m
  · rw [if_pos hpos, if_pos hpos]
    have hsq : m ^ 2 = x ^ 2 + y ^ 2 := by
      rw [hm, Real.sq_sqrt hnonneg]
      ring
    have hunit : (x / m) ^ 2 + (y / m) ^ 2 = 1 := by
      rw [div_pow, div_pow, ← add_div, ← hsq]
      exact div_self (by positivity)
    refine le_of_eq ?_
    calc length2 (x / m * d) (y / m * d)
        = √(((x / m) ^ 2 + (y / m) ^ 2) * d ^ 2) := by rw [length2]; ring_nf
      _ = |d| := by rw [hunit, one_mul, Real.sqrt_sq_eq_abs]
  · have hzero : x * x + y * y = 0 := by
      refine (Real.sqrt_eq_zero hnonneg).1 (le_antisymm ?_ (Real.sqrt_nonneg _))
      rw [← hm]
      exact not_lt.1 hpos
    obtain ⟨rfl, rfl⟩ := mul_self_add_mul_self_eq_zero.1 hzero
    simp

/-- Instants in `[t, u)` that lie at least `d` apart. -/
theorem lt_of_spaced {d t u : ℝ} {ts : List ℝ} (hne : ts ≠ []) (hspaced : ts.Pairwise fun a b => a + d ≤ b)
    (hmem : ∀ x ∈ ts, t ≤ x ∧ x < u) : t + (ts.length - 1) * d < u := by
  induction ts generalizing t with
  | nil => exact absurd rfl hne
  | cons a ts ih =>
    obtain ⟨hta, hau⟩ := hmem a List.mem_cons_self
    obtain ⟨hnext, hspaced⟩ := List.pairwise_cons.1 hspaced
    by_cases hempty : ts = []
    · subst hempty
      simpa using hta.trans_lt hau
    · have hlast := ih hempty hspaced fun x hx => ⟨hnext x hx, (hmem x (List.mem_cons_of_mem a hx)).2⟩
      rw [List.length_cons, Nat.cast_add, Nat.cast_one]
      linarith

end Portfolio
