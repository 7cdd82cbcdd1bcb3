import Mathlib.Algebra.Order.Floor.Semiring
import Mathlib.Data.List.Sort
import Mathlib.Tactic.Linarith

/-!
# Percentiles

The entries of a list in order, how many entries are at most or at least a given one, and linear
interpolation between neighbours of a sequence that does not decrease.
-/

namespace Portfolio

section Ranks
variable {K : Type} [LinearOrder K] [Zero K]

def sorted (l : List K) : List K := l.mergeSort fun a b => decide (a ≤ b)

/-- The entry number `i` of the sorted list. -/
def nth (l : List K) (i : ℕ) : K := ((sorted l)[i]?).getD 0

variable {l l' : List K} {i j : ℕ} {p : K}

omit [Zero K] in
theorem sorted_perm (l : List K) : (sorted l).Perm l := List.mergeSort_perm _ _

omit [Zero K] in
@[simp] theorem length_sorted (l : List K) : (sorted l).length = l.length := (sorted_perm l).length_eq

omit [Zero K] in
theorem pairwise_sorted (l : List K) : (sorted l).Pairwise (· ≤ ·) := by
  have htrans : ∀ a b c : K, decide (a ≤ b) = true → decide (b ≤ c) = true → decide (a ≤ c) = true :=
    fun a b c hab hbc => decide_eq_true (le_trans (of_decide_eq_true hab) (of_decide_eq_true hbc))
  have htotal : ∀ a b : K, (decide (a ≤ b) || decide (b ≤ a)) = true := by
    intro a b
    rcases le_total a b with h | h
    · simp [h]
    · simp [h]
  exact (List.pairwise_mergeSort htrans htotal l).imp of_decide_eq_true

theorem nth_eq (h : i < (sorted l).length) : nth l i = (sorted l)[i] := by
  rw [nth, List.getElem?_eq_getElem h]
  rfl

theorem nth_mem (h : i < l.length) : nth l i ∈ l := by
  have hi : i < (sorted l).length := by rwa [length_sorted]
  rw [nth_eq hi]
  exact (sorted_perm l).subset (List.getElem_mem hi)

theorem nth_le (hij : i ≤ j) (hj : j < l.length) : nth l i ≤ nth l j := by
  have hj' : j < (sorted l).length := by rwa [length_sorted]
  have hi' : i < (sorted l).length := lt_of_le_of_lt hij hj'
  rw [nth_eq hi', nth_eq hj']
  rcases hij.lt_or_eq with hlt | rfl
  · exact List.pairwise_iff_getElem.1 (pairwise_sorted l) i j hi' hj' hlt
  · exact le_refl _

omit [Zero K] in
/-- The order in which the entries came does not matter. -/
theorem sorted_congr (h : l.Perm l') : sorted l = sorted l' :=
  List.Perm.eq_of_pairwise (fun _ _ _ _ hab hba => le_antisymm hab hba) (pairwise_sorted l) (pairwise_sorted l')
    (((sorted_perm l).trans h).trans (sorted_perm l').symm)

theorem le_countP_of_nth_le (hi : i < l.length) (hp : nth l i ≤ p) : i + 1 ≤ l.countP (· ≤ p) := by
  have hi' : i < (sorted l).length := by rwa [length_sorted]
  have hall : ∀ a ∈ (sorted l).take (i + 1), decide (a ≤ p) = true := by
    intro a ha
    obtain ⟨j, hj, rfl⟩ := List.mem_take_iff_getElem.1 ha
    have hj' : j < (sorted l).length := by omega
    have hle := nth_le (l := l) (i := j) (j := i) (by omega) hi
    rw [nth_eq hj'] at hle
    exact decide_eq_true (hle.trans hp)
  calc i + 1 = ((sorted l).take (i + 1)).length := by rw [List.length_take]; omega
    _ = ((sorted l).take (i + 1)).countP (· ≤ p) := (List.countP_eq_length.2 hall).symm
    _ ≤ (sorted l).countP (· ≤ p) := (List.take_sublist _ _).countP_le
    _ = l.countP (· ≤ p) := (sorted_perm l).countP_eq _

theorem le_countP_of_le_nth (hi : i < l.length) (hp : p ≤ nth l i) : l.length - i ≤ l.countP (p ≤ ·) := by
  have hi' : i < (sorted l).length := by rwa [length_sorted]
  have hall : ∀ a ∈ (sorted l).drop i, decide (p ≤ a) = true := by
    intro a ha
    obtain ⟨j, hj, rfl⟩ := List.mem_drop_iff_getElem.1 ha
    have hle := nth_le (l := l) (i := i) (j := i + j) (by omega) (by rw [length_sorted] at hj; omega)
    rw [nth_eq (i := i + j) (by omega)] at hle
    exact decide_eq_true (hp.trans hle)
  calc l.length - i = ((sorted l).drop i).length := by rw [List.length_drop, length_sorted]
    _ = ((sorted l).drop i).countP (p ≤ ·) := (List.countP_eq_length.2 hall).symm
    _ ≤ (sorted l).countP (p ≤ ·) := (List.drop_sublist _ _).countP_le
    _ = l.countP (p ≤ ·) := (sorted_perm l).countP_eq _

theorem nth_le_iff (hi : i < l.length) : nth l i ≤ p ↔ i < l.countP (· ≤ p) := by
  refine ⟨fun hp => le_countP_of_nth_le hi hp, fun hcount => ?_⟩
  by_contra hp
  -- the entries from `i` on are above `p`
  have hall : ∀ a ∈ (sorted l).drop i, ¬ decide (a ≤ p) = true := by
    intro a ha
    obtain ⟨j, hj, rfl⟩ := List.mem_drop_iff_getElem.1 ha
    have hle := nth_le (l := l) (i := i) (j := i + j) (by omega) (by rw [length_sorted] at hj; omega)
    rw [nth_eq (i := i + j) (by omega)] at hle
    simpa using lt_of_lt_of_le (not_le.1 hp) hle
  have hsplit : (sorted l).countP (· ≤ p) = ((sorted l).take i).countP (· ≤ p) := by
    conv_lhs => rw [← List.take_append_drop i (sorted l)]
    rw [List.countP_append, List.countP_eq_zero.2 hall, Nat.add_zero]
  have hle : ((sorted l).take i).countP (· ≤ p) ≤ i :=
    List.countP_le_length.trans ((List.length_take_le i (sorted l)))
  rw [← (sorted_perm l).countP_eq, hsplit] at hcount
  omega

end Ranks

/-! ### Interpolation -/

section Interpolation
variable {K : Type} [Field K] [LinearOrder K] [IsStrictOrderedRing K] [FloorSemiring K]

/-- The sequence `f` at `x`, on the line between the neighbours. -/
def interpolate (f : ℕ → K) (x : K) : K := f ⌊x⌋₊ * (1 - (x - ⌊x⌋₊)) + f ⌈x⌉₊ * (x - ⌊x⌋₊)

variable {f : ℕ → K} {m : ℕ} {x y : K}

omit [IsStrictOrderedRing K] in
theorem ceil_of_ne (hx : 0 ≤ x) (h : x ≠ ⌊x⌋₊) : ⌈x⌉₊ = ⌊x⌋₊ + 1 := by
  refine le_antisymm (Nat.ceil_le_floor_add_one x) (Nat.lt_ceil.2 ?_)
  exact lt_of_le_of_ne (Nat.floor_le hx) (Ne.symm h)

theorem le_interpolate (hf : ∀ i j, i ≤ j → j ≤ m → f i ≤ f j) (hx : 0 ≤ x) (hm : x ≤ m) :
    f ⌊x⌋₊ ≤ interpolate f x := by
  have hle := hf ⌊x⌋₊ ⌈x⌉₊ (Nat.floor_le_ceil x) (Nat.ceil_le.2 hm)
  have hweight : 0 ≤ x - ⌊x⌋₊ := sub_nonneg.2 (Nat.floor_le hx)
  rw [interpolate]
  nlinarith [mul_nonneg (sub_nonneg.2 hle) hweight]

theorem interpolate_le (hf : ∀ i j, i ≤ j → j ≤ m → f i ≤ f j) (hm : x ≤ m) :
    interpolate f x ≤ f ⌈x⌉₊ := by
  have hle := hf ⌊x⌋₊ ⌈x⌉₊ (Nat.floor_le_ceil x) (Nat.ceil_le.2 hm)
  have hweight : 0 ≤ 1 - (x - ⌊x⌋₊) := by linarith [Nat.lt_floor_add_one x]
  rw [interpolate]
  nlinarith [mul_nonneg (sub_nonneg.2 hle) hweight]

theorem interpolate_mono (hf : ∀ i j, i ≤ j → j ≤ m → f i ≤ f j) (hx : 0 ≤ x) (hxy : x ≤ y) (hm : y ≤ m) :
    interpolate f x ≤ interpolate f y := by
  rcases (Nat.floor_le_floor hxy).lt_or_eq with hlt | heq
  · -- an entry lies between them
    calc interpolate f x ≤ f ⌈x⌉₊ := interpolate_le hf (hxy.trans hm)
      _ ≤ f ⌊y⌋₊ := hf _ _ ((Nat.ceil_le_floor_add_one x).trans hlt)
        ((Nat.floor_le_ceil y).trans (Nat.ceil_le.2 hm))
      _ ≤ interpolate f y := le_interpolate hf (hx.trans hxy) hm
  · by_cases hfloor : x = ⌊x⌋₊
    · have hstart : interpolate f x = f ⌊x⌋₊ := by
        rw [interpolate, ← hfloor, sub_self, sub_zero, mul_one, mul_zero, add_zero]
      rw [hstart, heq]
      exact le_interpolate hf (hx.trans hxy) hm
    · -- both lie between the same neighbours
      have hlt : (⌊x⌋₊ : K) < x := lt_of_le_of_ne (Nat.floor_le hx) (Ne.symm hfloor)
      have hfloor' : y ≠ ⌊y⌋₊ := by
        rw [← heq]
        exact ne_of_gt (lt_of_lt_of_le hlt hxy)
      have hceil := ceil_of_ne hx hfloor
      have hceil' := ceil_of_ne (hx.trans hxy) hfloor'
      have hle := hf ⌊x⌋₊ (⌊x⌋₊ + 1) (Nat.le_succ _) (hceil ▸ Nat.ceil_le.2 (hxy.trans hm))
      rw [interpolate, interpolate, hceil, hceil', ← heq]
      nlinarith [mul_nonneg (sub_nonneg.2 hle) (sub_nonneg.2 hxy)]

end Interpolation
end Portfolio
