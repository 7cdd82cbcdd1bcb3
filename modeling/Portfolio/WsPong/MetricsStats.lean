import Mathlib.Data.Rat.Floor
import Mathlib.Algebra.Order.BigOperators.Group.List
import Portfolio.Lib.Percentile

/-!
# The statistics of the metrics client

`percentile` and the statistics that `print_stats` of `lab1.4-ws-pong/metrics_client.cpp` shows of the tick
intervals and of the input latencies, in exact arithmetic. The texts are left out, and the ticks in a second.
-/

namespace Portfolio.WsPong

def percentile (data : List ℚ) (fraction : ℚ) : ℚ :=
  if data.isEmpty then 0
  else
    let data := sorted data
    let position := fraction * (data.length - 1 : ℕ)
    let lower := ⌊position⌋₊
    let upper := ⌈position⌉₊
    let weight := position - lower
    if data.length ≤ upper then data.getLastD 0
    else (data[lower]?).getD 0 * (1 - weight) + (data[upper]?).getD 0 * weight

structure SampleStats where
  samples : Nat
  average : ℚ
  min : ℚ
  max : ℚ
  p50 : ℚ
  p95 : ℚ
  p99 : ℚ
  deriving DecidableEq

def sampleStats (data : List ℚ) : SampleStats where
  samples := data.length
  average := data.sum / data.length
  min := data.min?.getD 0
  max := data.max?.getD 0
  p50 := percentile data (1 / 2)
  p95 := percentile data (95 / 100)
  p99 := percentile data (99 / 100)

section
variable {data data' : List ℚ} {fraction fraction' : ℚ}

/-- The place of a fraction among the samples. -/
def position (data : List ℚ) (fraction : ℚ) : ℚ := fraction * (data.length - 1 : ℕ)

theorem position_mem (h0 : 0 ≤ fraction) (h1 : fraction ≤ 1) :
    0 ≤ position data fraction ∧ position data fraction ≤ (data.length - 1 : ℕ) := by
  have hn : (0 : ℚ) ≤ (data.length - 1 : ℕ) := Nat.cast_nonneg _
  exact ⟨mul_nonneg h0 hn, mul_le_of_le_one_left hn h1⟩

theorem percentile_eq (hdata : data ≠ []) (h0 : 0 ≤ fraction) (h1 : fraction ≤ 1) :
    percentile data fraction = interpolate (nth data) (position data fraction) := by
  have hpos := List.length_pos_iff.2 hdata
  have hupper : ⌈position data fraction⌉₊ ≤ data.length - 1 := Nat.ceil_le.2 (position_mem h0 h1).2
  unfold percentile
  rw [if_neg (by simpa using hdata)]
  dsimp only
  rw [length_sorted, if_neg (by rw [← position]; omega)]
  rfl

theorem nth_mono (hdata : data ≠ []) (i j : ℕ) (hij : i ≤ j) (hj : j ≤ data.length - 1) :
    nth data i ≤ nth data j := by
  have hpos := List.length_pos_iff.2 hdata
  exact nth_le hij (by omega)

theorem percentile_mono (hdata : data ≠ []) (h0 : 0 ≤ fraction) (hle : fraction ≤ fraction') (h1 : fraction' ≤ 1) :
    percentile data fraction ≤ percentile data fraction' := by
  rw [percentile_eq hdata h0 (hle.trans h1), percentile_eq hdata (h0.trans hle) h1]
  exact interpolate_mono (nth_mono hdata) (position_mem h0 (hle.trans h1)).1
    (mul_le_mul_of_nonneg_right hle (Nat.cast_nonneg _)) (position_mem (h0.trans hle) h1).2

/-- More than the fraction of the others is at most the percentile, and more than the rest is at least
that. -/
theorem percentile_ranks (hdata : data ≠ []) (h0 : 0 ≤ fraction) (h1 : fraction ≤ 1) :
    fraction * (data.length - 1 : ℕ) < data.countP (· ≤ percentile data fraction) ∧
      (1 - fraction) * (data.length - 1 : ℕ) < data.countP (percentile data fraction ≤ ·) := by
  have hpos := List.length_pos_iff.2 hdata
  obtain ⟨hlow, hhigh⟩ : 0 ≤ position data fraction ∧ position data fraction ≤ (data.length - 1 : ℕ) :=
    position_mem h0 h1
  have hceil : ⌈position data fraction⌉₊ ≤ data.length - 1 := Nat.ceil_le.2 hhigh
  have hfloor := Nat.floor_le_ceil (position data fraction)
  rw [percentile_eq hdata h0 h1]
  constructor
  · have hcount := le_countP_of_nth_le (by omega) (le_interpolate (nth_mono hdata) hlow hhigh)
    calc position data fraction < ⌊position data fraction⌋₊ + 1 := Nat.lt_floor_add_one _
      _ ≤ _ := by exact_mod_cast hcount
  · have hcount := le_countP_of_le_nth (by omega) (interpolate_le (nth_mono hdata) hhigh)
    have hcast : (data.length : ℚ) ≤ data.countP (interpolate (nth data) (position data fraction) ≤ ·) +
        ⌈position data fraction⌉₊ := by exact_mod_cast Nat.sub_le_iff_le_add.1 hcount
    have hlt := Nat.ceil_lt_add_one hlow
    have hlength : (data.length : ℚ) = (data.length - 1 : ℕ) + 1 := by
      exact_mod_cast (Nat.sub_add_cancel hpos).symm
    unfold position at hlt hcast ⊢
    linarith

theorem percentile_perm (h : data.Perm data') (fraction : ℚ) : percentile data fraction = percentile data' fraction := by
  have hsorted : sorted data = sorted data' := sorted_congr h
  have hempty : data.isEmpty = data'.isEmpty := by
    rw [Bool.eq_iff_iff, List.isEmpty_iff_length_eq_zero, List.isEmpty_iff_length_eq_zero, h.length_eq]
  unfold percentile
  rw [hsorted, hempty]

/-- The statistics do not depend on the order in which the samples came. -/
theorem sampleStats_perm (h : data.Perm data') : sampleStats data = sampleStats data' := by
  have hmin : data.min? = data'.min? := by
    rcases hm : data'.min? with _ | m
    · rw [List.min?_eq_none_iff] at hm ⊢
      exact (hm ▸ h).eq_nil
    · obtain ⟨hmem, hle⟩ := List.min?_eq_some_iff.1 hm
      exact List.min?_eq_some_iff.2 ⟨h.mem_iff.2 hmem, fun b hb => hle b (h.mem_iff.1 hb)⟩
  have hmax : data.max? = data'.max? := by
    rcases hm : data'.max? with _ | m
    · rw [List.max?_eq_none_iff] at hm ⊢
      exact (hm ▸ h).eq_nil
    · obtain ⟨hmem, hle⟩ := List.max?_eq_some_iff.1 hm
      exact List.max?_eq_some_iff.2 ⟨h.mem_iff.2 hmem, fun b hb => hle b (h.mem_iff.1 hb)⟩
  simp only [sampleStats, hmin, hmax, h.length_eq, h.sum_eq, percentile_perm h]

theorem min_mem (hdata : data ≠ []) : (sampleStats data).min ∈ data ∧ ∀ a ∈ data, (sampleStats data).min ≤ a := by
  rcases hm : data.min? with _ | m
  · exact absurd (List.min?_eq_none_iff.1 hm) hdata
  · simpa [sampleStats, hm] using List.min?_eq_some_iff.1 hm

theorem max_mem (hdata : data ≠ []) : (sampleStats data).max ∈ data ∧ ∀ a ∈ data, a ≤ (sampleStats data).max := by
  rcases hm : data.max? with _ | m
  · exact absurd (List.max?_eq_none_iff.1 hm) hdata
  · simpa [sampleStats, hm] using List.max?_eq_some_iff.1 hm

theorem percentile_between (hdata : data ≠ []) (h0 : 0 ≤ fraction) (h1 : fraction ≤ 1) :
    (sampleStats data).min ≤ percentile data fraction ∧ percentile data fraction ≤ (sampleStats data).max := by
  have hpos := List.length_pos_iff.2 hdata
  obtain ⟨hlow, hhigh⟩ : 0 ≤ position data fraction ∧ position data fraction ≤ (data.length - 1 : ℕ) :=
    position_mem h0 h1
  have hceil : ⌈position data fraction⌉₊ ≤ data.length - 1 := Nat.ceil_le.2 hhigh
  have hfloor := Nat.floor_le_ceil (position data fraction)
  rw [percentile_eq hdata h0 h1]
  constructor
  · calc (sampleStats data).min ≤ nth data ⌊position data fraction⌋₊ := (min_mem hdata).2 _ (nth_mem (by omega))
      _ ≤ _ := le_interpolate (nth_mono hdata) hlow hhigh
  · calc interpolate (nth data) (position data fraction) ≤ nth data ⌈position data fraction⌉₊ :=
          interpolate_le (nth_mono hdata) hhigh
      _ ≤ (sampleStats data).max := (max_mem hdata).2 _ (nth_mem (by omega))

theorem average_between (hdata : data ≠ []) :
    (sampleStats data).min ≤ (sampleStats data).average ∧ (sampleStats data).average ≤ (sampleStats data).max := by
  have hpos : (0 : ℚ) < data.length := by exact_mod_cast List.length_pos_iff.2 hdata
  constructor
  · refine (le_div_iff₀ hpos).2 ?_
    have hsum := List.card_nsmul_le_sum data (sampleStats data).min (min_mem hdata).2
    rwa [nsmul_eq_mul, mul_comm] at hsum
  · refine (div_le_iff₀ hpos).2 ?_
    have hsum := List.sum_le_card_nsmul data (sampleStats data).max (max_mem hdata).2
    rwa [nsmul_eq_mul, mul_comm] at hsum

end

theorem stats_ordered (data : List ℚ) (hdata : data ≠ []) :
    let stats := sampleStats data
    (stats.min ∈ data ∧ stats.min ≤ stats.p50 ∧ stats.p50 ≤ stats.p95 ∧ stats.p95 ≤ stats.p99 ∧
        stats.p99 ≤ stats.max ∧ stats.max ∈ data) ∧
      (stats.min ≤ stats.average ∧ stats.average ≤ stats.max) ∧
      (∀ data', data.Perm data' → sampleStats data' = stats) ∧
      (∀ fraction : ℚ, 0 ≤ fraction → fraction ≤ 1 →
        fraction * (data.length - 1 : ℕ) < data.countP (· ≤ percentile data fraction) ∧
          (1 - fraction) * (data.length - 1 : ℕ) < data.countP (percentile data fraction ≤ ·)) := by
  refine ⟨⟨(min_mem hdata).1, ?_, ?_, ?_, ?_, (max_mem hdata).1⟩, average_between hdata,
    fun data' h => (sampleStats_perm h).symm, fun fraction h0 h1 => percentile_ranks hdata h0 h1⟩
  · exact (percentile_between hdata (by norm_num) (by norm_num)).1
  · exact percentile_mono hdata (by norm_num) (by norm_num) (by norm_num)
  · exact percentile_mono hdata (by norm_num) (by norm_num) (by norm_num)
  · exact (percentile_between hdata (by norm_num) (by norm_num)).2

theorem stats_ordered_four :
    let stats := sampleStats [16, 18, 15, 19]
    ([16, 18, 15, 19] : List ℚ) ≠ [] ∧ stats.min ≤ stats.p50 ∧ stats.p50 ≤ stats.p95 ∧
      sampleStats [15, 16, 18, 19] = stats := by
  obtain ⟨⟨-, hmin, hp50, -⟩, -, hperm, -⟩ := stats_ordered [16, 18, 15, 19] (by decide)
  exact ⟨by decide, hmin, hp50, hperm [15, 16, 18, 19] (by decide)⟩

end Portfolio.WsPong
