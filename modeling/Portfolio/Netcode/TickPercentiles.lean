import Mathlib.Data.Rat.Floor
import Portfolio.Lib.Percentile
import Portfolio.Netcode.Metrics

/-!
# The quantiles of the tick durations

What `get_metrics` of `PrometheusExporter` shows of the tick durations, in exact arithmetic, and the
buckets of the histogram, in every run of the server with metrics.
-/

namespace Portfolio.Netcode

def Histogram.percentile (h : Histogram ℚ) (p : ℚ) : ℚ :=
  if h.values.isEmpty then 0
  else
    let sorted := sorted h.values
    let index := ⌊p * (sorted.length - 1 : ℕ)⌋₊
    (sorted[index]?).getD 0

/-- The quantiles of `game_tick_duration_seconds`. -/
def PrometheusExporter.tickQuantiles (e : PrometheusExporter ℚ) : Option (ℚ × ℚ × ℚ) :=
  if e.tickDurationHist.values.isEmpty then none
  else some (e.tickDurationHist.percentile (50 / 100), e.tickDurationHist.percentile (90 / 100),
    e.tickDurationHist.percentile (99 / 100))

namespace Histogram
variable {h : Histogram ℚ} {p q : ℚ}

theorem index_lt (hvalues : h.values ≠ []) (hp : p ≤ 1) : ⌊p * (h.values.length - 1 : ℕ)⌋₊ < h.values.length := by
  have hpos := List.length_pos_iff.2 hvalues
  have hle : p * (h.values.length - 1 : ℕ) ≤ (h.values.length - 1 : ℕ) := mul_le_of_le_one_left (Nat.cast_nonneg _) hp
  have hfloor := Nat.floor_le_of_le hle
  omega

theorem percentile_eq (hvalues : h.values ≠ []) :
    h.percentile p = nth h.values ⌊p * (h.values.length - 1 : ℕ)⌋₊ := by
  unfold percentile
  rw [if_neg (by simpa using hvalues)]
  dsimp only
  rw [length_sorted]
  rfl

theorem percentile_mem (hvalues : h.values ≠ []) (hp : p ≤ 1) : h.percentile p ∈ h.values := by
  rw [percentile_eq hvalues]
  exact nth_mem (index_lt hvalues hp)

theorem percentile_mono (hvalues : h.values ≠ []) (hpq : p ≤ q) (hq : q ≤ 1) : h.percentile p ≤ h.percentile q := by
  rw [percentile_eq hvalues, percentile_eq hvalues]
  exact nth_le (Nat.floor_le_floor (mul_le_mul_of_nonneg_right hpq (Nat.cast_nonneg _))) (index_lt hvalues hq)

/-- The buckets count the values up to their bounds. -/
def Counted (h : Histogram ℚ) : Prop :=
  h.buckets = (bucketBounds ℚ).map fun bound => h.values.countP (· ≤ bound)

theorem counted_empty : Counted {} := rfl

theorem Counted.observe (hc : h.Counted) (value : ℚ) : (h.observe value).Counted := by
  unfold Counted Histogram.observe
  rw [hc, List.zipWith_map_right, List.zipWith_self]
  refine List.map_congr_left fun bound _ => ?_
  rw [List.countP_append, List.countP_singleton]
  by_cases hle : value ≤ bound
  · rw [if_pos hle, if_pos (by simpa using hle)]
  · rw [if_neg hle, if_neg (by simpa using hle), Nat.add_zero]

/-- A percentile is within a bound if and only if the bucket of the bound reaches beyond its index. -/
theorem Counted.percentile_le_iff (hc : h.Counted) (hvalues : h.values ≠ []) (hp : p ≤ 1) {bound : ℚ} {count : ℕ}
    (hmem : (bound, count) ∈ (bucketBounds ℚ).zip h.buckets) :
    h.percentile p ≤ bound ↔ ⌊p * (h.values.length - 1 : ℕ)⌋₊ < count := by
  have hzip : (bucketBounds ℚ).zip h.buckets =
      (bucketBounds ℚ).map fun bound => (bound, h.values.countP (· ≤ bound)) := by
    rw [hc]
    conv_lhs => arg 1; rw [← List.map_id (bucketBounds ℚ)]
    exact List.zip_map'
  rw [hzip] at hmem
  obtain ⟨bound', -, heq⟩ := List.mem_map.1 hmem
  obtain ⟨rfl, rfl⟩ := Prod.mk.inj heq
  rw [percentile_eq hvalues]
  exact nth_le_iff (index_lt hvalues hp)

end Histogram

/-! ### Runs -/

/-- The durations of the ticks. -/
def durations (events : List (MeteredEvent ℚ)) : List ℚ :=
  events.filterMap fun
    | .tick dt _ => some dt
    | .datagram .. => none

@[simp] theorem durations_tick (events : List (MeteredEvent ℚ)) (dt : ℚ) (now : Time) :
    durations (events ++ [.tick dt now]) = durations events ++ [dt] := by
  simp [durations]

@[simp] theorem durations_datagram (events : List (MeteredEvent ℚ)) (endpoint : Endpoint) (bytes : List Byte)
    (now : Time) : durations (events ++ [.datagram endpoint bytes now]) = durations events := by
  simp [durations]

/-- The newest entries, at most sixty. -/
def newest (values : List ℚ) : List ℚ := values.drop (values.length - min values.length 60)

theorem newest_sublist (values : List ℚ) : (newest values).Sublist values := List.drop_sublist _ _

theorem newest_map (f : ℚ → ℚ) (values : List ℚ) : newest (values.map f) = (newest values).map f := by
  rw [newest, newest, List.length_map, List.map_drop]

/-- The histogram after the values were observed one by one. -/
theorem values_observe (values : List ℚ) (e : PrometheusExporter ℚ) :
    (values.foldl (fun e ms => e.observeTickDuration (ms / Scalar.lit 1000)) e).tickDurationHist.values =
      e.tickDurationHist.values ++ values.map (· / 1000) := by
  induction values generalizing e with
  | nil => exact (List.append_nil _).symm
  | cons v values ih =>
    rw [List.foldl_cons, ih, List.map_cons]
    exact List.append_assoc _ [v / 1000] _

theorem counted_observe (values : List ℚ) (e : PrometheusExporter ℚ) (hc : e.tickDurationHist.Counted) :
    (values.foldl (fun e ms => e.observeTickDuration (ms / Scalar.lit 1000)) e).tickDurationHist.Counted := by
  induction values generalizing e with
  | nil => exact hc
  | cons v values ih =>
    rw [List.foldl_cons]
    exact ih _ (hc.observe _)

/-- Every value of the histogram is the duration of a tick, and the buckets count the values. -/
structure Timed (ticks : List ℚ) (s : MeteredServer ℚ) : Prop where
  durations : s.tickDurationsMs = ticks.map (· * 1000)
  values : s.exporter.tickDurationHist.values ⊆ ticks
  counted : s.exporter.tickDurationHist.Counted

section
variable {ticks : List ℚ} {s : MeteredServer ℚ}

theorem map_seconds (ticks : List ℚ) : (ticks.map (· * 1000)).map (· / 1000) = ticks := by
  rw [List.map_map]
  refine (List.map_congr_left fun q _ => ?_).trans (List.map_id ticks)
  exact mul_div_cancel_right₀ q (by norm_num)

theorem tickDurationHist_update (s : MeteredServer ℚ) :
    s.updatePrometheusMetrics.1.exporter.tickDurationHist =
      ((newest s.tickDurationsMs).foldl (fun (e : PrometheusExporter ℚ) ms => e.observeTickDuration (ms / Scalar.lit 1000))
        { s.exporter with gameTickRate := Scalar.lit 60 }).tickDurationHist := by
  unfold MeteredServer.updatePrometheusMetrics newest
  dsimp only
  generalize List.foldl _ _ _ = e
  rfl

/-- An update observes the newest durations. -/
theorem values_update (h : s.tickDurationsMs = ticks.map (· * 1000)) :
    s.updatePrometheusMetrics.1.exporter.tickDurationHist.values =
      s.exporter.tickDurationHist.values ++ newest ticks := by
  rw [tickDurationHist_update, values_observe, h, newest_map, map_seconds]

theorem Timed.update (h : Timed ticks s) : Timed ticks s.updatePrometheusMetrics.1 where
  durations := h.durations
  values := by
    rw [values_update h.durations]
    exact List.append_subset.2 ⟨h.values, (newest_sublist ticks).subset⟩
  counted := by
    rw [tickDurationHist_update]
    exact counted_observe _ _ h.counted

theorem Timed.record (h : Timed ticks s) (dt : ℚ) : Timed (ticks ++ [dt])
    { s with tickDurationsMs := s.tickDurationsMs ++ [dt * Scalar.lit 1000] } where
  durations := by
    rw [h.durations, List.map_append]
    rfl
  values := List.Subset.trans h.values (List.subset_append_left _ _)
  counted := h.counted

theorem Timed.recordTickMetrics (h : Timed ticks s) (dt : ℚ) (now : Time) :
    Timed (ticks ++ [dt]) (s.recordTickMetrics dt now).1 := by
  unfold MeteredServer.recordTickMetrics
  dsimp only
  split
  · obtain ⟨hdurations, hvalues, hcounted⟩ := (h.record dt).update
    exact ⟨hdurations, hvalues, hcounted⟩
  · exact h.record dt

end

variable (fc : FloatCodec ℚ) (parse : List Byte → Option Input)

theorem timed_run (roomManager : Bool) (start : Time) (events : List (MeteredEvent ℚ)) :
    Timed (durations events) ((meteredMachine fc parse roomManager start).run events).1 := by
  refine (meteredMachine fc parse roomManager start).run_inv (P := fun events _ s => Timed (durations events) s)
    ⟨rfl, List.nil_subset _, Histogram.counted_empty⟩ ?_ events
  intro events _ s event h
  cases event with
  | tick dt now =>
    rw [durations_tick]
    obtain ⟨hdurations, hvalues, hcounted⟩ := h.recordTickMetrics dt now
    exact ⟨hdurations, hvalues, hcounted⟩
  | datagram endpoint bytes now =>
    rw [durations_datagram]
    exact ⟨h.durations, h.values, h.counted⟩

/-- What a tick adds to the histogram. -/
theorem values_recordTickMetrics {ticks : List ℚ} {s : MeteredServer ℚ} (h : Timed ticks s) (dt : ℚ) (now : Time) :
    (s.recordTickMetrics dt now).1.exporter.tickDurationHist.values =
      s.exporter.tickDurationHist.values ++
        (s.recordTickMetrics dt now).2.flatMap fun _ => newest (ticks ++ [dt]) := by
  have hupdate := values_update (h.record dt).durations
  unfold MeteredServer.recordTickMetrics
  dsimp only
  split
  · rw [hupdate]
    exact congrArg _ (List.append_nil _).symm
  · exact (List.append_nil _).symm

theorem tick_quantiles (roomManager : Bool) (start : Time) (events : List (MeteredEvent ℚ)) :
    let run := (meteredMachine fc parse roomManager start).run events
    let hist := run.1.exporter.tickDurationHist
    (∀ p50 p90 p99, run.1.exporter.tickQuantiles = some (p50, p90, p99) → p50 ≤ p90 ∧ p90 ≤ p99 ∧
        p50 ∈ durations events ∧ p90 ∈ durations events ∧ p99 ∈ durations events) ∧
      (hist.values ≠ [] → ∀ p ≤ 1, ∀ pair ∈ (bucketBounds ℚ).zip hist.buckets,
        hist.percentile p ≤ pair.1 ↔ ⌊p * (hist.values.length - 1 : ℕ)⌋₊ < pair.2) ∧
      (∀ dt now, let run' := (meteredMachine fc parse roomManager start).run (events ++ [.tick dt now])
        run'.1.exporter.tickDurationHist.values =
          hist.values ++ (run'.2.drop run.2.length).flatMap fun _ => newest (durations events ++ [dt])) := by
  have h := timed_run fc parse roomManager start events
  refine ⟨?_, fun hvalues p hp pair hpair => h.counted.percentile_le_iff hvalues hp hpair, fun dt now => ?_⟩
  · intro p50 p90 p99 hquantiles
    unfold PrometheusExporter.tickQuantiles at hquantiles
    split at hquantiles
    · cases hquantiles
    · next hempty =>
      have hvalues : ((meteredMachine fc parse roomManager start).run events).1.exporter.tickDurationHist.values ≠ [] := by
        simpa using hempty
      obtain ⟨rfl, rfl, rfl⟩ := by simpa using hquantiles
      exact ⟨Histogram.percentile_mono hvalues (by norm_num) (by norm_num),
        Histogram.percentile_mono hvalues (by norm_num) (by norm_num),
        h.values (Histogram.percentile_mem hvalues (by norm_num)),
        h.values (Histogram.percentile_mem hvalues (by norm_num)),
        h.values (Histogram.percentile_mem hvalues (by norm_num))⟩
  · dsimp only
    rw [Machine.run_concat, List.drop_left]
    exact values_recordTickMetrics h dt now

end Portfolio.Netcode
