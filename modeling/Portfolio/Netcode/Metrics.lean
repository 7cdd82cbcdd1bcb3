import Mathlib.Algebra.BigOperators.Group.List.Basic
import Portfolio.Netcode.UdpPong

/-!
# `metrics::PrometheusExporter` and the counters of the transport

`update_prometheus_metrics` adds the totals of the transport to the exporter's counters. The totals
count from the start of the transport and the exporter adds up what it is given, so after some
updates it shows the sum of all totals it was given: the last total only if the earlier ones were 0.
-/

namespace Portfolio.Netcode
open Std

section
variable (α : Type) [Scalar α]

/-- The bounds of the buckets, in seconds. -/
def bucketBounds : List α :=
  [1 / 1000, 5 / 1000, 1 / 100, 5 / 100, 1 / 10, 5 / 10, 1, 5, 10].map Scalar.lit

structure Histogram where
  values : List α := []
  buckets : List Nat := (bucketBounds α).map fun _ => 0

structure PrometheusExporter where
  gameTickRate : α := Scalar.lit 0
  rttP50 : α := Scalar.lit 0
  rttP99 : α := Scalar.lit 0
  roomsActive : Nat := 0
  playersActive : Nat := 0
  droppedPackets : TreeMap String Nat := ∅
  retransmitTotal : Nat := 0
  tickDurationHist : Histogram α := {}

/-- The server with metrics enabled. -/
structure MeteredServer where
  pong : UdpPong α
  exporter : PrometheusExporter α := {}
  tickDurationsMs : List α := []
  lastMetricsUpdate : Time

/-- The totals that a call of `update_prometheus_metrics` read, and the exporter that it left. -/
structure Export where
  counters : Counters
  exporter : PrometheusExporter α

/-- An iteration of the game loop, or a datagram. -/
inductive MeteredEvent where
  | tick (dt : α) (now : Time)
  | datagram (endpoint : Endpoint) (bytes : List Byte) (now : Time)

end

section
variable {α : Type} [Scalar α]

def Histogram.observe (h : Histogram α) (value : α) : Histogram α where
  values := h.values ++ [value]
  buckets := List.zipWith (fun bound n => if value ≤ bound then n + 1 else n) (bucketBounds α) h.buckets

namespace PrometheusExporter

def incDroppedPackets (e : PrometheusExporter α) (reason : String) (count : Nat) : PrometheusExporter α :=
  { e with droppedPackets := e.droppedPackets.insert reason (e.droppedPackets.getD reason 0 + count) }

def incRetransmitTotal (e : PrometheusExporter α) (count : Nat) : PrometheusExporter α :=
  { e with retransmitTotal := e.retransmitTotal + count }

def observeTickDuration (e : PrometheusExporter α) (seconds : α) : PrometheusExporter α :=
  { e with tickDurationHist := e.tickDurationHist.observe seconds }

end PrometheusExporter

namespace MeteredServer

/-- `update_prometheus_metrics` -/
def updatePrometheusMetrics (s : MeteredServer α) : MeteredServer α × List (Export α) :=
  let e := { s.exporter with gameTickRate := Scalar.lit 60 }
  let recent := s.tickDurationsMs.drop (s.tickDurationsMs.length - min s.tickDurationsMs.length 60)
  let e := recent.foldl (fun e ms => e.observeTickDuration (ms / Scalar.lit 1000)) e
  let counters := s.pong.transport.counters
  let e := e.incDroppedPackets "duplicates" counters.droppedDuplicatesTotal
  let e := e.incDroppedPackets "old" counters.droppedOldTotal
  let e := e.incDroppedPackets "window" counters.droppedWindowTotal
  let e := e.incRetransmitTotal counters.reliableRetriesTotal
  let activePlayers := (if s.pong.server.leftClientKey = "" then 0 else 1) +
    if s.pong.server.rightClientKey = "" then 0 else 1
  let e := { e with
    playersActive := activePlayers
    roomsActive := if 0 < activePlayers then 1 else 0
    rttP50 := Scalar.lit 0
    rttP99 := Scalar.lit 0 }
  ({ s with exporter := e }, [⟨counters, e⟩])

/-- `record_tick_metrics`: an update when a whole second has passed since the last one. -/
def recordTickMetrics (s : MeteredServer α) (dt : α) (now : Time) : MeteredServer α × List (Export α) :=
  let s := { s with tickDurationsMs := s.tickDurationsMs ++ [dt * Scalar.lit 1000] }
  if 1 ≤ (now - s.lastMetricsUpdate) / 1000000000 then
    let r := s.updatePrometheusMetrics
    ({ r.1 with lastMetricsUpdate := now }, r.2)
  else (s, [])

end MeteredServer

def meteredMachine (fc : FloatCodec α) (parse : List Byte → Option Input) (roomManager : Bool)
    (start : Time) : Machine (MeteredServer α) (MeteredEvent α) (Export α) where
  init := { pong := { server := { roomManager := roomManager } }, lastMetricsUpdate := start }
  step s
    | .tick dt now =>
      let r := s.recordTickMetrics dt now
      ({ r.1 with pong := r.1.pong.tick fc dt now }, r.2)
    | .datagram endpoint bytes now => ({ s with pong := (s.pong.receive parse endpoint bytes now).1 }, [])

/-! ### What the exporter shows -/

/-- The counters that the exporter takes from the transport. -/
inductive ExportedCounter where
  | duplicates
  | old
  | window
  | retransmit

def exported (e : PrometheusExporter α) : ExportedCounter → Nat
  | .duplicates => e.droppedPackets.getD "duplicates" 0
  | .old => e.droppedPackets.getD "old" 0
  | .window => e.droppedPackets.getD "window" 0
  | .retransmit => e.retransmitTotal

def sampled (counters : Counters) : ExportedCounter → Nat
  | .duplicates => counters.droppedDuplicatesTotal
  | .old => counters.droppedOldTotal
  | .window => counters.droppedWindowTotal
  | .retransmit => counters.reliableRetriesTotal

/-- The exporter shows the totals that it was given last. -/
def Export.Agrees (x : Export α) : Prop := ∀ m, exported x.exporter m = sampled x.counters m

/-- Nothing was dropped or sent again yet. -/
def Quiet (counters : Counters) : Prop := ∀ m, sampled counters m = 0

theorem exported_observe (values : List α) (e : PrometheusExporter α) (m : ExportedCounter) :
    exported (values.foldl (fun e ms => e.observeTickDuration (ms / Scalar.lit 1000)) e) m = exported e m := by
  induction values generalizing e with
  | nil => rfl
  | cons v values ih =>
    rw [List.foldl_cons, ih]
    cases m <;> rfl

theorem getD_incDroppedPackets (e : PrometheusExporter α) (reason r : String) (count : Nat) :
    (e.incDroppedPackets reason count).droppedPackets.getD r 0 =
      e.droppedPackets.getD r 0 + if reason = r then count else 0 := by
  rw [PrometheusExporter.incDroppedPackets, TreeMap.getD_insert]
  simp only [Std.compare_eq_iff_eq]
  split
  · next h => rw [h]
  · rfl

/-- An update adds the totals to what the exporter shows. -/
theorem exported_update (s : MeteredServer α) (m : ExportedCounter) :
    exported s.updatePrometheusMetrics.1.exporter m =
      exported s.exporter m + sampled s.pong.transport.counters m := by
  have hobs := exported_observe
    (s.tickDurationsMs.drop (s.tickDurationsMs.length - min s.tickDurationsMs.length 60))
    { s.exporter with gameTickRate := Scalar.lit 60 } m
  unfold MeteredServer.updatePrometheusMetrics
  dsimp only
  generalize List.foldl _ _ _ = e at hobs ⊢
  cases m with
  | retransmit => exact congrArg (· + s.pong.transport.counters.reliableRetriesTotal) hobs
  | duplicates | old | window =>
    simp only [exported, sampled, PrometheusExporter.incRetransmitTotal, getD_incDroppedPackets] at hobs ⊢
    simp [hobs]

/-! ### Runs -/

/-- The exporter shows the sum of all totals that it was given, at every update. -/
structure ExportInv (outs : List (Export α)) (s : MeteredServer α) : Prop where
  shown : ∀ m, exported s.exporter m = (outs.map fun x => sampled x.counters m).sum
  updates : ∀ pre x post, outs = pre ++ x :: post → ∀ m,
    exported x.exporter m = (pre.map fun x => sampled x.counters m).sum + sampled x.counters m

theorem exportInv_update {outs : List (Export α)} {s : MeteredServer α} (h : ExportInv outs s) :
    ExportInv (outs ++ s.updatePrometheusMetrics.2) s.updatePrometheusMetrics.1 := by
  have hshown : ∀ m, exported s.updatePrometheusMetrics.1.exporter m =
      (outs.map fun x => sampled x.counters m).sum + sampled s.pong.transport.counters m := by
    intro m
    rw [exported_update, h.shown]
  have hout : s.updatePrometheusMetrics.2 =
      [⟨s.pong.transport.counters, s.updatePrometheusMetrics.1.exporter⟩] := rfl
  rw [hout]
  refine ⟨fun m => ?_, fun pre x post hcut => ?_⟩
  · rw [hshown, List.map_append, List.sum_append, List.map_singleton, List.sum_singleton]
  · rcases concat_eq_append_cons.1 hcut with ⟨rfl, rfl, rfl⟩ | ⟨post', rfl, hcut'⟩
    · exact hshown
    · exact h.updates pre x post' hcut'

theorem exportInv_recordTickMetrics {outs : List (Export α)} {s : MeteredServer α} (h : ExportInv outs s)
    (dt : α) (now : Time) :
    ExportInv (outs ++ (s.recordTickMetrics dt now).2) (s.recordTickMetrics dt now).1 := by
  have h' : ExportInv outs { s with tickDurationsMs := s.tickDurationsMs ++ [dt * Scalar.lit 1000] } :=
    ⟨h.shown, h.updates⟩
  unfold MeteredServer.recordTickMetrics
  dsimp only
  split
  · obtain ⟨hshown, hupdates⟩ := exportInv_update h'
    exact ⟨hshown, hupdates⟩
  · rw [List.append_nil]
    exact h'

variable (fc : FloatCodec α) (parse : List Byte → Option Input)

theorem exportInv_run (roomManager : Bool) (start : Time) (events : List (MeteredEvent α)) :
    ExportInv ((meteredMachine fc parse roomManager start).run events).2
      ((meteredMachine fc parse roomManager start).run events).1 := by
  refine (meteredMachine fc parse roomManager start).run_inv (P := fun _ outs s => ExportInv outs s)
    ?_ ?_ events
  · refine ⟨fun m => ?_, fun pre x post h => ?_⟩
    · cases m <;> rfl
    · simp at h
  · intro _ outs s event h
    cases event with
    | tick dt now =>
      obtain ⟨hshown, hupdates⟩ := exportInv_recordTickMetrics h dt now
      exact ⟨hshown, hupdates⟩
    | datagram endpoint bytes now =>
      show ExportInv (outs ++ []) _
      rw [List.append_nil]
      exact ⟨h.shown, h.updates⟩

/-- The exporter shows the totals of the transport after every update of a run exactly if every
update but the last one found all of them at 0. -/
theorem exported_totals_agree_iff (roomManager : Bool) (start : Time) (events : List (MeteredEvent α)) :
    (∀ x ∈ ((meteredMachine fc parse roomManager start).run events).2, x.Agrees) ↔
      ∀ pre x post, ((meteredMachine fc parse roomManager start).run events).2 = pre ++ x :: post →
        post ≠ [] → Quiet x.counters := by
  have hinv := exportInv_run fc parse roomManager start events
  generalize ((meteredMachine fc parse roomManager start).run events).2 = outs at hinv ⊢
  constructor
  · intro hagree pre x post hcut hpost m
    -- the update after `x` agrees, so the totals before it sum to 0
    obtain ⟨y, post', rfl⟩ := List.exists_cons_of_ne_nil hpost
    have hcut' : outs = (pre ++ [x]) ++ y :: post' := by simpa using hcut
    have hy := hinv.updates _ y post' hcut' m
    rw [hagree y (by simp [hcut]) m, List.map_append, List.sum_append, List.map_singleton,
      List.sum_singleton] at hy
    omega
  · intro hquiet x hx m
    obtain ⟨pre, post, hcut⟩ := List.append_of_mem hx
    have hzero : (pre.map fun x => sampled x.counters m).sum = 0 := by
      refine List.sum_eq_zero fun n hn => ?_
      obtain ⟨z, hz, rfl⟩ := List.mem_map.1 hn
      obtain ⟨front, back, rfl⟩ := List.append_of_mem hz
      exact hquiet front z (back ++ x :: post) (by simp [hcut]) (by simp) m
    rw [hinv.updates pre x post hcut m, hzero, Nat.zero_add]

end

/-- A packet that comes twice before the first update. -/
def packetTwice : List (MeteredEvent ℚ) :=
  [.datagram ⟨some "127.0.0.1", 5000⟩ [0, 1, 0, 0, 0, 0, 0, 0] 1,
    .datagram ⟨some "127.0.0.1", 5000⟩ [0, 1, 0, 0, 0, 0, 0, 0] 2,
    .tick (1 / 64) 1000000000, .tick (1 / 64) 2000000000]

/-- One packet was dropped; after the second update the exporter shows two. -/
theorem second_update_counts_again :
    (((meteredMachine pongFloats parseInput false 0).run packetTwice).2.map fun x =>
      (sampled x.counters .duplicates, exported x.exporter .duplicates)) = [(1, 1), (1, 2)] ∧
    ¬ ∀ x ∈ ((meteredMachine pongFloats parseInput false 0).run packetTwice).2, x.Agrees := by
  have hshown : (((meteredMachine pongFloats parseInput false 0).run packetTwice).2.map fun x =>
      (sampled x.counters .duplicates, exported x.exporter .duplicates)) = [(1, 1), (1, 2)] := by
    decide +kernel
  refine ⟨hshown, fun h => ?_⟩
  have hmem : ((1, 2) : Nat × Nat) ∈ ((meteredMachine pongFloats parseInput false 0).run packetTwice).2.map
      fun x => (sampled x.counters .duplicates, exported x.exporter .duplicates) := by
    rw [hshown]
    simp
  obtain ⟨x, hx, hpair⟩ := List.mem_map.1 hmem
  obtain ⟨hone, htwo⟩ := Prod.mk.inj hpair
  have := h x hx .duplicates
  omega

end Portfolio.Netcode
