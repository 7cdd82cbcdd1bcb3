import Portfolio.Netcode.Snapshot

/-!
# Snapshot streams

A stream is what `encode` makes of states with increasing ticks. `Sent` keeps beside each snapshot
the state it encodes and the last state that went out as a keyframe. `StreamInv` says that a delta
is always taken against that keyframe; with it, everything the decoder stores is the true state of
its tick, whatever the network does.
-/

namespace Portfolio.Netcode

/-- A snapshot, the state it encodes and the keyframe state at that point. -/
structure Sent (α : Type) where
  snapshot : EncodedSnapshot
  state : WorldState α
  key : WorldState α

section
variable {α : Type}

theorem eq_of_tick_eq {seen : List (WorldState α)} (h : seen.Pairwise (·.tick < ·.tick))
    {s s' : WorldState α} (hs : s ∈ seen) (hs' : s' ∈ seen) (ht : s.tick = s'.tick) : s = s' := by
  have hmap : (seen.map (·.tick)).Pairwise (· < ·) := List.pairwise_map.2 h
  exact List.inj_on_of_nodup_map (hmap.imp Nat.ne_of_lt) hs hs' ht

/-! ### What is to be preserved -/

/-- The six coordinates. -/
def coords (s : WorldState α) : List α :=
  [s.ballX, s.ballY, s.ballVx, s.ballVy, s.leftPaddleY, s.rightPaddleY]

/-- Equal up to the coordinates. -/
def Agrees (s s' : WorldState α) : Prop :=
  s'.tick = s.tick ∧ s'.leftScore = s.leftScore ∧ s'.rightScore = s.rightScore ∧
    s'.leftDirection = s.leftDirection ∧ s'.rightDirection = s.rightDirection

/-- The state fits the fields of the format: directions into 8 bits and the distance of the scores
from the keyframe into 16. -/
structure Sent.Fits (p : Sent α) : Prop where
  left : -128 ≤ p.state.leftDirection ∧ p.state.leftDirection ≤ 127
  right : -128 ≤ p.state.rightDirection ∧ p.state.rightDirection ≤ 127
  leftScore : |(p.state.leftScore.toNat : Int) - p.key.leftScore.toNat| < 2 ^ 15
  rightScore : |(p.state.rightScore.toNat : Int) - p.key.rightScore.toNat| < 2 ^ 15

theorem agrees_keyframeImage (fc : FloatCodec α) {p : Sent α} (h : p.Fits) :
    Agrees p.state (keyframeImage fc p.state) :=
  ⟨rfl, rfl, rfl, toInt_direction h.left, toInt_direction h.right⟩

theorem coords_keyframeImage (fc : FloatCodec α) (s : WorldState α) :
    coords (keyframeImage fc s) = (coords s).map fun c => fc.ofBits (fc.toBits c) := rfl

/-- The values that a snapshot writes as `float`. -/
def Sent.floats [Sub α] (p : Sent α) : List α :=
  if p.snapshot.isKeyframe then coords p.state
  else List.zipWith (· - ·) (coords p.state) (coords p.key)

/-- Exact arithmetic: differences cancel and every value written survives the 32 bits. -/
def ExactConversions [Add α] [Sub α] (fc : FloatCodec α) (sent : List (Sent α)) : Prop :=
  (∀ a b : α, b + (a - b) = a) ∧ ∀ p ∈ sent, ∀ c ∈ p.floats, fc.ofBits (fc.toBits c) = c

/-! ### The encoding side -/

variable [Sub α] (fc : FloatCodec α)

/-- The generator on a sequence of states; beside it, the state of the last keyframe. -/
def encodeMachine (keyframeInterval historySize : Nat) :
    Machine (SnapshotGenerator α × Option (WorldState α)) (WorldState α) (Sent α) where
  init := ({ keyframeInterval := keyframeInterval, historySize := historySize }, none)
  step s state :=
    let r := s.1.encode fc state
    let key := if r.2.isKeyframe then state else s.2.getD state
    ((r.1, some key), [⟨r.2, state, key⟩])

def sent (keyframeInterval historySize : Nat) (states : List (WorldState α)) : List (Sent α) :=
  ((encodeMachine fc keyframeInterval historySize).run states).2

/-- The snapshot is a keyframe of `state`, or the delta from `key` to it. -/
def Sent.Ok (p : Sent α) : Prop :=
  (p.key = p.state ∧
    p.snapshot = ⟨p.state.tick, p.state.tick, true, encodeKeyframe fc p.state⟩) ∨
  p.snapshot = ⟨p.state.tick, p.key.tick, false, encodeDelta fc p.key p.state⟩

structure StreamInv (seen : List (WorldState α)) (out : List (Sent α)) (g : SnapshotGenerator α)
    (key : Option (WorldState α)) : Prop where
  history : ∀ e ∈ g.history, e ∈ seen
  key : g.hasKeyframe = true → ∃ k ∈ seen, key = some k ∧ k.tick = g.lastKeyframeTick
  out : ∀ p ∈ out, p.Ok fc ∧ p.state ∈ seen ∧ p.key ∈ seen

theorem streamInv_step {seen : List (WorldState α)} {out : List (Sent α)} {g : SnapshotGenerator α}
    {key : Option (WorldState α)} (h : StreamInv fc seen out g key)
    (ht : seen.Pairwise (·.tick < ·.tick)) (state : WorldState α) {K H : Nat} :
    StreamInv fc (seen ++ [state]) (out ++ ((encodeMachine fc K H).step (g, key) state).2)
      ((encodeMachine fc K H).step (g, key) state).1.1
      ((encodeMachine fc K H).step (g, key) state).1.2 := by
  have hnew : state ∈ seen ++ [state] := by simp
  have hmem : ∀ e ∈ (g.remember state).history, e ∈ seen ++ [state] := by
    intro e he
    rcases SnapshotGenerator.mem_remember he with rfl | he
    · exact hnew
    · exact List.mem_append_left _ (h.history e he)
  have hout : ∀ p ∈ out, p.Ok fc ∧ p.state ∈ seen ++ [state] ∧ p.key ∈ seen ++ [state] := by
    intro p hp
    obtain ⟨h1, h2, h3⟩ := h.out p hp
    exact ⟨h1, List.mem_append_left _ h2, List.mem_append_left _ h3⟩
  simp only [encodeMachine]
  rcases g.encode_cases fc state with ⟨he, -⟩ | ⟨base, hd, hf, he⟩
  · simp only [he, SnapshotGenerator.encodeKeyframe, ↓reduceIte]
    refine ⟨hmem, fun _ => ⟨state, hnew, rfl, rfl⟩, fun p hp => ?_⟩
    rcases List.mem_append.1 hp with hp | hp
    · exact hout p hp
    · obtain rfl := List.mem_singleton.1 hp
      exact ⟨.inl ⟨rfl, rfl⟩, hnew, hnew⟩
  · obtain ⟨hk, -, -⟩ := SnapshotGenerator.hasKeyframe_of_delta hd
    obtain ⟨k, hks, rfl, hkt⟩ := h.key hk
    obtain ⟨hb, hbt⟩ := findState_some hf
    obtain rfl := eq_of_tick_eq ht (h.history base hb) hks (hbt.trans hkt.symm)
    have hold : base ∈ seen ++ [state] := List.mem_append_left _ hks
    simp only [he, Bool.false_eq_true, ↓reduceIte, Option.getD_some]
    refine ⟨hmem, fun _ => ⟨base, hold, rfl, ?_⟩, fun p hp => ?_⟩
    · rw [hkt, (g.remember_fields state).2.2.1]
    · rcases List.mem_append.1 hp with hp | hp
      · exact hout p hp
      · obtain rfl := List.mem_singleton.1 hp
        exact ⟨.inr (by rw [hkt]), hnew, hold⟩

theorem streamInv_run (K H : Nat) (states : List (WorldState α))
    (h : states.Pairwise (·.tick < ·.tick)) :
    StreamInv fc states (sent fc K H states) ((encodeMachine fc K H).run states).1.1
      ((encodeMachine fc K H).run states).1.2 := by
  refine (encodeMachine fc K H).run_inv (P := fun states out s =>
    states.Pairwise (·.tick < ·.tick) → StreamInv fc states out s.1 s.2) ?_ ?_ states h
  · intro _
    exact ⟨by simp [encodeMachine], by simp [encodeMachine], by simp⟩
  · intro states out s state ih ht
    have ht' := (List.pairwise_append.1 ht).1
    exact streamInv_step fc (ih ht') ht' state

/-! ### The decoding side -/

variable [Add α]

/-- The decoder on whatever arrives; a failed call returns its message. -/
def decodeMachine (historySize : Nat) :
    Machine (SnapshotDecoder α) EncodedSnapshot (Except String (WorldState α)) where
  init := { historySize := historySize }
  step d snapshot := ((d.apply fc snapshot).1, [(d.apply fc snapshot).2])

def received (historySize : Nat) (deliveries : List (Sent α)) : SnapshotDecoder α :=
  ((decodeMachine fc historySize).run (deliveries.map (·.snapshot))).1

omit [Sub α] in
theorem received_concat (historySize : Nat) (deliveries : List (Sent α)) (p : Sent α) :
    received fc historySize (deliveries ++ [p]) =
      ((received fc historySize deliveries).apply fc p.snapshot).1 := by
  simp [received, decodeMachine]

/-- A state of the decoder's history stands for a state that was sent. -/
def Stored (all : List (Sent α)) (e : WorldState α) : Prop :=
  ∃ p ∈ all, Agrees p.state e ∧ (ExactConversions fc all → coords e = coords p.state)

theorem agrees_deltaImage {p : Sent α} (h : p.Fits) {base : WorldState α} (hb : Agrees p.key base) :
    Agrees p.state (deltaImage fc base p.key p.state) := by
  obtain ⟨-, hl, hr, -, -⟩ := hb
  refine ⟨rfl, ?_, ?_, toInt_direction h.left, toInt_direction h.right⟩
  · show addScore base.leftScore _ = _
    rw [hl, addScore_scoreDifference h.leftScore]
  · show addScore base.rightScore _ = _
    rw [hr, addScore_scoreDifference h.rightScore]

theorem coords_deltaImage (base key s : WorldState α) : coords (deltaImage fc base key s) =
    List.zipWith (· + ·) (coords base)
      ((List.zipWith (· - ·) (coords s) (coords key)).map fun c => fc.ofBits (fc.toBits c)) := rfl

theorem zipWith_add_sub (h : ∀ a b : α, b + (a - b) = a) (s key : WorldState α) :
    List.zipWith (· + ·) (coords key) (List.zipWith (· - ·) (coords s) (coords key)) = coords s := by
  simp [coords, h]

/-- The three things that `apply` does with a snapshot of a stream. -/
theorem apply_cases (d : SnapshotDecoder α) {p : Sent α} (h : p.Ok fc) :
    (p.snapshot.isKeyframe = true ∧ d.apply fc p.snapshot =
      (d.storeState (keyframeImage fc p.state), .ok (keyframeImage fc p.state))) ∨
    (p.snapshot.isKeyframe = false ∧ findState d.history p.key.tick = none ∧
      d.apply fc p.snapshot = (d, .error "missing base state for delta snapshot")) ∨
    ∃ base, p.snapshot.isKeyframe = false ∧ findState d.history p.key.tick = some base ∧
      d.apply fc p.snapshot = (d.storeState (deltaImage fc base p.key p.state),
        .ok (deltaImage fc base p.key p.state)) := by
  rcases h with ⟨-, hsnap⟩ | hsnap
  · refine .inl ?_
    rw [hsnap]
    simp only [SnapshotDecoder.apply, SnapshotDecoder.decode, ↓reduceIte,
      decodeKeyframe_encodeKeyframe, and_self]
  · refine .inr ?_
    rw [hsnap]
    cases hf : findState d.history p.key.tick with
    | none =>
      refine .inl ⟨rfl, rfl, ?_⟩
      simp only [SnapshotDecoder.apply, SnapshotDecoder.decode, Bool.false_eq_true, ↓reduceIte, hf]
    | some base =>
      refine .inr ⟨base, rfl, rfl, ?_⟩
      simp only [SnapshotDecoder.apply, SnapshotDecoder.decode, Bool.false_eq_true, ↓reduceIte, hf,
        applyDelta_encodeDelta]

/-- One call of `apply` on a snapshot of the stream. -/
theorem apply_sent {seen : List (WorldState α)} (ht : seen.Pairwise (·.tick < ·.tick))
    {all : List (Sent α)} (hall : ∀ p ∈ all, p.Ok fc ∧ p.state ∈ seen ∧ p.key ∈ seen)
    (hfit : ∀ p ∈ all, p.Fits) {d : SnapshotDecoder α} (hd : ∀ e ∈ d.history, Stored fc all e)
    {p : Sent α} (hp : p ∈ all) :
    d.apply fc p.snapshot = (d, .error "missing base state for delta snapshot") ∨
    ∃ s, d.apply fc p.snapshot = (d.storeState s, .ok s) ∧ Agrees p.state s ∧
      (ExactConversions fc all → coords s = coords p.state) := by
  obtain ⟨hok, -, hkey⟩ := hall p hp
  rcases apply_cases fc d hok with ⟨hkf, he⟩ | ⟨-, -, he⟩ | ⟨base, hkf, hf, he⟩
  · refine .inr ⟨keyframeImage fc p.state, he, agrees_keyframeImage fc (hfit p hp), fun hex => ?_⟩
    have hc := hex.2 p hp
    simp only [Sent.floats, hkf, ↓reduceIte] at hc
    rw [coords_keyframeImage, List.map_congr_left hc, List.map_id']
  · exact .inl he
  · obtain ⟨hb, hbt⟩ := findState_some hf
    obtain ⟨q, hq, hag, hco⟩ := hd base hb
    have hqk : q.state = p.key := by
      refine eq_of_tick_eq ht (hall q hq).2.1 hkey ?_
      rw [← hag.1, hbt]
    rw [hqk] at hag hco
    refine .inr ⟨deltaImage fc base p.key p.state, he, agrees_deltaImage fc (hfit p hp) hag,
      fun hex => ?_⟩
    have hc := hex.2 p hp
    simp only [Sent.floats, hkf, Bool.false_eq_true, ↓reduceIte] at hc
    rw [coords_deltaImage, List.map_congr_left hc, List.map_id', hco hex, zipWith_add_sub hex.1]

/-- However the snapshots of a stream are lost, duplicated and reordered, everything the decoder
stores is the true state of its tick. -/
theorem received_stored (K H N : Nat) {states : List (WorldState α)}
    (ht : states.Pairwise (·.tick < ·.tick)) (hfit : ∀ p ∈ sent fc K H states, p.Fits)
    (deliveries : List (Sent α)) (hd : ∀ p ∈ deliveries, p ∈ sent fc K H states) :
    ∀ e ∈ (received fc N deliveries).history, Stored fc (sent fc K H states) e := by
  induction deliveries using List.reverseRecOn with
  | nil => simp [received, decodeMachine]
  | append_singleton deliveries p ih =>
    have hall := (streamInv_run fc K H states ht).out
    have ih := ih fun q hq => hd q (List.mem_append_left _ hq)
    have hp : p ∈ sent fc K H states := hd p (by simp)
    rw [received_concat]
    rcases apply_sent fc ht hall hfit ih hp with he | ⟨s, he, hag, hco⟩
    · rw [he]
      exact ih
    · rw [he]
      intro e hm
      rcases List.mem_append.1 (mem_of_mem_trim hm) with hm | hm
      · exact ih e hm
      · rw [List.mem_singleton.1 hm]
        exact ⟨p, hp, hag, hco⟩

/-- Every call of `apply` throws for a missing base and leaves the decoder as it is, or returns the
state that was encoded. -/
theorem snapshot_stream_faithful (K H N : Nat) (states : List (WorldState α))
    (ht : states.Pairwise (·.tick < ·.tick)) (hfit : ∀ p ∈ sent fc K H states, p.Fits)
    (deliveries pre post : List (Sent α)) (p : Sent α)
    (hd : ∀ p ∈ deliveries, p ∈ sent fc K H states) (hs : deliveries = pre ++ p :: post) :
    (received fc N pre).apply fc p.snapshot =
      (received fc N pre, .error "missing base state for delta snapshot") ∨
    ∃ s, ((received fc N pre).apply fc p.snapshot).2 = .ok s ∧ Agrees p.state s ∧
      (ExactConversions fc (sent fc K H states) → coords s = coords p.state) := by
  have hpre : ∀ q ∈ pre, q ∈ sent fc K H states := fun q hq => hd q (by simp [hs, hq])
  have hp : p ∈ sent fc K H states := hd p (by simp [hs])
  rcases apply_sent fc ht (streamInv_run fc K H states ht).out hfit
    (received_stored fc K H N ht hfit pre hpre) hp with he | ⟨s, he, hag, hco⟩
  · exact .inl he
  · exact .inr ⟨s, by rw [he], hag, hco⟩

end

/-! ### Two states -/

/-- The bits of the floats 0, 1 and -1. -/
def smallFloats : FloatCodec ℤ where
  toBits x := if x = 0 then 0 else if x = 1 then 0x3F800000#32 else if x = -1 then 0xBF800000#32
    else 0x7FC00000#32
  ofBits b := if b = 0x3F800000#32 then 1 else if b = 0xBF800000#32 then -1 else 0

def twoStates : List (WorldState ℤ) :=
  [{ ballX := 0, ballY := 1, ballVx := 1, ballVy := 0, leftPaddleY := 0, rightPaddleY := 0, tick := 1 },
    { ballX := 1, ballY := 0, ballVx := 1, ballVy := 0, leftPaddleY := 0, rightPaddleY := -1
      leftScore := 1, tick := 2, rightDirection := -1 }]

theorem snapshot_stream_faithful_two :
    ∃ key delta, sent smallFloats 20 256 twoStates = [key, delta] ∧
      ExactConversions smallFloats [key, delta] ∧
      ((received smallFloats 256 [key]).apply smallFloats delta.snapshot =
          (received smallFloats 256 [key], .error "missing base state for delta snapshot") ∨
        ∃ s, ((received smallFloats 256 [key]).apply smallFloats delta.snapshot).2 = .ok s ∧
          Agrees delta.state s ∧
          (ExactConversions smallFloats [key, delta] → coords s = coords delta.state)) := by
  refine ⟨_, _, rfl, ⟨fun a b => by omega, by decide⟩, ?_⟩
  refine snapshot_stream_faithful smallFloats 20 256 256 twoStates (by decide) ?_ _ [_] [] _
    (fun p hp => hp) rfl
  intro p hp
  obtain ⟨-, hs, hk⟩ := (streamInv_run smallFloats 20 256 twoStates (by decide)).out p hp
  simp only [twoStates, List.mem_cons, List.not_mem_nil, or_false] at hs hk
  rcases hs with hs | hs <;> rcases hk with hk | hk <;>
    exact ⟨by rw [hs]; decide, by rw [hs]; decide, by rw [hs, hk]; decide, by rw [hs, hk]; decide⟩

end Portfolio.Netcode
