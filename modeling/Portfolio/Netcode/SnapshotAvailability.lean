import Portfolio.Netcode.SnapshotStream

/-!
# When a delta can be decoded

With both histories at least as long as the keyframe interval, neither side forgets a keyframe
before the next one is due: the states behind it in a history have distinct ticks less than an
interval away, so they are too few to push it out, and on the generator they are too young to be
pruned. `snapshot_stream_available` draws the two conclusions.
-/

namespace Portfolio.Netcode

section
variable {α : Type}

/-! ### What trimming keeps -/

theorem trim_keeps {n : Nat} (old recent : List (WorldState α)) (k : WorldState α)
    (h : recent.length < n) : ∃ old', trim n (old ++ k :: recent) = old' ++ k :: recent := by
  refine ⟨old.drop ((old ++ k :: recent).length - n), ?_⟩
  rw [trim, List.drop_append_of_le_length]
  simp only [List.length_append, List.length_cons]
  omega

theorem dropWhile_keeps (p : WorldState α → Bool) (old recent : List (WorldState α))
    (k : WorldState α) (h : p k = false) :
    ∃ old', (old ++ k :: recent).dropWhile p = old' ++ k :: recent := by
  induction old with
  | nil => exact ⟨[], by simp [h]⟩
  | cons e old ih =>
    rw [List.cons_append, List.dropWhile_cons]
    split
    · exact ih
    · exact ⟨e :: old, rfl⟩

theorem SnapshotGenerator.remember_keeps {g : SnapshotGenerator α} {state : WorldState α}
    (old recent : List (WorldState α)) (k : WorldState α) (hnew : ∀ e ∈ g.history, e.tick < state.tick)
    (hh : g.history ++ [state] = old ++ k :: recent) (hlen : recent.length < g.historySize)
    (hmin : state.tick ≤ k.tick + g.historySize) :
    ∃ old', (g.remember state).history = old' ++ k :: recent := by
  have hnone : findState g.history state.tick = none :=
    findState_eq_none.2 fun e he => (hnew e he).ne
  have hk : decide (k.tick < g.minTick state) = false := by
    rw [decide_eq_false_iff_not, minTick]
    split <;> omega
  obtain ⟨old₁, h₁⟩ := trim_keeps old recent k hlen
  obtain ⟨old₂, h₂⟩ := dropWhile_keeps (fun e => decide (e.tick < g.minTick state)) old₁ recent k hk
  refine ⟨old₂, ?_⟩
  simp only [remember, pruneHistory, storeState, hnone, Option.isSome_none, Bool.false_eq_true,
    ↓reduceIte, hh, h₁]
  exact h₂

/-- `k` is in the history with `recent` behind it, and there is a tick for each of them. -/
def Held (history seen : List (WorldState α)) (k : WorldState α) : Prop :=
  ∃ old recent, history = old ++ k :: recent ∧
    ∀ t, (∀ e ∈ seen, e.tick < t) → k.tick + recent.length < t

/-- `encode` wants to send a delta and does not find its base. -/
def FallsBack (g : SnapshotGenerator α) (state : WorldState α) : Prop :=
  g.shouldEmitKeyframe state = false ∧ findState g.history g.lastKeyframeTick = none

/-- Some snapshot of `out` is a keyframe of `k`. -/
def SentAsKeyframe (out : List (Sent α)) (k : WorldState α) : Prop :=
  ∃ q ∈ out, q.snapshot.isKeyframe = true ∧ q.state = k

theorem SentAsKeyframe.append {out : List (Sent α)} {k : WorldState α} (h : SentAsKeyframe out k)
    (out' : List (Sent α)) : SentAsKeyframe (out ++ out') k := by
  obtain ⟨q, hq, h⟩ := h
  exact ⟨q, List.mem_append_left _ hq, h⟩

/-! ### The generator -/

/-- The generator with interval `K` and history size `H` after the states `seen`. -/
structure KeyInv (K H : Nat) (seen : List (WorldState α)) (out : List (Sent α))
    (g : SnapshotGenerator α) (key : Option (WorldState α)) : Prop where
  interval : g.keyframeInterval = K
  size : g.historySize = H
  held : g.hasKeyframe = true → ∃ k, key = some k ∧ k.tick = g.lastKeyframeTick ∧
    Held g.history seen k ∧ SentAsKeyframe out k
  states : out.map (·.state) = seen
  deltas : ∀ p ∈ out, p.snapshot.isKeyframe = false →
    p.key.tick < p.state.tick ∧ p.state.tick < p.key.tick + K ∧ SentAsKeyframe out p.key

theorem KeyInv.not_fallsBack {K H : Nat} {seen : List (WorldState α)} {out : List (Sent α)}
    {g : SnapshotGenerator α} {key : Option (WorldState α)} (h : KeyInv K H seen out g key)
    (state : WorldState α) : ¬ FallsBack g state := by
  rintro ⟨hs, hf⟩
  obtain ⟨k, -, hk, ⟨old, recent, hh, -⟩, -⟩ := h.held (SnapshotGenerator.hasKeyframe_of_delta hs).1
  exact findState_eq_none.1 hf k (by simp [hh]) hk

/-! ### The decoder -/

/-- The decoder after an in-order delivery: every stored state belongs to a delivered snapshot, and
a delivered keyframe is held for `N` ticks. -/
structure DecoderInv (N : Nat) (deliveries : List (Sent α)) (d : SnapshotDecoder α) : Prop where
  size : d.historySize = N
  ticks : ∀ e ∈ d.history, ∃ q ∈ deliveries, q.state.tick = e.tick
  held : ∀ q ∈ deliveries, q.snapshot.isKeyframe = true →
    (∀ r ∈ deliveries, r.state.tick < q.state.tick + N) →
    ∃ k, k.tick = q.state.tick ∧ Held d.history (deliveries.map (·.state)) k

/-- Storing one more state, or none, behind the held ones. -/
theorem held_storeState {N : Nat} {d : SnapshotDecoder α} (hsize : d.historySize = N)
    {seen : List (WorldState α)} {k s state : WorldState α} (h : Held d.history seen k)
    (ht : ∀ e ∈ seen, e.tick < state.tick) (hN : state.tick < k.tick + N) :
    Held (d.storeState s).history (seen ++ [state]) k := by
  obtain ⟨old, recent, hh, hroom⟩ := h
  have hr := hroom state.tick ht
  have hlen : (recent ++ [s]).length < N := by
    rw [List.length_append, List.length_singleton]
    omega
  obtain ⟨old', hold⟩ := trim_keeps old (recent ++ [s]) k hlen
  refine ⟨old', recent ++ [s], ?_, fun t hlt => ?_⟩
  · rw [← hold, SnapshotDecoder.storeState, hsize, hh]
    simp
  · have := hlt state (by simp)
    rw [List.length_append, List.length_singleton]
    omega

theorem Held.seen_concat {history seen : List (WorldState α)} {k : WorldState α}
    (h : Held history seen k) (state : WorldState α) : Held history (seen ++ [state]) k := by
  obtain ⟨old, recent, hh, hroom⟩ := h
  exact ⟨old, recent, hh, fun t hlt => hroom t fun e he => hlt e (List.mem_append_left _ he)⟩

theorem decoderInv_store {N : Nat} (hN : 1 ≤ N) {deliveries : List (Sent α)} {d : SnapshotDecoder α}
    (h : DecoderInv N deliveries d) {p : Sent α} (ht : ∀ q ∈ deliveries, q.state.tick < p.state.tick)
    {s : WorldState α} (hs : s.tick = p.state.tick) :
    DecoderInv N (deliveries ++ [p]) (d.storeState s) := by
  refine ⟨h.size, fun e he => ?_, fun q hq hkf hlt => ?_⟩
  · rcases List.mem_append.1 (mem_of_mem_trim he) with he | he
    · obtain ⟨q, hq, hqe⟩ := h.ticks e he
      exact ⟨q, List.mem_append_left _ hq, hqe⟩
    · rw [List.mem_singleton.1 he]
      exact ⟨p, by simp, hs.symm⟩
  · rw [List.map_append, List.map_singleton]
    rcases List.mem_append.1 hq with hq | hq
    · obtain ⟨k, hk, hheld⟩ := h.held q hq hkf fun r hr => hlt r (List.mem_append_left _ hr)
      refine ⟨k, hk, held_storeState h.size hheld ?_ (hk ▸ hlt p (by simp))⟩
      intro e he
      obtain ⟨r, hr, rfl⟩ := List.mem_map.1 he
      exact ht r hr
    · rw [List.mem_singleton.1 hq]
      obtain ⟨old, hold⟩ := trim_keeps (n := N) d.history [] s hN
      refine ⟨s, hs, old, [], ?_, fun t hlt => ?_⟩
      · rw [← hold, SnapshotDecoder.storeState, h.size]
      · rw [hs]
        exact hlt p.state (by simp)

/-! ### Both sides step by step -/

variable [Sub α] (fc : FloatCodec α)

theorem keyInv_step {K H : Nat} (hK : 1 ≤ K) (hH : K ≤ H) {seen : List (WorldState α)}
    {out : List (Sent α)} {g : SnapshotGenerator α} {key : Option (WorldState α)}
    (hs : StreamInv fc seen out g key) (h : KeyInv K H seen out g key) {state : WorldState α}
    (ht : ∀ e ∈ seen, e.tick < state.tick) :
    KeyInv K H (seen ++ [state]) (out ++ ((encodeMachine fc K H).step (g, key) state).2)
      ((encodeMachine fc K H).step (g, key) state).1.1
      ((encodeMachine fc K H).step (g, key) state).1.2 := by
  obtain ⟨hint, hsize, hlast, hhas⟩ := g.remember_fields state
  have hnew : ∀ e ∈ g.history, e.tick < state.tick := fun e he => ht e (hs.history e he)
  have hstates : ∀ p : Sent α, p.state = state → (out ++ [p]).map (·.state) = seen ++ [state] := by
    intro p hp
    simp [h.states, hp]
  have hdeltas : ∀ out', ∀ p ∈ out, p.snapshot.isKeyframe = false → p.key.tick < p.state.tick ∧
      p.state.tick < p.key.tick + K ∧ SentAsKeyframe (out ++ out') p.key := by
    intro out' p hp hkf
    obtain ⟨h1, h2, h3⟩ := h.deltas p hp hkf
    exact ⟨h1, h2, h3.append out'⟩
  simp only [encodeMachine]
  rcases g.encode_cases fc state with ⟨he, -⟩ | ⟨base, hd, -, he⟩
  · simp only [he, SnapshotGenerator.encodeKeyframe, ↓reduceIte]
    refine ⟨hint.trans h.interval, hsize.trans h.size, fun _ => ⟨state, rfl, rfl, ?_, ?_⟩,
      hstates _ rfl, fun p hp hkf => ?_⟩
    · obtain ⟨old, hold⟩ := SnapshotGenerator.remember_keeps g.history [] state hnew rfl
        (by rw [h.size]; exact hK.trans hH) (Nat.le_add_right _ _)
      exact ⟨old, [], hold, fun t hlt => hlt state (by simp)⟩
    · exact ⟨_, List.mem_append_right _ (List.mem_singleton.2 rfl), rfl, rfl⟩
    · rcases List.mem_append.1 hp with hp | hp
      · exact hdeltas _ p hp hkf
      · rw [List.mem_singleton.1 hp] at hkf
        cases hkf
  · obtain ⟨hk, hlt, hint'⟩ := SnapshotGenerator.hasKeyframe_of_delta hd
    obtain ⟨k, rfl, hkt, ⟨old, recent, hh, hroom⟩, hsent⟩ := h.held hk
    rw [← hkt] at hlt hint'
    rw [h.interval] at hint'
    have hr := hroom state.tick ht
    have hnext : state.tick < k.tick + K := by omega
    have hlen : (recent ++ [state]).length < g.historySize := by
      rw [h.size, List.length_append, List.length_singleton]
      omega
    simp only [he, Bool.false_eq_true, ↓reduceIte, Option.getD_some]
    refine ⟨hint.trans h.interval, hsize.trans h.size,
      fun _ => ⟨k, rfl, hkt.trans hlast.symm, ?_, hsent.append _⟩, hstates _ rfl, fun p hp hkf => ?_⟩
    · obtain ⟨old', hold⟩ := SnapshotGenerator.remember_keeps old (recent ++ [state]) k hnew
        (by simp [hh]) hlen (by rw [h.size]; omega)
      refine ⟨old', recent ++ [state], hold, fun t hlt' => ?_⟩
      have := hlt' state (by simp)
      simp only [List.length_append, List.length_singleton]
      omega
    · rcases List.mem_append.1 hp with hp | hp
      · exact hdeltas _ p hp hkf
      · rw [List.mem_singleton.1 hp]
        exact ⟨hlt, hnext, hsent.append _⟩

theorem keyInv_run {K H : Nat} (hK : 1 ≤ K) (hH : K ≤ H) (states : List (WorldState α))
    (h : states.Pairwise (·.tick < ·.tick)) :
    KeyInv K H states (sent fc K H states) ((encodeMachine fc K H).run states).1.1
      ((encodeMachine fc K H).run states).1.2 := by
  induction states using List.reverseRecOn with
  | nil =>
    exact ⟨rfl, rfl, by simp [encodeMachine], rfl, by simp [sent]⟩
  | append_singleton states state ih =>
    obtain ⟨ht, -, hlt⟩ := List.pairwise_append.1 h
    have hs := streamInv_run fc K H states ht
    have := keyInv_step fc hK hH hs (ih ht) fun e he => hlt e he state (by simp)
    simpa only [sent, Machine.run_concat] using this

variable [Add α]

theorem decoderInv_step {N : Nat} (hN : 1 ≤ N) {deliveries : List (Sent α)} {d : SnapshotDecoder α}
    (h : DecoderInv N deliveries d) {p : Sent α} (hok : p.Ok fc)
    (ht : ∀ q ∈ deliveries, q.state.tick < p.state.tick) :
    DecoderInv N (deliveries ++ [p]) (d.apply fc p.snapshot).1 := by
  rcases apply_cases fc d hok with ⟨-, he⟩ | ⟨hkf, -, he⟩ | ⟨base, -, -, he⟩
  · rw [he]
    exact decoderInv_store hN h ht rfl
  · rw [he]
    refine ⟨h.size, fun e he => ?_, fun q hq hkf' hlt => ?_⟩
    · obtain ⟨q, hq, hqe⟩ := h.ticks e he
      exact ⟨q, List.mem_append_left _ hq, hqe⟩
    · rcases List.mem_append.1 hq with hq | hq
      · obtain ⟨k, hk, hheld⟩ := h.held q hq hkf' fun r hr => hlt r (List.mem_append_left _ hr)
        refine ⟨k, hk, ?_⟩
        rw [List.map_append]
        exact hheld.seen_concat p.state
      · rw [List.mem_singleton.1 hq, hkf] at hkf'
        cases hkf'
  · rw [he]
    exact decoderInv_store hN h ht rfl

theorem decoderInv_received {N : Nat} (hN : 1 ≤ N) (deliveries : List (Sent α))
    (hok : ∀ p ∈ deliveries, p.Ok fc) (ht : deliveries.Pairwise (·.state.tick < ·.state.tick)) :
    DecoderInv N deliveries (received fc N deliveries) := by
  induction deliveries using List.reverseRecOn with
  | nil => exact ⟨rfl, by simp [received, decodeMachine], by simp⟩
  | append_singleton deliveries p ih =>
    obtain ⟨ht, -, hlt⟩ := List.pairwise_append.1 ht
    rw [received_concat]
    exact decoderInv_step fc hN (ih (fun q hq => hok q (List.mem_append_left _ hq)) ht)
      (hok p (by simp)) fun q hq => hlt q hq p (by simp)

/-! ### Availability -/

omit [Add α] in
theorem Sent.Ok.fields {p : Sent α} (h : p.Ok fc) : p.snapshot.tick = p.state.tick ∧
    (p.snapshot.isKeyframe = false → p.snapshot.baseTick = p.key.tick) := by
  rcases h with ⟨-, hsnap⟩ | hsnap
  · simp [hsnap]
  · simp [hsnap]

/-- A delta against the decoder that has seen the snapshots `pre` of the stream `all`. -/
theorem throws_iff {K N : Nat} (hK : 1 ≤ K) (hN : K ≤ N) {all pre : List (Sent α)}
    (hok : ∀ q ∈ all, q.Ok fc) (hall : all.Pairwise (·.state.tick < ·.state.tick))
    (hsub : pre.Sublist all) {p : Sent α} (hp : p.Ok fc) (hkf : p.snapshot.isKeyframe = false)
    (hpre : ∀ q ∈ pre, q.state.tick < p.state.tick) (hnear : p.state.tick < p.key.tick + K)
    (hkey : SentAsKeyframe all p.key) :
    (∃ message, ((received fc N pre).apply fc p.snapshot).2 = .error message) ↔
      ¬ ∃ q ∈ pre, q.snapshot.isKeyframe = true ∧ q.state.tick = p.key.tick := by
  have hinv := decoderInv_received fc (hK.trans hN) pre (fun q hq => hok q (hsub.mem hq))
    (hall.sublist hsub)
  rcases apply_cases fc (received fc N pre) hp with ⟨hkf', -⟩ | ⟨-, hf, he⟩ | ⟨base, -, hf, he⟩
  · rw [hkf] at hkf'
    cases hkf'
  · rw [he]
    refine ⟨fun _ => ?_, fun _ => ⟨_, rfl⟩⟩
    rintro ⟨q, hq, hqk, hqt⟩
    have hlt : ∀ r ∈ pre, r.state.tick < q.state.tick + N := by
      intro r hr
      have := hpre r hr
      omega
    obtain ⟨k, hk, old, recent, hh, -⟩ := hinv.held q hq hqk hlt
    exact findState_eq_none.1 hf k (by simp [hh]) (hk.trans hqt)
  · rw [he]
    refine ⟨fun ⟨_, h⟩ => (by cases h), fun h => absurd ?_ h⟩
    obtain ⟨hb, hbt⟩ := findState_some hf
    obtain ⟨q, hq, hqt⟩ := hinv.ticks base hb
    obtain ⟨kq, hkq, hkqk, hkqs⟩ := hkey
    have hmap : (all.map (·.state.tick)).Pairwise (· < ·) := List.pairwise_map.2 hall
    have hqkq : q = kq := by
      refine List.inj_on_of_nodup_map (hmap.imp Nat.ne_of_lt) (hsub.mem hq) hkq ?_
      show q.state.tick = kq.state.tick
      rw [hqt, hbt, hkqs]
    exact ⟨q, hq, hqkq ▸ hkqk, hqt.trans hbt⟩

/-- With a keyframe interval of at least 1 and histories no shorter than it, the generator always
finds the base of a delta, and a delta that is delivered in order is thrown out exactly when its
keyframe was not delivered. -/
theorem snapshot_stream_available (K H N : Nat) (hK : 1 ≤ K) (hH : K ≤ H) (hN : K ≤ N)
    (states : List (WorldState α)) (ht : states.Pairwise (·.tick < ·.tick)) :
    (∀ pre state post, states = pre ++ state :: post →
      ¬ FallsBack ((encodeMachine fc K H).run pre).1.1 state) ∧
    ∀ deliveries : List (Sent α), deliveries.Sublist (sent fc K H states) →
      ∀ pre p post, deliveries = pre ++ p :: post → p.snapshot.isKeyframe = false →
        ((∃ message, ((received fc N pre).apply fc p.snapshot).2 = .error message) ↔
          ¬ ∃ q ∈ deliveries, q.snapshot.isKeyframe = true ∧ q.snapshot.tick = p.snapshot.baseTick) := by
  refine ⟨fun pre state post hs => ?_, fun deliveries hsub pre p post hs hkf => ?_⟩
  · have hpre : pre.Pairwise (·.tick < ·.tick) := by
      rw [hs] at ht
      exact (List.pairwise_append.1 ht).1
    exact (keyInv_run fc hK hH pre hpre).not_fallsBack state
  · have hkey := keyInv_run fc hK hH states ht
    have hok : ∀ q ∈ sent fc K H states, q.Ok fc := fun q hq =>
      ((streamInv_run fc K H states ht).out q hq).1
    have hticks : (sent fc K H states).Pairwise (·.state.tick < ·.state.tick) := by
      rw [← hkey.states] at ht
      exact (List.pairwise_map (f := fun q : Sent α => q.state)).1 ht
    have hp : p ∈ sent fc K H states := hsub.mem (by simp [hs])
    obtain ⟨hlt, hnear, hsentkey⟩ := hkey.deltas p hp hkf
    obtain ⟨-, hpost, hpre⟩ := List.pairwise_append.1 (hs ▸ hticks.sublist hsub)
    rw [throws_iff fc hK hN hok hticks (List.Sublist.trans (by simp [hs]) hsub) (hok p hp) hkf
      (fun q hq => hpre q hq p (by simp)) hnear hsentkey]
    -- a keyframe older than `p` is delivered before `p` or not at all
    have hmem : ∀ q ∈ deliveries, q.snapshot.tick = p.snapshot.baseTick →
        q ∈ pre ∧ q.state.tick = p.key.tick := by
      intro q hq hqt
      rw [((hok q (hsub.mem hq)).fields fc).1, ((hok p hp).fields fc).2 hkf] at hqt
      refine ⟨?_, hqt⟩
      rw [hs] at hq
      rcases List.mem_append.1 hq with hq | hq
      · exact hq
      · rcases List.mem_cons.1 hq with rfl | hq
        · omega
        · have := (List.pairwise_cons.1 hpost).1 q hq
          omega
    refine not_congr ⟨fun ⟨q, hq, hqk, hqt⟩ => ?_, fun ⟨q, hq, hqk, hqt⟩ => ?_⟩
    · have hqd : q ∈ deliveries := by simp [hs, hq]
      refine ⟨q, hqd, hqk, ?_⟩
      rw [((hok q (hsub.mem hqd)).fields fc).1, ((hok p hp).fields fc).2 hkf, hqt]
    · exact ⟨q, (hmem q hq hqt).1, hqk, (hmem q hq hqt).2⟩

end

/-- Two states, the keyframe lost. -/
theorem snapshot_stream_available_lost :
    ∃ key delta, sent smallFloats 20 20 twoStates = [key, delta] ∧
      ((∃ message, ((received smallFloats 20 []).apply smallFloats delta.snapshot).2 = .error message) ↔
        ¬ ∃ q ∈ [delta], q.snapshot.isKeyframe = true ∧ q.snapshot.tick = delta.snapshot.baseTick) := by
  refine ⟨_, _, rfl, ?_⟩
  exact (snapshot_stream_available smallFloats 20 20 20 (by decide) (by decide) (by decide) twoStates
    (by decide)).2 _ (List.sublist_cons_self _ _) [] _ [] rfl rfl

end Portfolio.Netcode
