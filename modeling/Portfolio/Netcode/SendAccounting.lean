import Portfolio.Netcode.ReliableSend

/-!
# Accounting of reliable sends

Every reliable send of a client is dropped by the window, acknowledged, timed out or still pending,
and is retransmitted at most four times.
-/

namespace Portfolio.Netcode
open Std

section
variable {P : Type}

/-! ### Where reliable sends go -/

/-- One reliable send to the client. -/
def reliableSend (key : String) (_ : UdpTransport P) : TransportOp P → Nat
  | .send endpoint _ reliable _ => if endpointKey endpoint = key ∧ reliable = true then 1 else 0
  | _ => 0

/-- What a send to the client adds to `dropped_window_total_`. -/
def windowDrop (key : String) (t : UdpTransport P) : TransportOp P → Nat
  | .send endpoint data reliable now =>
    if endpointKey endpoint = key then
      (t.send endpoint data reliable now).1.counters.droppedWindowTotal - t.counters.droppedWindowTotal
    else 0
  | _ => 0

/-- The entries of the client that `handle_ack` removes. -/
def acked (key : String) (t : UdpTransport P) : TransportOp P → Nat
  | .packet endpoint num ack ackBits payload now => (pendingOf t key).size -
      (pendingOf (t.processPacket endpoint ⟨.ofNat 16 num, ack, ackBits⟩ payload now).1 key).size
  | _ => 0

/-- The entries of the client that `update` times out. -/
def timedOut (key : String) (t : UdpTransport P) : TransportOp P → Nat
  | .update now => (pendingOf t key).size - ((pendingOf t key).filter fun _ p => !expired now p).size
  | _ => 0

theorem droppedWindow_send (t : UdpTransport P) (endpoint : Endpoint) (data : P) (reliable : Bool)
    (now : Time) : (t.send endpoint data reliable now).1.counters.droppedWindowTotal =
      t.counters.droppedWindowTotal +
        if reliable = true ∧ kMaxWindow ≤ (pendingOf t (endpointKey endpoint)).size then 1 else 0 := by
  rw [← (ensureClientLocked_pending t endpoint).1]
  unfold UdpTransport.send sendClient
  dsimp only
  cases reliable with
  | false => simp
  | true =>
    by_cases hfull : kMaxWindow ≤ (ensureClientLocked t.clients endpoint).pending.size
    · simp [hfull]
    · simp [hfull]

theorem size_afterSend {pending : TreeMap (BitVec 16) (PendingPacket P)} {seq : BitVec 16}
    (hfresh : seq ∉ pending) (data : P) (reliable : Bool) (now : Time) :
    (afterSend pending seq data reliable now).size +
        (if reliable = true ∧ kMaxWindow ≤ pending.size then 1 else 0) =
      pending.size + if reliable = true then 1 else 0 := by
  unfold afterSend
  cases reliable with
  | false => simp
  | true =>
    by_cases hroom : pending.size < kMaxWindow
    · rw [if_pos ⟨rfl, hroom⟩, TreeMap.size_insert, if_neg fun h => hfresh (TreeMap.contains_iff_mem.1 h),
        if_neg fun h => Nat.not_le_of_lt hroom h.2, if_pos rfl]
    · rw [if_neg fun h => hroom h.2, if_pos ⟨rfl, Nat.le_of_not_lt hroom⟩, if_pos rfl]

theorem booked_step {t : UdpTransport P} {key : String} {op : TransportOp P} (hfresh : FreshSend key t op) :
    windowDrop key t op + acked key t op + timedOut key t op +
        (pendingOf ((transportMachine P).step t op).1 key).size =
      (pendingOf t key).size + reliableSend key t op := by
  cases op with
  | packet endpoint num ack ackBits payload now =>
    have hle : (pendingOf (t.processPacket endpoint ⟨.ofNat 16 num, ack, ackBits⟩ payload now).1 key).size ≤
        (pendingOf t key).size := by
      rw [(processPacket_spec t endpoint ⟨.ofNat 16 num, ack, ackBits⟩ payload now key).1]
      split
      · exact TreeMap.size_filter_le_size
      · exact Nat.le_refl _
    show 0 + ((pendingOf t key).size - _) + 0 + _ = _ + 0
    rw [Nat.zero_add, Nat.add_zero, Nat.add_zero]
    exact Nat.sub_add_cancel hle
  | send endpoint data reliable now =>
    show (if endpointKey endpoint = key then (t.send endpoint data reliable now).1.counters.droppedWindowTotal -
        t.counters.droppedWindowTotal else 0) + 0 + 0 + (pendingOf (t.send endpoint data reliable now).1 key).size =
      (pendingOf t key).size + if endpointKey endpoint = key ∧ reliable = true then 1 else 0
    rw [droppedWindow_send, (send_spec t endpoint data reliable now key).1]
    by_cases hk : endpointKey endpoint = key
    · have hsize := size_afterSend (hfresh hk) data reliable now
      subst hk
      simp only [if_true, true_and]
      omega
    · simp [hk]
  | update now =>
    show 0 + 0 + ((pendingOf t key).size - _) + (pendingOf (t.update now).1 key).size = _ + 0
    rw [(update_spec t now key).2.1, Nat.zero_add, Nat.add_zero]
    exact Nat.sub_add_cancel TreeMap.size_filter_le_size

theorem booked_run {key : String} {ops : List (TransportOp P)}
    (hfresh : (transportMachine P).Along (FreshSend key) ops) :
    (transportMachine P).sumSteps (reliableSend key) ops =
      (transportMachine P).sumSteps (windowDrop key) ops + (transportMachine P).sumSteps (acked key) ops +
        (transportMachine P).sumSteps (timedOut key) ops +
        (pendingOf ((transportMachine P).run ops).1 key).size := by
  induction ops using List.reverseRecOn with
  | nil => rfl
  | append_singleton ops op ih =>
    obtain ⟨hfresh, hop⟩ := (transportMachine P).along_concat.1 hfresh
    have hstep := booked_step hop
    have ih := ih hfresh
    rw [Machine.run_concat, Machine.sumSteps_concat, Machine.sumSteps_concat, Machine.sumSteps_concat,
      Machine.sumSteps_concat]
    dsimp only
    omega

/-! ### Retransmissions -/

/-- The retransmissions of the packet `q` to the client that `update` posts. -/
def resent (key : String) (q : BitVec 16) (t : UdpTransport P) : TransportOp P → Nat
  | .update now => match t.clients[key]? with
    | none => 0
    | some client => (resends now client).countP fun p => p.header.seq = q
  | _ => 0

theorem composePacket_header_seq (client : ClientState P) (seq : BitVec 16) (payload : P) :
    (composePacket client seq payload).header.seq = seq := by
  unfold composePacket
  split
  · rfl
  · rfl

/-- The entry `q` is retransmitted if it is due and not expired. -/
theorem countP_resends {client : ClientState P} (h : EntriesOk client.pending) (now : Time) (q : BitVec 16) :
    (resends now client).countP (fun p => p.header.seq = q) =
      ((client.pending[q]?).filter fun p => !expired now p).elim 0 fun p => if due now p then 1 else 0 := by
  have hkey : ∀ e ∈ (unexpired now client).toList, e.2.seq = e.1 := by
    rintro ⟨k, p⟩ he
    rw [TreeMap.mem_toList_iff_getElem?_eq_some, unexpired, TreeMap.getElem?_filter'] at he
    exact (h k p (Option.filter_eq_some_iff.1 he).1).seq
  unfold resends
  rw [List.countP_map, List.countP_filter]
  have hcount : (unexpired now client).toList.countP (fun e =>
      ((fun p : Packet P => decide (p.header.seq = q)) ∘ fun e => composePacket client e.2.seq e.2.payload) e &&
        due now e.2) =
      ((unexpired now client).toList.filter (·.1 = q)).countP fun e => due now e.2 := by
    rw [List.countP_filter]
    refine List.countP_congr fun e he => ?_
    simp only [Function.comp_apply, composePacket_header_seq, hkey e he, Bool.and_comm]
  rw [hcount, filter_toList, unexpired, TreeMap.getElem?_filter']
  cases (client.pending[q]?).filter fun p => !expired now p with
  | none => rfl
  | some p =>
    by_cases hdue : due now p
    · simp [hdue]
    · simp [hdue]

theorem resent_update {t : UdpTransport P} {key : String} (h : EntriesOk (pendingOf t key)) (now : Time)
    (q : BitVec 16) : resent key q t (.update now) =
      (((pendingOf t key)[q]?).filter fun p => !expired now p).elim 0 fun p => if due now p then 1 else 0 := by
  unfold resent
  unfold pendingOf at h ⊢
  cases hc : t.clients[key]? with
  | none => simp
  | some client =>
    rw [hc] at h
    exact countP_resends h now q

/-- While an entry stays, `retries` counts its retransmissions. -/
theorem retries_step {t : UdpTransport P} {key : String} {op : TransportOp P} (h : EntriesOk (pendingOf t key))
    (hfresh : FreshSend key t op) {q : BitVec 16} {p p' : PendingPacket P}
    (hp : (pendingOf t key)[q]? = some p)
    (hp' : (pendingOf ((transportMachine P).step t op).1 key)[q]? = some p') :
    p'.retries = p.retries + resent key q t op := by
  cases op with
  | packet endpoint num ack ackBits payload now =>
    have hp' : (pendingOf (t.processPacket endpoint ⟨.ofNat 16 num, ack, ackBits⟩ payload now).1 key)[q]? =
      some p' := hp'
    rw [(processPacket_spec t endpoint ⟨.ofNat 16 num, ack, ackBits⟩ payload now key).1] at hp'
    have heq : (pendingOf t key)[q]? = some p' := by
      split at hp'
      · rw [TreeMap.getElem?_filter'] at hp'
        exact (Option.filter_eq_some_iff.1 hp').1
      · exact hp'
    rw [hp] at heq
    rw [Option.some.inj heq]
    rfl
  | send endpoint data reliable now =>
    have hp' : (pendingOf (t.send endpoint data reliable now).1 key)[q]? = some p' := hp'
    rw [(send_spec t endpoint data reliable now key).1] at hp'
    have heq : (pendingOf t key)[q]? = some p' := by
      split at hp'
      · next hk =>
        have hne : nextSeqOf t key ≠ q := by
          rintro rfl
          refine hfresh hk ?_
          rw [TreeMap.mem_iff_isSome_getElem?, hp]
          rfl
        unfold afterSend at hp'
        split at hp'
        · rw [TreeMap.getElem?_insert] at hp'
          simp only [Std.compare_eq_iff_eq, if_neg hne] at hp'
          exact hp'
        · exact hp'
      · exact hp'
    rw [hp] at heq
    rw [Option.some.inj heq]
    rfl
  | update now =>
    have hp' : (pendingOf (t.update now).1 key)[q]? = some p' := hp'
    rw [(update_spec t now key).1 q, afterUpdate_get] at hp'
    obtain ⟨p'', hp'', rfl⟩ := Option.map_eq_some_iff.1 hp'
    have hlive := hp''
    rw [hp] at hlive
    obtain rfl := Option.some.inj (Option.filter_eq_some_iff.1 hlive).1
    rw [resent_update h, hp'']
    by_cases hdue : due now p
    · simp [hdue, retransmitted]
    · simp [hdue]

theorem retries_throughout {key : String} {q : BitVec 16} {pre mid : List (TransportOp P)}
    (hfresh : (transportMachine P).Along (FreshSend key) (pre ++ mid))
    (hthrough : PendingThroughout key q pre mid) {p p' : PendingPacket P}
    (hp : (pendingOf ((transportMachine P).run pre).1 key)[q]? = some p)
    (hp' : (pendingOf ((transportMachine P).run (pre ++ mid)).1 key)[q]? = some p') :
    (transportMachine P).sumSteps (resent key q) (pre ++ mid) + p.retries =
      (transportMachine P).sumSteps (resent key q) pre + p'.retries := by
  induction mid using List.reverseRecOn generalizing p' with
  | nil =>
    rw [List.append_nil] at hp' ⊢
    rw [hp] at hp'
    rw [Option.some.inj hp']
  | append_singleton mid op ih =>
    rw [← List.append_assoc] at hfresh hp' ⊢
    obtain ⟨hfresh, hop⟩ := (transportMachine P).along_concat.1 hfresh
    have hmem := hthrough mid [op] rfl
    rw [TreeMap.mem_iff_isSome_getElem?, Option.isSome_iff_exists] at hmem
    obtain ⟨p'', hp''⟩ := hmem
    have ih := ih hfresh (fun front back hmid => hthrough front (back ++ [op]) (by simp [hmid])) hp''
    rw [Machine.run_concat] at hp'
    have hstep := retries_step (windowOk_run key (pre ++ mid)).entries hop hp'' hp'
    rw [Machine.sumSteps_concat]
    omega

theorem resent_throughout {key : String} {q : BitVec 16} {pre mid : List (TransportOp P)}
    (hfresh : (transportMachine P).Along (FreshSend key) (pre ++ mid))
    (hthrough : PendingThroughout key q pre mid) :
    (transportMachine P).sumSteps (resent key q) (pre ++ mid) ≤
      (transportMachine P).sumSteps (resent key q) pre + 4 := by
  have hfirst := hthrough [] mid rfl
  have hlast := hthrough mid [] (List.append_nil mid).symm
  rw [List.append_nil] at hfirst
  rw [TreeMap.mem_iff_isSome_getElem?, Option.isSome_iff_exists] at hfirst hlast
  obtain ⟨p, hp⟩ := hfirst
  obtain ⟨p', hp'⟩ := hlast
  have hcount := retries_throughout hfresh hthrough hp hp'
  have hmax := ((windowOk_run key (pre ++ mid)).entries q p' hp').retries
  omega

/-- For a client and a run with fewer than `2 ^ 16` sends to it while any one of its packets is
pending: at most 32 entries, each under its number; the reliable sends are the window drops, the
acknowledged, the timed out and the pending ones; while a packet is pending it is retransmitted at
most four times; and an entry expires by its TTL, never by the retry limit. -/
theorem reliable_send_accounting (key : String) (ops : List (TransportOp P)) (hfew : FewSends key ops) :
    let t := ((transportMachine P).run ops).1
    (pendingOf t key).size ≤ 32 ∧
    (∀ (q : BitVec 16) (p : PendingPacket P), (pendingOf t key)[q]? = some p → p.seq = q) ∧
    (transportMachine P).sumSteps (reliableSend key) ops =
      (transportMachine P).sumSteps (windowDrop key) ops + (transportMachine P).sumSteps (acked key) ops +
        (transportMachine P).sumSteps (timedOut key) ops + (pendingOf t key).size ∧
    (∀ pre mid post q, ops = pre ++ mid ++ post → PendingThroughout key q pre mid →
      (transportMachine P).sumSteps (resent key q) (pre ++ mid) ≤
        (transportMachine P).sumSteps (resent key q) pre + 4) ∧
    ∀ (q : BitVec 16) (p : PendingPacket P) (now : Time), (pendingOf t key)[q]? = some p →
      expired now p = true → kTtl ≤ now - p.firstSent ∧ p.retries < kMaxRetries := by
  have hwindow := windowOk_run key ops
  have hfresh := freshSend_run hfew
  refine ⟨hwindow.size, fun q p hp => (hwindow.entries q p hp).seq, booked_run hfresh, ?_, ?_⟩
  · rintro pre mid post q rfl hthrough
    exact resent_throughout hfresh.append_left hthrough
  · intro q p now hp hexp
    exact (hwindow.entries q p hp).expired hexp

theorem fewSends_of_length (key : String) {ops : List (TransportOp P)} (h : ops.length < 2 ^ 16) :
    FewSends key ops := by
  rintro pre mid post q rfl -
  have hle : sendsTo key mid ≤ mid.length := List.countP_le_length
  simp only [List.length_append] at h
  omega

/-- Three reliable sends: the first is acknowledged, the others are retransmitted and time out. -/
def threeSends : List (TransportOp Unit) :=
  [.send ⟨some "10.0.0.2", 40001⟩ () true 0, .send ⟨some "10.0.0.2", 40001⟩ () true 0,
    .send ⟨some "10.0.0.2", 40001⟩ () true 0, .packet ⟨some "10.0.0.2", 40001⟩ 1 1 0 () (milliseconds 10),
    .update (milliseconds 60), .update (milliseconds 600)]

theorem reliable_send_accounting_three :
    FewSends "10.0.0.2:40001" threeSends ∧
    (transportMachine Unit).sumSteps (reliableSend "10.0.0.2:40001") threeSends = 3 ∧
    (transportMachine Unit).sumSteps (windowDrop "10.0.0.2:40001") threeSends +
      (transportMachine Unit).sumSteps (acked "10.0.0.2:40001") threeSends +
      (transportMachine Unit).sumSteps (timedOut "10.0.0.2:40001") threeSends +
      (pendingOf ((transportMachine Unit).run threeSends).1 "10.0.0.2:40001").size = 3 := by
  have hfew : FewSends "10.0.0.2:40001" threeSends := fewSends_of_length _ (by decide)
  have hsends : (transportMachine Unit).sumSteps (reliableSend "10.0.0.2:40001") threeSends = 3 := by
    decide +kernel
  refine ⟨hfew, hsends, ?_⟩
  rw [← (reliable_send_accounting "10.0.0.2:40001" threeSends hfew).2.2.1, hsends]

end

end Portfolio.Netcode
