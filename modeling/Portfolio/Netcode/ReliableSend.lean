import Portfolio.Lib.DefaultMap
import Portfolio.Netcode.ReceiveWindow

/-!
# Reliable sends

A reliable send enters the pending map of its client unless the window is full, and leaves it by an
acknowledgement or a timeout. Per client the four ways are counted against the sends; the backoff
keeps every packet below the retry limit until its TTL is over.
-/

namespace Portfolio.Netcode
open Std

section
variable {P : Type}

/-! ### One client of the transport -/

/-- The pending packets of the client `key`. -/
def pendingOf (t : UdpTransport P) (key : String) : TreeMap (BitVec 16) (PendingPacket P) :=
  match t.clients[key]? with
  | some client => client.pending
  | none => ∅

/-- The number of the next packet to the client `key`; a new client starts with 1. -/
def nextSeqOf (t : UdpTransport P) (key : String) : BitVec 16 :=
  match t.clients[key]? with
  | some client => client.nextSendSeq
  | none => 1

theorem client_insert {t t' : UdpTransport P} {k : String} {client : ClientState P}
    (h : t'.clients = t.clients.insert k client) (key : String) :
    pendingOf t' key = (if k = key then client.pending else pendingOf t key) ∧
      nextSeqOf t' key = if k = key then client.nextSendSeq else nextSeqOf t key := by
  unfold pendingOf nextSeqOf
  rw [h, TreeMap.getElem?_insert]
  by_cases hk : k = key
  · simp [hk]
  · simp [hk]

theorem ensureClientLocked_pending (t : UdpTransport P) (endpoint : Endpoint) :
    (ensureClientLocked t.clients endpoint).pending = pendingOf t (endpointKey endpoint) ∧
      (ensureClientLocked t.clients endpoint).nextSendSeq = nextSeqOf t (endpointKey endpoint) := by
  unfold ensureClientLocked pendingOf nextSeqOf
  cases t.clients[endpointKey endpoint]? with
  | none => exact ⟨rfl, rfl⟩
  | some client => exact ⟨rfl, rfl⟩

/-- The entry that a reliable send makes. -/
def sentPacket (seq : BitVec 16) (data : P) (now : Time) : PendingPacket P where
  seq := seq
  payload := data
  firstSent := now
  lastSent := now
  nextSend := now + backoffFor 0
  retries := 0

/-- The pending map after a send with the number `seq`. -/
def afterSend (pending : TreeMap (BitVec 16) (PendingPacket P)) (seq : BitVec 16) (data : P)
    (reliable : Bool) (now : Time) : TreeMap (BitVec 16) (PendingPacket P) :=
  if reliable = true ∧ pending.size < kMaxWindow then pending.insert seq (sentPacket seq data now)
  else pending

theorem sendClient_pending (client : ClientState P) (data : P) (reliable : Bool) (now : Time) :
    (sendClient client data reliable now).1.pending =
      afterSend client.pending client.nextSendSeq data reliable now ∧
    (sendClient client data reliable now).1.nextSendSeq = client.nextSendSeq + 1 := by
  unfold sendClient afterSend
  dsimp only
  cases reliable with
  | false => simp
  | true =>
    by_cases hfull : kMaxWindow ≤ client.pending.size
    · simp [hfull]
    · simp [hfull, sentPacket]

theorem send_spec (t : UdpTransport P) (endpoint : Endpoint) (data : P) (reliable : Bool) (now : Time)
    (key : String) :
    pendingOf (t.send endpoint data reliable now).1 key =
      (if endpointKey endpoint = key then
        afterSend (pendingOf t key) (nextSeqOf t key) data reliable now else pendingOf t key) ∧
    nextSeqOf (t.send endpoint data reliable now).1 key =
      if endpointKey endpoint = key then nextSeqOf t key + 1 else nextSeqOf t key := by
  obtain ⟨hpend, hnext⟩ := client_insert (send_clients t endpoint data reliable now) key
  obtain ⟨hpend', hnext'⟩ := sendClient_pending (ensureClientLocked t.clients endpoint) data reliable now
  obtain ⟨hpend'', hnext''⟩ := ensureClientLocked_pending t endpoint
  rw [hpend, hnext, hpend', hnext', hpend'', hnext'']
  by_cases hk : endpointKey endpoint = key
  · simp [hk]
  · simp [hk]

theorem processPacket_spec (t : UdpTransport P) (endpoint : Endpoint) (header : UdpHeader) (payload : P)
    (now : Time) (key : String) :
    pendingOf (t.processPacket endpoint header payload now).1 key =
      (if endpointKey endpoint = key then
        (pendingOf t key).filter fun seq _ => !isSeqAcked seq header.ack header.ackBits
      else pendingOf t key) ∧
    nextSeqOf (t.processPacket endpoint header payload now).1 key = nextSeqOf t key := by
  have hclient : ∀ client : ClientState P,
      (processClient client header now).1.pending =
        client.pending.filter (fun seq _ => !isSeqAcked seq header.ack header.ackBits) ∧
      (processClient client header now).1.nextSendSeq = client.nextSendSeq := by
    intro client
    unfold processClient handleAck
    dsimp only
    split
    · exact ⟨rfl, rfl⟩
    · exact ⟨rfl, rfl⟩
  have hins : (t.processPacket endpoint header payload now).1.clients = t.clients.insert
      (endpointKey endpoint) (processClient (ensureClientLocked t.clients endpoint) header now).1 := rfl
  obtain ⟨hpend, hnext⟩ := client_insert hins key
  obtain ⟨hpend', hnext'⟩ := hclient (ensureClientLocked t.clients endpoint)
  obtain ⟨hpend'', hnext''⟩ := ensureClientLocked_pending t endpoint
  rw [hpend, hnext, hpend', hnext', hpend'', hnext'']
  by_cases hk : endpointKey endpoint = key
  · simp [hk]
  · simp [hk]

/-- The pending map after an update. -/
def afterUpdate (now : Time) (pending : TreeMap (BitVec 16) (PendingPacket P)) :
    TreeMap (BitVec 16) (PendingPacket P) :=
  (pending.filter fun _ p => !expired now p).map fun _ p => if due now p then retransmitted now p else p

theorem update_spec (t : UdpTransport P) (now : Time) (key : String) :
    (∀ q : BitVec 16, (pendingOf (t.update now).1 key)[q]? = (afterUpdate now (pendingOf t key))[q]?) ∧
      (pendingOf (t.update now).1 key).size = ((pendingOf t key).filter fun _ p => !expired now p).size ∧
      nextSeqOf (t.update now).1 key = nextSeqOf t key := by
  unfold pendingOf nextSeqOf
  simp only [UdpTransport.update, TreeMap.getElem?_map]
  cases t.clients[key]? with
  | none =>
    refine ⟨fun q => ?_, ?_, rfl⟩
    · simp [afterUpdate]
    · exact (Nat.le_zero.1 TreeMap.size_filter_le_size).symm
  | some client => exact ⟨fun q => rfl, TreeMap.size_map, rfl⟩

/-! ### Entries -/

/-- The time from the first transmission to the one after `retries` retransmissions, at the least. -/
def backoffSum : Nat → Time
  | 0 => backoffFor 0
  | retries + 1 => backoffSum retries + backoffFor (retries + 1)

/-- An entry under its own number, early enough in its backoff for its retries. -/
structure EntryOk (q : BitVec 16) (p : PendingPacket P) : Prop where
  seq : p.seq = q
  retries : p.retries ≤ 4
  backoff : p.firstSent + backoffSum p.retries ≤ p.nextSend

def EntriesOk (pending : TreeMap (BitVec 16) (PendingPacket P)) : Prop :=
  ∀ (q : BitVec 16) (p : PendingPacket P), pending[q]? = some p → EntryOk q p

theorem EntryOk.sent (seq : BitVec 16) (data : P) (now : Time) : EntryOk seq (sentPacket seq data now) :=
  ⟨rfl, Nat.zero_le _, Nat.le_refl _⟩

/-- Four retransmissions take longer than the TTL. -/
theorem ttl_lt_backoffSum : kTtl < backoffSum 4 := by decide

theorem EntryOk.retransmitted {q : BitVec 16} {p : PendingPacket P} (h : EntryOk q p) {now : Time}
    (hlive : expired now p = false) (hdue : due now p = true) : EntryOk q (retransmitted now p) := by
  have hdue : p.nextSend ≤ now := of_decide_eq_true hdue
  have hlive : now - p.firstSent < kTtl := by
    have := (Bool.or_eq_false_iff.1 hlive).1
    exact Nat.lt_of_not_le (of_decide_eq_false this)
  have hretries : p.retries ≤ 3 := by
    by_contra hlt
    have h4 : p.retries = 4 := by
      have := h.retries
      omega
    have hback := h.backoff
    rw [h4] at hback
    have hlong : backoffSum 4 ≤ now - p.firstSent := Nat.le_sub_of_add_le' (hback.trans hdue)
    exact Nat.not_le_of_lt (hlive.trans ttl_lt_backoffSum) hlong
  refine ⟨h.seq, Nat.succ_le_succ hretries, ?_⟩
  show p.firstSent + (backoffSum p.retries + backoffFor (p.retries + 1)) ≤ now + backoffFor (p.retries + 1)
  rw [← Nat.add_assoc]
  exact Nat.add_le_add_right (h.backoff.trans hdue) _

/-- A pending entry expires by its TTL only. -/
theorem EntryOk.expired {q : BitVec 16} {p : PendingPacket P} (h : EntryOk q p) {now : Time}
    (hexp : expired now p = true) : kTtl ≤ now - p.firstSent ∧ p.retries < kMaxRetries := by
  have hretries : p.retries < kMaxRetries := Nat.lt_succ_of_le h.retries
  rcases Bool.or_eq_true_iff.1 hexp with httl | hmax
  · exact ⟨of_decide_eq_true httl, hretries⟩
  · exact absurd (of_decide_eq_true hmax) (Nat.not_le_of_lt hretries)

theorem afterUpdate_get (now : Time) (pending : TreeMap (BitVec 16) (PendingPacket P)) (q : BitVec 16) :
    (afterUpdate now pending)[q]? = ((pending[q]?).filter fun p => !expired now p).map fun p =>
      if due now p then retransmitted now p else p := by
  unfold afterUpdate
  rw [TreeMap.getElem?_map, TreeMap.getElem?_filter']

theorem EntriesOk.update {pending : TreeMap (BitVec 16) (PendingPacket P)} (h : EntriesOk pending)
    (now : Time) : EntriesOk (afterUpdate now pending) := by
  intro q p' hp'
  rw [afterUpdate_get] at hp'
  obtain ⟨p, hp, rfl⟩ := Option.map_eq_some_iff.1 hp'
  obtain ⟨hp, hlive⟩ := Option.filter_eq_some_iff.1 hp
  split
  · next hdue => exact (h q p hp).retransmitted (by simpa using hlive) hdue
  · exact h q p hp

theorem EntriesOk.send {pending : TreeMap (BitVec 16) (PendingPacket P)} (h : EntriesOk pending)
    (seq : BitVec 16) (data : P) (reliable : Bool) (now : Time) :
    EntriesOk (afterSend pending seq data reliable now) := by
  unfold afterSend
  split
  · intro q p hp
    rw [TreeMap.getElem?_insert] at hp
    simp only [Std.compare_eq_iff_eq] at hp
    split at hp
    · next hq =>
      obtain rfl := Option.some.inj hp
      exact hq ▸ .sent seq data now
    · exact h q p hp
  · exact h

theorem EntriesOk.filter {pending : TreeMap (BitVec 16) (PendingPacket P)} (h : EntriesOk pending)
    (keep : BitVec 16 → Bool) : EntriesOk (pending.filter fun q _ => keep q) := by
  intro q p hp
  rw [TreeMap.getElem?_filter'] at hp
  exact h q p (Option.filter_eq_some_iff.1 hp).1

theorem size_afterSend_le {pending : TreeMap (BitVec 16) (PendingPacket P)} (h : pending.size ≤ kMaxWindow)
    (seq : BitVec 16) (data : P) (reliable : Bool) (now : Time) :
    (afterSend pending seq data reliable now).size ≤ kMaxWindow := by
  unfold afterSend
  split
  · next hroom =>
    have := TreeMap.size_insert_le (t := pending) (k := seq) (v := sentPacket seq data now)
    omega
  · exact h

/-- The window and the entries of one client. -/
structure WindowOk (t : UdpTransport P) (key : String) : Prop where
  size : (pendingOf t key).size ≤ kMaxWindow
  entries : EntriesOk (pendingOf t key)

theorem WindowOk.step {t : UdpTransport P} {key : String} (h : WindowOk t key) (op : TransportOp P) :
    WindowOk ((transportMachine P).step t op).1 key := by
  cases op with
  | packet endpoint num ack ackBits payload now =>
    have hspec := (processPacket_spec t endpoint ⟨.ofNat 16 num, ack, ackBits⟩ payload now key).1
    show WindowOk (t.processPacket endpoint ⟨.ofNat 16 num, ack, ackBits⟩ payload now).1 key
    constructor
    · rw [hspec]
      split
      · exact TreeMap.size_filter_le_size.trans h.size
      · exact h.size
    · rw [hspec]
      split
      · exact h.entries.filter _
      · exact h.entries
  | send endpoint data reliable now =>
    have hspec := (send_spec t endpoint data reliable now key).1
    show WindowOk (t.send endpoint data reliable now).1 key
    constructor
    · rw [hspec]
      split
      · exact size_afterSend_le h.size _ data reliable now
      · exact h.size
    · rw [hspec]
      split
      · exact h.entries.send _ data reliable now
      · exact h.entries
  | update now =>
    obtain ⟨hget, hsize, -⟩ := update_spec t now key
    show WindowOk (t.update now).1 key
    constructor
    · rw [hsize]
      exact TreeMap.size_filter_le_size.trans h.size
    · intro q p hp
      rw [hget] at hp
      exact h.entries.update now q p hp

theorem windowOk_run (key : String) (ops : List (TransportOp P)) :
    WindowOk ((transportMachine P).run ops).1 key := by
  refine (transportMachine P).run_inv (P := fun _ _ t => WindowOk t key) ⟨?_, ?_⟩
    (fun _ _ _ op h => h.step op) ops
  · exact Nat.zero_le _
  · intro q p hp
    cases hp

/-! ### Sends while a packet is pending -/

/-- A send to the client `key`. -/
def IsSendTo (key : String) : TransportOp P → Prop
  | .send endpoint _ _ _ => endpointKey endpoint = key
  | _ => False

instance (key : String) (op : TransportOp P) : Decidable (IsSendTo key op) :=
  match op with
  | .send endpoint _ _ _ => inferInstanceAs (Decidable (endpointKey endpoint = key))
  | .packet .. | .update _ => inferInstanceAs (Decidable False)

@[simp] theorem isSendTo_send (key : String) (endpoint : Endpoint) (data : P) (reliable : Bool) (now : Time) :
    IsSendTo key (.send endpoint data reliable now) ↔ endpointKey endpoint = key := Iff.rfl

@[simp] theorem isSendTo_packet (key : String) (endpoint : Endpoint) (num : Nat) (ack : BitVec 16)
    (ackBits : BitVec 32) (payload : P) (now : Time) :
    IsSendTo key (.packet endpoint num ack ackBits payload now) ↔ False := Iff.rfl

@[simp] theorem isSendTo_update (key : String) (now : Time) :
    IsSendTo key (.update now : TransportOp P) ↔ False := Iff.rfl

/-- The number of sends to the client `key`. -/
def sendsTo (key : String) (ops : List (TransportOp P)) : Nat := ops.countP fun op => IsSendTo key op

/-- The packet `q` is pending after `pre` and stays so up to the end of `pre ++ mid`. -/
def PendingThroughout (key : String) (q : BitVec 16) (pre mid : List (TransportOp P)) : Prop :=
  ∀ front back, mid = front ++ back → q ∈ pendingOf ((transportMachine P).run (pre ++ front)).1 key

/-- Fewer than `2 ^ 16` sends to the client happen while any one of its packets is pending. -/
def FewSends (key : String) (ops : List (TransportOp P)) : Prop :=
  ∀ pre mid post q, ops = pre ++ mid ++ post → PendingThroughout key q pre mid →
    sendsTo key mid < 2 ^ 16

/-- A send does not take the number of a pending packet. -/
def FreshSend (key : String) (t : UdpTransport P) (op : TransportOp P) : Prop :=
  IsSendTo key op → nextSeqOf t key ∉ pendingOf t key

theorem sendsTo_concat (key : String) (ops : List (TransportOp P)) (op : TransportOp P) :
    sendsTo key (ops ++ [op]) = sendsTo key ops + if IsSendTo key op then 1 else 0 := by
  rw [sendsTo, List.countP_append, List.countP_singleton, ← sendsTo]
  simp only [decide_eq_true_eq]

theorem PendingThroughout.concat {key : String} {q : BitVec 16} {pre mid : List (TransportOp P)}
    {op : TransportOp P} (h : PendingThroughout key q pre mid)
    (hop : q ∈ pendingOf ((transportMachine P).run (pre ++ (mid ++ [op]))).1 key) :
    PendingThroughout key q pre (mid ++ [op]) := by
  intro front back hsplit
  rcases List.eq_nil_or_concat back with rfl | ⟨back, op', rfl⟩
  · rw [List.append_nil] at hsplit
    rw [← hsplit]
    exact hop
  · rw [List.concat_eq_append, ← List.append_assoc] at hsplit
    exact h front back (List.append_inj' hsplit rfl).1

theorem nextSeqOf_step (t : UdpTransport P) (key : String) (op : TransportOp P) :
    nextSeqOf ((transportMachine P).step t op).1 key =
      nextSeqOf t key + BitVec.ofNat 16 (if IsSendTo key op then 1 else 0) := by
  cases op with
  | packet endpoint num ack ackBits payload now =>
    refine (processPacket_spec t endpoint ⟨.ofNat 16 num, ack, ackBits⟩ payload now key).2.trans ?_
    simp
  | send endpoint data reliable now =>
    refine (send_spec t endpoint data reliable now key).2.trans ?_
    by_cases hk : endpointKey endpoint = key
    · simp [hk]
    · simp [hk]
  | update now =>
    refine (update_spec t now key).2.2.trans ?_
    simp

/-- What is pending after a step was pending before or is the packet just sent. -/
theorem pending_of_step {t : UdpTransport P} {key : String} {op : TransportOp P} {q : BitVec 16}
    (h : q ∈ pendingOf ((transportMachine P).step t op).1 key) :
    q ∈ pendingOf t key ∨ (IsSendTo key op ∧ q = nextSeqOf t key) := by
  cases op with
  | packet endpoint num ack ackBits payload now =>
    have h : q ∈ pendingOf (t.processPacket endpoint ⟨.ofNat 16 num, ack, ackBits⟩ payload now).1 key := h
    rw [(processPacket_spec t endpoint ⟨.ofNat 16 num, ack, ackBits⟩ payload now key).1] at h
    split at h
    · exact .inl (TreeMap.mem_of_mem_filter h)
    · exact .inl h
  | send endpoint data reliable now =>
    have h : q ∈ pendingOf (t.send endpoint data reliable now).1 key := h
    rw [(send_spec t endpoint data reliable now key).1] at h
    split at h
    · next hk =>
      unfold afterSend at h
      split at h
      · rw [TreeMap.mem_insert, Std.compare_eq_iff_eq] at h
        exact h.symm.imp (fun h => h) fun heq => ⟨hk, heq.symm⟩
      · exact .inl h
    · exact .inl h
  | update now =>
    have h : q ∈ pendingOf (t.update now).1 key := h
    rw [TreeMap.mem_iff_isSome_getElem?, (update_spec t now key).1 q, afterUpdate_get, Option.isSome_map,
      Option.isSome_iff_exists] at h
    obtain ⟨p, hp⟩ := h
    rw [TreeMap.mem_iff_isSome_getElem?, (Option.filter_eq_some_iff.1 hp).1]
    exact .inl rfl

/-- A send removes nothing. -/
theorem pending_send {t : UdpTransport P} {key : String} {op : TransportOp P} (hop : IsSendTo key op)
    {q : BitVec 16} (h : q ∈ pendingOf t key) : q ∈ pendingOf ((transportMachine P).step t op).1 key := by
  cases op with
  | packet endpoint num ack ackBits payload now => exact hop.elim
  | send endpoint data reliable now =>
    show q ∈ pendingOf (t.send endpoint data reliable now).1 key
    rw [(send_spec t endpoint data reliable now key).1, if_pos ((isSendTo_send ..).1 hop)]
    unfold afterSend
    split
    · rw [TreeMap.mem_insert]
      exact .inr h
    · exact h
  | update now => exact hop.elim

/-- A pending packet was sent as many sends ago as its number is behind. -/
def Aged (key : String) (ops : List (TransportOp P)) (t : UdpTransport P) : Prop :=
  ∀ q ∈ pendingOf t key, ∃ pre mid, ops = pre ++ mid ∧ PendingThroughout key q pre mid ∧
    nextSeqOf t key = q + 1#16 + BitVec.ofNat 16 (sendsTo key mid)

theorem aged_run (key : String) (ops : List (TransportOp P)) :
    Aged key ops ((transportMachine P).run ops).1 := by
  induction ops using List.reverseRecOn with
  | nil =>
    intro q hq
    cases hq
  | append_singleton ops op ih =>
    intro q hq
    have hq' := hq
    rw [Machine.run_concat] at hq ⊢
    rcases pending_of_step hq with hold | ⟨hsend, rfl⟩
    · obtain ⟨pre, mid, hops, hthrough, hnext⟩ := ih q hold
      refine ⟨pre, mid ++ [op], by rw [hops, List.append_assoc], hthrough.concat ?_, ?_⟩
      · rw [← List.append_assoc, ← hops]
        exact hq'
      · rw [nextSeqOf_step, hnext, sendsTo_concat, BitVec.ofNat_add, BitVec.add_assoc, BitVec.add_assoc]
    · refine ⟨ops ++ [op], [], by rw [List.append_nil], ?_, ?_⟩
      · intro front back hsplit
        obtain ⟨rfl, -⟩ := List.nil_eq_append_iff.1 hsplit
        rw [List.append_nil]
        exact hq'
      · rw [nextSeqOf_step, if_pos hsend]
        exact (BitVec.add_zero _).symm

/-- With few sends per pending packet no number is taken twice. -/
theorem freshSend_run {key : String} {ops : List (TransportOp P)} (h : FewSends key ops) :
    (transportMachine P).Along (FreshSend key) ops := by
  intro pre op post hops hsend hpending
  obtain ⟨pre', mid, hpre, hthrough, hnext⟩ := aged_run key pre _ hpending
  have hthrough' : PendingThroughout key _ pre' (mid ++ [op]) := hthrough.concat (by
    rw [← List.append_assoc, ← hpre, Machine.run_concat]
    exact pending_send hsend hpending)
  have hfew := h pre' (mid ++ [op]) post _ (by rw [hops, hpre]; simp) hthrough'
  rw [sendsTo_concat, if_pos hsend] at hfew
  have hnat := congrArg BitVec.toNat hnext
  simp only [BitVec.toNat_add, BitVec.toNat_ofNat] at hnat
  have := (nextSeqOf ((transportMachine P).run pre).1 key).isLt
  omega

end

end Portfolio.Netcode
