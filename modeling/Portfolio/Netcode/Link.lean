import Portfolio.Netcode.AtMostOnce

/-!
# Two transports over a lossy network

`Link` is a pair of started `UdpTransport`s and every datagram either side has posted. A datagram
may be received any number of times, in any order, or never. The transports are run unchanged; the
bookkeeping beside them is only there to state properties: a payload carries the number of the
`send` call that made it (the transport never reads payloads), `last` is the number of the packet
that `last_seq` was taken from, and a datagram remembers the `last` of its sender as `ackNum`, the
absolute number that its header acknowledges.
-/

namespace Portfolio.Netcode
open Std

/-- The two ends. -/
inductive Side where
  | a
  | b
  deriving DecidableEq, Repr

def Side.other : Side → Side
  | .a => .b
  | .b => .a

structure Datagram (D : Type) where
  packet : Packet (Nat × D)
  ackNum : Option Nat
  deriving DecidableEq

/-- The absolute number of the packet. -/
def Datagram.num {D : Type} (d : Datagram D) : Nat := d.packet.payload.1

structure Peer (D : Type) where
  transport : UdpTransport (Nat × D) := { handler := true }
  sent : Nat := 0
  last : Option Nat := none

structure Link (D : Type) where
  peer : Side → Peer D := fun _ => {}
  posted : Side → List (Datagram D) := fun _ => []

/-- One call on one of the two transports. -/
inductive LinkOp (D : Type) where
  | send (x : Side) (data : D) (reliable : Bool) (now : Time)
  | update (x : Side) (now : Time)
  | recv (x : Side) (d : Datagram D) (now : Time)

section
variable {D : Type}

def stamp (p : Peer D) (out : List (Packet (Nat × D) × Endpoint)) : List (Datagram D) :=
  out.map fun e => ⟨e.1, p.last⟩

def Link.put (s : Link D) (x : Side) (p : Peer D) (ds : List (Datagram D)) : Link D where
  peer := Function.update s.peer x p
  posted := Function.update s.posted x (s.posted x ++ ds)

variable (endpoint : Side → Endpoint)

/-- The two peers under any calls; outputs are the handler invocations. -/
def linkMachine : Machine (Link D) (LinkOp D) (Side × Nat) where
  init := {}
  step s
    | .send x data reliable now =>
      let p := s.peer x
      let r := p.transport.send (endpoint x.other) (p.sent + 1, data) reliable now
      (s.put x { p with transport := r.1, sent := p.sent + 1 } (stamp p r.2), [])
    | .update x now =>
      let p := s.peer x
      let r := p.transport.update now
      (s.put x { p with transport := r.1 } (stamp p r.2), [])
    | .recv x d now =>
      let p := s.peer x
      let r := p.transport.processPacket (endpoint x.other) d.packet.header d.packet.payload now
      let lastSeq := (receiveStateOf r.1 (endpointKey (endpoint x.other))).lastSeq
      let last := if r.2.isSome ∧ lastSeq = d.packet.header.seq then some d.num else p.last
      (s.put x { p with transport := r.1, last := last } [],
        if r.2.isSome then [(x, d.num)] else [])

/-- Only posted datagrams arrive. -/
def Genuine (s : Link D) : LinkOp D → Prop
  | .recv x d _ => d ∈ s.posted x.other
  | _ => True

/-- The record that side `x` keeps of the other side. -/
def Link.client (s : Link D) (x : Side) : ClientState (Nat × D) :=
  ensureClientLocked (s.peer x).transport.clients (endpoint x.other)

/-- The numbers of the packets that reached side `x`. -/
def arrivalsAt (x : Side) (ops : List (LinkOp D)) : List Nat :=
  ops.filterMap fun
    | .recv y d _ => if y = x then some d.num else none
    | _ => none

/-- The numbers that side `x` has handed to its handler. -/
def deliveredAt (x : Side) (outs : List (Side × Nat)) : List Nat :=
  outs.filterMap fun o => if o.1 = x then some o.2 else none

theorem mem_deliveredAt {x : Side} {outs : List (Side × Nat)} {n : Nat} :
    n ∈ deliveredAt x outs ↔ (x, n) ∈ outs := by
  simp [deliveredAt, List.mem_filterMap]

/-! ### Numbers on the sending side -/

/-- The client record after `sent` sends whose payloads carry their numbers. -/
structure Numbered (sent : Nat) (c : ClientState (Nat × D)) : Prop where
  next : c.nextSendSeq = .ofNat 16 (sent + 1)
  pend : ∀ k p, c.pending[k]? = some p →
    k = BitVec.ofNat 16 p.payload.1 ∧ p.seq = k ∧ 1 ≤ p.payload.1 ∧ p.payload.1 ≤ sent

/-- The header of a packet agrees with the number that its payload carries. -/
def PacketOk (sent : Nat) (p : Packet (Nat × D)) : Prop :=
  p.header.seq = .ofNat 16 p.payload.1 ∧ 1 ≤ p.payload.1 ∧ p.payload.1 ≤ sent

theorem composePacket_seq (c : ClientState (Nat × D)) (seq : BitVec 16) (payload : Nat × D) :
    (composePacket c seq payload).header.seq = seq ∧ (composePacket c seq payload).payload = payload := by
  unfold composePacket
  split <;> exact ⟨rfl, rfl⟩

namespace Numbered
variable {sent : Nat} {c : ClientState (Nat × D)}

theorem init (endpoint : Endpoint) :
    Numbered 0 ({ endpoint := endpoint, nextSendSeq := 1 } : ClientState (Nat × D)) :=
  ⟨rfl, fun k p h => by simp at h⟩

theorem send (h : Numbered sent c) (data : D) (reliable : Bool) (now : Time) :
    Numbered (sent + 1) (sendClient c (sent + 1, data) reliable now).1 := by
  have hnext : c.nextSendSeq + 1 = .ofNat 16 (sent + 1 + 1) := by
    rw [h.next, BitVec.ofNat_add (sent + 1) 1]
    rfl
  have hold : ∀ k p, c.pending[k]? = some p →
      k = BitVec.ofNat 16 p.payload.1 ∧ p.seq = k ∧ 1 ≤ p.payload.1 ∧ p.payload.1 ≤ sent + 1 :=
    fun k p hp => by
      obtain ⟨h1, h2, h3, h4⟩ := h.pend k p hp
      exact ⟨h1, h2, h3, by omega⟩
  unfold sendClient
  dsimp only
  split
  · exact ⟨hnext, hold⟩
  · split
    · refine ⟨hnext, fun k p hp => ?_⟩
      rw [TreeMap.getElem?_insert] at hp
      split at hp
      · rename_i hk
        obtain rfl := LawfulEqCmp.eq_of_compare hk
        obtain rfl := Option.some.inj hp
        exact ⟨h.next, rfl, Nat.le_add_left 1 sent, Nat.le_refl _⟩
      · exact hold k p hp
    · exact ⟨hnext, hold⟩

theorem send_packet (h : Numbered sent c) {data : D} {reliable : Bool} {now : Time}
    {p : Packet (Nat × D)} (hp : (sendClient c (sent + 1, data) reliable now).2 = some p) :
    p = composePacket c (.ofNat 16 (sent + 1)) (sent + 1, data) := by
  unfold sendClient at hp
  dsimp only at hp
  split at hp
  · cases hp
  · split at hp
    all_goals
      obtain rfl := Option.some.inj hp
      rw [← h.next]
      rfl

theorem mem_unexpired {now : Time} {k : BitVec 16} {p : PendingPacket (Nat × D)}
    (hp : (unexpired now c)[k]? = some p) : c.pending[k]? = some p := by
  rw [unexpired, TreeMap.getElem?_filter', Option.filter_eq_some_iff] at hp
  exact hp.1

theorem update (h : Numbered sent c) (now : Time) : Numbered sent (updateClient now c) := by
  refine ⟨h.next, fun k p hp => ?_⟩
  simp only [updateClient, TreeMap.getElem?_map, Option.map_eq_some_iff] at hp
  obtain ⟨q, hq, rfl⟩ := hp
  have := h.pend k q (mem_unexpired hq)
  split
  · exact this
  · exact this

theorem resend (h : Numbered sent c) {now : Time} {p : Packet (Nat × D)} (hp : p ∈ resends now c) :
    PacketOk sent p ∧ ∃ seq payload, p = composePacket c seq payload := by
  unfold resends at hp
  obtain ⟨⟨k, q⟩, hq, rfl⟩ := List.mem_map.1 hp
  have hq := TreeMap.mem_toList_iff_getElem?_eq_some.1 (List.mem_filter.1 hq).1
  obtain ⟨h1, h2, h3, h4⟩ := h.pend k q (mem_unexpired hq)
  obtain ⟨e1, e2⟩ := composePacket_seq c q.seq q.payload
  refine ⟨?_, q.seq, q.payload, rfl⟩
  rw [PacketOk, e1, e2, h2]
  exact ⟨h1, h3, h4⟩

theorem process (h : Numbered sent c) (header : UdpHeader) (now : Time) :
    Numbered sent (processClient c header now).1 := by
  have hp : ∀ k p, (c.pending.filter fun seq _ => !isSeqAcked seq header.ack header.ackBits)[k]? = some p →
      k = BitVec.ofNat 16 p.payload.1 ∧ p.seq = k ∧ 1 ≤ p.payload.1 ∧ p.payload.1 ≤ sent := by
    intro k p hp
    rw [TreeMap.getElem?_filter', Option.filter_eq_some_iff] at hp
    exact h.pend k p hp.1
  unfold processClient handleAck
  dsimp only
  split
  · exact ⟨h.next, hp⟩
  · exact ⟨h.next, hp⟩

end Numbered

/-! ### Acknowledgements on the receiving side -/

/-- The receive state after the arrivals `ns`, of which `del` were handed to the handler: `last` is
the largest number and every mark stands for a delivered number. -/
def Received (ns : List Nat) (last : Option Nat) (rs : ReceiveState) (del : List Nat) : Prop :=
  (ns = [] ∧ last = none ∧ rs = {}) ∨
    ∃ m got, Largest m ns ∧ last = some m ∧ Window m got rs ∧ m ∈ del ∧ ∀ x, got x → x ∈ del

/-- One arrival; `last` moves when the packet was let through and set `last_seq`. -/
theorem Received.step {ns del : List Nat} {last : Option Nat} {rs : ReceiveState} {n : Nat}
    (hw : ∀ m, Largest m ns → Near n m) (h : Received ns last rs del) :
    Received (ns ++ [n])
      (if dropReason rs (.ofNat 16 n) = none ∧
          (windowMachine.step rs n).1.lastSeq = .ofNat 16 n then some n else last)
      (windowMachine.step rs n).1 (del ++ (windowMachine.step rs n).2) := by
  simp only [windowMachine]
  rcases h with ⟨rfl, rfl, rfl⟩ | ⟨m, got, hm, rfl, hwin, hdel, hgot⟩
  · have hd : dropReason {} (.ofNat 16 n) = none := rfl
    have hwin := window_first n
    simp only [hd, ↓reduceIte, hwin.last, and_self]
    exact .inr ⟨n, _, largest_singleton, rfl, hwin, by simp, fun x hx => hx.elim⟩
  · have hnear := hw m hm
    rcases Nat.lt_trichotomy m n with hlt | rfl | hlt
    · have hd := hwin.dropReason_newer hnear hlt
      have hwin' := hwin.newer hlt hnear
      simp only [hd, ↓reduceIte, hwin'.last, and_self]
      refine .inr ⟨n, _, hm.concat_lt hlt, rfl, hwin', by simp, fun x hx => ?_⟩
      rcases hx.2 with rfl | hx
      · exact List.mem_append_left _ hdel
      · exact List.mem_append_left _ (hgot x hx)
    · simp only [hwin.dropReason_same, reduceCtorEq, ↓reduceIte, false_and, List.append_nil]
      exact .inr ⟨m, got, hm.concat_le le_rfl, rfl, hwin, hdel, hgot⟩
    · have hne : ¬ BitVec.ofNat 16 m = .ofNat 16 n := by
        obtain ⟨h1, h2⟩ := hnear
        rw [SeqNum.ofNat_inj_of_near (by omega) (by omega)]
        omega
      have hkeep : Received (ns ++ [n]) (some m) rs del :=
        .inr ⟨m, got, hm.concat_le hlt.le, rfl, hwin, hdel, hgot⟩
      by_cases hfar : n + 32 < m
      · simpa only [hwin.dropReason_far hnear hfar, reduceCtorEq, ↓reduceIte, false_and,
          List.append_nil] using hkeep
      by_cases hg : got n
      · simpa only [hwin.dropReason_marked hlt (by omega) hg, reduceCtorEq, ↓reduceIte, false_and,
          List.append_nil] using hkeep
      · have hwin' := hwin.older hlt (by omega : m - n ≤ 32)
        simp only [hwin.dropReason_unmarked hlt (by omega) hg, ↓reduceIte, hwin'.last, hne, and_false]
        refine .inr ⟨m, _, hm.concat_le hlt.le, rfl, hwin', List.mem_append_left _ hdel, fun x hx => ?_⟩
        rcases hx with hx | rfl
        · exact List.mem_append_left _ (hgot x hx)
        · simp

/-- The header of `d` acknowledges only numbers of `del`. -/
def AckOk (del : List Nat) (d : Datagram D) : Prop :=
  match d.ackNum with
  | none => d.packet.header.ack = 0#16 ∧ d.packet.header.ackBits = 0#32
  | some m => d.packet.header.ack = .ofNat 16 m ∧ m ∈ del ∧
      ∀ i, i < 32 → d.packet.header.ackBits.getLsbD i = true → i + 1 ≤ m ∧ m - 1 - i ∈ del

theorem AckOk.mono {del del' : List Nat} {d : Datagram D} (h : AckOk del d)
    (hsub : ∀ x ∈ del, x ∈ del') : AckOk del' d := by
  unfold AckOk at h ⊢
  cases hd : d.ackNum with
  | none => simpa only [hd] using h
  | some m =>
    simp only [hd] at h
    obtain ⟨h1, h2, h3⟩ := h
    exact ⟨h1, hsub _ h2, fun i hi hb => ⟨(h3 i hi hb).1, hsub _ (h3 i hi hb).2⟩⟩

theorem Received.ackOk {ns del : List Nat} {last : Option Nat} {c : ClientState (Nat × D)}
    (h : Received ns last c.receiveState del) (seq : BitVec 16) (payload : Nat × D) :
    AckOk del ⟨composePacket c seq payload, last⟩ := by
  unfold AckOk composePacket
  rcases h with ⟨-, rfl, hrs⟩ | ⟨m, got, -, rfl, hwin, hdel, hgot⟩
  · simp [hrs]
  · simp only [hwin.has, ↓reduceIte, hwin.last]
    refine ⟨trivial, hdel, fun i hi hb => ?_⟩
    obtain ⟨h1, h2⟩ := (hwin.bits i hi).1 hb
    exact ⟨h1, hgot _ h2⟩

/-- What may be pending when a header arrives: numbers near the one it acknowledges. A header made
before anything was received has `ack = 0`, which must not be the wire form of a pending number. -/
def AckNear (n : Nat) : Option Nat → Prop
  | none => ¬ 2 ^ 16 ∣ n
  | some m => Near n m

/-- A sound header read near its number acknowledges delivered numbers only. -/
theorem AckOk.acked {del : List Nat} {d : Datagram D} (h : AckOk del d) {n : Nat}
    (hn : AckNear n d.ackNum)
    (ha : isSeqAcked (.ofNat 16 n) d.packet.header.ack d.packet.header.ackBits = true) : n ∈ del := by
  unfold AckOk at h
  unfold isSeqAcked at ha
  cases hd : d.ackNum with
  | none =>
    rw [hd] at hn
    simp only [hd] at h
    have hne : ¬ BitVec.ofNat 16 n = 0#16 := by
      intro h0
      have := congrArg BitVec.toNat h0
      rw [BitVec.toNat_ofNat] at this
      exact hn (Nat.dvd_of_mod_eq_zero this)
    simp only [h.1, h.2, hne, ↓reduceIte] at ha
    simp at ha
  | some m =>
    rw [hd] at hn
    simp only [hd] at h
    obtain ⟨hack, hm, hbits⟩ := h
    obtain ⟨h1, h2⟩ := hn
    rw [hack] at ha
    by_cases heq : BitVec.ofNat 16 n = .ofNat 16 m
    · rw [SeqNum.ofNat_inj_of_near (by omega) (by omega)] at heq
      rw [heq]
      exact hm
    · simp only [heq, ↓reduceIte, SeqNum.toInt_sub_ofNat (w := 16) (n := m) (m := n) (by omega) (by omega)] at ha
      split at ha
      · cases ha
      split at ha
      · cases ha
      · have hk : ((m : Int) - n).toNat - 1 = m - n - 1 := by omega
        rw [hk, decide_eq_true_eq, show (0 : BitVec 32) = 0#32 from rfl,
          SeqNum.and_mask_ne_zero _ (by omega : m - n - 1 < 32)] at ha
        have hidx : m - 1 - (m - n - 1) = n := by omega
        have := (hbits _ (by omega) ha).2
        rwa [hidx] at this

end

end Portfolio.Netcode
