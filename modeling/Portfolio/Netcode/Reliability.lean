import Portfolio.Netcode.LinkInv

/-!
# What an acknowledgement and a retransmission are worth

`acked_was_delivered`: an entry that `handle_ack` erases stands for a packet that the other side
has handed to its handler. The 16-bit numbers make this depend on packets and headers staying
within half the number space; `wrapRun` and `earlyRun` are runs that lose a reliable packet
otherwise.

`undelivered_handed_iff`: a copy of a packet that was never delivered reaches the handler unless
the receiver has seen a number more than 32 above it. Reliable and unreliable packets share one
counter, so a retransmission can fall behind (`outrunRun`).
-/

namespace Portfolio.Netcode
open Std

section
variable {D : Type} {endpoint : Side → Endpoint}

/-- Every header that side `x` processes finds only entries near the number it acknowledges. -/
def AcksNear (endpoint : Side → Endpoint) (x : Side) (s : Link D) : LinkOp D → Prop
  | .recv y d _ => y = x →
    ∀ (k : BitVec 16) (p : PendingPacket (Nat × D)), (s.client endpoint x).pending[k]? = some p →
      AckNear p.payload.1 d.ackNum
  | _ => True

theorem arrivalsAt_append (x : Side) (ops ops' : List (LinkOp D)) :
    arrivalsAt x (ops ++ ops') = arrivalsAt x ops ++ arrivalsAt x ops' :=
  List.filterMap_append

theorem processClient_pending {P : Type} (c : ClientState P) (header : UdpHeader) (now : Time)
    (k : BitVec 16) : (processClient c header now).1.pending[k]? =
      c.pending[k]?.filter fun _ => !isSeqAcked k header.ack header.ackBits := by
  have h : (processClient c header now).1.pending =
      c.pending.filter fun seq _ => !isSeqAcked seq header.ack header.ackBits := by
    unfold processClient handleAck
    dsimp only
    split <;> rfl
  rw [h, TreeMap.getElem?_filter']

/-- Every entry erased by an acknowledgement was accepted by the other side and handed to its
handler. -/
theorem acked_was_delivered (x : Side) (ops : List (LinkOp D))
    (hg : (linkMachine endpoint).Along Genuine ops)
    (hw : InWindow (arrivalsAt x.other ops))
    (ha : (linkMachine endpoint).Along (AcksNear endpoint x) ops)
    (pre post : List (LinkOp D)) (d : Datagram D) (now : Time)
    (hs : ops = pre ++ .recv x d now :: post) (k : BitVec 16) (p : PendingPacket (Nat × D))
    (hp : (((linkMachine endpoint).run pre).1.client endpoint x).pending[k]? = some p)
    (he : (((linkMachine endpoint).run (pre ++ [.recv x d now])).1.client endpoint x).pending[k]? = none) :
    (x.other, p.payload.1) ∈ ((linkMachine endpoint).run pre).2 := by
  have hinv := linkInv_run pre (by rw [hs] at hg; exact hg.append_left)
  have hack : AckOk (deliveredAt x.other ((linkMachine endpoint).run pre).2) d := by
    refine ((hinv x.other).2 ?_).acks d (hg pre _ post hs)
    rw [hs, arrivalsAt_append] at hw
    exact hw.append_left
  have hnear : AckNear p.payload.1 d.ackNum := ha pre _ post hs rfl k p hp
  obtain ⟨hk, -⟩ := (hinv x).1.numbered.pend k p hp
  rw [Machine.run_concat, client_recv, processClient_pending, hp, Option.filter_some] at he
  have hacked : isSeqAcked k d.packet.header.ack d.packet.header.ackBits = true := by
    cases hb : isSeqAcked k d.packet.header.ack d.packet.header.ackBits with
    | true => rfl
    | false => simp [hb] at he
  rw [hk] at hacked
  exact mem_deliveredAt.1 (hack.acked hnear hacked)

/-! ### Acknowledgements across a wrap -/

/-- The header-side proviso alone: a header that acknowledges `n₀` finds only entries near `n₀`. -/
def HeadersNear (endpoint : Side → Endpoint) (x : Side) (s : Link D) : LinkOp D → Prop
  | .recv y d _ => y = x → ∀ n₀, d.ackNum = some n₀ →
      ∀ (k : BitVec 16) (p : PendingPacket (Nat × D)),
        (s.client endpoint x).pending[k]? = some p → Near p.payload.1 n₀
  | _ => True

/-- Side `x` makes fewer than `2 ^ 16 - 1` sends before the other side receives anything. -/
def FirstSends (endpoint : Side → Endpoint) (x : Side) (ops : List (LinkOp D)) : Prop :=
  ∀ pre post, ops = pre ++ post → arrivalsAt x.other pre = [] →
    (((linkMachine endpoint).run pre).1.peer x).sent < 2 ^ 16 - 1

/-- After `ops`, the header of `d` erases an entry of `x` whose packet was never handed over. -/
def FalseAck (endpoint : Side → Endpoint) (x : Side) (ops : List (LinkOp D)) (d : Datagram D)
    (now : Time) : Prop :=
  ∃ (k : BitVec 16) (p : PendingPacket (Nat × D)),
    (((linkMachine endpoint).run ops).1.client endpoint x).pending[k]? = some p ∧
    (((linkMachine endpoint).run (ops ++ [.recv x d now])).1.client endpoint x).pending[k]? = none ∧
    (x.other, p.payload.1) ∉ ((linkMachine endpoint).run ops).2

theorem firstSends_of_start {x : Side} {start rest : List (LinkOp D)} {d : Datagram D} {now : Time}
    (h : ∀ pre ∈ start.inits, (((linkMachine endpoint).run pre).1.peer x).sent < 2 ^ 16 - 1) :
    FirstSends endpoint x (start ++ .recv x.other d now :: rest) := by
  intro pre post hs harr
  rcases List.append_eq_append_iff.1 hs with ⟨l, rfl, hl⟩ | ⟨l, rfl, -⟩
  · cases l with
    | nil => exact h _ (by simp)
    | cons op l =>
      obtain ⟨rfl, -⟩ := List.cons.inj hl
      rw [arrivalsAt_append] at harr
      simp [arrivalsAt] at harr
  · exact h pre ((List.mem_inits _ _).2 (List.prefix_append _ _))

end

def linkEndpoint : Side → Endpoint
  | .a => ⟨some "10.0.0.1", 40000⟩
  | .b => ⟨some "10.0.0.2", 40001⟩

/-- A packet of side `a` composed before it has received anything. -/
def plainDatagram (num : Nat) : Datagram Unit := ⟨⟨⟨.ofNat 16 num, 0, 0⟩, (num, ())⟩, none⟩

/-- `k` unreliable sends of side `a`. -/
def burst (k : Nat) : List (LinkOp Unit) := .replicate k (.send .a () false 0)

theorem burst_append (j k : Nat) : burst j ++ burst k = burst (j + k) :=
  List.replicate_append_replicate

theorem filter_burst (k : Nat) (x : Side) :
    (burst k).filter (·.side = x) = if x = .a then burst k else [] := by
  cases x <;> simp [burst, LinkOp.side]

/-- One packet arrives; 65535 sends later the numbers 1 and 2 are in use again, and only the second
of the two packets arrives, as the direct successor of the first packet. -/
def wrapRun : List (LinkOp Unit) :=
  burst 1 ++ [.recv .b (plainDatagram 1) 0] ++ burst 65535 ++ [.send .a () true 0] ++ burst 1 ++
    [.recv .b (plainDatagram 65538) 0] ++ [.send .b () false 0]

def wrapHeader : Datagram Unit := ⟨⟨⟨1, 2, 1⟩, (1, ())⟩, some 65538⟩

/-- Side `b` speaks first; its header acknowledges 0, the wire form of number 65536. -/
def earlyRun : List (LinkOp Unit) :=
  [.send .b () false 0] ++ burst 1 ++ [.recv .b (plainDatagram 1) 0] ++ burst 65534 ++
    [.send .a () true 0]

def earlyHeader : Datagram Unit := ⟨⟨⟨1, 0, 0⟩, (1, ())⟩, none⟩

/-- The entry of a reliable packet with number `n`, sent at time 0. -/
def pendingEntry (n : Nat) : PendingPacket (Nat × Unit) :=
  ⟨.ofNat 16 n, (n, ()), 0, 0, backoffFor 0, 0⟩

/-- The record of side `a` after `k` unreliable sends and a reliable one. -/
theorem client_burst_reliable (k : Nat) :
    ((linkMachine linkEndpoint).run (burst k ++ [LinkOp.send .a () true 0])).1.client linkEndpoint .a =
      { endpoint := linkEndpoint .b
        nextSendSeq := .ofNat 16 (k + 2)
        pending := (∅ : TreeMap (BitVec 16) _).insert (.ofNat 16 (k + 1)) (pendingEntry (k + 1)) } := by
  obtain ⟨hc, hs, -, -⟩ := @run_sends Unit linkEndpoint [] .a () 0 k
  have h0 : ((linkMachine linkEndpoint).run ([] : List (LinkOp Unit))).1.client linkEndpoint .a =
      { endpoint := linkEndpoint .b, nextSendSeq := 1 } := rfl
  rw [List.nil_append] at hc hs
  rw [Machine.run_concat, client_send, burst, hc, hs, h0]
  have hk : (1 : BitVec 16) + .ofNat 16 k = .ofNat 16 (k + 1) := by
    rw [Nat.add_comm, BitVec.ofNat_add]
    rfl
  have hz : (((linkMachine linkEndpoint).run ([] : List (LinkOp Unit))).1.peer .a).sent + k = k :=
    Nat.zero_add k
  simp only [hk, hz, sendClient, BitVec.ofNat_add (k + 1) 1]
  rfl

theorem peer_burst_reliable (k : Nat) :
    (((linkMachine linkEndpoint).run (burst k ++ [LinkOp.send .a () true 0])).1.peer .a).sent = k + 1 ∧
    (((linkMachine linkEndpoint).run (burst k ++ [LinkOp.send .a () true 0])).1.peer .a).last = none := by
  obtain ⟨-, hs, hl, -⟩ := @run_sends Unit linkEndpoint [] .a () 0 k
  rw [List.nil_append] at hs hl
  rw [Machine.run_concat, (sent_send _ _ _ _ _).1, (sent_send _ _ _ _ _).2, burst, hs, hl]
  exact ⟨congrArg (· + 1) (Nat.zero_add k), rfl⟩

/-- An only entry that the header covers and whose packet was not handed over. -/
theorem falseAck_of_pending {ops : List (LinkOp Unit)} {d : Datagram Unit} {k : BitVec 16} {n : Nat}
    (hp : (((linkMachine linkEndpoint).run ops).1.client linkEndpoint .a).pending =
      (∅ : TreeMap (BitVec 16) _).insert k (pendingEntry n))
    (hacked : isSeqAcked k d.packet.header.ack d.packet.header.ackBits = true)
    (hdel : n ∉ deliveredAt .b ((linkMachine linkEndpoint).run ops).2) :
    FalseAck linkEndpoint .a ops d 0 := by
  refine ⟨k, pendingEntry n, ?_, ?_, fun h => hdel (mem_deliveredAt.2 h)⟩
  · rw [hp, TreeMap.getElem?_insert_self]
  · rw [Machine.run_concat, client_recv, processClient_pending, hp, TreeMap.getElem?_insert_self,
      Option.filter_some, hacked]
    rfl

theorem wrapRun_pending :
    (((linkMachine linkEndpoint).run wrapRun).1.client linkEndpoint .a).pending =
      (∅ : TreeMap (BitVec 16) _).insert 1 (pendingEntry 65537) := by
  rw [client_congr (run_side .a _).1]
  have hf : wrapRun.filter (·.side = .a) = burst 65536 ++ [LinkOp.send .a () true 0] ++ burst 1 := by
    simp only [wrapRun, List.filter_append, filter_burst, ← burst_append 1 65535, ↓reduceIte]
    simp [LinkOp.side]
  rw [hf, show burst 1 = .replicate 1 (.send .a () false 0) from rfl, (run_sends _ .a () 0 1).1,
    client_burst_reliable]
  rfl

theorem earlyRun_pending :
    (((linkMachine linkEndpoint).run earlyRun).1.client linkEndpoint .a).pending =
      (∅ : TreeMap (BitVec 16) _).insert 0 (pendingEntry 65536) := by
  rw [client_congr (run_side .a _).1]
  have hf : earlyRun.filter (·.side = .a) = burst 65535 ++ [LinkOp.send .a () true 0] := by
    simp only [earlyRun, List.filter_append, filter_burst, ← burst_append 1 65534, ↓reduceIte]
    simp [LinkOp.side]
  rw [hf, client_burst_reliable]
  rfl

theorem genuine_recv {ops : List (LinkOp Unit)} (x y : Side) (hy : x.other = y)
    {d : Datagram Unit} {now : Time} (h : (linkMachine linkEndpoint).Along Genuine ops)
    (hd : d ∈ ((linkMachine linkEndpoint).run ops).1.posted y) :
    (linkMachine linkEndpoint).Along Genuine (ops ++ [LinkOp.recv x d now]) := by
  subst hy
  exact (Machine.along_concat _).2 ⟨h, hd⟩

theorem genuine_send {ops : List (LinkOp Unit)} (x : Side) (reliable : Bool)
    (h : (linkMachine linkEndpoint).Along Genuine ops) :
    (linkMachine linkEndpoint).Along Genuine (ops ++ [LinkOp.send x () reliable 0]) :=
  (Machine.along_concat _).2 ⟨h, trivial⟩

theorem genuine_burst {ops : List (LinkOp Unit)} (k : Nat)
    (h : (linkMachine linkEndpoint).Along Genuine ops) :
    (linkMachine linkEndpoint).Along Genuine (ops ++ burst k) := by
  refine h.append _ fun op hop s => ?_
  rw [List.eq_of_mem_replicate hop]
  trivial

/-- Before its last call, no header reaches side `a`. -/
theorem headersNear_recv {ops : List (LinkOp Unit)} {d : Datagram Unit}
    (hops : ∀ op ∈ ops, ∀ d' now, op ≠ .recv .a d' now)
    (hd : ∀ n₀, d.ackNum = some n₀ → ∀ (k : BitVec 16) (p : PendingPacket (Nat × Unit)),
      (((linkMachine linkEndpoint).run ops).1.client linkEndpoint .a).pending[k]? = some p →
        Near p.payload.1 n₀) :
    (linkMachine linkEndpoint).Along (HeadersNear linkEndpoint .a) (ops ++ [LinkOp.recv .a d 0]) := by
  refine (Machine.along_concat _).2 ⟨?_, fun _ => hd⟩
  rw [← List.nil_append ops]
  refine (Machine.along_nil _ _).append _ fun op hop s => ?_
  cases op with
  | send => trivial
  | update => trivial
  | recv y d' now =>
    rintro rfl
    exact absurd rfl (hops _ hop d' now)

theorem wrapRun_genuine :
    (linkMachine linkEndpoint).Along Genuine (wrapRun ++ [LinkOp.recv .a wrapHeader 0]) := by
  have hfirst : (linkMachine linkEndpoint).Along Genuine
      ([] ++ burst 1 ++ [LinkOp.recv .b (plainDatagram 1) 0]) := by
    refine genuine_recv .b .a rfl (genuine_burst 1 (Machine.along_nil _ _)) ?_
    decide +kernel
  have hround := genuine_burst 1 (genuine_send .a true (genuine_burst 65535 hfirst))
  rw [List.nil_append] at hround
  have hjump : plainDatagram 65538 ∈ ((linkMachine linkEndpoint).run
      (burst 1 ++ [LinkOp.recv .b (plainDatagram 1) 0] ++ burst 65535 ++ [LinkOp.send .a () true 0] ++
        burst 1)).1.posted .a := by
    have hf : (burst 1 ++ [LinkOp.recv .b (plainDatagram 1) 0] ++ burst 65535 ++ [LinkOp.send .a () true 0] ++
        burst 1 : List (LinkOp Unit)).filter (·.side = .a) =
        burst 65536 ++ [LinkOp.send .a () true 0] ++ [LinkOp.send .a () false 0] := by
      simp only [List.filter_append, filter_burst, ← burst_append 1 65535, ↓reduceIte]
      simp [LinkOp.side, show burst 1 = [LinkOp.send .a () false 0] from rfl]
    rw [(run_side _ _).2.1, hf, Machine.run_concat, posted_send, client_burst_reliable,
      (peer_burst_reliable _).1, (peer_burst_reliable _).2]
    exact List.mem_append_right _ (List.mem_singleton.2 rfl)
  have hanswer : (linkMachine linkEndpoint).Along Genuine wrapRun :=
    genuine_send .b false (genuine_recv .b .a rfl hround hjump)
  refine genuine_recv .a .b rfl hanswer ?_
  rw [(run_side _ _).2.1]
  simp only [wrapRun, List.filter_append, filter_burst]
  decide +kernel

theorem earlyRun_genuine :
    (linkMachine linkEndpoint).Along Genuine (earlyRun ++ [LinkOp.recv .a earlyHeader 0]) := by
  have hfirst : (linkMachine linkEndpoint).Along Genuine
      ([] ++ [LinkOp.send .b () false 0] ++ burst 1 ++ [LinkOp.recv .b (plainDatagram 1) 0]) := by
    refine genuine_recv .b .a rfl (genuine_burst 1 (genuine_send .b false (Machine.along_nil _ _))) ?_
    decide +kernel
  have hround : (linkMachine linkEndpoint).Along Genuine earlyRun :=
    genuine_send .a true (genuine_burst 65534 hfirst)
  refine genuine_recv .a .b rfl hround ?_
  rw [(run_side _ _).2.1]
  simp only [earlyRun, List.filter_append, filter_burst]
  decide +kernel

/-- Two runs within the provisos on headers and first sends that erase an entry for nothing: a jump
of `2 ^ 16 + 1` that looks like a step of 1, and a first header that is overtaken by a whole round
of numbers. -/
theorem ack_after_wrap_is_false :
    ((linkMachine linkEndpoint).Along Genuine (wrapRun ++ [.recv .a wrapHeader 0]) ∧
      (linkMachine linkEndpoint).Along (HeadersNear linkEndpoint .a)
        (wrapRun ++ [.recv .a wrapHeader 0]) ∧
      FirstSends linkEndpoint .a (wrapRun ++ [.recv .a wrapHeader 0]) ∧
      FalseAck linkEndpoint .a wrapRun wrapHeader 0) ∧
    ((linkMachine linkEndpoint).Along Genuine (earlyRun ++ [.recv .a earlyHeader 0]) ∧
      (linkMachine linkEndpoint).Along (HeadersNear linkEndpoint .a)
        (earlyRun ++ [.recv .a earlyHeader 0]) ∧
      FirstSends linkEndpoint .a (earlyRun ++ [.recv .a earlyHeader 0]) ∧
      FalseAck linkEndpoint .a earlyRun earlyHeader 0) := by
  refine ⟨⟨wrapRun_genuine, ?_, ?_, ?_⟩, ⟨earlyRun_genuine, ?_, ?_, ?_⟩⟩
  · have hops : ∀ op ∈ wrapRun, ∀ d' now, op ≠ .recv .a d' now := by
      intro op hop d' now
      simp only [wrapRun, List.mem_append, List.mem_singleton, burst, List.mem_replicate] at hop
      rintro rfl
      simp at hop
    refine headersNear_recv hops fun n₀ hn₀ k p hp => ?_
    rw [wrapRun_pending, TreeMap.getElem?_insert] at hp
    obtain rfl := Option.some.inj hn₀
    split at hp
    · obtain rfl := Option.some.inj hp
      exact ⟨by decide, by decide⟩
    · simp at hp
  · have hs : wrapRun ++ [LinkOp.recv .a wrapHeader 0] = burst 1 ++ .recv .b (plainDatagram 1) 0 ::
      (burst 65535 ++ [LinkOp.send .a () true 0] ++ burst 1 ++ [LinkOp.recv .b (plainDatagram 65538) 0] ++
        [LinkOp.send .b () false 0] ++ [LinkOp.recv .a wrapHeader 0]) := by
      simp only [wrapRun, List.append_assoc, List.cons_append, List.nil_append]
    rw [hs]
    exact firstSends_of_start (by decide +kernel)
  · have hacked : isSeqAcked 1 wrapHeader.packet.header.ack wrapHeader.packet.header.ackBits = true := by
      decide +kernel
    have hdel : 65537 ∉ deliveredAt .b ((linkMachine linkEndpoint).run wrapRun).2 := by
      rw [(run_side .b _).2.2]
      simp only [wrapRun, List.filter_append, filter_burst]
      decide +kernel
    exact falseAck_of_pending wrapRun_pending hacked hdel
  · have hops : ∀ op ∈ earlyRun, ∀ d' now, op ≠ .recv .a d' now := by
      intro op hop d' now
      simp only [earlyRun, List.mem_append, List.mem_singleton, burst, List.mem_replicate] at hop
      rintro rfl
      simp at hop
    exact headersNear_recv hops (by simp [earlyHeader])
  · have hs : earlyRun ++ [LinkOp.recv .a earlyHeader 0] = ([LinkOp.send .b () false 0] ++ burst 1) ++
        .recv .b (plainDatagram 1) 0 ::
          (burst 65534 ++ [LinkOp.send .a () true 0] ++ [LinkOp.recv .a earlyHeader 0]) := by
      simp only [earlyRun, List.append_assoc, List.cons_append, List.nil_append]
    rw [hs]
    exact firstSends_of_start (by decide +kernel)
  · have hacked : isSeqAcked 0 earlyHeader.packet.header.ack earlyHeader.packet.header.ackBits = true := by
      decide +kernel
    have hdel : 65536 ∉ deliveredAt .b ((linkMachine linkEndpoint).run earlyRun).2 := by
      rw [(run_side .b _).2.2]
      simp only [earlyRun, List.filter_append, filter_burst]
      decide +kernel
    exact falseAck_of_pending earlyRun_pending hacked hdel

/-- A reliable packet arrives and the answer acknowledges it. -/
def ackRun : List (LinkOp Unit) :=
  [.send .a () true 0] ++ [.recv .b (plainDatagram 1) 0] ++ [.send .b () false 0]

def ackHeader : Datagram Unit := ⟨⟨⟨1, 1, 0⟩, (1, ())⟩, some 1⟩

theorem acked_was_delivered_answer : (Side.b, 1) ∈ ((linkMachine linkEndpoint).run ackRun).2 := by
  have hpend : (((linkMachine linkEndpoint).run ackRun).1.client linkEndpoint .a).pending =
      (∅ : TreeMap (BitVec 16) _).insert 1 (pendingEntry 1) := rfl
  refine acked_was_delivered .a (ackRun ++ [LinkOp.recv .a ackHeader 0]) ?_ ?_ ?_ ackRun [] ackHeader 0 rfl
    1 (pendingEntry 1) ?_ ?_
  · refine genuine_recv .a .b rfl (genuine_send .b false (genuine_recv .b .a rfl (genuine_send .a true
      (Machine.along_nil _ _)) ?_)) ?_
    · decide +kernel
    · decide +kernel
  · exact inWindow_of_lt (by decide)
  · refine (Machine.along_concat _).2 ⟨?_, fun _ k p hp => ?_⟩
    · rw [← List.nil_append ackRun]
      refine (Machine.along_nil _ _).append _ fun op hop s => ?_
      simp only [ackRun, List.mem_append, List.mem_singleton] at hop
      rcases hop with (rfl | rfl) | rfl <;> simp [AcksNear]
    · rw [hpend, TreeMap.getElem?_insert] at hp
      split at hp
      · obtain rfl := Option.some.inj hp
        exact ⟨by decide, by decide⟩
      · simp at hp
  · rw [hpend, TreeMap.getElem?_insert_self]
  · rw [Machine.run_concat, client_recv, processClient_pending, hpend, TreeMap.getElem?_insert_self]
    decide +kernel

section
variable {D : Type} {endpoint : Side → Endpoint}

/-- A packet that was never delivered is handed to the handler exactly when no number more than 32
above it has arrived; otherwise it is dropped as old, never as a duplicate. -/
theorem undelivered_handed_iff (y : Side) (ops : List (LinkOp D))
    (hg : (linkMachine endpoint).Along Genuine ops) (hw : InWindow (arrivalsAt y ops))
    (pre post : List (LinkOp D)) (d : Datagram D) (now : Time)
    (hs : ops = pre ++ .recv y d now :: post)
    (hnew : (y, d.num) ∉ ((linkMachine endpoint).run pre).2) :
    (((linkMachine endpoint).step ((linkMachine endpoint).run pre).1 (.recv y d now)).2 = [(y, d.num)] ↔
      ∀ m, Largest m (arrivalsAt y pre) → m ≤ d.num + 32) ∧
    (((linkMachine endpoint).step ((linkMachine endpoint).run pre).1 (.recv y d now)).2 ≠ [(y, d.num)] →
      dropReason (((linkMachine endpoint).run pre).1.client endpoint y).receiveState
        d.packet.header.seq = some .old) := by
  have hinv := linkInv_run pre (by rw [hs] at hg; exact hg.append_left)
  have hd : d.packet.header.seq = .ofNat 16 d.num :=
    ((hinv y.other).1.posted d (hg pre _ post hs)).1
  have harr : arrivalsAt y (pre ++ [LinkOp.recv y d now]) = arrivalsAt y pre ++ [d.num] := by
    simp [arrivalsAt]
  have hw' : InWindow (arrivalsAt y pre ++ [d.num]) := by
    rw [hs, show pre ++ .recv y d now :: post = (pre ++ [LinkOp.recv y d now]) ++ post by simp,
      arrivalsAt_append, harr] at hw
    exact hw.append_left
  obtain ⟨hw, hn⟩ := inWindow_concat.1 hw'
  rw [(step_recv_eq (hinv y).1 hd now).1, hd]
  simp only [windowMachine]
  rcases ((hinv y).2 hw).received with ⟨h0, -, hrs⟩ | ⟨m, got, hm, -, hwin, hmdel, hgot⟩
  · simp [hrs, h0, Largest, dropReason]
  · have hlargest : (∀ m', Largest m' (arrivalsAt y pre) → m' ≤ d.num + 32) ↔ m ≤ d.num + 32 :=
      ⟨fun h => h m hm, fun h m' hm' => by rw [hm.unique hm']; exact h⟩
    rw [hlargest]
    have hnm : d.num ≠ m := fun heq => hnew (mem_deliveredAt.1 (heq ▸ hmdel))
    have hng : ¬ got d.num := fun hgn => hnew (mem_deliveredAt.1 (hgot _ hgn))
    by_cases hfar : d.num + 32 < m
    · simp [hwin.dropReason_far (hn m hm) hfar]
      omega
    · have hnone : dropReason (((linkMachine endpoint).run pre).1.client endpoint y).receiveState
          (.ofNat 16 d.num) = none := by
        rcases Nat.lt_or_gt_of_ne hnm with hlt | hlt
        · exact hwin.dropReason_unmarked hlt (by omega) hng
        · exact hwin.dropReason_newer (hn m hm) hlt
      simp [hnone]
      omega

end

/-- A reliable packet arrives after the packet that was sent behind it. -/
def lateRun : List (LinkOp Unit) :=
  [.send .a () true 0] ++ burst 1 ++ [.recv .b (plainDatagram 2) 0]

theorem undelivered_handed_late :
    (((linkMachine linkEndpoint).step ((linkMachine linkEndpoint).run lateRun).1
        (.recv .b (plainDatagram 1) 0)).2 = [(.b, 1)] ↔
      ∀ m, Largest m (arrivalsAt .b lateRun) → m ≤ 1 + 32) ∧
    (((linkMachine linkEndpoint).step ((linkMachine linkEndpoint).run lateRun).1
        (.recv .b (plainDatagram 1) 0)).2 ≠ [(.b, 1)] →
      dropReason (((linkMachine linkEndpoint).run lateRun).1.client linkEndpoint .b).receiveState 1 =
        some .old) := by
  refine undelivered_handed_iff .b (lateRun ++ [LinkOp.recv .b (plainDatagram 1) 0]) ?_ ?_ lateRun []
    (plainDatagram 1) 0 rfl (by decide +kernel)
  · refine genuine_recv .b .a rfl (genuine_recv .b .a rfl (genuine_burst 1 (genuine_send .a true
      (Machine.along_nil _ _))) ?_) ?_
    · decide +kernel
    · decide +kernel
  · exact inWindow_of_lt (by decide)

/-- After `ops`, a copy of a packet that is still pending at the sender and was never handed over
arrives at `y` and is dropped for `reason`. -/
def Rejected (endpoint : Side → Endpoint) (y : Side) (ops : List (LinkOp Unit)) (d : Datagram Unit)
    (now : Time) (reason : DropReason) : Prop :=
  (∃ p, (((linkMachine endpoint).run ops).1.client endpoint y.other).pending[d.packet.header.seq]? =
    some p ∧ p.payload = d.packet.payload) ∧
  (y, d.num) ∉ ((linkMachine endpoint).run ops).2 ∧
  ((linkMachine endpoint).step ((linkMachine endpoint).run ops).1 (.recv y d now)).2 = [] ∧
  dropReason (((linkMachine endpoint).run ops).1.client endpoint y).receiveState
    d.packet.header.seq = some reason

/-- A reliable packet is lost, 33 unreliable ones follow, the last of them arrives, and the first
packet is sent again after its timeout. -/
def outrunRun : List (LinkOp Unit) :=
  [.send .a () true 0] ++ burst 33 ++ [.recv .b (plainDatagram 34) 0] ++ [.update .a (milliseconds 50)]

/-- A reliable packet is delayed until its wire number has been used a second time. -/
def overtakenRun : List (LinkOp Unit) :=
  [.send .a () true 0] ++ burst 65536 ++ [.recv .b (plainDatagram 65537) 0]

/-- Side `a` after a reliable send and `k` unreliable ones. -/
theorem client_reliable_burst (k : Nat) :
    ((linkMachine linkEndpoint).run ([LinkOp.send .a () true 0] ++ burst k)).1.client linkEndpoint .a =
      { endpoint := linkEndpoint .b
        nextSendSeq := .ofNat 16 (2 + k)
        pending := (∅ : TreeMap (BitVec 16) _).insert 1 (pendingEntry 1) } ∧
    (((linkMachine linkEndpoint).run ([LinkOp.send .a () true 0] ++ burst k)).1.peer .a).sent = 1 + k ∧
    (((linkMachine linkEndpoint).run ([LinkOp.send .a () true 0] ++ burst k)).1.peer .a).last = none ∧
    plainDatagram 1 ∈ ((linkMachine linkEndpoint).run ([LinkOp.send .a () true 0] ++ burst k)).1.posted .a := by
  obtain ⟨hc, hs, hl, hp⟩ := @run_sends Unit linkEndpoint [LinkOp.send .a () true 0] .a () 0 k
  refine ⟨?_, hs, hl, hp _ (by decide +kernel)⟩
  rw [BitVec.ofNat_add]
  exact hc

theorem overtakenRun_filter :
    overtakenRun.filter (·.side = .a) = [LinkOp.send .a () true 0] ++ burst 65536 := by
  simp only [overtakenRun, List.filter_append, filter_burst, ↓reduceIte]
  simp [LinkOp.side]

theorem overtakenRun_posted : plainDatagram 65537 ∈
    ((linkMachine linkEndpoint).run ([LinkOp.send .a () true 0] ++ burst 65536)).1.posted .a := by
  obtain ⟨hc, hs, hl, -⟩ := client_reliable_burst 65535
  have hb : burst 65536 = burst 65535 ++ [LinkOp.send .a () false 0] := (burst_append 65535 1).symm
  rw [hb, ← List.append_assoc, Machine.run_concat, posted_send, hc, hs, hl]
  exact List.mem_append_right _ (List.mem_singleton.2 rfl)

theorem overtakenRun_genuine :
    (linkMachine linkEndpoint).Along Genuine (overtakenRun ++ [LinkOp.recv .b (plainDatagram 1) 0]) := by
  have h1 := genuine_send .a true (Machine.along_nil (linkMachine linkEndpoint) Genuine)
  rw [List.nil_append] at h1
  refine genuine_recv .b .a rfl (genuine_recv .b .a rfl (genuine_burst 65536 h1) overtakenRun_posted) ?_
  rw [(run_side _ _).2.1, overtakenRun_filter]
  exact (client_reliable_burst 65536).2.2.2

/-- Two pending packets that never reach the handler. -/
theorem retransmission_rejected :
    ((linkMachine linkEndpoint).Along Genuine
        (outrunRun ++ [.recv .b (plainDatagram 1) (milliseconds 50)]) ∧
      Rejected linkEndpoint .b outrunRun (plainDatagram 1) (milliseconds 50) .old) ∧
    ((linkMachine linkEndpoint).Along Genuine (overtakenRun ++ [.recv .b (plainDatagram 1) 0]) ∧
      Rejected linkEndpoint .b overtakenRun (plainDatagram 1) 0 .dup) := by
  refine ⟨⟨?_, ?_, ?_, ?_, ?_⟩, ⟨?_, ?_, ?_, ?_, ?_⟩⟩
  · refine genuine_recv .b .a rfl ((Machine.along_concat _).2 ⟨genuine_recv .b .a rfl (genuine_burst 33
      (genuine_send .a true (Machine.along_nil _ _))) ?_, trivial⟩) ?_
    · decide +kernel
    · decide +kernel
  · exact Option.map_eq_some_iff.1 (by decide +kernel)
  · decide +kernel
  · decide +kernel
  · decide +kernel
  · exact overtakenRun_genuine
  · rw [show Side.b.other = .a from rfl, client_congr (run_side .a _).1, overtakenRun_filter,
      (client_reliable_burst _).1]
    exact ⟨pendingEntry 1, TreeMap.getElem?_insert_self, rfl⟩
  · rw [← mem_deliveredAt, (run_side _ _).2.2]
    simp only [overtakenRun, List.filter_append, filter_burst]
    decide +kernel
  · rw [step_recv_congr (run_side .b _).1]
    simp only [overtakenRun, List.filter_append, filter_burst]
    decide +kernel
  · rw [client_congr (run_side _ _).1]
    simp only [overtakenRun, List.filter_append, filter_burst]
    decide +kernel

end Portfolio.Netcode
