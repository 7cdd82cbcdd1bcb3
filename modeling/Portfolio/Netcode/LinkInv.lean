import Portfolio.Netcode.Link

/-!
# The invariant of the link

`SideInv` is the sending half: records and posted datagrams carry their numbers. `RecvInv` is the
receiving half, under the assumption that packets arrive within half the number space of the
largest one: the receive state and every posted header stand for delivered packets. `linkInv_run`
has both for every run in which only posted datagrams arrive. `run_side` cuts a run into the calls
of the two sides.
-/

namespace Portfolio.Netcode
open Std

section
variable {D : Type} (endpoint : Side → Endpoint)

structure SideInv (s : Link D) (x : Side) : Prop where
  handler : (s.peer x).transport.handler = true
  only : ∀ key c, (s.peer x).transport.clients[key]? = some c → key = endpointKey (endpoint x.other)
  numbered : Numbered (s.peer x).sent (s.client endpoint x)
  posted : ∀ d ∈ s.posted x, PacketOk (s.peer x).sent d.packet

structure RecvInv (s : Link D) (x : Side) (ns del : List Nat) : Prop where
  received : Received ns (s.peer x).last (s.client endpoint x).receiveState del
  acks : ∀ d ∈ s.posted x, AckOk del d

/-! ### Client records of the transport -/

theorem ensureClientLocked_insert {P : Type} {m : TreeMap String (ClientState P)} {e : Endpoint}
    {c : ClientState P} (hc : c.endpoint = e) :
    ensureClientLocked (m.insert (endpointKey e) c) e = c := by
  unfold ensureClientLocked
  rw [TreeMap.getElem?_insert_self]
  rw [← hc]

theorem ensureClientLocked_endpoint {P : Type} (m : TreeMap String (ClientState P)) (e : Endpoint) :
    (ensureClientLocked m e).endpoint = e := by
  unfold ensureClientLocked
  cases m[endpointKey e]? <;> rfl

theorem sendClient_endpoint {P : Type} (c : ClientState P) (data : P) (reliable : Bool) (now : Time) :
    (sendClient c data reliable now).1.endpoint = c.endpoint := by
  unfold sendClient
  dsimp only
  split
  · rfl
  · split <;> rfl

theorem processClient_endpoint {P : Type} (c : ClientState P) (header : UdpHeader) (now : Time) :
    (processClient c header now).1.endpoint = c.endpoint := by
  unfold processClient handleAck
  dsimp only
  split <;> rfl

theorem ensureClientLocked_send {P : Type} (t : UdpTransport P) (e : Endpoint) (data : P)
    (reliable : Bool) (now : Time) : ensureClientLocked (t.send e data reliable now).1.clients e =
      (sendClient (ensureClientLocked t.clients e) data reliable now).1 := by
  rw [send_clients]
  exact ensureClientLocked_insert ((sendClient_endpoint _ _ _ _).trans (ensureClientLocked_endpoint _ _))

theorem ensureClientLocked_process {P : Type} (t : UdpTransport P) (e : Endpoint) (header : UdpHeader)
    (payload : P) (now : Time) :
    ensureClientLocked (t.processPacket e header payload now).1.clients e =
      (processClient (ensureClientLocked t.clients e) header now).1 :=
  ensureClientLocked_insert ((processClient_endpoint _ _ _).trans (ensureClientLocked_endpoint _ _))

theorem numbered_update {t : UdpTransport (Nat × D)} {e : Endpoint} {sent : Nat} (now : Time)
    (h : Numbered sent (ensureClientLocked t.clients e)) :
    Numbered sent (ensureClientLocked (t.update now).1.clients e) := by
  unfold ensureClientLocked UdpTransport.update at *
  simp only [TreeMap.getElem?_map]
  cases hc : t.clients[endpointKey e]? with
  | none =>
    rw [hc] at h
    exact h
  | some c =>
    rw [hc] at h
    have := h.update now
    exact ⟨this.next, this.pend⟩

theorem ensureClientLocked_update_receiveState (t : UdpTransport (Nat × D)) (e : Endpoint) (now : Time) :
    (ensureClientLocked (t.update now).1.clients e).receiveState =
      (ensureClientLocked t.clients e).receiveState := by
  rw [ensureClientLocked_receiveState, ensureClientLocked_receiveState, receiveStateOf_update]

/-- What `update` posts when the only client is `e`: resends of that client. -/
theorem update_out {t : UdpTransport (Nat × D)} {e : Endpoint} {now : Time}
    (only : ∀ key c, t.clients[key]? = some c → key = endpointKey e)
    {o : Packet (Nat × D) × Endpoint} (ho : o ∈ (t.update now).2) :
    o.1 ∈ resends now (ensureClientLocked t.clients e) := by
  unfold UdpTransport.update at ho
  obtain ⟨⟨key, c⟩, hc, ho⟩ := List.mem_flatMap.1 ho
  have hc := TreeMap.mem_toList_iff_getElem?_eq_some.1 hc
  obtain ⟨p, hp, rfl⟩ := List.mem_map.1 ho
  obtain rfl := only key c hc
  unfold ensureClientLocked
  rw [hc]
  exact hp

/-! ### Both halves, one step -/

variable {endpoint}

@[simp] theorem put_peer_self (s : Link D) (x : Side) (p : Peer D) (ds : List (Datagram D)) :
    (s.put x p ds).peer x = p := by simp [Link.put]

@[simp] theorem put_posted_self (s : Link D) (x : Side) (p : Peer D) (ds : List (Datagram D)) :
    (s.put x p ds).posted x = s.posted x ++ ds := by simp [Link.put]

theorem put_peer_ne (s : Link D) {x y : Side} (h : y ≠ x) (p : Peer D) (ds : List (Datagram D)) :
    (s.put x p ds).peer y = s.peer y := by simp [Link.put, h]

theorem put_posted_ne (s : Link D) {x y : Side} (h : y ≠ x) (p : Peer D) (ds : List (Datagram D)) :
    (s.put x p ds).posted y = s.posted y := by simp [Link.put, h]

section
variable {s : Link D} {x y : Side} {ns del : List Nat}

theorem SideInv.put_ne (h : SideInv endpoint s y) (hne : y ≠ x) (p : Peer D) (ds : List (Datagram D)) :
    SideInv endpoint (s.put x p ds) y := by
  have hp := put_peer_ne s hne p ds
  refine ⟨?_, ?_, ?_, ?_⟩ <;> simp only [Link.client, hp, put_posted_ne s hne p ds]
  exacts [h.handler, h.only, h.numbered, h.posted]

theorem RecvInv.put_ne (h : RecvInv endpoint s y ns del) (hne : y ≠ x) (p : Peer D)
    (ds : List (Datagram D)) : RecvInv endpoint (s.put x p ds) y ns del := by
  have hp := put_peer_ne s hne p ds
  refine ⟨?_, ?_⟩ <;> simp only [Link.client, hp, put_posted_ne s hne p ds]
  exacts [h.received, h.acks]

/-- The datagrams `ds` are new packets of side `x`. -/
theorem SideInv.put_self (h : SideInv endpoint s x) {p : Peer D} {ds : List (Datagram D)}
    (hh : p.transport.handler = true)
    (ho : ∀ key c, p.transport.clients[key]? = some c → key = endpointKey (endpoint x.other))
    (hn : Numbered p.sent (ensureClientLocked p.transport.clients (endpoint x.other)))
    (hsent : (s.peer x).sent ≤ p.sent) (hds : ∀ d ∈ ds, PacketOk p.sent d.packet) :
    SideInv endpoint (s.put x p ds) x := by
  refine ⟨?_, ?_, ?_, ?_⟩ <;> simp only [Link.client, put_peer_self, put_posted_self]
  · exact hh
  · exact ho
  · exact hn
  · intro d hd
    rcases List.mem_append.1 hd with hd | hd
    · obtain ⟨h1, h2, h3⟩ := h.posted d hd
      exact ⟨h1, h2, h3.trans hsent⟩
    · exact hds d hd

theorem only_insert {m : TreeMap String (ClientState (Nat × D))} {k : String}
    {c : ClientState (Nat × D)} (h : ∀ key c, m[key]? = some c → key = k) :
    ∀ key c', (m.insert k c)[key]? = some c' → key = k := by
  intro key c' hc
  rw [TreeMap.getElem?_insert] at hc
  split at hc
  · rename_i hk
    exact (LawfulEqCmp.eq_of_compare hk).symm
  · exact h key c' hc

theorem send_out {t : UdpTransport (Nat × D)} {e : Endpoint} {data : Nat × D} {reliable : Bool}
    {now : Time} {o : Packet (Nat × D) × Endpoint} (ho : o ∈ (t.send e data reliable now).2) :
    (sendClient (ensureClientLocked t.clients e) data reliable now).2 = some o.1 := by
  unfold UdpTransport.send at ho
  dsimp only at ho
  split at ho
  · simp at ho
  · rename_i hp
    obtain rfl := List.mem_singleton.1 ho
    exact hp

theorem sideInv_send (h : SideInv endpoint s x) (data : D) (reliable : Bool) (now : Time) :
    SideInv endpoint ((linkMachine endpoint).step s (.send x data reliable now)).1 x := by
  refine h.put_self ?_ ?_ ?_ (Nat.le_succ _) ?_
  · exact (send_handler _ _ _ _ _).trans h.handler
  · dsimp only
    rw [send_clients]
    exact only_insert h.only
  · dsimp only
    rw [ensureClientLocked_send]
    exact h.numbered.send data reliable now
  · intro d hd
    obtain ⟨o, ho, rfl⟩ := List.mem_map.1 hd
    have hp := h.numbered.send_packet (send_out ho)
    obtain ⟨e1, e2⟩ := composePacket_seq (s.client endpoint x) (.ofNat 16 ((s.peer x).sent + 1))
      ((s.peer x).sent + 1, data)
    dsimp only
    rw [hp, PacketOk, e1, e2]
    exact ⟨rfl, Nat.le_add_left 1 _, Nat.le_refl _⟩

theorem sideInv_update (h : SideInv endpoint s x) (now : Time) :
    SideInv endpoint ((linkMachine endpoint).step s (.update x now)).1 x := by
  refine h.put_self ?_ ?_ ?_ (Nat.le_refl _) ?_
  · exact h.handler
  · intro key c hc
    simp only [UdpTransport.update, TreeMap.getElem?_map, Option.map_eq_some_iff] at hc
    obtain ⟨c₀, hc₀, -⟩ := hc
    exact h.only key c₀ hc₀
  · exact numbered_update now h.numbered
  · intro d hd
    obtain ⟨o, ho, rfl⟩ := List.mem_map.1 hd
    exact (h.numbered.resend (update_out h.only ho)).1

theorem sideInv_recv (h : SideInv endpoint s x) (d : Datagram D) (now : Time) :
    SideInv endpoint ((linkMachine endpoint).step s (.recv x d now)).1 x := by
  refine h.put_self ?_ ?_ ?_ (Nat.le_refl _) ?_
  · exact h.handler
  · exact only_insert h.only
  · dsimp only
    rw [ensureClientLocked_process]
    exact h.numbered.process _ now
  · simp

/-- Posting packets composed from the current record keeps the receiving half. -/
theorem RecvInv.post (h : RecvInv endpoint s x ns del) {p : Peer D} {ds : List (Datagram D)}
    (hlast : p.last = (s.peer x).last)
    (hrs : (ensureClientLocked p.transport.clients (endpoint x.other)).receiveState =
      (s.client endpoint x).receiveState)
    (hds : ∀ d ∈ ds, ∃ seq payload,
      d = ⟨composePacket (s.client endpoint x) seq payload, (s.peer x).last⟩) :
    RecvInv endpoint (s.put x p ds) x ns del := by
  refine ⟨?_, ?_⟩ <;> simp only [Link.client, put_peer_self, put_posted_self]
  · rw [hlast, hrs]
    exact h.received
  · intro d hd
    rcases List.mem_append.1 hd with hd | hd
    · exact h.acks d hd
    · obtain ⟨seq, payload, rfl⟩ := hds d hd
      exact h.received.ackOk seq payload

theorem recvInv_send (hs : SideInv endpoint s x) (h : RecvInv endpoint s x ns del) (data : D)
    (reliable : Bool) (now : Time) :
    RecvInv endpoint ((linkMachine endpoint).step s (.send x data reliable now)).1 x ns del := by
  refine h.post rfl ?_ ?_
  · dsimp only
    rw [ensureClientLocked_send, sendClient_receiveState]
    rfl
  · intro d hd
    obtain ⟨o, ho, rfl⟩ := List.mem_map.1 hd
    exact ⟨_, _, by rw [hs.numbered.send_packet (send_out ho)]⟩

theorem recvInv_update (hs : SideInv endpoint s x) (h : RecvInv endpoint s x ns del) (now : Time) :
    RecvInv endpoint ((linkMachine endpoint).step s (.update x now)).1 x ns del := by
  refine h.post rfl (ensureClientLocked_update_receiveState _ _ now) ?_
  intro d hd
  obtain ⟨o, ho, rfl⟩ := List.mem_map.1 hd
  obtain ⟨seq, payload, hp⟩ := (hs.numbered.resend (update_out hs.only ho)).2
  exact ⟨seq, payload, by rw [hp]⟩

/-- The receiving side on the number that the payload carries. -/
theorem step_recv_eq (hs : SideInv endpoint s x) {d : Datagram D} (hd : d.packet.header.seq = .ofNat 16 d.num)
    (now : Time) :
    ((linkMachine endpoint).step s (.recv x d now)).2 =
      (windowMachine.step (s.client endpoint x).receiveState d.num).2.map (x, ·) ∧
    (((linkMachine endpoint).step s (.recv x d now)).1.client endpoint x).receiveState =
      (windowMachine.step (s.client endpoint x).receiveState d.num).1 ∧
    (((linkMachine endpoint).step s (.recv x d now)).1.peer x).last =
      if dropReason (s.client endpoint x).receiveState (.ofNat 16 d.num) = none ∧
          (windowMachine.step (s.client endpoint x).receiveState d.num).1.lastSeq = .ofNat 16 d.num
        then some d.num else (s.peer x).last := by
  simp only [linkMachine, Link.client, put_peer_self, processPacket_handled,
    receiveStateOf_processPacket, ensureClientLocked_process, (processClient_receiveState _ _ now).2,
    hs.handler, hd, ensureClientLocked_receiveState, windowMachine]
  by_cases hdrop : dropReason (receiveStateOf (s.peer x).transport (endpointKey (endpoint x.other)))
      (.ofNat 16 d.num) = none
  · simp [hdrop]
  · simp [hdrop]

theorem recvInv_recv (hs : SideInv endpoint s x) (h : RecvInv endpoint s x ns del) {d : Datagram D}
    (hd : d.packet.header.seq = .ofNat 16 d.num) (hw : ∀ m, Largest m ns → Near d.num m) (now : Time) :
    RecvInv endpoint ((linkMachine endpoint).step s (.recv x d now)).1 x (ns ++ [d.num])
      (del ++ (windowMachine.step (s.client endpoint x).receiveState d.num).2) := by
  obtain ⟨-, hrs, hlast⟩ := step_recv_eq hs hd now
  refine ⟨?_, ?_⟩
  · rw [hrs, hlast]
    exact h.received.step hw
  · intro d' hd'
    have hd'' : d' ∈ s.posted x := by simpa [linkMachine] using hd'
    exact (h.acks d' hd'').mono fun n hn => List.mem_append_left _ hn

end

/-- Both halves at both sides, after the calls `ops` with handler invocations `outs`. -/
def LinkInv (endpoint : Side → Endpoint) (ops : List (LinkOp D)) (outs : List (Side × Nat))
    (s : Link D) : Prop :=
  ∀ x, SideInv endpoint s x ∧
    (InWindow (arrivalsAt x ops) → RecvInv endpoint s x (arrivalsAt x ops) (deliveredAt x outs))

theorem linkInv_init : LinkInv endpoint [] [] ({} : Link D) := by
  intro x
  have hc : ({} : Link D).client endpoint x =
      { endpoint := endpoint x.other, nextSendSeq := 1 } := rfl
  refine ⟨⟨rfl, fun key c h => ?_, Numbered.init _, by simp⟩, fun _ => ⟨.inl ⟨rfl, rfl, rfl⟩, by simp⟩⟩
  simp at h

theorem linkInv_step {ops : List (LinkOp D)} {outs : List (Side × Nat)} {s : Link D} {op : LinkOp D}
    (h : LinkInv endpoint ops outs s) (hg : Genuine s op) :
    LinkInv endpoint (ops ++ [op]) (outs ++ ((linkMachine endpoint).step s op).2)
      ((linkMachine endpoint).step s op).1 := by
  intro x
  obtain ⟨hx, hr⟩ := h x
  cases op with
  | send y data reliable now =>
    have harr : arrivalsAt x (ops ++ [.send y data reliable now]) = arrivalsAt x ops := by
      simp [arrivalsAt]
    simp only [harr, linkMachine, List.append_nil]
    by_cases hxy : x = y
    · subst hxy
      exact ⟨sideInv_send hx data reliable now, fun hw => recvInv_send hx (hr hw) data reliable now⟩
    · exact ⟨hx.put_ne hxy _ _, fun hw => (hr hw).put_ne hxy _ _⟩
  | update y now =>
    have harr : arrivalsAt x (ops ++ [.update y now]) = arrivalsAt x ops := by
      simp [arrivalsAt]
    simp only [harr, linkMachine, List.append_nil]
    by_cases hxy : x = y
    · subst hxy
      exact ⟨sideInv_update hx now, fun hw => recvInv_update hx (hr hw) now⟩
    · exact ⟨hx.put_ne hxy _ _, fun hw => (hr hw).put_ne hxy _ _⟩
  | recv y d now =>
    have hd : d.packet.header.seq = .ofNat 16 d.num := ((h y.other).1.posted d hg).1
    have hout := (step_recv_eq (h y).1 hd now).1
    by_cases hxy : x = y
    · subst hxy
      have harr : arrivalsAt x (ops ++ [.recv x d now]) = arrivalsAt x ops ++ [d.num] := by
        simp [arrivalsAt]
      have hdel : deliveredAt x (outs ++ ((linkMachine endpoint).step s (.recv x d now)).2) =
          deliveredAt x outs ++ (windowMachine.step (s.client endpoint x).receiveState d.num).2 := by
        rw [hout]
        simp [deliveredAt]
      refine ⟨sideInv_recv hx d now, fun hw => ?_⟩
      rw [harr] at hw ⊢
      rw [hdel]
      obtain ⟨hw, hn⟩ := inWindow_concat.1 hw
      exact recvInv_recv hx (hr hw) hd hn now
    · have harr : arrivalsAt x (ops ++ [.recv y d now]) = arrivalsAt x ops := by
        simp [arrivalsAt, Ne.symm hxy]
      have hdel : deliveredAt x (outs ++ ((linkMachine endpoint).step s (.recv y d now)).2) =
          deliveredAt x outs := by
        rw [hout]
        simp [deliveredAt, Ne.symm hxy]
      rw [harr, hdel]
      exact ⟨hx.put_ne hxy _ _, fun hw => (hr hw).put_ne hxy _ _⟩

theorem linkInv_run (ops : List (LinkOp D)) (hg : (linkMachine endpoint).Along Genuine ops) :
    LinkInv endpoint ops ((linkMachine endpoint).run ops).2 ((linkMachine endpoint).run ops).1 :=
  (linkMachine endpoint).run_inv_along linkInv_init (fun _ _ _ _ h hg => linkInv_step h hg) ops hg

/-! ### One side of a run -/

def LinkOp.side : LinkOp D → Side
  | .send x _ _ _ => x
  | .update x _ => x
  | .recv x _ _ => x

theorem step_other (s : Link D) {op : LinkOp D} {y : Side} (h : y ≠ op.side) :
    ((linkMachine endpoint).step s op).1.peer y = s.peer y ∧
    ((linkMachine endpoint).step s op).1.posted y = s.posted y := by
  cases op <;> exact ⟨put_peer_ne _ h _ _, put_posted_ne _ h _ _⟩

theorem client_congr {s s' : Link D} {x : Side} (h : s'.peer x = s.peer x) :
    s'.client endpoint x = s.client endpoint x := by
  unfold Link.client
  rw [h]

theorem client_send (s : Link D) (x : Side) (data : D) (reliable : Bool) (now : Time) :
    ((linkMachine endpoint).step s (.send x data reliable now)).1.client endpoint x =
      (sendClient (s.client endpoint x) ((s.peer x).sent + 1, data) reliable now).1 := by
  simp only [linkMachine, Link.client, put_peer_self]
  exact ensureClientLocked_send _ _ _ _ _

theorem client_recv (s : Link D) (x : Side) (d : Datagram D) (now : Time) :
    ((linkMachine endpoint).step s (.recv x d now)).1.client endpoint x =
      (processClient (s.client endpoint x) d.packet.header now).1 := by
  simp only [linkMachine, Link.client, put_peer_self]
  exact ensureClientLocked_process _ _ _ _ _

theorem sent_send (s : Link D) (x : Side) (data : D) (reliable : Bool) (now : Time) :
    (((linkMachine endpoint).step s (.send x data reliable now)).1.peer x).sent = (s.peer x).sent + 1 ∧
    (((linkMachine endpoint).step s (.send x data reliable now)).1.peer x).last = (s.peer x).last := by
  simp only [linkMachine, put_peer_self, and_self]

theorem posted_send (s : Link D) (x : Side) (data : D) (reliable : Bool) (now : Time) :
    ((linkMachine endpoint).step s (.send x data reliable now)).1.posted x = s.posted x ++
      (sendClient (s.client endpoint x) ((s.peer x).sent + 1, data) reliable now).2.toList.map
        (⟨·, (s.peer x).last⟩) := by
  simp only [linkMachine, Link.client, put_posted_self, UdpTransport.send]
  cases (sendClient (ensureClientLocked (s.peer x).transport.clients (endpoint x.other))
    ((s.peer x).sent + 1, data) reliable now).2 <;> rfl

theorem step_congr {s s' : Link D} {op : LinkOp D} (hp : s.peer op.side = s'.peer op.side)
    (hd : s.posted op.side = s'.posted op.side) :
    ((linkMachine endpoint).step s op).1.peer op.side =
      ((linkMachine endpoint).step s' op).1.peer op.side ∧
    ((linkMachine endpoint).step s op).1.posted op.side =
      ((linkMachine endpoint).step s' op).1.posted op.side ∧
    ((linkMachine endpoint).step s op).2 = ((linkMachine endpoint).step s' op).2 := by
  cases op <;> simp only [LinkOp.side] at hp hd ⊢ <;>
    simp only [linkMachine, put_peer_self, put_posted_self, hp, hd, and_self]

theorem step_recv_congr {s s' : Link D} {x : Side} (hp : s.peer x = s'.peer x) (d : Datagram D)
    (now : Time) : ((linkMachine endpoint).step s (.recv x d now)).2 =
      ((linkMachine endpoint).step s' (.recv x d now)).2 := by
  simp only [linkMachine, hp]

theorem deliveredAt_step_ne (s : Link D) {op : LinkOp D} {y : Side} (h : y ≠ op.side) :
    deliveredAt y ((linkMachine endpoint).step s op).2 = [] := by
  cases op with
  | send => rfl
  | update => rfl
  | recv x d now =>
    simp only [linkMachine]
    split
    · simp [deliveredAt, show x ≠ y from h.symm]
    · rfl

theorem deliveredAt_append (y : Side) (outs outs' : List (Side × Nat)) :
    deliveredAt y (outs ++ outs') = deliveredAt y outs ++ deliveredAt y outs' :=
  List.filterMap_append

/-- The calls of the other side do not touch side `y`: its half of a run is the run of its own
calls. -/
theorem run_side (y : Side) (ops : List (LinkOp D)) :
    ((linkMachine endpoint).run ops).1.peer y =
      ((linkMachine endpoint).run (ops.filter (·.side = y))).1.peer y ∧
    ((linkMachine endpoint).run ops).1.posted y =
      ((linkMachine endpoint).run (ops.filter (·.side = y))).1.posted y ∧
    deliveredAt y ((linkMachine endpoint).run ops).2 =
      deliveredAt y ((linkMachine endpoint).run (ops.filter (·.side = y))).2 := by
  refine (linkMachine endpoint).run_inv (P := fun ops outs s =>
    s.peer y = ((linkMachine endpoint).run (ops.filter (·.side = y))).1.peer y ∧
    s.posted y = ((linkMachine endpoint).run (ops.filter (·.side = y))).1.posted y ∧
    deliveredAt y outs = deliveredAt y ((linkMachine endpoint).run (ops.filter (·.side = y))).2)
    ⟨rfl, rfl, rfl⟩ ?_ ops
  intro ops outs s op ⟨hp, hd, ho⟩
  rw [List.filter_append, deliveredAt_append]
  by_cases hy : op.side = y
  · subst hy
    obtain ⟨h1, h2, h3⟩ := @step_congr D endpoint _ _ op hp hd
    simp only [List.filter_cons, decide_true, ↓reduceIte, List.filter_nil, Machine.run_concat,
      deliveredAt_append]
    exact ⟨h1, h2, by rw [ho, h3]⟩
  · obtain ⟨h1, h2⟩ := @step_other D endpoint s _ _ (Ne.symm hy)
    simp only [List.filter_cons, hy, decide_false, Bool.false_eq_true, ↓reduceIte, List.filter_nil,
      List.append_nil, deliveredAt_step_ne s (Ne.symm hy)]
    exact ⟨h1.trans hp, h2.trans hd, ho⟩

/-- `k` unreliable sends move the counters and nothing else of the record. -/
theorem run_sends (ops : List (LinkOp D)) (x : Side) (data : D) (now : Time) (k : Nat) :
    ((linkMachine endpoint).run (ops ++ List.replicate k (LinkOp.send x data false now))).1.client endpoint x =
      { ((linkMachine endpoint).run ops).1.client endpoint x with
        nextSendSeq := (((linkMachine endpoint).run ops).1.client endpoint x).nextSendSeq + .ofNat 16 k } ∧
    (((linkMachine endpoint).run (ops ++ List.replicate k (LinkOp.send x data false now))).1.peer x).sent =
      (((linkMachine endpoint).run ops).1.peer x).sent + k ∧
    (((linkMachine endpoint).run (ops ++ List.replicate k (LinkOp.send x data false now))).1.peer x).last =
      (((linkMachine endpoint).run ops).1.peer x).last ∧
    ∀ d ∈ ((linkMachine endpoint).run ops).1.posted x,
      d ∈ ((linkMachine endpoint).run (ops ++ List.replicate k (LinkOp.send x data false now))).1.posted x := by
  induction k with
  | zero =>
    rw [List.replicate_zero, List.append_nil]
    refine ⟨?_, rfl, rfl, fun d hd => hd⟩
    simp only [BitVec.add_zero]
  | succ k ih =>
    obtain ⟨hc, hs, hl, hp⟩ := ih
    rw [List.replicate_succ', ← List.append_assoc, Machine.run_concat, client_send,
      (sent_send _ _ _ _ _).1, (sent_send _ _ _ _ _).2, posted_send, hc, hs]
    refine ⟨?_, Nat.add_assoc _ _ _, hl, fun d hd => List.mem_append_left _ (hp d hd)⟩
    simp only [sendClient, Bool.false_eq_true, false_and, ↓reduceIte, BitVec.ofNat_add k 1, BitVec.add_assoc]
    rfl

end

end Portfolio.Netcode
