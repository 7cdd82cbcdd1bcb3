import Portfolio.Lib.Machine
import Portfolio.Netcode.UdpTransport

/-!
# The receive window against absolute packet numbers

The sender counts its packets with a natural number `n` and sends `n mod 2 ^ 16`. `Window m got rs`
says that `rs` stands for: the largest number seen is `m` and the marked numbers below it are
`got`. `Window.newer` and `Window.older` say exactly what `update_receive_state` does to it; a jump
of 32 or more forgets every mark, the previous `m` included.

`windowMachine` is the receive path of one endpoint on its own; `run_eq_windowMachine` shows that
the whole transport, whatever else it sends and receives, does just that for each endpoint.
-/

namespace Portfolio.Netcode
open Std

/-- Less than half the number space apart. -/
def Near (n m : Nat) : Prop := n ≤ m + (2 ^ 15 - 1) ∧ m ≤ n + (2 ^ 15 - 1)

instance (n m : Nat) : Decidable (Near n m) := inferInstanceAs (Decidable (_ ∧ _))

theorem isSeqNewer_ofNat {n m : Nat} (h : Near n m) :
    isSeqNewer (.ofNat 16 n) (.ofNat 16 m) = decide (m < n) := by
  obtain ⟨h1, h2⟩ := h
  rw [isSeqNewer, SeqNum.toInt_sub_ofNat (by omega) (by omega)]
  exact decide_eq_decide.2 (by omega)

/-- The receive state whose newest packet is `m` and whose marked packets are `got`. -/
structure Window (m : Nat) (got : Nat → Prop) (rs : ReceiveState) : Prop where
  has : rs.hasLastSeq = true
  last : rs.lastSeq = .ofNat 16 m
  lt : ∀ x, got x → x < m
  bits : ∀ i, i < 32 → (rs.ackBits.getLsbD i = true ↔ i + 1 ≤ m ∧ got (m - 1 - i))

namespace Window
variable {m n : Nat} {got : Nat → Prop} {rs : ReceiveState}

/-- Only the 32 numbers below `m` are read. -/
theorem congr {got' : Nat → Prop} (h : Window m got rs) (hlt : ∀ x, got' x → x < m)
    (hg : ∀ x, x < m → m ≤ x + 32 → (got' x ↔ got x)) : Window m got' rs := by
  refine ⟨h.has, h.last, hlt, fun i hi => ?_⟩
  rw [h.bits i hi]
  exact and_congr_right fun him => (hg _ (by omega) (by omega)).symm

theorem hasReceived_eq (h : Window m got rs) (hn : n < m) (hnear : Near n m) :
    hasReceived rs (.ofNat 16 n) = true ↔ m - n ≤ 32 ∧ got n := by
  have hne : ¬ BitVec.ofNat 16 n = .ofNat 16 m := by
    obtain ⟨h1, h2⟩ := hnear
    rw [SeqNum.ofNat_inj_of_near (by omega) (by omega)]
    omega
  have hdiff : (BitVec.ofNat 16 m - .ofNat 16 n).toNat = m - n :=
    SeqNum.toNat_sub_ofNat (by omega) (by have := hnear.2; omega)
  simp only [hasReceived, h.has, h.last, hne, isSeqNewer_ofNat hnear, hdiff, Bool.not_true,
    Bool.false_eq_true, ↓reduceIte, decide_eq_true_eq, Nat.not_lt.2 hn.le, Nat.sub_eq_zero_iff_le,
    Nat.not_le.2 hn]
  by_cases hw : 32 < m - n
  · simp [hw]
    omega
  · simp only [hw, ↓reduceIte, decide_eq_true_eq]
    have hidx : m - 1 - (m - n - 1) = n := by omega
    rw [show (0 : BitVec 32) = 0#32 from rfl, SeqNum.and_mask_ne_zero _ (by omega : m - n - 1 < 32),
      h.bits (m - n - 1) (by omega), hidx]
    exact and_congr_left' (by omega)

/-! The drop rules of `process_packet`, read on absolute numbers. -/

theorem dropReason_newer (h : Window m got rs) (hnear : Near n m) (hlt : m < n) :
    dropReason rs (.ofNat 16 n) = none := by
  simp [dropReason, h.has, h.last, isSeqNewer_ofNat hnear, hlt]

theorem dropReason_of_le (h : Window m got rs) (hnear : Near n m) (hle : n ≤ m) :
    dropReason rs (.ofNat 16 n) =
      if m - n = 0 ∨ hasReceived rs (.ofNat 16 n) then some .dup
      else if 32 < m - n then some .old else none := by
  have hdiff : (BitVec.ofNat 16 m - .ofNat 16 n).toNat = m - n :=
    SeqNum.toNat_sub_ofNat hle (by have := hnear.2; omega)
  simp only [dropReason, h.has, h.last, isSeqNewer_ofNat hnear, hdiff, decide_eq_false (Nat.not_lt.2 hle),
    Bool.not_false, ↓reduceIte]

theorem dropReason_same (h : Window m got rs) : dropReason rs (.ofNat 16 m) = some .dup := by
  rw [h.dropReason_of_le ⟨by omega, by omega⟩ le_rfl]
  simp

theorem dropReason_marked (h : Window m got rs) (hlt : n < m) (hw : m - n ≤ 32) (hg : got n) :
    dropReason rs (.ofNat 16 n) = some .dup := by
  have hnear : Near n m := ⟨by omega, by omega⟩
  rw [h.dropReason_of_le hnear hlt.le, if_pos (.inr ((h.hasReceived_eq hlt hnear).2 ⟨hw, hg⟩))]

theorem dropReason_unmarked (h : Window m got rs) (hlt : n < m) (hw : m - n ≤ 32) (hg : ¬ got n) :
    dropReason rs (.ofNat 16 n) = none := by
  have hnear : Near n m := ⟨by omega, by omega⟩
  rw [h.dropReason_of_le hnear hlt.le, if_neg, if_neg (Nat.not_lt.2 hw)]
  rintro (h0 | hr)
  · omega
  · exact hg ((h.hasReceived_eq hlt hnear).1 hr).2

theorem dropReason_far (h : Window m got rs) (hnear : Near n m) (hw : n + 32 < m) :
    dropReason rs (.ofNat 16 n) = some .old := by
  rw [h.dropReason_of_le hnear (by omega), if_neg, if_pos (by omega)]
  rintro (h0 | hr)
  · omega
  · have := ((h.hasReceived_eq (by omega) hnear).1 hr).1
    omega

/-- A packet beyond `m`: the marks slide with the window, unless the jump is 32 or more. -/
theorem newer (h : Window m got rs) (hlt : m < n) (hnear : Near n m) :
    Window n (fun x => n < m + 32 ∧ (x = m ∨ got x)) (updateReceiveState rs (.ofNat 16 n)) := by
  have hdiff : (BitVec.ofNat 16 n - .ofNat 16 m).toNat = n - m :=
    SeqNum.toNat_sub_ofNat hlt.le (by have := hnear.1; omega)
  have hrs : updateReceiveState rs (.ofNat 16 n) = { rs with
      ackBits := if 32 ≤ n - m then 0 else rs.ackBits <<< (n - m) ||| 1#32 <<< (n - m - 1)
      lastSeq := .ofNat 16 n } := by
    simp [updateReceiveState, h.has, h.last, isSeqNewer_ofNat hnear, hlt, hdiff]
  rw [hrs]
  refine ⟨h.has, rfl, fun x hx => ?_, fun i hi => ?_⟩
  · rcases hx.2 with rfl | hx
    · exact hlt
    · exact (h.lt x hx).trans hlt
  · by_cases hj : 32 ≤ n - m
    · simp [hj]
      omega
    · simp only [hj, ↓reduceIte]
      rw [SeqNum.getLsbD_slide _ (by omega) hi]
      by_cases hid : i < n - m
      · -- positions above the old `m`: only the old `m` itself is marked
        have hno : ¬ got (n - 1 - i) := fun hg => by have := h.lt _ hg; omega
        simp only [hid, ↓reduceIte, decide_eq_true_eq, hno, or_false]
        omega
      · rw [if_neg hid, h.bits _ (by omega)]
        have hidx : m - 1 - (i - (n - m)) = n - 1 - i := by omega
        rw [hidx]
        constructor
        · rintro ⟨h1, h2⟩
          exact ⟨by omega, by omega, .inr h2⟩
        · rintro ⟨h1, -, h2 | h2⟩
          · omega
          · exact ⟨by omega, h2⟩

/-- A packet at most 32 below `m` is marked. -/
theorem older (h : Window m got rs) (hlt : n < m) (hw : m - n ≤ 32) :
    Window m (fun x => got x ∨ x = n) (updateReceiveState rs (.ofNat 16 n)) := by
  have hnear : Near n m := ⟨by omega, by omega⟩
  have hdiff : (BitVec.ofNat 16 m - .ofNat 16 n).toNat = m - n :=
    SeqNum.toNat_sub_ofNat hlt.le (by omega)
  have hrs : updateReceiveState rs (.ofNat 16 n) =
      { rs with ackBits := rs.ackBits ||| 1#32 <<< (m - n - 1) } := by
    simp only [updateReceiveState, h.has, h.last, isSeqNewer_ofNat hnear, hdiff]
    simp only [Bool.not_true, Bool.false_eq_true, ↓reduceIte, decide_eq_true_eq, Nat.not_lt.2 hlt.le]
    rw [if_pos ⟨by omega, hw⟩]
  rw [hrs]
  refine ⟨h.has, h.last, fun x hx => ?_, fun i hi => ?_⟩
  · rcases hx with hx | rfl
    · exact h.lt x hx
    · exact hlt
  · rw [SeqNum.getLsbD_mark _ _ hi, Bool.or_eq_true, h.bits i hi, decide_eq_true_eq]
    constructor
    · rintro (⟨h1, h2⟩ | rfl)
      · exact ⟨h1, .inl h2⟩
      · exact ⟨by omega, .inr (by omega)⟩
    · rintro ⟨h1, h2 | h2⟩
      · exact .inl ⟨h1, h2⟩
      · exact .inr (by omega)

end Window

theorem window_first (n : Nat) :
    Window n (fun _ => False) (updateReceiveState {} (.ofNat 16 n)) := by
  refine ⟨rfl, rfl, fun x hx => hx.elim, fun i _ => ?_⟩
  simp [updateReceiveState]

/-! ### One endpoint of a running transport -/

/-- The receive path on its own: number `n` is accepted (and comes out) or dropped. -/
def windowMachine : Machine ReceiveState Nat Nat where
  init := {}
  step rs n :=
    if dropReason rs (.ofNat 16 n) = none then (updateReceiveState rs (.ofNat 16 n), [n])
    else (rs, [])

/-- A call on the transport; the header of a packet carries `num mod 2 ^ 16`. -/
inductive TransportOp (P : Type) where
  | packet (endpoint : Endpoint) (num : Nat) (ack : BitVec 16) (ackBits : BitVec 32) (payload : P)
      (now : Time)
  | send (endpoint : Endpoint) (data : P) (reliable : Bool) (now : Time)
  | update (now : Time)

/-- A started transport under any calls; it outputs the handler invocations. -/
def transportMachine (P : Type) : Machine (UdpTransport P) (TransportOp P) (Endpoint × Nat) where
  init := { handler := true }
  step t
    | .packet endpoint num ack ackBits payload now =>
      let r := t.processPacket endpoint ⟨.ofNat 16 num, ack, ackBits⟩ payload now
      (r.1, if r.2.isSome then [(endpoint, num)] else [])
    | .send endpoint data reliable now => ((t.send endpoint data reliable now).1, [])
    | .update now => ((t.update now).1, [])

section
variable {P : Type}

/-- The numbers of the packets from the endpoint `key` among `ops`. -/
def arrivals (key : String) (ops : List (TransportOp P)) : List Nat :=
  ops.filterMap fun
    | .packet endpoint num _ _ _ _ => if endpointKey endpoint = key then some num else none
    | _ => none

/-- The numbers for which the handler was called with the endpoint `key`. -/
def delivered (key : String) (outs : List (Endpoint × Nat)) : List Nat :=
  outs.filterMap fun o => if endpointKey o.1 = key then some o.2 else none

/-- The receive state kept for the endpoint `key`; a new client starts with the default one. -/
def receiveStateOf (t : UdpTransport P) (key : String) : ReceiveState :=
  match t.clients[key]? with
  | some client => client.receiveState
  | none => {}

theorem receiveStateOf_insert {t t' : UdpTransport P} {k : String} {client : ClientState P}
    (h : t'.clients = t.clients.insert k client) (key : String) :
    receiveStateOf t' key = if k = key then client.receiveState else receiveStateOf t key := by
  rw [receiveStateOf, h, TreeMap.getElem?_insert]
  by_cases hk : k = key
  · subst hk
    rw [if_pos compare_self, if_pos rfl]
  · rw [if_neg (fun h => hk (LawfulEqCmp.eq_of_compare h)), if_neg hk]
    rfl

theorem ensureClientLocked_receiveState (t : UdpTransport P) (endpoint : Endpoint) :
    (ensureClientLocked t.clients endpoint).receiveState = receiveStateOf t (endpointKey endpoint) := by
  unfold ensureClientLocked receiveStateOf
  cases t.clients[endpointKey endpoint]? <;> rfl

theorem sendClient_receiveState (client : ClientState P) (data : P) (reliable : Bool) (now : Time) :
    (sendClient client data reliable now).1.receiveState = client.receiveState := by
  unfold sendClient
  dsimp only
  split
  · rfl
  · split <;> rfl

theorem send_clients (t : UdpTransport P) (endpoint : Endpoint) (data : P) (reliable : Bool)
    (now : Time) : (t.send endpoint data reliable now).1.clients = t.clients.insert
      (endpointKey endpoint) (sendClient (ensureClientLocked t.clients endpoint) data reliable now).1 := by
  unfold UdpTransport.send
  dsimp only
  split <;> rfl

theorem send_handler (t : UdpTransport P) (endpoint : Endpoint) (data : P) (reliable : Bool)
    (now : Time) : (t.send endpoint data reliable now).1.handler = t.handler := by
  unfold UdpTransport.send
  dsimp only
  split <;> rfl

theorem receiveStateOf_send (t : UdpTransport P) (endpoint : Endpoint) (data : P) (reliable : Bool)
    (now : Time) (key : String) :
    receiveStateOf (t.send endpoint data reliable now).1 key = receiveStateOf t key := by
  rw [receiveStateOf_insert (send_clients t endpoint data reliable now)]
  split
  · rename_i hk
    rw [sendClient_receiveState, ensureClientLocked_receiveState, hk]
  · rfl

theorem receiveStateOf_update (t : UdpTransport P) (now : Time) (key : String) :
    receiveStateOf (t.update now).1 key = receiveStateOf t key := by
  simp only [receiveStateOf, UdpTransport.update, TreeMap.getElem?_map]
  cases t.clients[key]? <;> rfl

theorem processClient_receiveState (client : ClientState P) (header : UdpHeader) (now : Time) :
    (processClient client header now).2 = dropReason client.receiveState header.seq ∧
    (processClient client header now).1.receiveState =
      if dropReason client.receiveState header.seq = none then
        updateReceiveState client.receiveState header.seq
      else client.receiveState := by
  simp only [processClient, handleAck]
  cases dropReason client.receiveState header.seq <;> exact ⟨rfl, rfl⟩

theorem receiveStateOf_processPacket (t : UdpTransport P) (endpoint : Endpoint) (header : UdpHeader)
    (payload : P) (now : Time) (key : String) :
    receiveStateOf (t.processPacket endpoint header payload now).1 key =
      if endpointKey endpoint = key ∧ dropReason (receiveStateOf t key) header.seq = none then
        updateReceiveState (receiveStateOf t key) header.seq
      else receiveStateOf t key := by
  have hins : (t.processPacket endpoint header payload now).1.clients = t.clients.insert
      (endpointKey endpoint) (processClient (ensureClientLocked t.clients endpoint) header now).1 := rfl
  rw [receiveStateOf_insert hins]
  by_cases hk : endpointKey endpoint = key
  · subst hk
    rw [if_pos rfl, (processClient_receiveState _ header now).2, ensureClientLocked_receiveState]
    simp
  · rw [if_neg hk, if_neg (fun h => hk h.1)]

theorem processPacket_handled (t : UdpTransport P) (endpoint : Endpoint) (header : UdpHeader)
    (payload : P) (now : Time) : (t.processPacket endpoint header payload now).2.isSome =
      (t.handler && decide (dropReason (receiveStateOf t (endpointKey endpoint)) header.seq = none)) := by
  rw [UdpTransport.processPacket]
  dsimp only
  rw [(processClient_receiveState _ header now).1, ensureClientLocked_receiveState]
  by_cases h : dropReason (receiveStateOf t (endpointKey endpoint)) header.seq = none <;>
    cases t.handler <;> simp [h]

/-- The transport treats the packets of an endpoint as `windowMachine` does, whatever packets of
other endpoints, sends and updates come between them. -/
theorem run_eq_windowMachine (key : String) (ops : List (TransportOp P)) :
    ((transportMachine P).run ops).1.handler = true ∧
    windowMachine.run (arrivals key ops) =
      (receiveStateOf ((transportMachine P).run ops).1 key,
        delivered key ((transportMachine P).run ops).2) := by
  refine (transportMachine P).run_inv (P := fun ops outs t => t.handler = true ∧
    windowMachine.run (arrivals key ops) = (receiveStateOf t key, delivered key outs)) ?_ ?_ ops
  · exact ⟨rfl, rfl⟩
  · rintro ops outs t op ⟨hh, ih⟩
    cases op with
    | packet endpoint num ack ackBits payload now =>
      refine ⟨hh, ?_⟩
      simp only [transportMachine, receiveStateOf_processPacket, processPacket_handled, hh]
      by_cases hk : endpointKey endpoint = key
      · subst hk
        have harr : arrivals (endpointKey endpoint)
            (ops ++ [.packet endpoint num ack ackBits payload now]) =
            arrivals (endpointKey endpoint) ops ++ [num] := by simp [arrivals]
        rw [harr, Machine.run_concat, ih]
        by_cases hd : dropReason (receiveStateOf t (endpointKey endpoint)) (BitVec.ofNat 16 num) = none
        · simp [windowMachine, hd, delivered]
        · simp [windowMachine, hd, delivered]
      · have harr : arrivals key (ops ++ [.packet endpoint num ack ackBits payload now]) =
            arrivals key ops := by simp [arrivals, hk]
        rw [harr, ih, if_neg (fun h => hk h.1)]
        congr 1
        split <;> simp [delivered, hk]
    | send endpoint data reliable now =>
      refine ⟨(send_handler t endpoint data reliable now).trans hh, ?_⟩
      simpa [transportMachine, receiveStateOf_send, arrivals] using ih
    | update now =>
      refine ⟨hh, ?_⟩
      simpa [transportMachine, receiveStateOf_update, arrivals] using ih

end

end Portfolio.Netcode
