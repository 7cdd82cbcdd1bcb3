import Mathlib.Tactic.Common
import Portfolio.Lib.SeqNum

/-!
# `net::udp::UdpTransport`

The reliability layer of `netcode-core/net/udp/udp_transport.cpp`: 16-bit sequence numbers, a
32-bit acknowledgement window per client and retransmission of unacknowledged reliable packets.
Sockets, mutexes and log lines are left out; the clock is an argument (nanoseconds), a call of
`post_send_buffer` is an output and a call of the receive handler returns the payload. The
transport never looks into a payload, so its type `P` is a parameter.
-/

namespace Portfolio.Netcode
open Std

/-- `steady_clock` time points and durations, in nanoseconds. -/
abbrev Time := Nat

def milliseconds (n : Nat) : Time := n * 1000000

/-- A UDP endpoint; `address` is `none` when `to_string` reports an error. -/
structure Endpoint where
  address : Option String
  port : Nat
  deriving DecidableEq, Repr

def endpointKey (endpoint : Endpoint) : String :=
  match endpoint.address with
  | none => "invalid:" ++ toString endpoint.port
  | some address => address ++ ":" ++ toString endpoint.port

def kMaxWindow : Nat := 32
def kMaxRetries : Nat := 5
def kBaseRetransmit : Nat := 50
def kTtl : Time := milliseconds 500

/-- `50 ms * 1.5 ^ retries`, truncated to whole milliseconds. -/
def backoffFor (retries : Nat) : Time :=
  milliseconds (kBaseRetransmit * 3 ^ retries / 2 ^ retries)

structure UdpHeader where
  seq : BitVec 16 := 0
  ack : BitVec 16 := 0
  ackBits : BitVec 32 := 0
  deriving DecidableEq, Repr

structure ReceiveState where
  hasLastSeq : Bool := false
  lastSeq : BitVec 16 := 0
  ackBits : BitVec 32 := 0
  deriving DecidableEq, Repr

structure PendingPacket (P : Type) where
  seq : BitVec 16
  payload : P
  firstSent : Time
  lastSent : Time
  nextSend : Time
  retries : Nat

structure ClientState (P : Type) where
  endpoint : Endpoint
  nextSendSeq : BitVec 16 := 0
  receiveState : ReceiveState := {}
  pending : TreeMap (BitVec 16) (PendingPacket P) := ∅
  lastHeard : Time := 0

structure Counters where
  reliableRetriesTotal : Nat := 0
  reliableTimeoutsTotal : Nat := 0
  droppedDuplicatesTotal : Nat := 0
  droppedOldTotal : Nat := 0
  droppedWindowTotal : Nat := 0
  deriving DecidableEq, Repr

/-- `handler` is set once `start` has installed a receive handler. -/
structure UdpTransport (P : Type) where
  clients : TreeMap String (ClientState P) := ∅
  counters : Counters := {}
  handler : Bool := false

/-- A header and payload handed to `post_send_buffer`. -/
structure Packet (P : Type) where
  header : UdpHeader
  payload : P
  deriving DecidableEq, Repr

/-- The two reasons for which `process_packet` drops a packet. -/
inductive DropReason where
  | dup
  | old
  deriving DecidableEq, Repr

/-! ### Sequence numbers and the receive window -/

def isSeqNewer (lhs rhs : BitVec 16) : Bool :=
  decide (0 < (lhs - rhs).toInt)

def isSeqAcked (seq ack : BitVec 16) (ackBits : BitVec 32) : Bool :=
  if seq = ack then true
  else
    let diff := (ack - seq).toInt
    if diff ≤ 0 then false
    else if 32 < diff then false
    else decide (ackBits &&& (1#32 <<< (diff.toNat - 1)) ≠ 0)

def updateReceiveState (state : ReceiveState) (seq : BitVec 16) : ReceiveState :=
  if !state.hasLastSeq then
    { hasLastSeq := true, lastSeq := seq, ackBits := 0 }
  else if isSeqNewer seq state.lastSeq then
    let diff := (seq - state.lastSeq).toNat
    { state with
      ackBits := if 32 ≤ diff then 0 else state.ackBits <<< diff ||| 1#32 <<< (diff - 1)
      lastSeq := seq }
  else
    let diff := (state.lastSeq - seq).toNat
    if 1 ≤ diff ∧ diff ≤ 32 then { state with ackBits := state.ackBits ||| 1#32 <<< (diff - 1) }
    else state

def hasReceived (state : ReceiveState) (seq : BitVec 16) : Bool :=
  if !state.hasLastSeq then false
  else if seq = state.lastSeq then true
  else if isSeqNewer seq state.lastSeq then false
  else
    let diff := (state.lastSeq - seq).toNat
    if diff = 0 then true
    else if 32 < diff then false
    else decide (state.ackBits &&& (1#32 <<< (diff - 1)) ≠ 0)

/-- The drop rules of `process_packet`. -/
def dropReason (state : ReceiveState) (seq : BitVec 16) : Option DropReason :=
  if state.hasLastSeq then
    if !isSeqNewer seq state.lastSeq then
      let diff := (state.lastSeq - seq).toNat
      if diff = 0 ∨ hasReceived state seq then some .dup
      else if 32 < diff then some .old
      else none
    else none
  else none

section
variable {P : Type}

/-! ### Sending -/

/-- The client record of `endpoint`, created with `next_send_seq = 1` on first use. -/
def ensureClientLocked (clients : TreeMap String (ClientState P)) (endpoint : Endpoint) :
    ClientState P :=
  match clients[endpointKey endpoint]? with
  | none => { endpoint := endpoint, nextSendSeq := 1 }
  | some client => { client with endpoint := endpoint }

def composePacket (client : ClientState P) (seq : BitVec 16) (payload : P) : Packet P :=
  if client.receiveState.hasLastSeq then
    ⟨⟨seq, client.receiveState.lastSeq, client.receiveState.ackBits⟩, payload⟩
  else ⟨⟨seq, 0, 0⟩, payload⟩

/-- `UdpTransport::send` on the client record: the packet to post, or `none` for a window drop. -/
def sendClient (client : ClientState P) (data : P) (reliable : Bool) (now : Time) :
    ClientState P × Option (Packet P) :=
  let seq := client.nextSendSeq
  let client := { client with nextSendSeq := seq + 1 }
  if reliable ∧ kMaxWindow ≤ client.pending.size then (client, none)
  else
    let packet := composePacket client seq data
    if reliable then
      let pending : PendingPacket P :=
        { seq := seq, payload := data, firstSent := now, lastSent := now,
          nextSend := now + backoffFor 0, retries := 0 }
      ({ client with pending := client.pending.insert seq pending }, some packet)
    else (client, some packet)

def UdpTransport.send (t : UdpTransport P) (endpoint : Endpoint) (data : P) (reliable : Bool)
    (now : Time) : UdpTransport P × List (Packet P × Endpoint) :=
  let r := sendClient (ensureClientLocked t.clients endpoint) data reliable now
  let clients := t.clients.insert (endpointKey endpoint) r.1
  match r.2 with
  | none =>
    ({ t with
        clients := clients
        counters := { t.counters with droppedWindowTotal := t.counters.droppedWindowTotal + 1 } }, [])
  | some packet => ({ t with clients := clients }, [(packet, endpoint)])

/-! ### Timeouts and retransmission -/

def expired (now : Time) (pending : PendingPacket P) : Bool :=
  decide (kTtl ≤ now - pending.firstSent) || decide (kMaxRetries ≤ pending.retries)

def due (now : Time) (pending : PendingPacket P) : Bool := decide (pending.nextSend ≤ now)

def retransmitted (now : Time) (pending : PendingPacket P) : PendingPacket P :=
  { pending with
    lastSent := now
    retries := pending.retries + 1
    nextSend := now + backoffFor (pending.retries + 1) }

/-- The entries that `expire_pending_locked` leaves in the map. -/
def unexpired (now : Time) (client : ClientState P) : TreeMap (BitVec 16) (PendingPacket P) :=
  client.pending.filter fun _ pending => !expired now pending

/-- What `UdpTransport::update` posts for one client, in key order. -/
def resends (now : Time) (client : ClientState P) : List (Packet P) :=
  ((unexpired now client).toList.filter fun e => due now e.2).map fun e =>
    composePacket client e.2.seq e.2.payload

def updateClient (now : Time) (client : ClientState P) : ClientState P :=
  { client with
    pending := (unexpired now client).map fun _ pending =>
      if due now pending then retransmitted now pending else pending }

def UdpTransport.update (t : UdpTransport P) (now : Time) :
    UdpTransport P × List (Packet P × Endpoint) :=
  let sent := t.clients.toList.flatMap fun e => (resends now e.2).map fun p => (p, e.2.endpoint)
  let timeouts := (t.clients.toList.map fun e =>
    e.2.pending.size - (unexpired now e.2).size).sum
  ({ t with
      clients := t.clients.map fun _ client => updateClient now client
      counters := { t.counters with
        reliableTimeoutsTotal := t.counters.reliableTimeoutsTotal + timeouts
        reliableRetriesTotal := t.counters.reliableRetriesTotal + sent.length } }, sent)

/-! ### Receiving -/

def handleAck (client : ClientState P) (ack : BitVec 16) (ackBits : BitVec 32) : ClientState P :=
  { client with pending := client.pending.filter fun seq _ => !isSeqAcked seq ack ackBits }

def countDrop (counters : Counters) : Option DropReason → Counters
  | none => counters
  | some .dup => { counters with droppedDuplicatesTotal := counters.droppedDuplicatesTotal + 1 }
  | some .old => { counters with droppedOldTotal := counters.droppedOldTotal + 1 }

/-- `process_packet` on the client record. -/
def processClient (client : ClientState P) (header : UdpHeader) (now : Time) :
    ClientState P × Option DropReason :=
  let client := handleAck { client with lastHeard := now } header.ack header.ackBits
  match dropReason client.receiveState header.seq with
  | some reason => (client, some reason)
  | none =>
    ({ client with receiveState := updateReceiveState client.receiveState header.seq }, none)

/-- `process_packet`; the payload comes back when the handler is called with it. -/
def UdpTransport.processPacket (t : UdpTransport P) (endpoint : Endpoint) (header : UdpHeader)
    (payload : P) (now : Time) : UdpTransport P × Option P :=
  let r := processClient (ensureClientLocked t.clients endpoint) header now
  ({ t with
      clients := t.clients.insert (endpointKey endpoint) r.1
      counters := countDrop t.counters r.2 },
    if r.2 = none ∧ t.handler then some payload else none)

end

end Portfolio.Netcode
