import Portfolio.Lib.VarintFields
import Portfolio.Netcode.PongServer

/-!
# The Pong server on its transport

The messages of `mini.proto` as bytes, the way of a datagram through `handle_receive` and
`handle_datagram` to `handle_input`, and the way of the server's outputs back into
`UdpTransport::send`.
-/

namespace Portfolio.Netcode
open Std

/-! ### Messages -/

/-- `mini::Input` -/
structure Input where
  clientSeq : BitVec 32 := 0
  timestampNs : BitVec 64 := 0
  dx : BitVec 32 := 0
  dy : BitVec 32 := 0
  fire : Bool := false
  deriving DecidableEq, Repr

/-- The fields of `mini.proto`; an `int32` goes out sign-extended. -/
def inputFields (input : Input) : List (Nat × BitVec 64) :=
  [(1, input.clientSeq.setWidth 64), (2, input.timestampNs), (3, input.dx.signExtend 64),
    (4, input.dy.signExtend 64), (5, if input.fire then 1 else 0)]

/-- `SerializeToArray` of an `Input` -/
def serializeInput (input : Input) : List Byte := encodeFields (inputFields input)

/-- `SerializeAsString` of a `ServerAck` -/
def serializeAck (lastClientSeq : Nat) (serverTick : BitVec 32) : List Byte :=
  encodeFields [(1, .ofNat 64 lastClientSeq), (2, serverTick.setWidth 64)]

/-- A `bytes` field; the empty string is not written. -/
def encodeBytesField (number : Nat) (bytes : List Byte) : List Byte :=
  if bytes = [] then [] else .ofNat 8 (8 * number + 2) :: varint (.ofNat 64 bytes.length) ++ bytes

/-- `to_proto_role` -/
def toProtoRole : PlayerSide → BitVec 64
  | .left => 1
  | .right => 2
  | .spectator => 0

/-- `SerializeAsString` of the `Snapshot` that a client gets; `tick` and `base_tick` are `uint32`. -/
def serializeSnapshot (encoded : EncodedSnapshot) (side : PlayerSide) : List Byte :=
  encodeFields [(1, (BitVec.ofNat 32 encoded.tick).setWidth 64), (2, if encoded.isKeyframe then 1 else 0),
      (3, (BitVec.ofNat 32 encoded.baseTick).setWidth 64)] ++
    encodeBytesField 4 encoded.payload ++ encodeFields [(5, toProtoRole side)]

inductive MessageType where
  | input
  | snapshot
  | serverAck
  deriving DecidableEq, Repr

def MessageType.toByte : MessageType → Byte
  | .input => 1
  | .snapshot => 2
  | .serverAck => 3

/-! ### Parsing an `Input` -/

def Input.setField (input : Input) (f : Nat × BitVec 64) : Input :=
  match f.1 with
  | 1 => { input with clientSeq := f.2.setWidth 32 }
  | 2 => { input with timestampNs := f.2 }
  | 3 => { input with dx := f.2.setWidth 32 }
  | 4 => { input with dy := f.2.setWidth 32 }
  | 5 => { input with fire := f.2 ≠ 0 }
  | _ => input

/-- `Input::ParseFromArray` where every field on the wire is a varint; other wire types fail. -/
def parseInput (bytes : List Byte) : Option Input :=
  (decodeFields bytes.length bytes).map fun fields => fields.foldl Input.setField {}

theorem setWidth_signExtend (x : BitVec 32) : (x.signExtend 64).setWidth 32 = x := by
  apply BitVec.eq_of_getLsbD_eq
  intro i hi
  simp [BitVec.getLsbD_signExtend, hi]
  omega

theorem setField_comm (input : Input) {f g : Nat × BitVec 64} (h : f.1 ≠ g.1) :
    (input.setField f).setField g = (input.setField g).setField f := by
  obtain ⟨m, v⟩ := f
  obtain ⟨n, w⟩ := g
  match m, n, h with
  | 1, 1, h | 2, 2, h | 3, 3, h | 4, 4, h | 5, 5, h => exact absurd rfl h
  | 0, _, _ | m + 6, _, _ | _, 0, _ | _, n + 6, _ => rfl
  | 1, 2, _ | 1, 3, _ | 1, 4, _ | 1, 5, _ | 2, 1, _ | 2, 3, _ | 2, 4, _ | 2, 5, _ => rfl
  | 3, 1, _ | 3, 2, _ | 3, 4, _ | 3, 5, _ | 4, 1, _ | 4, 2, _ | 4, 3, _ | 4, 5, _ => rfl
  | 5, 1, _ | 5, 2, _ | 5, 3, _ | 5, 4, _ => rfl

/-- Fields that are not on the wire keep their default values. -/
theorem foldl_setField_filter (fields : List (Nat × BitVec 64)) (input : Input)
    (hnum : fields.Pairwise (·.1 ≠ ·.1)) (hdefault : ∀ f ∈ fields, input.setField (f.1, 0) = input) :
    (fields.filter fun f => f.2 ≠ 0).foldl Input.setField input = fields.foldl Input.setField input := by
  induction fields generalizing input with
  | nil => rfl
  | cons f fields ih =>
    obtain ⟨hf, hnum⟩ := List.pairwise_cons.1 hnum
    by_cases hzero : f.2 = 0
    · have hskip : input.setField f = input := by
        have hf0 : f = (f.1, 0) := Prod.ext rfl hzero
        rw [hf0]
        exact hdefault f List.mem_cons_self
      rw [List.filter_cons_of_neg (by simp [hzero]), List.foldl_cons, hskip]
      exact ih input hnum fun g hg => hdefault g (List.mem_cons_of_mem _ hg)
    · rw [List.filter_cons_of_pos (by simpa using hzero), List.foldl_cons, List.foldl_cons]
      refine ih (input.setField f) hnum fun g hg => ?_
      have hcomm := setField_comm input (f := f) (g := (g.1, 0)) (hf g hg)
      rw [hcomm, hdefault g (List.mem_cons_of_mem _ hg)]

theorem parseInput_serializeInput (input : Input) : parseInput (serializeInput input) = some input := by
  have hnum : ∀ f ∈ inputFields input, 0 < f.1 ∧ f.1 < 16 := by simp [inputFields]
  have hpair : (inputFields input).Pairwise (·.1 ≠ ·.1) := by simp [inputFields]
  have hdefault : ∀ f ∈ inputFields input, ({} : Input).setField (f.1, 0) = {} := by
    simp [inputFields, Input.setField]
  rw [parseInput, serializeInput, decodeFields_encodeFields _ _ hnum (Nat.le_refl _), Option.map_some,
    foldl_setField_filter _ _ hpair hdefault]
  obtain ⟨clientSeq, timestampNs, dx, dy, fire⟩ := input
  simp only [inputFields, List.foldl_cons, List.foldl_nil, Input.setField, setWidth_signExtend,
    Option.some.injEq, Input.mk.injEq, true_and]
  refine ⟨?_, ?_⟩
  · rw [BitVec.setWidth_setWidth_of_le _ (by decide), BitVec.setWidth_eq]
  · cases fire <;> rfl

/-! ### Receiving -/

def kHeaderSize : Nat := 8

/-- A word from its bytes, highest first. -/
def ofBeBytes (w : Nat) (bytes : List Byte) : BitVec w := ofLeBytes w bytes.reverse

def readHeader (bytes : List Byte) : UdpHeader where
  seq := ofBeBytes 16 (bytes.take 2)
  ack := ofBeBytes 16 ((bytes.drop 2).take 2)
  ackBits := ofBeBytes 32 ((bytes.drop 4).take 4)

/-- `handle_receive` on the transferred bytes; the payload comes back when the handler is called. -/
def UdpTransport.handleReceive (t : UdpTransport (List Byte)) (endpoint : Endpoint) (ec : Bool)
    (bytes : List Byte) (now : Time) : UdpTransport (List Byte) × Option (List Byte) :=
  if ec then (t, none)
  else if bytes.length < kHeaderSize then (t, none)
  else t.processPacket endpoint (readHeader bytes) (bytes.drop kHeaderSize) now

/-- `handle_datagram` up to the call of `handle_input`; `parse` is `Input::ParseFromArray`. -/
def handleDatagram (parse : List Byte → Option Input) : List Byte → Option Input
  | [] => none
  | [_] => none
  | type :: data => if type = MessageType.input.toByte then parse data else none

/-! ### The server with its transport -/

structure UdpPong (α : Type) [Scalar α] where
  transport : UdpTransport (List Byte) := { handler := true }
  server : PongUdpServer α

section
variable {α : Type} [Scalar α] (fc : FloatCodec α) (parse : List Byte → Option Input)

/-- What an output of the server does to the transport; checkpoints go to Redis. -/
def sendOutput (now : Time) (t : UdpTransport (List Byte)) : ServerOutput α → UdpTransport (List Byte)
  | .ack endpoint lastClientSeq serverTick =>
    (t.send endpoint (MessageType.serverAck.toByte :: serializeAck lastClientSeq serverTick) true now).1
  | .snapshot encoded _ clients =>
    clients.foldl (fun t client => (t.send client.endpoint
      (MessageType.snapshot.toByte :: serializeSnapshot encoded client.side) false now).1) t
  | .checkpoint _ => t

namespace UdpPong

/-- A datagram from `endpoint`, and the input with which it makes the server call `handle_input`. -/
def receive (s : UdpPong α) (endpoint : Endpoint) (bytes : List Byte) (now : Time) :
    UdpPong α × List Input :=
  let r := s.transport.handleReceive endpoint false bytes now
  match r.2.bind (handleDatagram parse) with
  | none => ({ s with transport := r.1 }, [])
  | some input =>
    let h := s.server.handleInput endpoint input.clientSeq.toNat input.dy.toInt
    ({ transport := h.2.foldl (sendOutput now) r.1, server := h.1 }, [input])

/-- The tick handler of `start`, without the metrics. -/
def tick (s : UdpPong α) (dt : α) (now : Time) : UdpPong α :=
  let h := s.server.tick fc dt
  { transport := ((h.2.foldl (sendOutput now) s.transport).update now).1, server := h.1 }

end UdpPong

end

end Portfolio.Netcode
