import Portfolio.Lib.ByteCodec
import Portfolio.Netcode.UdpPong

/-!
# The acknowledgement header on the wire

`compose_packet` and `handle_receive` on bytes: an eight-byte header, each field highest byte first,
and the payload. What the sender of a packet makes of the header it gets back, `is_seq_acked`, and what
the receiver who wrote it knows, `has_received`, are two readings of one state.
-/

namespace Portfolio.Netcode

/-- The size of `recv_buffer_`. -/
def kRecvBufferSize : Nat := 2048

/-! ### Bytes -/

/-- The memory of a header. -/
def UdpHeader.bytes (order : ByteOrder) (header : UdpHeader) : List Byte :=
  objectBytes order 2 header.seq ++ objectBytes order 2 header.ack ++ objectBytes order 4 header.ackBits

/-- The header in these bytes of memory. -/
def UdpHeader.ofBytes (order : ByteOrder) (bytes : List Byte) : UdpHeader where
  seq := ofObjectBytes order 2 (bytes.take 2)
  ack := ofObjectBytes order 2 ((bytes.drop 2).take 2)
  ackBits := ofObjectBytes order 4 ((bytes.drop 4).take 4)

/-- `compose_packet` on a host of this byte order. -/
def composeBuffer (order : ByteOrder) (client : ClientState (List Byte)) (seq : BitVec 16)
    (payload : List Byte) : List Byte :=
  let header : UdpHeader := { seq := nativeToBig order 2 seq }
  let header := if client.receiveState.hasLastSeq then
      { header with
        ack := nativeToBig order 2 client.receiveState.lastSeq
        ackBits := nativeToBig order 4 client.receiveState.ackBits }
    else { header with ack := 0, ackBits := 0 }
  header.bytes order ++ payload

structure RecvBuffer where
  bytes : List Byte
  size : bytes.length = kRecvBufferSize

theorem RecvBuffer.size_overwrite (buffer : RecvBuffer) (datagram : List Byte) :
    (datagram.take kRecvBufferSize ++ buffer.bytes.drop (min datagram.length kRecvBufferSize)).length =
      kRecvBufferSize := by
  rw [List.length_append, List.length_take, List.length_drop, buffer.size]
  omega

/-- `async_receive_from`: the buffer with the datagram at its beginning, and `bytes_transferred`. What
does not fit is lost. -/
def RecvBuffer.receive (buffer : RecvBuffer) (datagram : List Byte) : RecvBuffer × Nat :=
  (⟨datagram.take kRecvBufferSize ++ buffer.bytes.drop (min datagram.length kRecvBufferSize),
    buffer.size_overwrite datagram⟩, min datagram.length kRecvBufferSize)

/-- What `handle_receive` hands to `process_packet`; `ec` says that there was an error. -/
def receivedPacket (order : ByteOrder) (ec : Bool) (recvBuffer : RecvBuffer) (bytesTransferred : Nat) :
    Option (Packet (List Byte)) :=
  if ec then none
  else if bytesTransferred < kHeaderSize then none
  else
    let header := UdpHeader.ofBytes order (recvBuffer.bytes.take kHeaderSize)
    let header : UdpHeader :=
      { seq := bigToNative order 2 header.seq
        ack := bigToNative order 2 header.ack
        ackBits := bigToNative order 4 header.ackBits }
    some ⟨header, (recvBuffer.bytes.take bytesTransferred).drop kHeaderSize⟩

/-- `handle_receive`; the next `do_receive` is left out. -/
def UdpTransport.handleReceiveBuffer (t : UdpTransport (List Byte)) (order : ByteOrder)
    (endpoint : Endpoint) (ec : Bool) (recvBuffer : RecvBuffer) (bytesTransferred : Nat) (now : Time) :
    UdpTransport (List Byte) × Option (List Byte) :=
  match receivedPacket order ec recvBuffer bytesTransferred with
  | none => (t, none)
  | some packet => t.processPacket endpoint packet.header packet.payload now

/-! ### The byte order of the host plays no part -/

/-- A header as it goes over the network. -/
def UdpHeader.wire (header : UdpHeader) : List Byte :=
  beBytes 2 header.seq ++ beBytes 2 header.ack ++ beBytes 4 header.ackBits

def Packet.wire (packet : Packet (List Byte)) : List Byte := packet.header.wire ++ packet.payload

@[simp] theorem UdpHeader.length_wire (header : UdpHeader) : header.wire.length = kHeaderSize := by
  simp [wire, kHeaderSize]

theorem objectBytes_zero (order : ByteOrder) (n : Nat) (h : n = 2 ∨ n = 4) :
    objectBytes order n 0 = beBytes n (0 : BitVec (8 * n)) := by
  rcases h with rfl | rfl <;> cases order <;> decide

/-- The bytes of `compose_packet` are those of the packet, whatever the byte order of the host. -/
theorem composeBuffer_eq (order : ByteOrder) (client : ClientState (List Byte)) (seq : BitVec 16)
    (payload : List Byte) :
    composeBuffer order client seq payload = (composePacket client seq payload).wire := by
  unfold composeBuffer composePacket Packet.wire UdpHeader.wire UdpHeader.bytes
  have hseq := objectBytes_nativeToBig order 2 seq
  split
  · have hack := objectBytes_nativeToBig order 2 client.receiveState.lastSeq
    have hbits := objectBytes_nativeToBig order 4 client.receiveState.ackBits
    dsimp only
    rw [hseq, hack, hbits]
  · have hack := objectBytes_zero order 2 (.inl rfl)
    have hbits := objectBytes_zero order 4 (.inr rfl)
    dsimp only
    rw [hseq]
    exact congrArg₂ (fun a b => beBytes 2 seq ++ a ++ b ++ payload) hack hbits

theorem bigToNative_ofBytes (order : ByteOrder) {bytes : List Byte} (h : kHeaderSize ≤ bytes.length) :
    bigToNative order 2 (UdpHeader.ofBytes order bytes).seq = (readHeader bytes).seq ∧
      bigToNative order 2 (UdpHeader.ofBytes order bytes).ack = (readHeader bytes).ack ∧
      bigToNative order 4 (UdpHeader.ofBytes order bytes).ackBits = (readHeader bytes).ackBits := by
  unfold kHeaderSize at h
  refine ⟨bigToNative_ofObjectBytes order ?_, bigToNative_ofObjectBytes order ?_,
    bigToNative_ofObjectBytes order ?_⟩ <;> simp <;> omega

theorem readHeader_take (bytes : List Byte) : readHeader (bytes.take kHeaderSize) = readHeader bytes := by
  unfold readHeader kHeaderSize
  simp [List.take_take, List.drop_take]

theorem receivedPacket_eq (order : ByteOrder) (recvBuffer : RecvBuffer) {bytesTransferred : Nat}
    (h : kHeaderSize ≤ bytesTransferred) (hsize : bytesTransferred ≤ kRecvBufferSize) :
    receivedPacket order false recvBuffer bytesTransferred =
      some ⟨readHeader (recvBuffer.bytes.take bytesTransferred),
        (recvBuffer.bytes.take bytesTransferred).drop kHeaderSize⟩ := by
  have hlength : kHeaderSize ≤ (recvBuffer.bytes.take kHeaderSize).length := by
    rw [List.length_take, recvBuffer.size, Nat.min_eq_left (h.trans hsize)]
  obtain ⟨hseq, hack, hbits⟩ := bigToNative_ofBytes order hlength
  have hheader : readHeader (recvBuffer.bytes.take kHeaderSize) =
      readHeader (recvBuffer.bytes.take bytesTransferred) := by
    rw [← readHeader_take (recvBuffer.bytes.take bytesTransferred), List.take_take, Nat.min_eq_left h]
  unfold receivedPacket
  rw [if_neg Bool.false_ne_true, if_neg (by omega)]
  dsimp only
  rw [hseq, hack, hbits, hheader]

/-- The model on the transferred bytes is what the receive buffer and the memory of the header come to. -/
theorem handleReceiveBuffer_eq (t : UdpTransport (List Byte)) (order : ByteOrder) (endpoint : Endpoint)
    (ec : Bool) (recvBuffer : RecvBuffer) {bytesTransferred : Nat}
    (hsize : bytesTransferred ≤ kRecvBufferSize) (now : Time) :
    t.handleReceiveBuffer order endpoint ec recvBuffer bytesTransferred now =
      t.handleReceive endpoint ec (recvBuffer.bytes.take bytesTransferred) now := by
  have hlength : (recvBuffer.bytes.take bytesTransferred).length = bytesTransferred := by
    rw [List.length_take, recvBuffer.size, Nat.min_eq_left hsize]
  unfold UdpTransport.handleReceiveBuffer UdpTransport.handleReceive
  rw [hlength]
  cases ec with
  | true => rfl
  | false =>
    by_cases hshort : bytesTransferred < kHeaderSize
    · unfold receivedPacket
      simp only [hshort, if_true, Bool.false_eq_true, if_false]
    · rw [receivedPacket_eq order recvBuffer (by omega) hsize]
      simp only [hshort, if_false, Bool.false_eq_true]

theorem readHeader_wire (header : UdpHeader) (rest : List Byte) :
    readHeader (header.wire ++ rest) = header := by
  have hseq : (header.wire ++ rest).take 2 = beBytes 2 header.seq := by
    rw [UdpHeader.wire, List.append_assoc, List.append_assoc, List.take_left' (by simp)]
  have hack : ((header.wire ++ rest).drop 2).take 2 = beBytes 2 header.ack := by
    rw [UdpHeader.wire, List.append_assoc, List.append_assoc, List.drop_left' (by simp),
      List.take_left' (by simp)]
  have hbits : ((header.wire ++ rest).drop 4).take 4 = beBytes 4 header.ackBits := by
    rw [UdpHeader.wire, List.append_assoc, List.drop_left' (by simp), List.take_left' (by simp)]
  have hseq' : ofLeBytes 16 (beBytes 2 header.seq).reverse = header.seq :=
    ofLeBytes_reverse_beBytes 2 header.seq
  have hack' : ofLeBytes 16 (beBytes 2 header.ack).reverse = header.ack :=
    ofLeBytes_reverse_beBytes 2 header.ack
  have hbits' : ofLeBytes 32 (beBytes 4 header.ackBits).reverse = header.ackBits :=
    ofLeBytes_reverse_beBytes 4 header.ackBits
  unfold readHeader ofBeBytes
  rw [hseq, hack, hbits, hseq', hack', hbits']

/-- A packet that fits into the receive buffer comes out of it as it was. -/
theorem receivedPacket_receive (order : ByteOrder) (buffer : RecvBuffer) (packet : Packet (List Byte))
    (hfits : kHeaderSize + packet.payload.length ≤ kRecvBufferSize) :
    receivedPacket order false (buffer.receive packet.wire).1 (buffer.receive packet.wire).2 =
      some packet := by
  have hlength : packet.wire.length = kHeaderSize + packet.payload.length := by
    simp [Packet.wire]
  have hcount : (buffer.receive packet.wire).2 = packet.wire.length :=
    Nat.min_eq_left (hlength ▸ hfits)
  have hbytes : (buffer.receive packet.wire).1.bytes =
      packet.wire ++ buffer.bytes.drop packet.wire.length := by
    show packet.wire.take kRecvBufferSize ++
      buffer.bytes.drop (min packet.wire.length kRecvBufferSize) = _
    rw [List.take_of_length_le (hlength ▸ hfits), Nat.min_eq_left (hlength ▸ hfits)]
  have hpayload : packet.wire.drop kHeaderSize = packet.payload := by
    rw [Packet.wire, List.drop_left' packet.header.length_wire]
  rw [receivedPacket_eq order _ (by omega) (by omega), hcount, hbytes, List.take_left, hpayload,
    Packet.wire, readHeader_wire]

/-! ### The two readings of a receive state -/

/-- `is_seq_acked` on what `compose_packet` sends of a state is `has_received` on the state, also at
the distance `2 ^ 15`, which is behind for both. -/
theorem isSeqAcked_eq_hasReceived {state : ReceiveState} (h : state.hasLastSeq) (s : BitVec 16) :
    isSeqAcked s state.lastSeq state.ackBits = hasReceived state s := by
  unfold isSeqAcked hasReceived isSeqNewer
  rw [h, Bool.not_true, if_neg Bool.false_ne_true]
  by_cases hs : s = state.lastSeq
  · rw [if_pos hs, if_pos hs]
  · rw [if_neg hs, if_neg hs]
    -- The distance behind the newest number is unsigned for the receiver and signed for the sender.
    have hne : (state.lastSeq - s).toNat ≠ 0 := by
      intro h0
      apply hs
      bv_omega
    have hnewer : 0 < (s - state.lastSeq).toInt ↔ 2 ^ 15 < (state.lastSeq - s).toNat := by
      rw [SeqNum.toInt_pos]
      bv_omega
    rcases Nat.lt_or_ge 32 (state.lastSeq - s).toNat with hfar | hnear
    · have hacked : (state.lastSeq - s).toInt ≤ 0 ∨ 32 < (state.lastSeq - s).toInt := by
        have hpos := SeqNum.toInt_pos (x := state.lastSeq - s)
        by_cases hsigned : 2 * (state.lastSeq - s).toNat < 2 ^ 16
        · rw [BitVec.toInt_eq_toNat_of_lt hsigned]
          omega
        · omega
      simp only [hne, hfar, if_true, if_false, ite_self]
      split
      · rfl
      · rw [if_pos (hacked.resolve_left ‹_›)]
    · have hdist : (state.lastSeq - s).toInt = (state.lastSeq - s).toNat :=
        BitVec.toInt_eq_toNat_of_lt (by omega)
      have hold : ¬ 0 < (s - state.lastSeq).toInt := by omega
      simp only [hdist, hold, decide_false, Bool.false_eq_true, if_false, hne, Int.toNat_natCast]
      rw [if_neg (by omega), if_neg (by omega), if_neg (by omega)]

/-! ### The round trip -/

theorem ack_header_round_trip (sender receiver : ByteOrder) (client : ClientState (List Byte))
    (hstate : client.receiveState.hasLastSeq) (seq : BitVec 16) {payload : List Byte}
    (hpayload : payload.length ≤ 2040) (recvBuffer : RecvBuffer) (t : UdpTransport (List Byte))
    (endpoint : Endpoint) (now : Time) :
    let received := recvBuffer.receive (composeBuffer sender client seq payload)
    let header : UdpHeader := ⟨seq, client.receiveState.lastSeq, client.receiveState.ackBits⟩
    receivedPacket receiver false received.1 received.2 = some ⟨header, payload⟩ ∧
      t.handleReceiveBuffer receiver endpoint false received.1 received.2 now =
        t.processPacket endpoint header payload now ∧
      ∀ s, isSeqAcked s client.receiveState.lastSeq client.receiveState.ackBits =
        hasReceived client.receiveState s := by
  intro received header
  have hpacket : composePacket client seq payload = ⟨header, payload⟩ := if_pos hstate
  have hreceived : receivedPacket receiver false received.1 received.2 = some ⟨header, payload⟩ := by
    have hfits : kHeaderSize + payload.length ≤ kRecvBufferSize := by
      unfold kHeaderSize kRecvBufferSize
      omega
    have h := receivedPacket_receive receiver recvBuffer ⟨header, payload⟩ hfits
    rw [← hpacket, ← composeBuffer_eq sender, hpacket] at h
    exact h
  refine ⟨hreceived, ?_, isSeqAcked_eq_hasReceived hstate⟩
  unfold UdpTransport.handleReceiveBuffer
  rw [hreceived]

/-- Numbers 3, 2 and 65535 have been received. -/
def wrappedClient : ClientState (List Byte) where
  endpoint := ⟨some "127.0.0.1", 9000⟩
  receiveState := ⟨true, 3, 9⟩

theorem ack_header_round_trip_wrapped :
    let received := (⟨List.replicate 2048 0, List.length_replicate⟩ : RecvBuffer).receive
      (composeBuffer .little wrappedClient 7 [1, 2, 3])
    receivedPacket .big false received.1 received.2 = some ⟨⟨7, 3, 9⟩, [1, 2, 3]⟩ ∧
      isSeqAcked 65535 3 9 = true ∧ hasReceived wrappedClient.receiveState 65535 = true := by
  have hpayload : ([1, 2, 3] : List Byte).length ≤ 2040 := by decide
  obtain ⟨hreceived, -, hacked⟩ := ack_header_round_trip .little .big wrappedClient rfl 7 hpayload
    ⟨List.replicate 2048 0, List.length_replicate⟩ {} ⟨some "127.0.0.1", 9000⟩ 0
  have h : isSeqAcked 65535 3 9 = true := by decide
  exact ⟨hreceived, h, (hacked 65535).symm.trans h⟩

end Portfolio.Netcode
