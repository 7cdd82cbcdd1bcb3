import Portfolio.Netcode.UdpPong

/-!
# The load generator and the server

A bot of the load generator sends its inputs as bare messages: the type byte and the serialized
`mini::Input`. The server takes the first eight bytes of a datagram for the transport header and
looks for the type byte behind them. What it finds there is never the input that was sent
(`handleDatagram_botPayload`): a byte that reads as the type ends a field, so behind it stand later
fields only.
-/

namespace Portfolio.Netcode
open Std

/-! ### `apps::loadgen::Bot` -/

structure Bot where
  running : Bool
  clientSeq : BitVec 32 := 0
  measureRtt : Bool := true
  packetsSent : Nat := 0
  lastInputTime : Time := 0
  pendingAcks : TreeMap (BitVec 32) Time := ∅

/-- What `send_input` takes from the clock and the random generator. -/
structure Draw where
  timestampNs : BitVec 64
  dx : BitVec 32
  dy : BitVec 32
  fire : Bool
  now : Time

/-- The datagram of an input. -/
def botPayload (input : Input) : List Byte := 1 :: serializeInput input

/-- `send_input`: the input and the datagram that carries it. -/
def Bot.sendInput (bot : Bot) (draw : Draw) : Bot × List (Input × List Byte) :=
  if !bot.running then (bot, [])
  else
    let seq := bot.clientSeq
    let input : Input :=
      { clientSeq := seq, timestampNs := draw.timestampNs, dx := draw.dx, dy := draw.dy, fire := draw.fire }
    ({ bot with
        clientSeq := seq + 1
        packetsSent := bot.packetsSent + 1
        lastInputTime := draw.now
        pendingAcks := if bot.measureRtt then bot.pendingAcks.insert seq draw.now else bot.pendingAcks },
      [(input, botPayload input)])

def botMachine (bot : Bot) : Machine Bot Draw (Input × List Byte) where
  init := bot
  step := Bot.sendInput

section
variable {α : Type} [Scalar α] (parse : List Byte → Option Input)

/-- The server in state `start`, with datagrams from one endpoint and the times they arrive at. -/
def receiveMachine (start : UdpPong α) (endpoint : Endpoint) :
    Machine (UdpPong α) (List Byte × Time) Input where
  init := start
  step s e := s.receive parse endpoint e.1 e.2

end

/-! ### What stands behind the header -/

/-- The input without its first `n` fields. -/
def Input.clearFirst (input : Input) (n : Nat) : Input where
  clientSeq := if 0 < n then 0 else input.clientSeq
  timestampNs := if 1 < n then 0 else input.timestampNs
  dx := if 2 < n then 0 else input.dx
  dy := if 3 < n then 0 else input.dy
  fire := if 4 < n then false else input.fire

theorem inputFields_clearFirst (input : Input) (n : Nat) :
    inputFields (input.clearFirst n) =
      ((inputFields input).take n).map (fun f => (f.1, 0)) ++ (inputFields input).drop n := by
  match n with
  | 0 | 1 | 2 | 3 | 4 | n + 5 => simp [inputFields, Input.clearFirst]

theorem serializeInput_clearFirst (input : Input) (n : Nat) :
    serializeInput (input.clearFirst n) = encodeFields ((inputFields input).drop n) := by
  rw [serializeInput, inputFields_clearFirst]
  refine encodeFields_append_of_zero fun f hf => ?_
  obtain ⟨g, -, rfl⟩ := List.mem_map.1 hf
  rfl

/-- An input that does not change when the fields before `back` are cleared has no value in them. -/
theorem field_eq_zero_of_clearFirst {input : Input} {front back : List (Nat × BitVec 64)}
    {f : Nat × BitVec 64} (hfields : inputFields input = front ++ f :: back)
    (h : input.clearFirst (front.length + 1) = input) : f.2 = 0 := by
  have hsplit := inputFields_clearFirst input (front.length + 1)
  rw [h, hfields] at hsplit
  have hat := congrArg (fun fields => fields[front.length]?) hsplit
  simp only [List.getElem?_append_right (Nat.le_refl _), Nat.sub_self, List.getElem?_cons_zero] at hat
  rw [List.getElem?_append_left (by simp)] at hat
  simp only [List.getElem?_map, List.getElem?_take_of_lt (Nat.lt_succ_self _),
    List.getElem?_append_right (Nat.le_refl _), Nat.sub_self, List.getElem?_cons_zero,
    Option.map_some, Option.some.injEq] at hat
  rw [hat]

theorem handleDatagram_botPayload {parse : List Byte → Option Input}
    (hparse : ∀ input, parse (serializeInput input) = some input) (input : Input) :
    handleDatagram parse ((botPayload input).drop kHeaderSize) ≠ some input := by
  intro h
  have hdrop : (botPayload input).drop kHeaderSize = (serializeInput input).drop 7 := rfl
  rw [hdrop] at h
  match hcut : (serializeInput input).drop 7, h with
  | type :: b :: data, h =>
    simp only [handleDatagram] at h
    split at h
    · next htype =>
      have hbyte : (serializeInput input)[7]? = some type := by
        rw [← List.head?_drop, hcut, List.head?_cons]
      have hrest : (serializeInput input).drop 8 = b :: data := by
        rw [← List.tail_drop, hcut, List.tail_cons]
      rw [htype] at hbyte
      obtain ⟨front, f, back, hfields, hne, hback⟩ := encodeFields_drop hbyte (by decide) (by
        intro f hf
        simp only [inputFields, List.mem_cons, List.not_mem_nil, or_false] at hf
        rcases hf with rfl | rfl | rfl | rfl | rfl <;> simp [fieldTag, MessageType.toByte])
      -- so the server parses the input without the fields up to `f`
      have hlater : (inputFields input).drop (front.length + 1) = back := by
        rw [hfields]
        simp
      have hsuffix : b :: data = serializeInput (input.clearFirst (front.length + 1)) := by
        rw [serializeInput_clearFirst, hlater, ← hback]
        exact hrest.symm
      rw [hsuffix, hparse] at h
      exact hne (field_eq_zero_of_clearFirst hfields (Option.some.inj h))
    · cases h

/-! ### Runs -/

section
variable {α : Type} [Scalar α] {parse : List Byte → Option Input}

theorem handleReceive_payload {t t' : UdpTransport (List Byte)} {endpoint : Endpoint} {ec : Bool}
    {bytes payload : List Byte} {now : Time}
    (h : t.handleReceive endpoint ec bytes now = (t', some payload)) :
    payload = bytes.drop kHeaderSize := by
  unfold UdpTransport.handleReceive at h
  split at h
  · cases h
  · split at h
    · cases h
    · have hpayload := congrArg Prod.snd h
      simp only [UdpTransport.processPacket] at hpayload
      split at hpayload
      · exact (Option.some.inj hpayload).symm
      · cases hpayload

/-- A datagram leads to one call of `handle_input` at most, and to none with the input that a bot
put into it. -/
theorem receive_calls (hparse : ∀ input, parse (serializeInput input) = some input) (s : UdpPong α)
    (endpoint : Endpoint) (bytes : List Byte) (now : Time) :
    (s.receive parse endpoint bytes now).2.length ≤ 1 ∧
      ∀ input, bytes = botPayload input → (s.receive parse endpoint bytes now).2 ≠ [input] := by
  unfold UdpPong.receive
  dsimp only
  cases hcall : (s.transport.handleReceive endpoint false bytes now).2.bind (handleDatagram parse) with
  | none => exact ⟨by simp, fun input _ h => nomatch h⟩
  | some called =>
    refine ⟨Nat.le_refl 1, ?_⟩
    rintro input rfl h
    obtain ⟨payload, hpayload, hdatagram⟩ := Option.bind_eq_some_iff.1 hcall
    rw [List.singleton_inj.1 h, handleReceive_payload (Prod.ext rfl hpayload)] at hdatagram
    exact handleDatagram_botPayload hparse input hdatagram

theorem calls_length_le (hparse : ∀ input, parse (serializeInput input) = some input) (start : UdpPong α)
    (endpoint : Endpoint) (datagrams : List (List Byte × Time)) :
    ((receiveMachine parse start endpoint).run datagrams).2.length ≤ datagrams.length := by
  refine (receiveMachine parse start endpoint).run_inv
    (P := fun datagrams calls _ => calls.length ≤ datagrams.length) (Nat.le_refl 0) ?_ datagrams
  intro datagrams calls s datagram h
  rw [List.length_append, List.length_append]
  exact Nat.add_le_add h (receive_calls hparse s endpoint datagram.1 datagram.2).1

/-- Inputs that are sent the way a bot does reach `handle_input` only if there are none. -/
theorem calls_eq_iff (hparse : ∀ input, parse (serializeInput input) = some input) (start : UdpPong α)
    (endpoint : Endpoint) (sent : List (Input × Time)) :
    ((receiveMachine parse start endpoint).run (sent.map fun e => (botPayload e.1, e.2))).2 =
      sent.map (·.1) ↔ sent = [] := by
  constructor
  · intro h
    rcases List.eq_nil_or_concat sent with rfl | ⟨front, last, rfl⟩
    · rfl
    · rw [List.concat_eq_append, List.map_append, List.map_cons, List.map_nil, Machine.run_concat,
        List.map_append, List.map_cons, List.map_nil] at h
      have hfront := calls_length_le hparse start endpoint (front.map fun e => (botPayload e.1, e.2))
      have hlast := receive_calls hparse ((receiveMachine parse start endpoint).run
        (front.map fun e => (botPayload e.1, e.2))).1 endpoint (botPayload last.1) last.2
      -- one call for the last input, as the earlier ones had at most one each
      have hlen := congrArg List.length h
      simp only [List.length_append, List.length_map, List.length_singleton] at hlen hfront
      have hone : ((receiveMachine parse start endpoint).step ((receiveMachine parse start endpoint).run
        (front.map fun e => (botPayload e.1, e.2))).1 (botPayload last.1, last.2)).2.length ≤ 1 := hlast.1
      obtain ⟨-, hcall⟩ := List.append_inj' h (by rw [List.length_singleton]; omega)
      exact absurd hcall (hlast.2 last.1 rfl)
  · rintro rfl
    rfl

/-- What a bot has sent: one input for each call while it runs, each in a datagram of its own. -/
structure BotInv (start : Bot) (draws : List Draw) (sent : List (Input × List Byte)) (bot : Bot) : Prop where
  running : bot.running = start.running
  payload : ∀ e ∈ sent, e.2 = botPayload e.1
  length : sent.length = if start.running then draws.length else 0

theorem botInv_run (bot : Bot) (draws : List Draw) :
    BotInv bot draws ((botMachine bot).run draws).2 ((botMachine bot).run draws).1 := by
  refine (botMachine bot).run_inv (P := BotInv bot) ⟨rfl, by simp, by simp⟩ ?_ draws
  intro draws sent b draw h
  show BotInv bot _ (sent ++ (b.sendInput draw).2) (b.sendInput draw).1
  have hlength := h.length
  unfold Bot.sendInput
  split
  · next hstopped =>
    have hoff : bot.running = false := by simpa [← h.running] using hstopped
    rw [hoff] at hlength
    refine ⟨h.running, by simpa using h.payload, ?_⟩
    rw [List.append_nil, hlength, hoff]
    rfl
  · next hrunning =>
    have hon : bot.running = true := by simpa [← h.running] using hrunning
    rw [hon, if_pos rfl] at hlength
    refine ⟨h.running, ?_, ?_⟩
    · intro e he
      rcases List.mem_append.1 he with he | he
      · exact h.payload e he
      · rw [List.mem_singleton.1 he]
    · rw [hon, if_pos rfl, List.length_append, List.length_append, hlength]
      rfl

/-- The inputs of a bot, delivered in order and without loss, are the ones with which the server
calls `handle_input` exactly if the bot sends nothing; `times` are the times of arrival. -/
theorem load_generator_agrees_iff (hparse : ∀ input, parse (serializeInput input) = some input)
    (bot : Bot) (draws : List Draw) (start : UdpPong α) (endpoint : Endpoint) (times : Nat → Time) :
    ((receiveMachine parse start endpoint).run
        (((botMachine bot).run draws).2.zipIdx.map fun e => (e.1.2, times e.2))).2 =
      ((botMachine bot).run draws).2.map (·.1) ↔ bot.running = false ∨ draws = [] := by
  obtain ⟨-, hpayload, hlength⟩ := botInv_run bot draws
  generalize ((botMachine bot).run draws).2 = sent at hpayload hlength ⊢
  have hdatagrams : sent.zipIdx.map (fun e => (e.1.2, times e.2)) =
      (sent.zipIdx.map fun e => (e.1.1, times e.2)).map fun e => (botPayload e.1, e.2) := by
    rw [List.map_map]
    refine List.map_congr_left fun e he => ?_
    have hmem : e.1 ∈ sent := List.fst_mem_of_mem_zipIdx he
    exact Prod.ext (hpayload e.1 hmem) rfl
  have hinputs : sent.map (·.1) = (sent.zipIdx.map fun e => (e.1.1, times e.2)).map (·.1) := by
    rw [List.map_map]
    conv_lhs => rw [← List.zipIdx_map_fst 0 sent, List.map_map]
    rfl
  rw [hdatagrams, hinputs, calls_eq_iff hparse, List.map_eq_nil_iff, List.zipIdx_eq_nil_iff,
    ← List.length_eq_zero_iff, hlength]
  cases bot.running <;> simp

end

/-- A bot at its sixth input, 0x10000000 ns after the start of the clock. -/
def sixthInput : List (Input × List Byte) :=
  ((botMachine { running := true, clientSeq := 5 }).run [⟨0x10000000, 1, 0, false, 0x10000000⟩]).2

/-- A timestamp that ends in the type byte: `handle_input` is called with the later fields alone. -/
theorem load_generator_disagrees_sixth :
    (∀ input, parseInput (serializeInput input) = some input) ∧
    sixthInput.map (·.1) = [⟨5, 0x10000000, 1, 0, false⟩] ∧
    ((receiveMachine parseInput ({ server := { roomManager := false } } : UdpPong ℚ)
      ⟨some "127.0.0.1", 5000⟩).run (sixthInput.zipIdx.map fun e => (e.1.2, e.2))).2 = [⟨0, 0, 1, 0, false⟩] ∧
    ¬ ((receiveMachine parseInput ({ server := { roomManager := false } } : UdpPong ℚ)
      ⟨some "127.0.0.1", 5000⟩).run (sixthInput.zipIdx.map fun e => (e.1.2, e.2))).2 =
        sixthInput.map (·.1) := by
  refine ⟨parseInput_serializeInput, by decide +kernel, by decide +kernel, fun h => ?_⟩
  rcases (load_generator_agrees_iff parseInput_serializeInput _ _ _ _ fun n => n).1 h with h | h
  · cases h
  · cases h

/-- The first input of a bot is lost: behind the eight bytes stands the tag of `dx`. -/
theorem first_input_is_ignored :
    ((botMachine { running := true }).run [⟨1000000000000, 1, -1, true, 1000000000000⟩]).2.map (·.1) =
      [⟨0, 1000000000000, 1, -1, true⟩] ∧
    ((receiveMachine parseInput ({ server := { roomManager := false } } : UdpPong ℚ)
        ⟨some "127.0.0.1", 5000⟩).run
        (((botMachine { running := true }).run [⟨1000000000000, 1, -1, true, 1000000000000⟩]).2.zipIdx.map
          fun e => (e.1.2, e.2))).2 = [] := by
  decide +kernel

end Portfolio.Netcode
