import Portfolio.WsPong.Directions

/-!
# The metrics client

`capture_metrics` of `lab1.4-ws-pong/metrics_client.cpp` against the server. The client has one input under
way at a time: it sends the next when the acknowledgement of the last has come. `MetricsRun` has its
session, number 0, the input side of the server, and the messages under way in both directions, which keep
their order as long as the connection lasts. The other sessions have positive numbers.

The sessions share a thread, and `InputLoop` has its steps and those of the game loop. A session sends at
once what it answers itself; what others hand to it is `posted` until the thread of the sessions is free.

The client tells apart a `welcome` with its role, a `state`, an `input-ack` and the `metrics`; other messages
change nothing. Times are in nanoseconds.
-/

namespace Portfolio.WsPong
open Netcode (PlayerSide)

inductive ClientMessage where
  | hello
  | input (direction : Int32) (seq : UInt64)
  | metricsRequest
  deriving DecidableEq

inductive ServerMessage where
  | welcome (role : PlayerSide)
  | state
  | inputAck (ack : InputAck) (latency : Int)
  | metrics
  | other
  deriving DecidableEq

/-- What the client reads: samples in the first loop, the answer to its request in the second. -/
inductive ClientPhase where
  | sampling
  | asked
  | finished
  deriving DecidableEq

structure MetricsClient where
  role : PlayerSide := .spectator
  helloSent : Bool := false
  awaitingAck : Bool := false
  commandIndex : Nat := 0
  inputSeq : Nat := 0
  lastStateTime : Option Int := none
  tickIntervals : List Int := []
  inputLatencies : List Int := []
  phase : ClientPhase := .sampling

def commandCycle : List Int32 := [-1, 0, 1, 0]

/-- The direction of the command number `index`. -/
def command (index : Nat) : Int32 := (commandCycle[index % commandCycle.length]?).getD 0

namespace MetricsClient
variable (tickSamples latencySamples : Nat)

def sendNextCommand (s : MetricsClient) : MetricsClient × List ClientMessage :=
  if !s.helloSent then (s, [])
  else if s.awaitingAck ∨ latencySamples ≤ s.inputLatencies.length ∨ s.role = .spectator then (s, [])
  else
    ({ s with commandIndex := s.commandIndex + 1, inputSeq := s.inputSeq + 1, awaitingAck := true },
      [.input (command s.commandIndex) (UInt64.ofNat (s.inputSeq + 1))])

/-- The chain of `if` over the type of a message. -/
def record (now : Int) (s : MetricsClient) : ServerMessage → MetricsClient
  | .welcome role => { s with role := role, helloSent := true }
  | .state =>
    { s with
      tickIntervals := match s.lastStateTime with
        | none => s.tickIntervals
        | some last =>
          if s.tickIntervals.length < tickSamples then s.tickIntervals ++ [now - last] else s.tickIntervals
      lastStateTime := some now }
  | .inputAck _ latency =>
    { s with
      awaitingAck := false
      inputLatencies :=
        if s.inputLatencies.length < latencySamples then s.inputLatencies ++ [latency] else s.inputLatencies }
  | .metrics | .other => s

/-- The condition of the first loop; after it the client asks for the metrics of the server. -/
def proceed (s : MetricsClient) : MetricsClient × List ClientMessage :=
  if s.tickIntervals.length < tickSamples ∨ s.inputLatencies.length < latencySamples then (s, [])
  else ({ s with phase := .asked }, [.metricsRequest])

def onMessage (now : Int) (s : MetricsClient) (message : ServerMessage) : MetricsClient × List ClientMessage :=
  match s.phase with
  | .sampling =>
    let s := s.record tickSamples latencySamples now message
    let sent := if s.role ≠ .spectator then s.sendNextCommand latencySamples else (s, [])
    let next := sent.1.proceed tickSamples latencySamples
    (next.1, sent.2 ++ next.2)
  | .asked => (if message = .metrics then { s with phase := .finished } else s, [])
  | .finished => (s, [])

/-- The client has sent its hello. -/
def start : MetricsClient × List ClientMessage :=
  let next := proceed tickSamples latencySamples {}
  (next.1, .hello :: next.2)

end MetricsClient

/-! ### Client and server -/

/-- What `boost::json` makes of the text of an unsigned number. -/
def jsonOfUInt64 {δ : Type} (n : UInt64) : JsonValue δ :=
  if n.toNat < 2 ^ 63 then .int64 n.toInt64 else .uint64 n

structure MetricsRun where
  client : MetricsClient
  loop : InputLoop := {}
  /-- The session of the client is in `sessions_`, with this role. -/
  registered : Bool := false
  side : PlayerSide := .spectator
  toServer : List ClientMessage
  posted : List ServerMessage := []
  toClient : List ServerMessage := []

/-- `serve`, `dispatch` and `deliver` take the first message that is there. `role` is the role that a `hello`
gets. -/
inductive MetricsEvent (δ : Type) where
  | serve (role : PlayerSide)
  | store (now : Int)
  | update
  | broadcast (now : Int) (alive : Nat → Bool)
  | dispatch
  | deliver (now : Int)
  | notifyRoles
  | input (session : Nat) (role : PlayerSide) (obj : InputMessage δ)
  | unregister (role : PlayerSide)

namespace MetricsRun
variable (tickSamples latencySamples : Nat) {δ : Type} (toInt : δ → Int32)

/-- The client's input as the server reads it. -/
def inputObject (direction : Int32) (seq : UInt64) : InputMessage δ :=
  ⟨some (.int64 direction.toInt64), some (jsonOfUInt64 seq)⟩

def handle (s : MetricsRun) (role : PlayerSide) : ClientMessage → MetricsRun
  | .hello =>
    { s with
      registered := true
      side := role
      toClient := s.toClient ++ [.welcome role, .other, .state] }
  | .input direction seq => { s with loop := (s.loop.exec toInt (.input 0 s.side (inputObject direction seq))).1 }
  | .metricsRequest => { s with toClient := s.toClient ++ [.metrics] }

/-- What `broadcast_state` hands to the session of the client. -/
def broadcastMessages (s : MetricsRun) (now : Int) (acks : List InputAck) : List ServerMessage :=
  (if s.registered ∧ s.loop.snapshot.isSome then [.state] else []) ++
    (acks.filter (·.session = 0)).map fun ack =>
      .inputAck ack (now - (s.loop.server.pendingAck s.side).requestedAt)

/-- The output is the acknowledgement that the client reads. -/
def step (s : MetricsRun) : MetricsEvent δ → MetricsRun × List InputAck
  | .serve role =>
    if s.loop.storing.isSome then (s, [])
    else match s.toServer with
    | [] => (s, [])
    | message :: rest => ({ s with toServer := rest }.handle toInt role message, [])
  | .store now => ({ s with loop := (s.loop.exec toInt (.store now)).1 }, [])
  | .update => ({ s with loop := (s.loop.exec toInt .update).1 }, [])
  | .broadcast now alive =>
    let next := s.loop.exec toInt (.broadcast fun session => session = 0 || alive session)
    ({ s with loop := next.1, posted := s.posted ++ s.broadcastMessages now next.2 }, [])
  | .dispatch =>
    if s.loop.storing.isSome then (s, [])
    else match s.posted with
    | [] => (s, [])
    | message :: rest => ({ s with posted := rest, toClient := s.toClient ++ [message] }, [])
  | .deliver now => match s.toClient with
    | [] => (s, [])
    | message :: rest =>
      let next := s.client.onMessage tickSamples latencySamples now message
      ({ s with client := next.1, toServer := s.toServer ++ next.2, toClient := rest },
        match message with
        | .inputAck ack _ => [ack]
        | _ => [])
  | .notifyRoles =>
    if s.loop.storing.isSome then (s, [])
    else ({ s with posted := s.posted ++ if s.registered then [.other] else [] }, [])
  | .input session role obj => ({ s with loop := (s.loop.exec toInt (.input (session + 1) role obj)).1 }, [])
  | .unregister role => ({ s with loop := (s.loop.exec toInt (.unregister role)).1 }, [])

/-- No other session acts at the seat of the client. -/
def SeatOwn (s : MetricsRun) : MetricsEvent δ → Prop
  | .input _ role _ | .unregister role => role = s.side → role = .spectator
  | _ => True

instance (s : MetricsRun) (event : MetricsEvent δ) : Decidable (s.SeatOwn event) :=
  match event with
  | .input _ role _ | .unregister role => inferInstanceAs (Decidable (role = s.side → role = .spectator))
  | .serve _ | .store _ | .update | .broadcast _ _ | .dispatch | .deliver _ | .notifyRoles => isTrue trivial

end MetricsRun

def metricsMachine (tickSamples latencySamples : Nat) {δ : Type} (toInt : δ → Int32) :
    Machine MetricsRun (MetricsEvent δ) InputAck where
  init :=
    let start := MetricsClient.start tickSamples latencySamples
    { client := start.1, toServer := start.2 }
  step := MetricsRun.step tickSamples latencySamples toInt

/-! ### The client -/

/-- Direction and number of the inputs among some messages. -/
def inputsOf (messages : List ClientMessage) : List (Int32 × UInt64) :=
  messages.filterMap fun
    | .input direction seq => some (direction, seq)
    | _ => none

def acksOf (messages : List ServerMessage) : List (Int32 × UInt64) :=
  messages.filterMap fun
    | .inputAck ack _ => some (ack.appliedDirection, ack.seq)
    | _ => none

/-- The input number `index`, from 0. -/
def inputNumber (index : Nat) : Int32 × UInt64 := (command index, UInt64.ofNat (index + 1))

section
variable {tickSamples latencySamples : Nat}

variable (tickSamples latencySamples) in
/-- The client, with the inputs `way` that wait for their acknowledgement to be read. -/
structure Tally (s : MetricsClient) (way : List (Int32 × UInt64)) : Prop where
  sent : s.commandIndex = s.inputSeq
  count : s.inputSeq = s.inputLatencies.length + way.length
  way : way = if s.awaitingAck then [inputNumber s.inputLatencies.length] else []
  room : s.awaitingAck = true → s.inputLatencies.length < latencySamples
  seat : s.awaitingAck = true → s.helloSent = true ∧ s.role ≠ .spectator
  ticks : s.tickIntervals.length ≤ tickSamples
  latencies : s.inputLatencies.length ≤ latencySamples
  phase : s.phase ≠ .sampling → tickSamples ≤ s.tickIntervals.length ∧ latencySamples ≤ s.inputLatencies.length

namespace Tally
variable {s : MetricsClient} {way : List (Int32 × UInt64)}

theorem way_nil (h : Tally tickSamples latencySamples s way) (hawaiting : s.awaitingAck = false) : way = [] := by
  rw [h.way, hawaiting]
  rfl

theorem sendNextCommand (h : Tally tickSamples latencySamples s way) (hphase : s.phase = .sampling) :
    Tally tickSamples latencySamples (s.sendNextCommand latencySamples).1
      (way ++ inputsOf (s.sendNextCommand latencySamples).2) ∧
      (s.sendNextCommand latencySamples).1.phase = .sampling := by
  have hsame : Tally tickSamples latencySamples s (way ++ inputsOf []) := by
    rw [inputsOf, List.filterMap_nil, List.append_nil]
    exact h
  unfold MetricsClient.sendNextCommand
  split
  · exact ⟨hsame, hphase⟩
  · next hhello =>
    split
    · exact ⟨hsame, hphase⟩
    · next hfree =>
      have hawaiting : s.awaitingAck = false := by
        rw [← Bool.not_eq_true]
        exact fun h => hfree (.inl h)
      have hway := h.way_nil hawaiting
      have hcount := h.count
      rw [hway, List.length_nil, Nat.add_zero] at hcount
      refine ⟨?_, hphase⟩
      subst hway
      refine ⟨congrArg (· + 1) h.sent, congrArg (· + 1) hcount, ?_, fun _ => ?_, fun _ => ⟨?_, ?_⟩, h.ticks,
        h.latencies, fun hp => absurd hphase hp⟩
      · show [(command s.commandIndex, UInt64.ofNat (s.inputSeq + 1))] = [inputNumber s.inputLatencies.length]
        rw [h.sent, hcount]
        rfl
      · exact Nat.lt_of_not_le fun hle => hfree (.inr (.inl hle))
      · show s.helloSent = true
        simpa using hhello
      · exact fun hrole => hfree (.inr (.inr hrole))

theorem proceed (h : Tally tickSamples latencySamples s way) :
    Tally tickSamples latencySamples (s.proceed tickSamples latencySamples).1
      (way ++ inputsOf (s.proceed tickSamples latencySamples).2) := by
  unfold MetricsClient.proceed
  split
  · rw [inputsOf, List.filterMap_nil, List.append_nil]
    exact h
  · next hdone =>
    have hnone : inputsOf [.metricsRequest] = [] := rfl
    rw [hnone, List.append_nil]
    exact { h with phase := fun _ => ⟨Nat.le_of_not_lt fun hlt => hdone (.inl hlt),
      Nat.le_of_not_lt fun hlt => hdone (.inr hlt)⟩ }

/-- A message that is no acknowledgement. -/
theorem record (h : Tally tickSamples latencySamples s way) (hphase : s.phase = .sampling) (now : Int)
    {message : ServerMessage} (hack : ∀ ack latency, message ≠ .inputAck ack latency)
    (hrole : ∀ role, message = .welcome role → s.awaitingAck = true → role ≠ .spectator) :
    Tally tickSamples latencySamples (s.record tickSamples latencySamples now message) way := by
  cases message with
  | welcome role => exact { h with seat := fun hawaiting => ⟨rfl, hrole role rfl hawaiting⟩ }
  | state =>
    have hticks : (s.record tickSamples latencySamples now .state).tickIntervals.length ≤ tickSamples := by
      unfold MetricsClient.record
      dsimp only
      split
      · exact h.ticks
      · split
        · rw [List.length_append]
          assumption
        · exact h.ticks
    exact { h with ticks := hticks, phase := fun hp => absurd hphase hp }
  | inputAck ack latency => exact absurd rfl (hack ack latency)
  | metrics => exact h
  | other => exact h

/-- The acknowledgement of the input that was under way. -/
theorem record_ack (h : Tally tickSamples latencySamples s way) {input : Int32 × UInt64}
    {rest : List (Int32 × UInt64)} (hway : way = input :: rest) (hphase : s.phase = .sampling) (now : Int)
    (ack : InputAck) (latency : Int) :
    rest = [] ∧ input = inputNumber s.inputLatencies.length ∧
      (s.record tickSamples latencySamples now (.inputAck ack latency)).inputLatencies.length =
        s.inputLatencies.length + 1 ∧
      Tally tickSamples latencySamples (s.record tickSamples latencySamples now (.inputAck ack latency)) rest := by
  have hawaiting : s.awaitingAck = true := by
    rw [← Bool.not_eq_false]
    intro hfalse
    rw [h.way_nil hfalse] at hway
    cases hway
  have heq := h.way
  rw [hawaiting, if_pos rfl, hway] at heq
  obtain ⟨hinput, hrest⟩ := List.cons.inj heq
  have hlatencies : (s.record tickSamples latencySamples now (.inputAck ack latency)).inputLatencies =
      s.inputLatencies ++ [latency] := if_pos (h.room hawaiting)
  have hlength : (s.record tickSamples latencySamples now (.inputAck ack latency)).inputLatencies.length =
      s.inputLatencies.length + 1 := by
    rw [hlatencies, List.length_append]
    rfl
  have hcount := h.count
  rw [hway, hrest] at hcount
  refine ⟨hrest, hinput, hlength, ?_⟩
  subst hrest
  exact
    { sent := h.sent
      count := by rw [hlength]; exact hcount
      way := rfl
      room := fun hno => nomatch hno
      seat := fun hno => nomatch hno
      ticks := h.ticks
      latencies := hlength ▸ h.room hawaiting
      phase := fun hp => absurd hphase hp }

theorem not_awaiting (h : Tally tickSamples latencySamples s way) (hphase : s.phase ≠ .sampling) :
    s.awaitingAck = false := by
  rw [← Bool.not_eq_true]
  exact fun hawaiting => Nat.not_lt_of_le (h.phase hphase).2 (h.room hawaiting)

/-- The message and what the client does after it. -/
theorem onMessage_eq (hphase : s.phase = .sampling) (now : Int) (message : ServerMessage) :
    s.onMessage tickSamples latencySamples now message =
      let sent :=
        if (s.record tickSamples latencySamples now message).role ≠ .spectator then
          (s.record tickSamples latencySamples now message).sendNextCommand latencySamples
        else (s.record tickSamples latencySamples now message, [])
      ((sent.1.proceed tickSamples latencySamples).1, sent.2 ++ (sent.1.proceed tickSamples latencySamples).2) := by
  rw [MetricsClient.onMessage, hphase]

theorem phase_record (now : Int) (message : ServerMessage) :
    (s.record tickSamples latencySamples now message).phase = s.phase := by
  cases message <;> rfl

theorem after_record (now : Int) (message : ServerMessage) (hphase : s.phase = .sampling)
    (h : Tally tickSamples latencySamples (s.record tickSamples latencySamples now message) way) :
    Tally tickSamples latencySamples (s.onMessage tickSamples latencySamples now message).1
      (way ++ inputsOf (s.onMessage tickSamples latencySamples now message).2) := by
  have happend : ∀ sent later : List ClientMessage, inputsOf (sent ++ later) = inputsOf sent ++ inputsOf later :=
    fun sent later => List.filterMap_append
  rw [onMessage_eq hphase]
  dsimp only
  rw [happend, ← List.append_assoc]
  split
  · exact (h.sendNextCommand ((phase_record now message).trans hphase)).1.proceed
  · have hnone : way ++ inputsOf [] = way := List.append_nil way
    rw [hnone]
    exact h.proceed

theorem onMessage (h : Tally tickSamples latencySamples s way) (now : Int) {message : ServerMessage}
    (hack : ∀ ack latency, message ≠ .inputAck ack latency)
    (hrole : ∀ role, message = .welcome role → s.awaitingAck = true → role ≠ .spectator) :
    Tally tickSamples latencySamples (s.onMessage tickSamples latencySamples now message).1
      (way ++ inputsOf (s.onMessage tickSamples latencySamples now message).2) := by
  by_cases hphase : s.phase = .sampling
  · exact after_record now message hphase (h.record hphase now hack hrole)
  · have hnone : way ++ inputsOf [] = way := List.append_nil way
    unfold MetricsClient.onMessage
    split
    · next hsampling => exact absurd hsampling hphase
    · rw [hnone]
      split
      · exact { h with phase := fun _ => h.phase hphase }
      · exact h
    · rw [hnone]
      exact h

theorem onMessage_ack (h : Tally tickSamples latencySamples s way) {input : Int32 × UInt64}
    {rest : List (Int32 × UInt64)} (hway : way = input :: rest) (now : Int) (ack : InputAck) (latency : Int) :
    rest = [] ∧ input = inputNumber s.inputLatencies.length ∧
      Tally tickSamples latencySamples (s.onMessage tickSamples latencySamples now (.inputAck ack latency)).1
        (rest ++ inputsOf (s.onMessage tickSamples latencySamples now (.inputAck ack latency)).2) ∧
      s.phase = .sampling := by
  have hphase : s.phase = .sampling := by
    by_contra hphase
    have hnil := h.way_nil (h.not_awaiting hphase)
    rw [hnil] at hway
    cases hway
  obtain ⟨hrest, hinput, -, htally⟩ := h.record_ack hway hphase now ack latency
  exact ⟨hrest, hinput, after_record now _ hphase htally, hphase⟩

end Tally

namespace MetricsClient
variable (s : MetricsClient)

theorem sendNextCommand_frame (latencySamples : Nat) :
    (s.sendNextCommand latencySamples).1.inputLatencies = s.inputLatencies ∧
    (s.sendNextCommand latencySamples).1.role = s.role ∧
    (s.sendNextCommand latencySamples).1.helloSent = s.helloSent := by
  unfold sendNextCommand
  split
  · exact ⟨rfl, rfl, rfl⟩
  · split
    · exact ⟨rfl, rfl, rfl⟩
    · exact ⟨rfl, rfl, rfl⟩

theorem proceed_frame (tickSamples latencySamples : Nat) :
    (s.proceed tickSamples latencySamples).1.inputLatencies = s.inputLatencies ∧
    (s.proceed tickSamples latencySamples).1.role = s.role ∧
    (s.proceed tickSamples latencySamples).1.helloSent = s.helloSent := by
  unfold proceed
  split
  · exact ⟨rfl, rfl, rfl⟩
  · exact ⟨rfl, rfl, rfl⟩

theorem onMessage_frame (tickSamples latencySamples : Nat) (now : Int) (message : ServerMessage) :
    (s.onMessage tickSamples latencySamples now message).1.inputLatencies =
        (if s.phase = .sampling then s.record tickSamples latencySamples now message else s).inputLatencies ∧
      (s.onMessage tickSamples latencySamples now message).1.role =
        (if s.phase = .sampling then s.record tickSamples latencySamples now message else s).role ∧
      (s.onMessage tickSamples latencySamples now message).1.helloSent =
        (if s.phase = .sampling then s.record tickSamples latencySamples now message else s).helloSent := by
  by_cases hphase : s.phase = .sampling
  · rw [Tally.onMessage_eq hphase, if_pos hphase]
    dsimp only
    split
    · obtain ⟨h1, h2, h3⟩ := proceed_frame
        ((s.record tickSamples latencySamples now message).sendNextCommand latencySamples).1
        tickSamples latencySamples
      obtain ⟨h4, h5, h6⟩ :=
        sendNextCommand_frame (s.record tickSamples latencySamples now message) latencySamples
      exact ⟨h1.trans h4, h2.trans h5, h3.trans h6⟩
    · exact proceed_frame _ _ _
  · rw [if_neg hphase]
    unfold onMessage
    split
    · next hsampling => exact absurd hsampling hphase
    · split
      · exact ⟨rfl, rfl, rfl⟩
      · exact ⟨rfl, rfl, rfl⟩
    · exact ⟨rfl, rfl, rfl⟩

/-- A client with a seat that needs more latencies has an input under way. -/
def Busy (latencySamples : Nat) (s : MetricsClient) : Prop :=
  s.helloSent = true → s.role ≠ .spectator → s.inputLatencies.length < latencySamples → s.awaitingAck = true

theorem busy_sendNextCommand (latencySamples : Nat) : Busy latencySamples (s.sendNextCommand latencySamples).1 := by
  intro hhello hrole hmore
  unfold sendNextCommand at hhello hrole hmore ⊢
  split at hhello
  · next hno =>
    rw [hhello] at hno
    cases hno
  · next hyes =>
    rw [if_neg hyes] at hrole hmore ⊢
    split at hhello
    · next hskip =>
      rw [if_pos hskip] at hrole hmore ⊢
      rcases hskip with hawaiting | hfull | hspectator
      · exact hawaiting
      · exact absurd hmore (Nat.not_lt_of_le hfull)
      · exact absurd hspectator hrole
    · next hskip =>
      rw [if_neg hskip]

theorem busy_onMessage {tickSamples latencySamples : Nat} {way : List (Int32 × UInt64)}
    (h : Tally tickSamples latencySamples s way) (now : Int) (message : ServerMessage) :
    Busy latencySamples (s.onMessage tickSamples latencySamples now message).1 := by
  have hproceed : ∀ client : MetricsClient, Busy latencySamples client →
      Busy latencySamples (client.proceed tickSamples latencySamples).1 := by
    intro client hbusy
    unfold proceed
    split
    · exact hbusy
    · exact hbusy
  by_cases hphase : s.phase = .sampling
  · rw [Tally.onMessage_eq hphase]
    dsimp only
    split
    · exact hproceed _ (busy_sendNextCommand _ _)
    · next hspectator => exact hproceed _ fun _ hrole => absurd hrole hspectator
  · intro _ _ hmore
    rw [(s.onMessage_frame tickSamples latencySamples now message).1, if_neg hphase] at hmore
    exact absurd hmore (Nat.not_lt_of_le (h.phase hphase).2)

end MetricsClient

end

/-! ### The server -/

theorem clamp_command (index : Nat) : clamp (command index) (-1) 1 = command index := by
  have hlt : index % 4 < 4 := Nat.mod_lt _ (by decide)
  have hcommand : command index = (commandCycle[index % 4]?).getD 0 := rfl
  rw [hcommand]
  generalize index % 4 = i at hlt
  match i, hlt with
  | 0, _ => decide
  | 1, _ => decide
  | 2, _ => decide
  | 3, _ => decide

@[simp] theorem readSeq_jsonOfUInt64 {δ : Type} (n : UInt64) :
    InputServer.readSeq (some (jsonOfUInt64 n : JsonValue δ)) = n := by
  unfold jsonOfUInt64
  split
  · exact UInt64.toUInt64_toInt64 n
  · rfl

namespace InputServer
variable {δ : Type} {toInt : δ → Int32} {s : InputServer}

/-- What the server has to acknowledge, under the number of the session. -/
def waiting (ack : PendingAck) (session : Nat) : List (Int32 × UInt64) :=
  if ack.pending ∧ ack.session = some session then [(ack.direction, ack.seq)] else []

/-- A flush sends to a session that lives what waits for it, or leaves it. -/
theorem flushAck_waiting {alive : Nat → Bool} {session : Nat} (halive : alive session = true) (tick : UInt64)
    (ack : PendingAck) :
    ((flushAck alive tick ack).2.filter (·.session = session)).map (fun a => (a.appliedDirection, a.seq)) ++
        waiting (flushAck alive tick ack).1 session = waiting ack session ∧
      (flushAck alive tick ack).1.session = ack.session := by
  unfold flushAck
  split
  · next hdue =>
    rw [Bool.and_eq_true] at hdue
    refine ⟨?_, rfl⟩
    have hnone : waiting { ack with pending := false } session = [] := if_neg fun hw => Bool.false_ne_true hw.1
    rw [hnone, List.append_nil]
    unfold waiting
    cases hsession : ack.session with
    | none => simp
    | some other =>
      dsimp only
      by_cases hsame : other = session
      · subst hsame
        rw [if_pos halive]
        simp [hdue.1]
      · split
        · simp [hsame]
        · simp [hsame]
  · exact ⟨rfl, rfl⟩

/-- The same for both sides, where the session waits at one only. -/
theorem broadcastState_waiting {s : InputServer} {alive : Nat → Bool} {session : Nat}
    (halive : alive session = true) (tick : UInt64) {side : PlayerSide}
    (hother : ∀ other, other ≠ side → waiting (s.pendingAck other) session = []) :
    ((s.broadcastState alive tick).2.filter (·.session = session)).map (fun a => (a.appliedDirection, a.seq)) ++
        waiting ((s.broadcastState alive tick).1.pendingAck side) session =
      waiting (s.pendingAck side) session := by
  have hflush := fun other => (flushAck_waiting halive tick (s.pendingAck other)).1
  have hnone : ∀ other, other ≠ side →
      ((flushAck alive tick (s.pendingAck other)).2.filter (·.session = session)).map
        (fun a => (a.appliedDirection, a.seq)) = [] := by
    intro other hne
    exact (List.append_eq_nil_iff.1 ((hflush other).trans (hother other hne))).1
  have hsent : (s.broadcastState alive tick).2 =
      (flushAck alive tick (s.pendingAck .left)).2 ++ (flushAck alive tick (s.pendingAck .right)).2 := rfl
  rw [pendingAck_broadcastState, hsent, List.filter_append, List.map_append]
  cases side with
  | left =>
    rw [hnone .right (by decide), List.append_nil]
    exact hflush .left
  | right =>
    rw [hnone .left (by decide), List.nil_append]
    exact hflush .right
  | spectator =>
    rw [hnone .left (by decide), hnone .right (by decide)]
    exact hflush .spectator

end InputServer

namespace InputLoop
open InputServer

/-- What the server holds for the session of the client, which plays for `side`: stored, or about to be. -/
def held (s : InputLoop) (side : PlayerSide) : List (Int32 × UInt64) :=
  waiting (s.server.pendingAck side) 0 ++ match s.storing with
    | none => []
    | some (_, ack) => waiting ack 0

/-- The session of the client plays for `side`, and no other does. -/
structure Seated (s : InputLoop) (side : PlayerSide) : Prop where
  own : ∀ other, (s.server.pendingAck other).session = some 0 → other = side
  storing : ∀ role ack, s.storing = some (role, ack) →
    role ≠ .spectator ∧ ack.pending = true ∧ (ack.session = some 0 ↔ role = side)

namespace Seated
variable {δ : Type} {toInt : δ → Int32} {s : InputLoop} {side : PlayerSide}

theorem waiting_other (h : s.Seated side) {other : PlayerSide} (hne : other ≠ side) :
    waiting (s.server.pendingAck other) 0 = [] :=
  if_neg fun hw => hne (h.own other hw.2)

/-- The client's input is about to be stored. -/
theorem input_client (h : s.Seated side) (hfree : s.storing = none) (hside : side ≠ .spectator)
    {obj : InputMessage δ} {direction : Int32} (hread : readDirection toInt obj.direction = some direction) :
    (s.exec toInt (.input 0 side obj)).1.Seated side ∧
      (s.exec toInt (.input 0 side obj)).1.held side =
        s.held side ++ [(clamp direction (-1) 1, readSeq obj.seq)] := by
  cases hbegin : s.server.beginInput toInt 0 side obj with
  | none =>
    unfold beginInput at hbegin
    rw [hread] at hbegin
    dsimp only at hbegin
    rw [if_neg hside] at hbegin
    cases hbegin
  | some r =>
    obtain ⟨server, ack⟩ := r
    have hexec : (s.exec toInt (.input 0 side obj)).1 = { s with server := server, storing := some (side, ack) } := by
      unfold exec
      dsimp only
      rw [hfree, hbegin]
      rfl
    obtain ⟨-, given, hgiven, -, hack⟩ := beginInput_eq_some hbegin
    obtain rfl : given = direction := Option.some.inj (hgiven.symm.trans hread)
    have hpending := pendingAck_beginInput hbegin
    rw [hexec]
    refine ⟨⟨fun other hsession => h.own other (hpending other ▸ hsession), fun role ack' hsome => ?_⟩, ?_⟩
    · obtain ⟨rfl, rfl⟩ := Prod.mk.inj (Option.some.inj hsome)
      subst hack
      exact ⟨hside, rfl, iff_of_true rfl rfl⟩
    · subst hack
      unfold held
      rw [hfree, hpending, List.append_nil]
      rfl

/-- Another session's input, at another seat. -/
theorem input_other (h : s.Seated side) (session : Nat) {role : PlayerSide}
    (hrole : role = side → role = .spectator) (obj : InputMessage δ) :
    (s.exec toInt (.input (session + 1) role obj)).1.Seated side ∧
      (s.exec toInt (.input (session + 1) role obj)).1.held side = s.held side := by
  unfold exec
  dsimp only
  split
  · exact ⟨h, rfl⟩
  · next hfree =>
    have hfree : s.storing = none := by simpa using hfree
    cases hbegin : s.server.beginInput toInt (session + 1) role obj with
    | none => exact ⟨h, rfl⟩
    | some r =>
      obtain ⟨server, ack⟩ := r
      obtain ⟨hspectator, given, -, -, hack⟩ := beginInput_eq_some hbegin
      have hpending := pendingAck_beginInput hbegin
      refine ⟨⟨fun other hsession => h.own other (hpending other ▸ hsession), fun role' ack' hsome => ?_⟩, ?_⟩
      · obtain ⟨rfl, rfl⟩ := Prod.mk.inj (Option.some.inj hsome)
        subst hack
        exact ⟨hspectator, rfl, iff_of_false (by simp) fun hseat => hspectator (hrole hseat)⟩
      · subst hack
        unfold held
        rw [hfree, hpending]
        simp [waiting]

/-- Stored is what was about to be stored. -/
theorem store (h : s.Seated side) (hone : (s.held side).length ≤ 1) (now : Int) :
    (s.exec toInt (.store now)).1.Seated side ∧ (s.exec toInt (.store now)).1.held side = s.held side := by
  cases hstoring : s.storing with
  | none =>
    have hexec : (s.exec toInt (.store now)).1 = s := by
      unfold exec
      rw [hstoring]
    rw [hexec]
    exact ⟨h, rfl⟩
  | some r =>
    obtain ⟨role, ack⟩ := r
    obtain ⟨hrole, hpending, hclient⟩ := h.storing role ack hstoring
    have hexec : (s.exec toInt (.store now)).1 =
        { s with server := s.server.storeAck role ack now, storing := none } := by
      unfold exec
      rw [hstoring]
    have hheld : s.held side = waiting (s.server.pendingAck side) 0 ++ waiting ack 0 := by
      unfold held
      rw [hstoring]
    rw [hheld] at hone ⊢
    rw [hexec]
    refine ⟨⟨fun other hsession => ?_, by simp⟩, ?_⟩
    · have hsession : ((s.server.storeAck role ack now).pendingAck other).session = some 0 := hsession
      rw [pendingAck_storeAck _ hrole] at hsession
      split at hsession
      · next hother => exact hother.trans (hclient.1 hsession)
      · exact h.own other hsession
    · show waiting ((s.server.storeAck role ack now).pendingAck side) 0 ++ [] = _
      rw [List.append_nil, pendingAck_storeAck _ hrole]
      by_cases hseat : role = side
      · rw [if_pos hseat.symm]
        -- what was stored before would be a second one
        have hnew : waiting ack 0 = [(ack.direction, ack.seq)] := if_pos ⟨hpending, hclient.2 hseat⟩
        rw [hnew, List.length_append, List.length_singleton] at hone
        have hold : waiting (s.server.pendingAck side) 0 = [] := List.length_eq_zero_iff.1 (by omega)
        rw [hold, List.nil_append]
        rfl
      · have hnew : waiting ack 0 = [] := if_neg fun hw => hseat (hclient.1 hw.2)
        rw [if_neg (Ne.symm hseat), hnew, List.append_nil]

theorem unregister (h : s.Seated side) {role : PlayerSide} (hrole : role = side → role = .spectator) :
    (s.exec toInt (.unregister role)).1.Seated side ∧
      (s.exec toInt (.unregister role)).1.held side = s.held side := by
  unfold exec
  dsimp only
  split
  · exact ⟨h, rfl⟩
  · have hkept : ∀ other, ((s.server.unregisterSession role).pendingAck other).session = some 0 →
        (s.server.pendingAck other).session = some 0 := by
      intro other hsession
      rcases pendingAck_unregisterSession s.server role other with hsame | ⟨-, -, hnone⟩
      · rwa [hsame] at hsession
      · rw [hnone] at hsession
        cases hsession
    refine ⟨⟨fun other hsession => h.own other (hkept other hsession), h.storing⟩, ?_⟩
    have hsame : (s.server.unregisterSession role).pendingAck side = s.server.pendingAck side := by
      rcases pendingAck_unregisterSession s.server role side with hsame | ⟨hseat, -⟩
      · exact hsame
      · rw [hrole hseat.symm]
        rfl
    unfold held
    rw [hsame]

theorem update (h : s.Seated side) :
    (s.exec toInt .update).1.Seated side ∧ (s.exec toInt .update).1.held side = s.held side := by
  unfold exec
  dsimp only
  split
  · have hsame : ∀ other, s.server.update.pendingAck other = s.server.pendingAck other := by
      intro other
      cases other <;> rfl
    refine ⟨⟨fun other hsession => h.own other (hsame other ▸ hsession), h.storing⟩, ?_⟩
    unfold held
    rw [hsame]
  · exact ⟨h, rfl⟩

/-- A broadcast sends what was stored, or leaves it. -/
theorem broadcast (h : s.Seated side) (alive : Nat → Bool) (halive : alive 0 = true) :
    (s.exec toInt (.broadcast alive)).1.Seated side ∧
      ((s.exec toInt (.broadcast alive)).2.filter (·.session = 0)).map (fun a => (a.appliedDirection, a.seq)) ++
        (s.exec toInt (.broadcast alive)).1.held side = s.held side := by
  unfold exec
  dsimp only
  split
  · exact ⟨h, rfl⟩
  · next tick _ =>
    refine ⟨⟨fun other hsession => ?_, h.storing⟩, ?_⟩
    · have hsession : ((s.server.broadcastState alive tick).1.pendingAck other).session = some 0 := hsession
      rw [pendingAck_broadcastState, (flushAck_waiting halive tick _).2] at hsession
      exact h.own other hsession
    · unfold held
      rw [← List.append_assoc]
      exact congrArg (· ++ _) (broadcastState_waiting halive tick fun other hne => h.waiting_other hne)

/-- Without a seat nothing is held for the client, so any seat may be its own. -/
theorem welcome (h : s.Seated .spectator) (hfree : s.storing = none) (role : PlayerSide) :
    s.Seated role ∧ s.held role = [] := by
  have hnone : ∀ other, (s.server.pendingAck other).session ≠ some 0 := by
    intro other hsession
    obtain rfl := h.own other hsession
    cases hsession
  refine ⟨⟨fun other hsession => absurd hsession (hnone other), fun role' ack hsome => ?_⟩, ?_⟩
  · rw [hfree] at hsome
    cases hsome
  · unfold held
    rw [hfree, List.append_nil]
    exact if_neg fun hw => hnone role hw.2

end Seated

end InputLoop

/-! ### Runs -/

namespace MetricsRun
open InputServer

/-- The inputs that wait for their acknowledgement to be read: it is on its way, or handed over, the server
holds it, or the input is on its way. -/
def outstanding (s : MetricsRun) : List (Int32 × UInt64) :=
  acksOf s.toClient ++ acksOf s.posted ++ s.loop.held s.side ++ inputsOf s.toServer

variable (tickSamples latencySamples : Nat) in
structure Paced (output : List InputAck) (s : MetricsRun) : Prop where
  tally : Tally tickSamples latencySamples s.client s.outstanding
  read : output.map (fun ack => (ack.appliedDirection, ack.seq)) =
    (List.range s.client.inputLatencies.length).map inputNumber
  seated : s.loop.Seated s.side
  fresh : s.registered = false → s.side = .spectator ∧ s.posted = [] ∧ s.toClient = [] ∧
    s.client.helloSent = false ∧ s.toServer.head? = some .hello
  once : .hello ∉ if s.registered then s.toServer else s.toServer.tail
  welcomes : ∀ role, .welcome role ∈ s.toClient ++ s.posted → role = s.side
  role : s.client.helloSent = true → s.client.role = s.side
  busy : s.client.Busy latencySamples

section
variable {tickSamples latencySamples : Nat} {δ : Type} {toInt : δ → Int32} {s : MetricsRun}
  {output : List InputAck}

theorem acksOf_append (messages later : List ServerMessage) :
    acksOf (messages ++ later) = acksOf messages ++ acksOf later := List.filterMap_append

theorem inputsOf_append (messages later : List ClientMessage) :
    inputsOf (messages ++ later) = inputsOf messages ++ inputsOf later := List.filterMap_append

/-- Only one input is outstanding. -/
theorem Tally.single {s : MetricsClient} {pre post : List (Int32 × UInt64)} {input : Int32 × UInt64}
    (h : Tally tickSamples latencySamples s (pre ++ input :: post)) :
    pre = [] ∧ post = [] ∧ s.awaitingAck = true ∧ input = inputNumber s.inputLatencies.length := by
  have hway := h.way
  split at hway
  · next hawaiting =>
    have hlength := congrArg List.length hway
    rw [List.length_append, List.length_cons, List.length_singleton] at hlength
    obtain rfl : pre = [] := List.length_eq_zero_iff.1 (by omega)
    obtain rfl : post = [] := List.length_eq_zero_iff.1 (by omega)
    exact ⟨rfl, rfl, hawaiting, List.singleton_inj.1 hway⟩
  · exact absurd hway (by simp)

theorem Paced.length_held (h : Paced tickSamples latencySamples output s) : (s.loop.held s.side).length ≤ 1 := by
  have hlength := congrArg List.length h.tally.way
  rw [outstanding, List.length_append, List.length_append, List.length_append] at hlength
  split at hlength
  · rw [List.length_singleton] at hlength
    omega
  · rw [List.length_nil] at hlength
    omega

/-- A step of the server that moves no input of the client. -/
theorem Paced.loop (h : Paced tickSamples latencySamples output s) {loop : InputLoop}
    (hloop : loop.Seated s.side ∧ loop.held s.side = s.loop.held s.side) :
    Paced tickSamples latencySamples output { s with loop := loop } := by
  have hout : outstanding { s with loop := loop } = s.outstanding := by
    rw [outstanding, outstanding, hloop.2]
  exact { h with tally := hout ▸ h.tally, seated := hloop.1 }

/-- The server sends a message that is neither a welcome nor an acknowledgement. -/
theorem Paced.tell (h : Paced tickSamples latencySamples output s) (hregistered : s.registered = true)
    (message : ServerMessage) (hack : acksOf [message] = []) (hwelcome : ∀ role, message ≠ .welcome role) :
    Paced tickSamples latencySamples output { s with toClient := s.toClient ++ [message] } ∧
      Paced tickSamples latencySamples output { s with posted := s.posted ++ [message] } := by
  have hsent : outstanding { s with toClient := s.toClient ++ [message] } = s.outstanding := by
    rw [outstanding, acksOf_append, hack, List.append_nil, outstanding]
  have hposted : outstanding { s with posted := s.posted ++ [message] } = s.outstanding := by
    rw [outstanding, acksOf_append, hack, List.append_nil, outstanding]
  have hnew : ∀ role, .welcome role ∉ [message] := fun role hrole =>
    hwelcome role (List.mem_singleton.1 hrole).symm
  constructor
  · refine { h with tally := hsent ▸ h.tally, fresh := fun hfalse => ?_, welcomes := fun role hrole => ?_ }
    · exact absurd (hregistered.symm.trans hfalse) (by decide)
    · have hrole : .welcome role ∈ s.toClient ++ [message] ++ s.posted := hrole
      refine h.welcomes role (List.mem_append.2 ?_)
      rcases List.mem_append.1 hrole with hold | hold
      · exact .inl ((List.mem_append.1 hold).resolve_right (hnew role))
      · exact .inr hold
  · refine { h with tally := hposted ▸ h.tally, fresh := fun hfalse => ?_, welcomes := fun role hrole => ?_ }
    · exact absurd (hregistered.symm.trans hfalse) (by decide)
    · have hrole : .welcome role ∈ s.toClient ++ (s.posted ++ [message]) := hrole
      rw [← List.append_assoc] at hrole
      exact h.welcomes role ((List.mem_append.1 hrole).resolve_right (hnew role))

theorem Paced.hello (h : Paced tickSamples latencySamples output s) (toInt : δ → Int32)
    (hfree : s.loop.storing = none) {rest : List ClientMessage} (hserver : s.toServer = .hello :: rest)
    (role : PlayerSide) :
    Paced tickSamples latencySamples output ({ s with toServer := rest }.handle toInt role .hello) := by
  have hregistered : s.registered = false := by
    rw [← Bool.not_eq_true]
    intro hregistered
    have hmem := h.once
    rw [hregistered, hserver] at hmem
    exact hmem (List.mem_cons_self ..)
  obtain ⟨hside, hposted, hclient, hhello, -⟩ := h.fresh hregistered
  have hawaiting : s.client.awaitingAck = false := by
    rw [← Bool.not_eq_true]
    intro hawaiting
    rw [(h.tally.seat hawaiting).1] at hhello
    cases hhello
  obtain ⟨hseated, hheld⟩ := (hside ▸ h.seated).welcome hfree role
  have hway := h.tally.way_nil hawaiting
  have hinputs : inputsOf rest = [] := by
    rw [outstanding, hserver, List.append_eq_nil_iff] at hway
    exact hway.2
  have houtstanding : ({ s with toServer := rest }.handle toInt role .hello).outstanding = s.outstanding := by
    rw [hway]
    show acksOf (s.toClient ++ [.welcome role, .other, .state]) ++ acksOf s.posted ++ s.loop.held role ++
      inputsOf rest = []
    rw [hclient, hposted, hinputs, hheld]
    rfl
  refine ⟨houtstanding ▸ h.tally, h.read, hseated, fun hfalse => ?_, ?_, fun role' hrole' => ?_, fun hsent => ?_,
    h.busy⟩
  · cases hfalse
  · have hmem := h.once
    rw [hregistered, hserver] at hmem
    exact hmem
  · have hrole' : .welcome role' ∈ s.toClient ++ [.welcome role, .other, .state] ++ s.posted := hrole'
    rw [hclient, hposted] at hrole'
    show role' = role
    simpa using hrole'
  · have hsent : s.client.helloSent = true := hsent
    rw [hhello] at hsent
    cases hsent

theorem Paced.registered (h : Paced tickSamples latencySamples output s) {message : ClientMessage}
    {rest : List ClientMessage} (hserver : s.toServer = message :: rest) (hno : message ≠ .hello) :
    s.registered = true := by
  rw [← Bool.not_eq_false]
  intro hregistered
  obtain ⟨-, -, -, -, hhead⟩ := h.fresh hregistered
  rw [hserver] at hhead
  exact hno (Option.some.inj hhead)

/-- The server takes a message of a client that it knows. -/
theorem Paced.take (h : Paced tickSamples latencySamples output s) {message : ClientMessage}
    {rest : List ClientMessage} (hserver : s.toServer = message :: rest) (hregistered : s.registered = true) :
    .hello ∉ if s.registered then rest else rest.tail := by
  have hmem := h.once
  rw [hregistered, hserver] at hmem
  rw [hregistered]
  exact fun hrest => hmem (List.mem_cons_of_mem _ hrest)

theorem Paced.serve_input (h : Paced tickSamples latencySamples output s) (hfree : s.loop.storing = none)
    {direction : Int32} {seq : UInt64} {rest : List ClientMessage}
    (hserver : s.toServer = .input direction seq :: rest) (role : PlayerSide) :
    Paced tickSamples latencySamples output
      ({ s with toServer := rest }.handle toInt role (.input direction seq)) := by
  have hregistered := h.registered hserver (by simp)
  have htally := h.tally
  rw [outstanding, hserver, show inputsOf (.input direction seq :: rest) = (direction, seq) :: inputsOf rest from
    rfl] at htally
  obtain ⟨-, -, hawaiting, hinput⟩ := Tally.single htally
  obtain ⟨hsent, hspectator⟩ := h.tally.seat hawaiting
  have hrole : s.side ≠ .spectator := h.role hsent ▸ hspectator
  obtain ⟨hdirection, -⟩ : direction = command s.client.inputLatencies.length ∧
      seq = UInt64.ofNat (s.client.inputLatencies.length + 1) := Prod.mk.inj hinput
  have hread : readDirection toInt (inputObject direction seq : InputMessage δ).direction = some direction :=
    congrArg some (Int32.toInt32_toInt64 direction)
  obtain ⟨hseated, hheld⟩ := h.seated.input_client hfree hrole hread
  have hclamp : clamp direction (-1) 1 = direction := by rw [hdirection, clamp_command]
  have hseq : readSeq (inputObject direction seq : InputMessage δ).seq = seq := readSeq_jsonOfUInt64 seq
  rw [hclamp, hseq] at hheld
  have hout : ({ s with toServer := rest }.handle toInt role (.input direction seq)).outstanding =
      s.outstanding := by
    show acksOf s.toClient ++ acksOf s.posted ++
      (s.loop.exec toInt (.input 0 s.side (inputObject direction seq))).1.held s.side ++ inputsOf rest = _
    rw [hheld, outstanding, hserver]
    simp [inputsOf]
  exact ⟨hout ▸ h.tally, h.read, hseated, fun hfalse => absurd (hregistered.symm.trans hfalse) (by decide),
    h.take hserver hregistered, h.welcomes, h.role, h.busy⟩

theorem Paced.serve (h : Paced tickSamples latencySamples output s) (role : PlayerSide) :
    Paced tickSamples latencySamples output (s.step tickSamples latencySamples toInt (.serve role)).1 := by
  unfold step
  dsimp only
  split
  · exact h
  · next hfree =>
    have hfree : s.loop.storing = none := by simpa using hfree
    split
    · exact h
    · next message rest hserver =>
      cases message with
      | hello => exact h.hello toInt hfree hserver role
      | input direction seq => exact h.serve_input hfree hserver role
      | metricsRequest =>
        have hregistered := h.registered hserver (by simp)
        have hout : outstanding { s with toServer := rest } = s.outstanding := by
          rw [outstanding, outstanding, hserver]
          rfl
        have hskip : Paced tickSamples latencySamples output { s with toServer := rest } :=
          { h with
            tally := hout ▸ h.tally
            fresh := fun hfalse => absurd (hregistered.symm.trans hfalse) (by decide)
            once := h.take hserver hregistered }
        exact (hskip.tell hregistered .metrics rfl (by simp)).1

theorem acksOf_map (acks : List InputAck) (latency : Int) :
    acksOf (acks.map fun ack => .inputAck ack latency) = acks.map fun ack => (ack.appliedDirection, ack.seq) := by
  induction acks with
  | nil => rfl
  | cons ack acks ih => exact congrArg ((ack.appliedDirection, ack.seq) :: ·) ih

theorem acksOf_broadcastMessages (s : MetricsRun) (now : Int) (acks : List InputAck) :
    acksOf (s.broadcastMessages now acks) =
      (acks.filter (·.session = 0)).map fun ack => (ack.appliedDirection, ack.seq) := by
  rw [broadcastMessages, acksOf_append, acksOf_map]
  split <;> rfl

theorem welcome_notMem_broadcastMessages (s : MetricsRun) (now : Int) (acks : List InputAck) (role : PlayerSide) :
    .welcome role ∉ s.broadcastMessages now acks := by
  unfold broadcastMessages
  split <;> simp

theorem Paced.broadcast (h : Paced tickSamples latencySamples output s) (now : Int) (alive : Nat → Bool) :
    Paced tickSamples latencySamples output
      (s.step tickSamples latencySamples toInt (.broadcast now alive)).1 := by
  obtain ⟨hseated, hheld⟩ := h.seated.broadcast (fun session => session = 0 || alive session) rfl
  have hmessages := acksOf_broadcastMessages s now
    (s.loop.exec toInt (.broadcast fun session => session = 0 || alive session)).2
  rw [← hmessages] at hheld
  have hout : outstanding (s.step tickSamples latencySamples toInt (.broadcast now alive)).1 = s.outstanding := by
    show acksOf s.toClient ++ acksOf (s.posted ++ s.broadcastMessages now _) ++
      (s.loop.exec toInt (.broadcast fun session => session = 0 || alive session)).1.held s.side ++
        inputsOf s.toServer = _
    rw [acksOf_append, outstanding, ← hheld]
    simp only [List.append_assoc]
  refine ⟨hout ▸ h.tally, h.read, hseated, fun hfresh => ?_, h.once, fun role hrole => ?_, h.role, h.busy⟩
  · have hfresh : s.registered = false := hfresh
    obtain ⟨hside, hposted, hclient, hhello, hserver⟩ := h.fresh hfresh
    refine ⟨hside, ?_, hclient, hhello, hserver⟩
    -- nothing is held for a client without a seat
    have hawaiting : s.client.awaitingAck = false := by
      rw [← Bool.not_eq_true]
      intro hawaiting
      rw [(h.tally.seat hawaiting).1] at hhello
      cases hhello
    have hnil := h.tally.way_nil hawaiting
    rw [outstanding, List.append_eq_nil_iff, List.append_eq_nil_iff, ← hheld] at hnil
    have hsent := (List.append_eq_nil_iff.1 hnil.1.2).1
    rw [hmessages, List.map_eq_nil_iff] at hsent
    show s.posted ++ s.broadcastMessages now _ = []
    rw [hposted, broadcastMessages, hfresh, hsent]
    rfl
  · have hrole : .welcome role ∈ s.toClient ++ (s.posted ++ s.broadcastMessages now _) := hrole
    rw [← List.append_assoc] at hrole
    exact h.welcomes role ((List.mem_append.1 hrole).resolve_right (welcome_notMem_broadcastMessages s now _ role))

theorem Paced.dispatch (h : Paced tickSamples latencySamples output s) :
    Paced tickSamples latencySamples output (s.step tickSamples latencySamples toInt .dispatch).1 := by
  unfold step
  dsimp only
  split
  · exact h
  · split
    · exact h
    · next message rest hposted =>
      have hout : outstanding { s with posted := rest, toClient := s.toClient ++ [message] } = s.outstanding := by
        rw [outstanding, outstanding, hposted, acksOf_append,
          show message :: rest = [message] ++ rest from rfl, acksOf_append, ← List.append_assoc]
      refine { h with tally := hout ▸ h.tally, fresh := fun hfalse => ?_, welcomes := fun role hrole => ?_ }
      · obtain ⟨-, hnone, -⟩ := h.fresh hfalse
        rw [hposted] at hnone
        cases hnone
      · have hrole : .welcome role ∈ s.toClient ++ [message] ++ rest := hrole
        rw [List.append_assoc] at hrole
        exact h.welcomes role (by rw [hposted]; exact hrole)

theorem registered_of_toClient (h : Paced tickSamples latencySamples output s) {message : ServerMessage}
    {rest : List ServerMessage} (hclient : s.toClient = message :: rest) : s.registered = true := by
  rw [← Bool.not_eq_false]
  intro hregistered
  obtain ⟨-, -, hnil, -⟩ := h.fresh hregistered
  rw [hclient] at hnil
  cases hnil

theorem hello_notMem_onMessage (client : MetricsClient) (now : Int) (message : ServerMessage) :
    .hello ∉ (client.onMessage tickSamples latencySamples now message).2 := by
  have hproceed : ∀ client : MetricsClient, .hello ∉ (client.proceed tickSamples latencySamples).2 := by
    intro client
    unfold MetricsClient.proceed
    split <;> simp
  have hsend : ∀ client : MetricsClient, .hello ∉ (client.sendNextCommand latencySamples).2 := by
    intro client
    unfold MetricsClient.sendNextCommand
    split
    · simp
    · split <;> simp
  by_cases hphase : client.phase = .sampling
  · rw [Tally.onMessage_eq hphase]
    dsimp only
    intro hmem
    rcases List.mem_append.1 hmem with hmem | hmem
    · split at hmem
      · exact hsend _ hmem
      · cases hmem
    · exact hproceed _ hmem
  · unfold MetricsClient.onMessage
    split
    · next hsampling => exact absurd hsampling hphase
    · exact List.not_mem_nil
    · exact List.not_mem_nil

/-- The parts of the invariant that do not count inputs, when the client takes a message. -/
theorem Paced.taken (h : Paced tickSamples latencySamples output s) {now : Int} {message : ServerMessage}
    {rest : List ServerMessage} (hclient : s.toClient = message :: rest) {s' : MetricsRun}
    (hs' : s' = { s with
      client := (s.client.onMessage tickSamples latencySamples now message).1
      toServer := s.toServer ++ (s.client.onMessage tickSamples latencySamples now message).2
      toClient := rest }) {later : List InputAck}
    (htally : Tally tickSamples latencySamples s'.client s'.outstanding)
    (hread : later.map (fun ack => (ack.appliedDirection, ack.seq)) =
      (List.range s'.client.inputLatencies.length).map inputNumber) :
    Paced tickSamples latencySamples later s' := by
  have hregistered := registered_of_toClient h hclient
  subst hs'
  refine ⟨htally, hread, h.seated, fun hfalse => ?_, ?_, fun role hrole => ?_, fun hhello => ?_,
    s.client.busy_onMessage h.tally now message⟩
  · have hfalse : s.registered = false := hfalse
    rw [hregistered] at hfalse
    cases hfalse
  · have hmem := h.once
    rw [hregistered] at hmem
    show .hello ∉ if s.registered then s.toServer ++ _ else _
    rw [hregistered]
    intro hnew
    rcases List.mem_append.1 hnew with hnew | hnew
    · exact hmem hnew
    · exact hello_notMem_onMessage _ _ _ hnew
  · exact h.welcomes role (hclient ▸ List.mem_cons_of_mem _ hrole)
  · obtain ⟨-, hrole, hsent⟩ := s.client.onMessage_frame tickSamples latencySamples now message
    have hhello : (s.client.onMessage tickSamples latencySamples now message).1.helloSent = true := hhello
    show (s.client.onMessage tickSamples latencySamples now message).1.role = s.side
    rw [hsent] at hhello
    rw [hrole]
    by_cases hphase : s.client.phase = .sampling
    · rw [if_pos hphase] at hhello ⊢
      cases message with
      | welcome role => exact h.welcomes role (hclient ▸ List.mem_cons_self ..)
      | _ => exact h.role hhello
    · rw [if_neg hphase] at hhello ⊢
      exact h.role hhello

theorem Paced.deliver_ack (h : Paced tickSamples latencySamples output s) (now : Int) {ack : InputAck}
    {latency : Int} {rest : List ServerMessage} (hclient : s.toClient = .inputAck ack latency :: rest) :
    Paced tickSamples latencySamples (output ++ [ack]) { s with
      client := (s.client.onMessage tickSamples latencySamples now (.inputAck ack latency)).1
      toServer := s.toServer ++ (s.client.onMessage tickSamples latencySamples now (.inputAck ack latency)).2
      toClient := rest } := by
  have hway : s.outstanding = (ack.appliedDirection, ack.seq) ::
      (acksOf rest ++ acksOf s.posted ++ s.loop.held s.side ++ inputsOf s.toServer) := by
    rw [outstanding, hclient]
    rfl
  obtain ⟨hrest, hinput, htally, hphase⟩ := h.tally.onMessage_ack hway now ack latency
  obtain ⟨-, -, hlength, -⟩ := h.tally.record_ack hway hphase now ack latency
  have hlatencies := (s.client.onMessage_frame tickSamples latencySamples now (.inputAck ack latency)).1
  rw [if_pos hphase] at hlatencies
  refine h.taken hclient rfl ?_ ?_
  · rw [hrest, List.nil_append] at htally
    have hout : outstanding { s with
        client := (s.client.onMessage tickSamples latencySamples now (.inputAck ack latency)).1
        toServer := s.toServer ++ (s.client.onMessage tickSamples latencySamples now (.inputAck ack latency)).2
        toClient := rest } =
        inputsOf (s.client.onMessage tickSamples latencySamples now (.inputAck ack latency)).2 := by
      show acksOf rest ++ acksOf s.posted ++ s.loop.held s.side ++ inputsOf (s.toServer ++ _) = _
      rw [inputsOf_append, ← List.append_assoc, hrest, List.nil_append]
    rw [hout]
    exact htally
  · show (output ++ [ack]).map _ =
      (List.range (MetricsClient.inputLatencies (s.client.onMessage tickSamples latencySamples now
        (.inputAck ack latency)).1).length).map inputNumber
    rw [hlatencies, hlength, List.range_succ, List.map_append, List.map_append, h.read, List.map_singleton,
      List.map_singleton, hinput]

theorem Paced.deliver_other (h : Paced tickSamples latencySamples output s) (now : Int) {message : ServerMessage}
    {rest : List ServerMessage} (hclient : s.toClient = message :: rest)
    (hack : ∀ ack latency, message ≠ .inputAck ack latency) :
    Paced tickSamples latencySamples output { s with
      client := (s.client.onMessage tickSamples latencySamples now message).1
      toServer := s.toServer ++ (s.client.onMessage tickSamples latencySamples now message).2
      toClient := rest } := by
  have hacks : acksOf (message :: rest) = acksOf rest := by
    cases message with
    | inputAck ack latency => exact absurd rfl (hack ack latency)
    | _ => rfl
  have hlatencies : (s.client.onMessage tickSamples latencySamples now message).1.inputLatencies =
      s.client.inputLatencies := by
    rw [(s.client.onMessage_frame tickSamples latencySamples now message).1]
    split
    · cases message with
      | inputAck ack latency => exact absurd rfl (hack ack latency)
      | _ => rfl
    · rfl
  refine h.taken hclient rfl ?_ ?_
  · have hout : outstanding { s with
        client := (s.client.onMessage tickSamples latencySamples now message).1
        toServer := s.toServer ++ (s.client.onMessage tickSamples latencySamples now message).2
        toClient := rest } =
        s.outstanding ++ inputsOf (s.client.onMessage tickSamples latencySamples now message).2 := by
      show acksOf rest ++ acksOf s.posted ++ s.loop.held s.side ++ inputsOf (s.toServer ++ _) = _
      rw [inputsOf_append, ← List.append_assoc, outstanding, hclient, hacks]
    rw [hout]
    refine h.tally.onMessage now hack fun role hrole hawaiting => ?_
    obtain ⟨hsent, hspectator⟩ := h.tally.seat hawaiting
    rw [h.welcomes role (hclient ▸ hrole ▸ List.mem_cons_self ..), ← h.role hsent]
    exact hspectator
  · show output.map _ =
      (List.range (s.client.onMessage tickSamples latencySamples now message).1.inputLatencies.length).map inputNumber
    rw [hlatencies]
    exact h.read

theorem Paced.deliver (h : Paced tickSamples latencySamples output s) (now : Int) :
    Paced tickSamples latencySamples
      (output ++ (s.step tickSamples latencySamples toInt (.deliver now)).2)
      (s.step tickSamples latencySamples toInt (.deliver now)).1 := by
  unfold step
  dsimp only
  split
  · rw [List.append_nil]
    exact h
  · next message rest hclient =>
    cases message with
    | inputAck ack latency => exact h.deliver_ack now hclient
    | _ =>
      dsimp only
      rw [List.append_nil]
      exact h.deliver_other now hclient (by simp)

theorem Paced.notifyRoles (h : Paced tickSamples latencySamples output s) :
    Paced tickSamples latencySamples output (s.step tickSamples latencySamples toInt .notifyRoles).1 := by
  unfold step
  dsimp only
  split
  · exact h
  · split
    · next hregistered => exact (h.tell hregistered .other rfl (by simp)).2
    · rw [List.append_nil]
      exact h

theorem Paced.step (h : Paced tickSamples latencySamples output s) {event : MetricsEvent δ}
    (hown : s.SeatOwn event) :
    Paced tickSamples latencySamples (output ++ (s.step tickSamples latencySamples toInt event).2)
      (s.step tickSamples latencySamples toInt event).1 := by
  have hnone : (∀ now, event ≠ .deliver now) → (s.step tickSamples latencySamples toInt event).2 = [] := by
    intro hdeliver
    unfold MetricsRun.step
    cases event with
    | deliver now => exact absurd rfl (hdeliver now)
    | serve role =>
      dsimp only
      split
      · rfl
      · split <;> rfl
    | dispatch =>
      dsimp only
      split
      · rfl
      · split <;> rfl
    | notifyRoles =>
      dsimp only
      split <;> rfl
    | _ => rfl
  cases event with
  | deliver now => exact h.deliver now
  | serve role =>
    rw [hnone (by simp), List.append_nil]
    exact h.serve role
  | dispatch =>
    rw [hnone (by simp), List.append_nil]
    exact h.dispatch
  | notifyRoles =>
    rw [hnone (by simp), List.append_nil]
    exact h.notifyRoles
  | broadcast now alive =>
    rw [hnone (by simp), List.append_nil]
    exact h.broadcast now alive
  | store now =>
    rw [hnone (by simp), List.append_nil]
    exact h.loop (h.seated.store h.length_held now)
  | update =>
    rw [hnone (by simp), List.append_nil]
    exact h.loop h.seated.update
  | input session role obj =>
    rw [hnone (by simp), List.append_nil]
    exact h.loop (h.seated.input_other session hown obj)
  | unregister role =>
    rw [hnone (by simp), List.append_nil]
    exact h.loop (h.seated.unregister hown)

variable (tickSamples latencySamples toInt) in
theorem paced_run (events : List (MetricsEvent δ))
    (hown : (metricsMachine tickSamples latencySamples toInt).Along SeatOwn events) :
    Paced tickSamples latencySamples ((metricsMachine tickSamples latencySamples toInt).run events).2
      ((metricsMachine tickSamples latencySamples toInt).run events).1 := by
  refine (metricsMachine tickSamples latencySamples toInt).run_inv_along
    (P := fun _ output s => Paced tickSamples latencySamples output s) ?_ (fun _ _ _ _ h hown => h.step hown)
    events hown
  have hstart : Tally tickSamples latencySamples {} [] :=
    ⟨rfl, rfl, rfl, nofun, nofun, Nat.zero_le _, Nat.zero_le _, fun hphase => absurd rfl hphase⟩
  obtain ⟨hlatencies, -, hhello⟩ := MetricsClient.proceed_frame {} tickSamples latencySamples
  have hlatencies : (MetricsClient.proceed tickSamples latencySamples {}).1.inputLatencies = [] := hlatencies
  have hhello : (MetricsClient.proceed tickSamples latencySamples {}).1.helloSent = false := hhello
  refine ⟨hstart.proceed, ?_, ⟨fun side hsession => ?_, fun role ack hstoring => ?_⟩,
    fun _ => ⟨rfl, rfl, rfl, hhello, rfl⟩, ?_, fun role hrole => absurd hrole List.not_mem_nil, fun hsent => ?_,
    fun hsent => ?_⟩
  · show [] = (List.range (MetricsClient.proceed tickSamples latencySamples {}).1.inputLatencies.length).map _
    rw [hlatencies]
    rfl
  · cases side <;> cases hsession
  · cases hstoring
  · show .hello ∉ (MetricsClient.proceed tickSamples latencySamples {}).2
    unfold MetricsClient.proceed
    split <;> simp
  · have hsent : (MetricsClient.proceed tickSamples latencySamples {}).1.helloSent = true := hsent
    rw [hhello] at hsent
    cases hsent
  · have hsent : (MetricsClient.proceed tickSamples latencySamples {}).1.helloSent = true := hsent
    rw [hhello] at hsent
    cases hsent

end

/-- In every order of the messages and of the steps of the two threads, as long as no other session acts at the
seat of the client: the acknowledgements that the client reads are those of its inputs one after the other,
with the directions that it sent, one for each latency. At most one input is outstanding, at one place: with its
acknowledgement under way or handed over, at the server, or under way itself; and there is one as long as a
client with a seat needs more latencies. When the client asks for the metrics it has exactly the samples it
wanted. -/
theorem samples_paced (tickSamples latencySamples : Nat) {δ : Type} (toInt : δ → Int32)
    (events : List (MetricsEvent δ))
    (hown : (metricsMachine tickSamples latencySamples toInt).Along SeatOwn events) :
    let run := (metricsMachine tickSamples latencySamples toInt).run events
    run.2.map (fun ack => (ack.appliedDirection, ack.seq)) =
        (List.range run.1.client.inputLatencies.length).map inputNumber ∧
      run.1.client.inputSeq = run.1.client.inputLatencies.length + run.1.outstanding.length ∧
      run.1.outstanding =
        (if run.1.client.awaitingAck then [inputNumber run.1.client.inputLatencies.length] else []) ∧
      (run.1.client.helloSent = true → run.1.client.role ≠ .spectator →
        run.1.client.inputLatencies.length < latencySamples → run.1.client.awaitingAck = true) ∧
      run.1.client.tickIntervals.length ≤ tickSamples ∧ run.1.client.inputLatencies.length ≤ latencySamples ∧
      (run.1.client.phase ≠ .sampling → run.1.client.awaitingAck = false ∧
        run.1.client.tickIntervals.length = tickSamples ∧
        run.1.client.inputLatencies.length = latencySamples) := by
  have h := paced_run tickSamples latencySamples toInt events hown
  refine ⟨h.read, h.tally.count, h.tally.way, h.busy, h.tally.ticks, h.tally.latencies,
    fun hphase => ⟨h.tally.not_awaiting hphase, ?_, ?_⟩⟩
  · exact Nat.le_antisymm h.tally.ticks (h.tally.phase hphase).1
  · exact Nat.le_antisymm h.tally.latencies (h.tally.phase hphase).2

/-- One sample of each kind. The input comes between a tick and its broadcast, which leaves it; another player
comes and goes. -/
def sampleRun : List (MetricsEvent Int32) :=
  [.serve .left, .deliver 1, .deliver 2, .deliver 3, .update, .serve .left, .store 4,
    .broadcast 5 fun _ => true, .dispatch, .deliver 6, .input 0 .right ⟨some (.int64 1), none⟩, .store 7,
    .unregister .right, .notifyRoles, .update, .broadcast 10 fun _ => true, .dispatch, .dispatch, .dispatch,
    .deliver 11, .deliver 12, .deliver 13, .serve .left, .deliver 14]

example : let client := ((metricsMachine 1 1 id).run sampleRun).1.client
    client.phase = .finished ∧ client.tickIntervals = [3] ∧ client.inputLatencies = [6] := by decide

/-- Before the second tick the input is at the server, and in the end it is acknowledged. -/
theorem samples_paced_sampleRun :
    ((metricsMachine 1 1 id).run (sampleRun.take 14)).1.outstanding = [inputNumber 0] ∧
      ((metricsMachine 1 1 id).run sampleRun).1.outstanding = [] ∧
      ((metricsMachine 1 1 id).run sampleRun).2.map (fun ack => (ack.appliedDirection, ack.seq)) =
        [inputNumber 0] := by
  have hown : (metricsMachine 1 1 id).Along SeatOwn sampleRun := (Machine.along_iff_forall_lt _).2 (by decide)
  obtain ⟨-, -, hbefore, -⟩ := samples_paced 1 1 id (sampleRun.take 14)
    ((Machine.along_iff_forall_lt _).2 (by decide))
  obtain ⟨hread, -, hafter, -, -, -, hdone⟩ := samples_paced 1 1 id sampleRun hown
  obtain ⟨hawaiting, -, hlatencies⟩ := hdone (by decide)
  rw [hlatencies] at hread
  rw [hawaiting] at hafter
  exact ⟨hbefore, hafter, hread⟩

end MetricsRun

end Portfolio.WsPong
