import Mathlib.Logic.Function.Basic
import Portfolio.Lib.Machine

/-!
# `net::EchoServer`

The TCP echo server (`lab1.1-tcp-echo`): the accept loop and one thread of `handle_client` for each
client, which share `running_`. A step is one check of a loop condition or one system call with what it
returns, so that the threads interleave in any order. Bytes that `send` has taken are on their way to
the client.

Threads are always started, and log lines are left out. `stop` clears `running_` and shuts the listening
socket down; an `accept` that is under way may still return a client.
-/

namespace Portfolio.TcpEcho

abbrev Bytes := List UInt8

def ascii (s : String) : Bytes := s.toList.map fun ch => UInt8.ofNat ch.toNat

/-- What `recv` returns; no bytes are the end of the stream. -/
inductive RecvResult where
  | received (bytes : Bytes)
  | interrupted
  | failed
  deriving DecidableEq, Repr

inductive SendResult where
  | sent (n : Nat)
  | interrupted
  | failed
  deriving DecidableEq, Repr

/-- Where a thread of `handle_client` is: at the condition of its loop, in `receive`, or in `send_all` of
`data`, of which `totalSent` bytes are sent. -/
inductive Handler where
  | loopHead
  | inReceive
  | inSend (data : Bytes) (totalSent : Nat)
  | returned
  | threw
  deriving DecidableEq, Repr

/-- Where `accept_loop` is. -/
inductive Acceptor where
  | loopHead
  | inAccept
  | returned
  deriving DecidableEq, Repr

structure EchoServer where
  running : Bool := true
  acceptor : Acceptor := .loopHead
  clients : Nat → Option Handler := fun _ => none
  nextClient : Nat := 0

/-- The messages that stop the server. -/
def stopMessages : List Bytes :=
  ["shutdown", "shutdown\n", "shuwdown\r\n", "exit", "exit\n", "exit\r\n"].map ascii

/-- What is sent back for a message. -/
def reply (pre message : Bytes) : Bytes :=
  if pre.isEmpty then message else ascii "[" ++ pre ++ ascii "] " ++ message

inductive Event where
  | acceptLoop
  | acceptReturns (ok : Bool)
  | handlerLoop (c : Nat)
  | receive (c : Nat) (result : RecvResult)
  | send (c : Nat) (result : SendResult)
  | stop
  deriving DecidableEq, Repr

/-- What a handler has read in one call and what `send` has taken. -/
inductive Output where
  | read (c : Nat) (bytes : Bytes)
  | wrote (c : Nat) (bytes : Bytes)
  deriving DecidableEq, Repr

namespace EchoServer

def setHandler (s : EchoServer) (c : Nat) (handler : Handler) : EchoServer :=
  { s with clients := Function.update s.clients c (some handler) }

def stop (s : EchoServer) : EchoServer := { s with running := false }

def onReceive (pre : Bytes) (s : EchoServer) (c : Nat) : RecvResult → EchoServer × List Output
  | .interrupted => (s, [])
  | .failed => (s.setHandler c .threw, [])
  | .received bytes =>
    if bytes.isEmpty then (s.setHandler c .returned, [])
    else if bytes ∈ stopMessages then (s.stop.setHandler c .returned, [.read c bytes])
    else (s.setHandler c (.inSend (reply pre bytes) 0), [.read c bytes])

/-- One round of the loop of `send_all`. -/
def onSend (s : EchoServer) (c : Nat) (data : Bytes) (totalSent : Nat) : SendResult → EchoServer × List Output
  | .interrupted => (s, [])
  | .failed => (s.setHandler c .threw, [])
  | .sent n =>
    if n = 0 then (s.setHandler c .loopHead, [])
    else
      (s.setHandler c (if totalSent + n < data.length then .inSend data (totalSent + n) else .loopHead),
        [.wrote c ((data.drop totalSent).take n)])

def exec (pre : Bytes) (s : EchoServer) : Event → EchoServer × List Output
  | .acceptLoop =>
    if s.acceptor = .loopHead then ({ s with acceptor := if s.running then .inAccept else .returned }, [])
    else (s, [])
  | .acceptReturns ok =>
    if s.acceptor = .inAccept then
      if ok then
        ({ s.setHandler s.nextClient .loopHead with acceptor := .loopHead, nextClient := s.nextClient + 1 }, [])
      else ({ s with acceptor := if s.running then .loopHead else .returned }, [])
    else (s, [])
  | .handlerLoop c =>
    if s.clients c = some .loopHead then (s.setHandler c (if s.running then .inReceive else .returned), [])
    else (s, [])
  | .receive c result => if s.clients c = some .inReceive then s.onReceive pre c result else (s, [])
  | .send c result => match s.clients c with
    | some (.inSend data totalSent) => s.onSend c data totalSent result
    | _ => (s, [])
  | .stop => (s.stop, [])

end EchoServer

/-- The server with the prefix `pre`. -/
def echoMachine (pre : Bytes) : Machine EchoServer Event Output where
  init := {}
  step s event := s.exec pre event

/-- The messages that the client `c` has sent, as they were read. -/
def readBy (os : List Output) (c : Nat) : List Bytes :=
  os.filterMap fun
    | .read d bytes => if d = c then some bytes else none
    | .wrote _ _ => none

def wroteTo (os : List Output) (c : Nat) : Bytes :=
  os.flatMap fun
    | .read _ _ => []
    | .wrote d bytes => if d = c then bytes else []

@[simp] theorem readBy_append (os os' : List Output) (c : Nat) :
    readBy (os ++ os') c = readBy os c ++ readBy os' c := List.filterMap_append

@[simp] theorem wroteTo_append (os os' : List Output) (c : Nat) :
    wroteTo (os ++ os') c = wroteTo os c ++ wroteTo os' c := List.flatMap_append

/-! ### What comes back -/

def Handler.unsent : Handler → Bytes
  | .inSend data totalSent => data.drop totalSent
  | _ => []

def EchoServer.unsent (s : EchoServer) (c : Nat) : Bytes := ((s.clients c).map (·.unsent)).getD []

/-- `send` returns to a handler that sends, and has taken at least one byte and no more than are left. -/
def SendsSome (s : EchoServer) : Event → Prop
  | .send c (.sent n) => 0 < n ∧ n ≤ (s.unsent c).length
  | _ => True

instance (s : EchoServer) : (event : Event) → Decidable (SendsSome s event)
  | .send c (.sent n) => inferInstanceAs (Decidable (0 < n ∧ n ≤ (s.unsent c).length))
  | .send _ .interrupted => isTrue trivial
  | .send _ .failed => isTrue trivial
  | .acceptLoop => isTrue trivial
  | .acceptReturns _ => isTrue trivial
  | .handlerLoop _ => isTrue trivial
  | .receive _ _ => isTrue trivial
  | .stop => isTrue trivial

/-- What is to be sent back for a message that is read. -/
def answer (pre message : Bytes) : Bytes := if message ∈ stopMessages then [] else reply pre message

/-- What the client `c` has been sent is what its messages are answered with, but for what is still to be
sent. -/
structure Echoes (pre : Bytes) (os : List Output) (s : EchoServer) (c : Nat) : Prop where
  sent : wroteTo os c <+: (readBy os c).flatMap (answer pre)
  exact : s.clients c ≠ some .threw → wroteTo os c ++ s.unsent c = (readBy os c).flatMap (answer pre)

namespace Echoes
variable {pre : Bytes} {os : List Output} {s t : EchoServer} {c d : Nat}

theorem of_exact (h : wroteTo os c ++ s.unsent c = (readBy os c).flatMap (answer pre)) : Echoes pre os s c :=
  ⟨⟨_, h⟩, fun _ => h⟩

/-- A step that neither reads nor sends, and loses nothing. -/
theorem of_eq (h : Echoes pre os s c) (hunsent : t.unsent c = s.unsent c)
    (hthrew : s.clients c = some .threw → t.clients c = some .threw) : Echoes pre os t c :=
  ⟨h.sent, fun ht => hunsent ▸ h.exact fun hs => ht (hthrew hs)⟩

/-- Another handler is at work. -/
theorem other (h : Echoes pre os s c) {os' : List Output} (hclients : t.clients c = s.clients c)
    (hread : readBy os' c = []) (hwrote : wroteTo os' c = []) : Echoes pre (os ++ os') t c := by
  have hunsent : t.unsent c = s.unsent c := by rw [EchoServer.unsent, hclients]; rfl
  refine ⟨?_, fun ht => ?_⟩
  · rw [readBy_append, wroteTo_append, hread, hwrote, List.append_nil, List.append_nil]
    exact h.sent
  · rw [readBy_append, wroteTo_append, hread, hwrote, List.append_nil, List.append_nil, hunsent]
    exact h.exact (hclients ▸ ht)

/-- A handler that has nothing to send goes on with something else. -/
theorem goes (h : Echoes pre os s c) {old new : Handler} (hold : s.clients c = some old)
    (hnothing : old.unsent = []) (hold' : old ≠ .threw) (hnew : new.unsent = []) :
    Echoes pre os (s.setHandler c new) c := by
  have hexact := h.exact (by rw [hold]; simpa using hold')
  have hbefore : s.unsent c = [] := by simp [EchoServer.unsent, hold, hnothing]
  have hafter : (s.setHandler c new).unsent c = [] := by simp [EchoServer.unsent, EchoServer.setHandler, hnew]
  rw [hbefore] at hexact
  exact .of_exact (hafter ▸ hexact)

theorem receive (h : Echoes pre os s c) (hat : s.clients c = some .inReceive) (result : RecvResult) :
    Echoes pre (os ++ (s.onReceive pre c result).2) (s.onReceive pre c result).1 c := by
  have hexact := h.exact (by rw [hat]; nofun)
  have hbefore : s.unsent c = [] := by simp [EchoServer.unsent, hat, Handler.unsent]
  rw [hbefore, List.append_nil] at hexact
  cases result with
  | interrupted => simpa [EchoServer.onReceive] using h
  | failed => simpa [EchoServer.onReceive] using h.goes hat rfl nofun rfl
  | received bytes =>
    unfold EchoServer.onReceive
    dsimp only
    split
    · simpa using h.goes hat rfl nofun rfl
    split
    · -- the server stops, and nothing is sent back
      rename_i hstop
      refine .of_exact ?_
      simp [readBy, wroteTo, EchoServer.unsent, EchoServer.setHandler, Handler.unsent, answer, hstop]
      exact hexact
    · rename_i hstop
      refine .of_exact ?_
      simp [readBy, wroteTo, EchoServer.unsent, EchoServer.setHandler, Handler.unsent, answer, hstop]
      exact hexact

theorem send (h : Echoes pre os s c) {data : Bytes} {totalSent : Nat}
    (hat : s.clients c = some (.inSend data totalSent)) {result : SendResult}
    (hsome : SendsSome s (.send c result)) :
    Echoes pre (os ++ (s.onSend c data totalSent result).2) (s.onSend c data totalSent result).1 c := by
  have hexact := h.exact (by rw [hat]; nofun)
  have hbefore : s.unsent c = data.drop totalSent := by simp [EchoServer.unsent, hat, Handler.unsent]
  rw [hbefore] at hexact
  cases result with
  | interrupted => simpa [EchoServer.onSend] using h
  | failed =>
    -- what is not sent yet is given up
    refine ⟨by simpa [EchoServer.onSend] using h.sent, fun hthrew => absurd ?_ hthrew⟩
    simp [EchoServer.onSend, EchoServer.setHandler]
  | sent n =>
    obtain ⟨hn, hle⟩ : 0 < n ∧ n ≤ (s.unsent c).length := hsome
    rw [hbefore, List.length_drop] at hle
    have hsplit : (data.drop totalSent).take n ++ data.drop (totalSent + n) = data.drop totalSent := by
      rw [← List.drop_drop, List.take_append_drop]
    rw [← hsplit, ← List.append_assoc] at hexact
    unfold EchoServer.onSend
    dsimp only
    rw [if_neg (by omega)]
    refine .of_exact ?_
    have hread : readBy (os ++ [.wrote c ((data.drop totalSent).take n)]) c = readBy os c := by simp [readBy]
    have hwrote : wroteTo (os ++ [.wrote c ((data.drop totalSent).take n)]) c =
        wroteTo os c ++ (data.drop totalSent).take n := by simp [wroteTo]
    rw [hread, hwrote]
    split
    · simpa [EchoServer.unsent, EchoServer.setHandler, Handler.unsent] using hexact
    · have hnil : data.drop (totalSent + n) = [] := List.drop_eq_nil_of_le (by omega)
      rw [hnil] at hexact
      simpa [EchoServer.unsent, EchoServer.setHandler, Handler.unsent] using hexact

end Echoes

namespace EchoServer
variable {pre : Bytes} {os : List Output} {s : EchoServer} {c d : Nat}

theorem clients_setHandler_of_ne (handler : Handler) (h : d ≠ c) : (s.setHandler c handler).clients d = s.clients d :=
  Function.update_of_ne h ..

/-- A handler reads and sends for its own client. -/
theorem receive_other (pre : Bytes) (result : RecvResult) (h : d ≠ c) :
    (s.onReceive pre c result).1.clients d = s.clients d ∧ readBy (s.onReceive pre c result).2 d = [] ∧
      wroteTo (s.onReceive pre c result).2 d = [] := by
  have hne : ¬ c = d := Ne.symm h
  cases result with
  | interrupted => exact ⟨rfl, rfl, rfl⟩
  | failed => exact ⟨clients_setHandler_of_ne _ h, rfl, rfl⟩
  | received bytes =>
    unfold onReceive
    dsimp only
    split
    · exact ⟨clients_setHandler_of_ne _ h, rfl, rfl⟩
    split
    · exact ⟨clients_setHandler_of_ne _ h, by simp [readBy, hne], rfl⟩
    · exact ⟨clients_setHandler_of_ne _ h, by simp [readBy, hne], rfl⟩

theorem send_other (data : Bytes) (totalSent : Nat) (result : SendResult) (h : d ≠ c) :
    (s.onSend c data totalSent result).1.clients d = s.clients d ∧
      readBy (s.onSend c data totalSent result).2 d = [] ∧ wroteTo (s.onSend c data totalSent result).2 d = [] := by
  have hne : ¬ c = d := Ne.symm h
  cases result with
  | interrupted => exact ⟨rfl, rfl, rfl⟩
  | failed => exact ⟨clients_setHandler_of_ne _ h, rfl, rfl⟩
  | sent n =>
    unfold onSend
    dsimp only
    split
    · exact ⟨clients_setHandler_of_ne _ h, rfl, rfl⟩
    · exact ⟨clients_setHandler_of_ne _ h, rfl, by simp [wroteTo, hne]⟩

/-- The clients that have been accepted have the smaller numbers. -/
def Numbered (s : EchoServer) : Prop := ∀ c, s.nextClient ≤ c → s.clients c = none

theorem Numbered.setHandler (h : Numbered s) {old : Handler} (hold : s.clients c = some old) (new : Handler) :
    Numbered (s.setHandler c new) := by
  intro d hd
  have hdc : d ≠ c := by
    rintro rfl
    rw [h d hd] at hold
    cases hold
  rw [clients_setHandler_of_ne new hdc]
  exact h d hd

theorem Numbered.exec (h : Numbered s) (pre : Bytes) (event : Event) : Numbered (s.exec pre event).1 := by
  cases event with
  | acceptLoop =>
    unfold EchoServer.exec
    dsimp only
    split
    · exact h
    · exact h
  | acceptReturns ok =>
    unfold EchoServer.exec
    dsimp only
    split
    · split
      · intro d hd
        have hd' : s.nextClient + 1 ≤ d := hd
        exact (clients_setHandler_of_ne _ (by omega)).trans (h d (by omega))
      · exact h
    · exact h
  | handlerLoop c =>
    unfold EchoServer.exec
    dsimp only
    split
    · rename_i hat
      exact h.setHandler hat _
    · exact h
  | receive c result =>
    unfold EchoServer.exec
    dsimp only
    split
    · rename_i hat
      cases result with
      | interrupted => exact h
      | failed => exact h.setHandler hat _
      | received bytes =>
        unfold onReceive
        dsimp only
        split
        · exact h.setHandler hat _
        split
        · exact Numbered.setHandler (s := s.stop) h hat _
        · exact h.setHandler hat _
    · exact h
  | send c result =>
    unfold EchoServer.exec
    dsimp only
    split
    · rename_i data totalSent hat
      cases result with
      | interrupted => exact h
      | failed => exact h.setHandler hat _
      | sent n =>
        unfold onSend
        dsimp only
        split
        · exact h.setHandler hat _
        · exact h.setHandler hat _
    · exact h
  | stop => exact h

theorem echoes_exec (hnumbered : Numbered s) (h : Echoes pre os s c) {event : Event} (hsome : SendsSome s event) :
    Echoes pre (os ++ (s.exec pre event).2) (s.exec pre event).1 c := by
  have hquiet : ∀ {t : EchoServer}, t.clients = s.clients → Echoes pre (os ++ []) t c := fun ht =>
    h.other (congrFun ht c) rfl rfl
  cases event with
  | acceptLoop =>
    unfold exec
    dsimp only
    split
    · exact hquiet rfl
    · exact hquiet rfl
  | acceptReturns ok =>
    unfold exec
    dsimp only
    split
    · split
      · by_cases hc : c = s.nextClient
        · subst hc
          have hnone := hnumbered s.nextClient (Nat.le_refl _)
          rw [List.append_nil]
          exact h.of_eq (by simp [unsent, setHandler, hnone, Handler.unsent]) fun hthrew => by
            rw [hnone] at hthrew
            cases hthrew
        · exact h.other (clients_setHandler_of_ne _ hc) rfl rfl
      · exact hquiet rfl
    · exact hquiet rfl
  | handlerLoop d =>
    unfold exec
    dsimp only
    split
    · rename_i hat
      by_cases hc : c = d
      · subst hc
        rw [List.append_nil]
        refine h.goes hat rfl nofun ?_
        split
        · rfl
        · rfl
      · exact h.other (clients_setHandler_of_ne _ hc) rfl rfl
    · exact hquiet rfl
  | receive d result =>
    unfold exec
    dsimp only
    split
    · rename_i hat
      by_cases hc : c = d
      · subst hc
        exact h.receive hat result
      · obtain ⟨hclients, hread, hwrote⟩ := receive_other (s := s) pre result hc
        exact h.other hclients hread hwrote
    · exact hquiet rfl
  | send d result =>
    unfold exec
    dsimp only
    split
    · rename_i data totalSent hat
      by_cases hc : c = d
      · subst hc
        exact h.send hat hsome
      · obtain ⟨hclients, hread, hwrote⟩ := send_other (s := s) data totalSent result hc
        exact h.other hclients hread hwrote
    · exact hquiet rfl
  | stop => exact hquiet rfl

end EchoServer

/-- In any interleaving, what a client has been sent begins what its messages are answered with. As long as
its handler has not failed, the rest of that is what the handler is sending. -/
theorem echo_exact {pre : Bytes} {events : List Event} (h : (echoMachine pre).Along SendsSome events) (c : Nat) :
    wroteTo ((echoMachine pre).run events).2 c <+:
        (readBy ((echoMachine pre).run events).2 c).flatMap (answer pre) ∧
      (((echoMachine pre).run events).1.clients c ≠ some .threw →
        wroteTo ((echoMachine pre).run events).2 c ++ ((echoMachine pre).run events).1.unsent c =
          (readBy ((echoMachine pre).run events).2 c).flatMap (answer pre)) := by
  have hinv := (echoMachine pre).run_inv_along
    (P := fun _ os s => s.Numbered ∧ ∀ c, Echoes pre os s c) ⟨fun _ _ => rfl, fun c => .of_exact rfl⟩
    (fun _ os s event hs hsome => ⟨hs.1.exec pre event, fun c => EchoServer.echoes_exec hs.1 (hs.2 c) hsome⟩)
    events h
  exact ⟨(hinv.2 c).sent, (hinv.2 c).exact⟩

/-- Two messages of one client that are sent back in parts, while a second client is served. -/
def echoRun : List Event :=
  [.acceptLoop, .acceptReturns true, .handlerLoop 0, .receive 0 (.received (ascii "hi")), .acceptLoop,
    .acceptReturns true, .send 0 (.sent 5), .handlerLoop 1, .receive 1 .interrupted, .send 0 .interrupted,
    .send 0 (.sent 3), .handlerLoop 0, .receive 0 (.received (ascii "ho")), .send 0 (.sent 2)]

theorem echo_exact_echoRun :
    wroteTo ((echoMachine (ascii "srv")).run echoRun).2 0 <+:
        (readBy ((echoMachine (ascii "srv")).run echoRun).2 0).flatMap (answer (ascii "srv")) ∧
      (((echoMachine (ascii "srv")).run echoRun).1.clients 0 ≠ some .threw →
        wroteTo ((echoMachine (ascii "srv")).run echoRun).2 0 ++ ((echoMachine (ascii "srv")).run echoRun).1.unsent 0 =
          (readBy ((echoMachine (ascii "srv")).run echoRun).2 0).flatMap (answer (ascii "srv"))) :=
  echo_exact ((echoMachine (ascii "srv")).along_iff_forall_lt.2 (by decide +kernel)) 0

/-! ### The end -/

namespace EchoServer
variable {pre : Bytes} {s : EchoServer} {c : Nat}

/-- What a step has to do with `running_`. -/
theorem running_exec (pre : Bytes) (s : EchoServer) (event : Event) :
    (s.exec pre event).1.running = false ↔ s.running = false ∨ event = .stop ∨
      ∃ c, ∃ message ∈ readBy (s.exec pre event).2 c, message ∈ stopMessages := by
  have hquiet : ∀ {t : EchoServer}, t.running = s.running → event ≠ .stop →
      (t.running = false ↔ s.running = false ∨ event = .stop ∨
        ∃ c, ∃ message ∈ readBy [] c, message ∈ stopMessages) := by
    intro t ht hev
    simp [ht, hev, readBy]
  cases event with
  | acceptLoop =>
    unfold exec
    dsimp only
    split
    · exact hquiet rfl nofun
    · exact hquiet rfl nofun
  | acceptReturns ok =>
    unfold exec
    dsimp only
    split
    · split
      · exact hquiet rfl nofun
      · exact hquiet rfl nofun
    · exact hquiet rfl nofun
  | handlerLoop c =>
    unfold exec
    dsimp only
    split
    · exact hquiet rfl nofun
    · exact hquiet rfl nofun
  | receive c result =>
    unfold exec
    dsimp only
    split
    swap
    · exact hquiet rfl nofun
    cases result with
    | interrupted => exact hquiet rfl nofun
    | failed => exact hquiet rfl nofun
    | received bytes =>
      unfold onReceive
      dsimp only
      split
      · exact hquiet rfl nofun
      split
      · rename_i hstop
        refine iff_of_true rfl (.inr (.inr ⟨c, bytes, ?_, hstop⟩))
        simp [readBy]
      · rename_i hstop
        simp [readBy, setHandler, hstop]
  | send c result =>
    unfold exec
    dsimp only
    split
    swap
    · exact hquiet rfl nofun
    cases result with
    | interrupted => exact hquiet rfl nofun
    | failed => exact hquiet rfl nofun
    | sent n =>
      unfold onSend
      dsimp only
      split
      · exact hquiet rfl nofun
      · simp [readBy, setHandler]
  | stop => exact iff_of_true rfl (.inr (.inl rfl))

/-- The calls of `receive` for `c` that are under way. -/
def receiving (s : EchoServer) (c : Nat) : Nat := if s.clients c = some .inReceive then 1 else 0

/-- The calls of `accept` that are under way. -/
def accepting (s : EchoServer) : Nat := if s.acceptor = .inAccept then 1 else 0

theorem receiving_setHandler_of_ne {d : Nat} (handler : Handler) (h : d ≠ c) :
    (s.setHandler c handler).receiving d = s.receiving d := by
  rw [receiving, clients_setHandler_of_ne handler h]
  rfl

theorem receiving_setHandler {handler : Handler} (h : handler ≠ .inReceive) :
    (s.setHandler c handler).receiving c = 0 := by
  simp [receiving, setHandler, h]

theorem receiving_setHandler_le {handler : Handler} (h : handler ≠ .inReceive) (d : Nat) :
    (s.setHandler c handler).receiving d ≤ s.receiving d := by
  by_cases hd : d = c
  · subst hd
    rw [receiving_setHandler h]
    exact Nat.zero_le _
  · exact Nat.le_of_eq (receiving_setHandler_of_ne handler hd)

/-- A stopped server uses up the calls that are under way. -/
theorem exec_of_stopped (pre : Bytes) (h : s.running = false) (event : Event) (c : Nat) :
    (readBy (s.exec pre event).2 c).length + (s.exec pre event).1.receiving c ≤ s.receiving c ∧
      (s.exec pre event).1.nextClient + (s.exec pre event).1.accepting ≤ s.nextClient + s.accepting := by
  have hsame : (readBy [] c).length + s.receiving c ≤ s.receiving c ∧
      s.nextClient + s.accepting ≤ s.nextClient + s.accepting := ⟨by simp [readBy], Nat.le_refl _⟩
  have hset : ∀ (d : Nat) (handler : Handler), handler ≠ .inReceive →
      (readBy [] c).length + (s.setHandler d handler).receiving c ≤ s.receiving c ∧
        s.nextClient + s.accepting ≤ s.nextClient + s.accepting := fun d handler hne =>
    ⟨by simpa [readBy] using receiving_setHandler_le hne c, Nat.le_refl _⟩
  cases event with
  | acceptLoop =>
    unfold exec
    dsimp only
    split
    · rw [h]
      exact ⟨hsame.1, Nat.add_le_add_left (Nat.zero_le _) _⟩
    · exact hsame
  | acceptReturns ok =>
    unfold exec
    dsimp only
    split
    · rename_i hat
      have haccepting : s.accepting = 1 := if_pos hat
      split
      · exact ⟨(hset s.nextClient .loopHead nofun).1, by rw [haccepting]; exact Nat.le_refl _⟩
      · rw [h]
        exact ⟨hsame.1, Nat.add_le_add_left (Nat.zero_le _) _⟩
    · exact hsame
  | handlerLoop d =>
    unfold exec
    dsimp only
    split
    · rw [h]
      exact hset d _ nofun
    · exact hsame
  | receive d result =>
    unfold exec
    dsimp only
    split
    swap
    · exact hsame
    rename_i hat
    cases result with
    | interrupted => exact hsame
    | failed => exact hset d _ nofun
    | received bytes =>
      have hread : ∀ {t : EchoServer} {handler : Handler}, t.clients = s.clients → handler ≠ .inReceive →
          (readBy [.read d bytes] c).length + (t.setHandler d handler).receiving c ≤ s.receiving c := by
        intro t handler ht hne
        by_cases hc : c = d
        · subst hc
          rw [receiving_setHandler hne]
          simp [readBy, receiving, hat]
        · rw [receiving_setHandler_of_ne handler hc]
          simp [readBy, receiving, ht, Ne.symm hc]
      unfold onReceive
      dsimp only
      split
      · exact hset d _ nofun
      split
      · exact ⟨hread rfl nofun, Nat.le_refl _⟩
      · exact ⟨hread rfl nofun, Nat.le_refl _⟩
  | send d result =>
    unfold exec
    dsimp only
    split
    swap
    · exact hsame
    cases result with
    | interrupted => exact hsame
    | failed => exact hset d _ nofun
    | sent n =>
      unfold onSend
      dsimp only
      split
      · exact hset d _ nofun
      · refine ⟨?_, Nat.le_refl _⟩
        split
        · exact (hset d (.inSend _ _) nofun).1
        · exact (hset d .loopHead nofun).1
  | stop => exact hsame

end EchoServer

/-- The server stops when it is told to, or when a message that is read says so. -/
theorem stopped_iff (pre : Bytes) (events : List Event) :
    ((echoMachine pre).run events).1.running = false ↔
      Event.stop ∈ events ∨ ∃ c, ∃ message ∈ readBy ((echoMachine pre).run events).2 c, message ∈ stopMessages := by
  refine (echoMachine pre).run_inv (P := fun is os s => s.running = false ↔
    Event.stop ∈ is ∨ ∃ c, ∃ message ∈ readBy os c, message ∈ stopMessages) ?_ (fun is os s event h => ?_) events
  · simp [echoMachine, readBy]
  · refine (s.running_exec pre event).trans ?_
    rw [h]
    simp only [List.mem_append, List.mem_singleton, readBy_append]
    constructor
    · rintro ((hstop | ⟨c, m, hm, hstop⟩) | rfl | ⟨c, m, hm, hstop⟩)
      · exact .inl (.inl hstop)
      · exact .inr ⟨c, m, .inl hm, hstop⟩
      · exact .inl (.inr rfl)
      · exact .inr ⟨c, m, .inr hm, hstop⟩
    · rintro ((hstop | heq) | ⟨c, m, hm | hm, hstop⟩)
      · exact .inl (.inl hstop)
      · exact .inr (.inl heq.symm)
      · exact .inl (.inr ⟨c, m, hm, hstop⟩)
      · exact .inr (.inr ⟨c, m, hm, hstop⟩)

/-- Once the server has stopped, only the calls that are under way can still accept a client or read a
message. -/
theorem drains (pre : Bytes) {events : List Event} (h : ((echoMachine pre).run events).1.running = false)
    (rest : List Event) (c : Nat) :
    (readBy ((echoMachine pre).run (events ++ rest)).2 c).length ≤
        (readBy ((echoMachine pre).run events).2 c).length +
          (if ((echoMachine pre).run events).1.clients c = some .inReceive then 1 else 0) ∧
      ((echoMachine pre).run (events ++ rest)).1.nextClient ≤ ((echoMachine pre).run events).1.nextClient +
        (if ((echoMachine pre).run events).1.acceptor = .inAccept then 1 else 0) := by
  have hinv : ((echoMachine pre).run (events ++ rest)).1.running = false ∧
      (readBy ((echoMachine pre).run (events ++ rest)).2 c).length +
          ((echoMachine pre).run (events ++ rest)).1.receiving c ≤
        (readBy ((echoMachine pre).run events).2 c).length + ((echoMachine pre).run events).1.receiving c ∧
      ((echoMachine pre).run (events ++ rest)).1.nextClient + ((echoMachine pre).run (events ++ rest)).1.accepting ≤
        ((echoMachine pre).run events).1.nextClient + ((echoMachine pre).run events).1.accepting := by
    induction rest using List.reverseRecOn with
    | nil =>
      rw [List.append_nil]
      exact ⟨h, Nat.le_refl _, Nat.le_refl _⟩
    | append_singleton rest event ih =>
      obtain ⟨hstop, hread, haccept⟩ := ih
      obtain ⟨hread', haccept'⟩ := EchoServer.exec_of_stopped pre hstop event c
      rw [← List.append_assoc, Machine.run_concat, readBy_append, List.length_append]
      refine ⟨(EchoServer.running_exec pre _ event).2 (.inl hstop), ?_, Nat.le_trans haccept' haccept⟩
      show _ + (readBy (EchoServer.exec pre _ event).2 c).length +
        (EchoServer.exec pre _ event).1.receiving c ≤ _
      omega
  exact ⟨Nat.le_trans (Nat.le_add_right ..) hinv.2.1, Nat.le_trans (Nat.le_add_right ..) hinv.2.2⟩

/-- The client 0 stops the server while the client 1 is read and a third one is accepted. -/
def stopRun : List Event :=
  [.acceptLoop, .acceptReturns true, .acceptLoop, .acceptReturns true, .acceptLoop, .handlerLoop 0, .handlerLoop 1,
    .receive 0 (.received (ascii "exit"))]

theorem drains_stopRun :
    (readBy ((echoMachine []).run (stopRun ++ [.receive 1 (.received (ascii "hi")), .acceptReturns true])).2 1).length ≤
        (readBy ((echoMachine []).run stopRun).2 1).length +
          (if ((echoMachine []).run stopRun).1.clients 1 = some .inReceive then 1 else 0) ∧
      ((echoMachine []).run (stopRun ++ [.receive 1 (.received (ascii "hi")), .acceptReturns true])).1.nextClient ≤
        ((echoMachine []).run stopRun).1.nextClient +
          (if ((echoMachine []).run stopRun).1.acceptor = .inAccept then 1 else 0) :=
  drains [] (by decide) _ 1

end Portfolio.TcpEcho
