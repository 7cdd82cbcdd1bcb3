import Portfolio.VideoEditor.UseWebSocket

/-!
# `WebSocketService`

The web socket side of the backend (`video-editor/backend/src/ws`). Connections are known by the order of
their creation, which stands for the ids of `uuidv4`. A socket reports its closing once, and nothing after
it. What is sent is an output; `close` of the service is left out.

Each connection gets the broadcasts since it was made, in their order and without a gap, until it is no
longer open or no longer listed, and none after that.
-/

namespace Portfolio.VideoEditor

structure WebSocketService where
  sockets : List ReadyState := []
  /-- The keys of `clients`. -/
  clients : List Nat := []
  deriving DecidableEq, Repr

/-- `connection` has the data of the greeting, and `message` no content if it cannot be parsed. -/
inductive ServiceEvent (δ : Type) where
  | connection (greeting : δ)
  | message (client : Nat) (content : Option (WSMessage δ)) (timestamp : δ)
  | closing (client : Nat)
  | closed (client : Nat)
  | error (client : Nat)
  | broadcastProgress (data : δ)
  | broadcastComplete (data : δ)
  | broadcastError (data : δ)
  | pingInterval (timestamp : δ)

/-- A message to a client. -/
structure Sent (δ : Type) where
  client : Nat
  message : WSMessage δ

namespace WebSocketService
variable {δ : Type}

def send (s : WebSocketService) (message : WSMessage δ) (client : Nat) : List (Sent δ) :=
  if s.sockets[client]? = some .opened then [⟨client, message⟩] else []

def broadcast (s : WebSocketService) (message : WSMessage δ) : WebSocketService × List (Sent δ) :=
  (s, s.clients.flatMap (s.send message))

def handleMessage (s : WebSocketService) (client : Nat) (message : WSMessage δ) (timestamp : δ) :
    List (Sent δ) :=
  match message.type with
  | .ping => s.send ⟨.pong, some timestamp⟩ client
  | _ => []

def step (s : WebSocketService) : ServiceEvent δ → WebSocketService × List (Sent δ)
  | .connection greeting =>
    let client := s.sockets.length
    let s := { sockets := s.sockets ++ [.opened], clients := s.clients ++ [client] }
    (s, s.send ⟨.ping, some greeting⟩ client)
  | .message client content timestamp => match content with
    | none => (s, [])
    | some message => (s, s.handleMessage client message timestamp)
  | .closing client => ({ s with sockets := s.sockets.modify client ReadyState.close }, [])
  | .closed client => ({ sockets := s.sockets.set client .closed, clients := s.clients.erase client }, [])
  | .error client => ({ s with clients := s.clients.erase client }, [])
  | .broadcastProgress data => s.broadcast ⟨.progress, some data⟩
  | .broadcastComplete data => s.broadcast ⟨.complete, some data⟩
  | .broadcastError data => s.broadcast ⟨.error, some data⟩
  | .pingInterval timestamp =>
    ({ s with clients := s.clients.filter fun client => s.sockets[client]? = some .opened },
      s.clients.flatMap (s.send ⟨.ping, some timestamp⟩))

def service : Machine WebSocketService (ServiceEvent δ) (Sent δ) where
  init := {}
  step := step

end WebSocketService

/-! ### What is broadcast -/

def ServiceEvent.broadcast? {δ : Type} : ServiceEvent δ → Option (WSMessage δ)
  | .broadcastProgress data => some ⟨.progress, some data⟩
  | .broadcastComplete data => some ⟨.complete, some data⟩
  | .broadcastError data => some ⟨.error, some data⟩
  | _ => none

def WSMessage.isBroadcast {δ : Type} (message : WSMessage δ) : Bool :=
  match message.type with
  | .progress | .complete | .error => true
  | .ping | .pong => false

variable {δ : Type}

/-- What is sent to a client. -/
def toClient (client : Nat) (sent : List (Sent δ)) : List (WSMessage δ) :=
  (sent.filter (·.client = client)).map Sent.message

def broadcastsTo (client : Nat) (sent : List (Sent δ)) : List (WSMessage δ) :=
  (toClient client sent).filter WSMessage.isBroadcast

def broadcasts (events : List (ServiceEvent δ)) : List (WSMessage δ) := events.filterMap ServiceEvent.broadcast?

/-- The broadcasts since the connection of a client. -/
def broadcastsSince : Nat → List (ServiceEvent δ) → List (WSMessage δ)
  | _, [] => []
  | 0, .connection _ :: events => broadcasts events
  | client + 1, .connection _ :: events => broadcastsSince client events
  | client, _ :: events => broadcastsSince client events

/-- The greetings of the connections, in their order. -/
def greetings : List (ServiceEvent δ) → List δ
  | [] => []
  | .connection greeting :: events => greeting :: greetings events
  | _ :: events => greetings events

section
variable {client : Nat} {event : ServiceEvent δ}

theorem broadcasts_concat (events : List (ServiceEvent δ)) (event : ServiceEvent δ) :
    broadcasts (events ++ [event]) = broadcasts events ++ event.broadcast?.toList := by
  rw [broadcasts, List.filterMap_append]
  cases h : event.broadcast? with
  | none => simp [broadcasts, h]
  | some message => simp [broadcasts, h]

theorem greetings_concat (events : List (ServiceEvent δ)) (event : ServiceEvent δ) :
    greetings (events ++ [event]) = greetings events ++ greetings [event] := by
  induction events with
  | nil => simp [greetings]
  | cons first events ih =>
    cases first with
    | connection greeting => rw [List.cons_append, greetings, ih, greetings, List.cons_append]
    | _ => exact ih

theorem length_greetings_le (events later : List (ServiceEvent δ)) :
    (greetings events).length ≤ (greetings (events ++ later)).length := by
  induction later using List.reverseRecOn with
  | nil => simp
  | append_singleton later event ih =>
    rw [← List.append_assoc, greetings_concat, List.length_append]
    exact Nat.le_add_right_of_le ih

theorem broadcastsSince_concat (events : List (ServiceEvent δ)) (client : Nat) (event : ServiceEvent δ) :
    broadcastsSince client (events ++ [event]) =
      broadcastsSince client events ++
        if client < (greetings events).length then event.broadcast?.toList else [] := by
  induction events generalizing client with
  | nil =>
    cases event with
    | connection greeting => cases client <;> rfl
    | _ => rfl
  | cons first events ih =>
    cases first with
    | connection greeting =>
      cases client with
      | zero =>
        rw [greetings, List.length_cons, if_pos (Nat.succ_pos _)]
        exact broadcasts_concat events event
      | succ client =>
        simp only [greetings, List.length_cons, Nat.add_lt_add_iff_right]
        exact ih client
    | _ => exact ih client

theorem broadcastsSince_of_unknown {events : List (ServiceEvent δ)} (h : (greetings events).length ≤ client) :
    broadcastsSince client events = [] := by
  induction events generalizing client with
  | nil => cases client <;> rfl
  | cons first events ih =>
    cases first with
    | connection greeting =>
      cases client with
      | zero => exact absurd h (Nat.not_succ_le_zero _)
      | succ client => exact ih (Nat.le_of_succ_le_succ h)
    | _ => exact ih h

end

/-! ### What a client gets -/

namespace WebSocketService

/-- The client is broadcast to. -/
def Receives (s : WebSocketService) (client : Nat) : Prop :=
  client ∈ s.clients ∧ s.sockets[client]? = some .opened

instance (s : WebSocketService) (client : Nat) : Decidable (s.Receives client) :=
  inferInstanceAs (Decidable (_ ∧ _))

theorem toClient_append (client : Nat) (sent later : List (Sent δ)) :
    toClient client (sent ++ later) = toClient client sent ++ toClient client later := by
  simp [toClient]

theorem broadcastsTo_append (client : Nat) (sent later : List (Sent δ)) :
    broadcastsTo client (sent ++ later) = broadcastsTo client sent ++ broadcastsTo client later := by
  simp [broadcastsTo, toClient_append]

theorem toClient_send (s : WebSocketService) (message : WSMessage δ) (client other : Nat) :
    toClient client (s.send message other) =
      if other = client ∧ s.sockets[client]? = some .opened then [message] else [] := by
  unfold send
  by_cases hsame : other = client
  · subst hsame
    by_cases hopen : s.sockets[other]? = some .opened
    · simp [hopen, toClient]
    · simp [hopen, toClient]
  · by_cases hopen : s.sockets[other]? = some .opened
    · simp [hopen, hsame, toClient]
    · simp [hopen, hsame, toClient]

theorem toClient_flatMap_send (s : WebSocketService) (message : WSMessage δ) (client : Nat) {l : List Nat}
    (h : l.Nodup) : toClient client (l.flatMap (s.send message)) =
      if client ∈ l ∧ s.sockets[client]? = some .opened then [message] else [] := by
  induction l with
  | nil => simp [toClient]
  | cons other l ih =>
    obtain ⟨hother, hl⟩ := List.nodup_cons.1 h
    rw [List.flatMap_cons, toClient_append, toClient_send, ih hl]
    by_cases hopen : s.sockets[client]? = some .opened
    · by_cases hsame : other = client
      · subst hsame
        simp [hopen, hother]
      · simp [hopen, hsame, Ne.symm hsame]
    · simp [hopen]

/-- Every client is in the list once, and has been made. -/
structure Listed (s : WebSocketService) : Prop where
  nodup : s.clients.Nodup
  known : ∀ client ∈ s.clients, client < s.sockets.length

theorem Listed.step {s : WebSocketService} (h : Listed s) (event : ServiceEvent δ) : Listed (s.step event).1 := by
  cases event with
  | connection greeting =>
    have hnew : s.sockets.length ∉ s.clients := fun hmem => Nat.lt_irrefl _ (h.known _ hmem)
    have hone : [s.sockets.length].Nodup := List.nodup_cons.2 ⟨List.not_mem_nil, List.nodup_nil⟩
    refine ⟨List.nodup_append.2 ⟨h.nodup, hone, ?_⟩, fun client hclient => ?_⟩
    · rintro client hclient _ hsame rfl
      exact hnew (List.mem_singleton.1 hsame ▸ hclient)
    · show client < (s.sockets ++ [ReadyState.opened]).length
      rw [List.length_append, List.length_singleton]
      rcases List.mem_append.1 hclient with hclient | hclient
      · exact Nat.lt_succ_of_lt (h.known client hclient)
      · rw [List.mem_singleton.1 hclient]
        exact Nat.lt_succ_self _
  | message client content timestamp =>
    cases content with
    | none => exact h
    | some message => exact h
  | closing client =>
    refine ⟨h.nodup, fun other hother => ?_⟩
    show other < (s.sockets.modify client ReadyState.close).length
    rw [List.length_modify]
    exact h.known other hother
  | closed client =>
    refine ⟨h.nodup.erase client, fun other hother => ?_⟩
    show other < (s.sockets.set client .closed).length
    rw [List.length_set]
    exact h.known other (List.mem_of_mem_erase hother)
  | error client => exact ⟨h.nodup.erase client, fun other hother => h.known other (List.mem_of_mem_erase hother)⟩
  | broadcastProgress data => exact h
  | broadcastComplete data => exact h
  | broadcastError data => exact h
  | pingInterval timestamp =>
    exact ⟨h.nodup.filter _, fun other hother => h.known other (List.mem_filter.1 hother).1⟩

variable {s : WebSocketService} {client : Nat} {event : ServiceEvent δ}

/-- An event sends its broadcast to those that receive, and no other broadcast. -/
theorem Listed.broadcastsTo_step (h : Listed s) (event : ServiceEvent δ) (client : Nat) :
    broadcastsTo client (s.step event).2 = if s.Receives client then event.broadcast?.toList else [] := by
  have hsend : ∀ (message : WSMessage δ) (other : Nat) (s : WebSocketService), message.isBroadcast = false →
      broadcastsTo client (s.send message other) = [] := by
    intro message other s hmessage
    rw [broadcastsTo, toClient_send]
    split <;> simp [hmessage]
  have hall : ∀ message : WSMessage δ, broadcastsTo client (s.clients.flatMap (s.send message)) =
      if s.Receives client then [message].filter WSMessage.isBroadcast else [] := by
    intro message
    rw [broadcastsTo, toClient_flatMap_send s message client h.nodup]
    have hreceives : s.Receives client ↔ client ∈ s.clients ∧ s.sockets[client]? = some .opened := Iff.rfl
    simp only [hreceives]
    split
    · rfl
    · rfl
  cases event with
  | connection greeting =>
    refine (hsend ⟨.ping, some greeting⟩ s.sockets.length _ rfl).trans ?_
    simp [ServiceEvent.broadcast?]
  | message other content timestamp =>
    have hnone : broadcastsTo client (s.step (.message other content timestamp)).2 = [] := by
      cases content with
      | none => rfl
      | some message =>
        show broadcastsTo client (s.handleMessage other message timestamp) = []
        unfold handleMessage
        cases message.type with
        | ping => exact hsend ⟨.pong, some timestamp⟩ other s rfl
        | _ => rfl
    rw [hnone]
    simp [ServiceEvent.broadcast?]
  | closing other => simp [WebSocketService.step, ServiceEvent.broadcast?, broadcastsTo, toClient]
  | closed other => simp [WebSocketService.step, ServiceEvent.broadcast?, broadcastsTo, toClient]
  | error other => simp [WebSocketService.step, ServiceEvent.broadcast?, broadcastsTo, toClient]
  | broadcastProgress data => exact hall ⟨.progress, some data⟩
  | broadcastComplete data => exact hall ⟨.complete, some data⟩
  | broadcastError data => exact hall ⟨.error, some data⟩
  | pingInterval timestamp =>
    refine (hall ⟨.ping, some timestamp⟩).trans ?_
    simp [ServiceEvent.broadcast?, WSMessage.isBroadcast]

/-- A client that is not broadcast to never is again. -/
theorem receives_of_step (hclient : client < s.sockets.length) (h : (s.step event).1.Receives client) :
    s.Receives client := by
  obtain ⟨hlisted, hopen⟩ := h
  cases event with
  | connection greeting =>
    have hold : (s.sockets ++ [ReadyState.opened])[client]? = some .opened := hopen
    rw [List.getElem?_append_left hclient] at hold
    refine ⟨?_, hold⟩
    rcases List.mem_append.1 hlisted with hlisted | hnew
    · exact hlisted
    · exact absurd (List.mem_singleton.1 hnew) (Nat.ne_of_lt hclient)
  | message other content timestamp =>
    cases content with
    | none => exact ⟨hlisted, hopen⟩
    | some message => exact ⟨hlisted, hopen⟩
  | closing other =>
    refine ⟨hlisted, ?_⟩
    have hmodified : (s.sockets.modify other ReadyState.close)[client]? = some .opened := hopen
    rw [List.getElem?_modify] at hmodified
    obtain ⟨state, hstate, hclose⟩ := Option.map_eq_some_iff.1 hmodified
    by_cases hsame : other = client
    · rw [if_pos hsame] at hclose
      cases state <;> exact absurd hclose (by decide)
    · rw [if_neg hsame] at hclose
      rw [hstate]
      exact congrArg some hclose
  | closed other =>
    have hset : (s.sockets.set other .closed)[client]? = some .opened := hopen
    refine ⟨List.mem_of_mem_erase hlisted, ?_⟩
    by_cases hsame : other = client
    · subst hsame
      rw [List.getElem?_set_self hclient] at hset
      exact absurd hset (by decide)
    · rwa [List.getElem?_set_ne hsame] at hset
  | error other => exact ⟨List.mem_of_mem_erase hlisted, hopen⟩
  | broadcastProgress data => exact ⟨hlisted, hopen⟩
  | broadcastComplete data => exact ⟨hlisted, hopen⟩
  | broadcastError data => exact ⟨hlisted, hopen⟩
  | pingInterval timestamp => exact ⟨(List.mem_filter.1 hlisted).1, hopen⟩

theorem length_sockets_step (s : WebSocketService) (event : ServiceEvent δ) :
    (s.step event).1.sockets.length = s.sockets.length + (greetings [event]).length := by
  cases event with
  | connection greeting => exact List.length_append
  | message client content timestamp => cases content <;> rfl
  | closing client => exact List.length_modify _ _ _
  | closed client => exact List.length_set
  | _ => rfl

theorem toClient_send_of_unknown (s : WebSocketService) (message : WSMessage δ) (other : Nat)
    (hclient : s.sockets.length ≤ client) : toClient client (s.send message other) = [] := by
  rw [toClient_send, List.getElem?_eq_none hclient, if_neg]
  exact fun h => nomatch h.2

/-- Before its connection nothing is sent to a client, and with it the greeting. -/
theorem Listed.toClient_step_of_unknown (h : Listed s) (event : ServiceEvent δ)
    (hclient : s.sockets.length ≤ client) : toClient client (s.step event).2 =
      ((greetings [event])[client - s.sockets.length]?.map fun greeting => ⟨.ping, some greeting⟩).toList := by
  have hall : ∀ message : WSMessage δ, toClient client (s.clients.flatMap (s.send message)) = [] := by
    intro message
    rw [toClient_flatMap_send s message client h.nodup, List.getElem?_eq_none hclient, if_neg]
    exact fun h => nomatch h.2
  cases event with
  | connection greeting =>
    refine (toClient_send _ _ _ _).trans ?_
    by_cases hsame : s.sockets.length = client
    · subst hsame
      simp [greetings]
    · have hlater : [greeting][client - s.sockets.length]? = none :=
        List.getElem?_eq_none (by rw [List.length_singleton]; omega)
      rw [if_neg fun h => hsame h.1]
      simp only [greetings, hlater]
      rfl
  | message other content timestamp =>
    cases content with
    | none => rfl
    | some message =>
      show toClient client (s.handleMessage other message timestamp) = _
      unfold handleMessage
      cases message.type with
      | ping => exact toClient_send_of_unknown s _ other hclient
      | _ => rfl
  | closing other => rfl
  | closed other => rfl
  | error other => rfl
  | broadcastProgress data => exact hall _
  | broadcastComplete data => exact hall _
  | broadcastError data => exact hall _
  | pingInterval timestamp => exact hall _

/-- What the service has sent after some events. -/
structure Told (events : List (ServiceEvent δ)) (sent : List (Sent δ)) (s : WebSocketService) : Prop where
  listed : Listed s
  connections : s.sockets.length = (greetings events).length
  greeted : ∀ client, (toClient client sent).head? =
    (greetings events)[client]?.map fun greeting => ⟨.ping, some greeting⟩
  isPrefix : ∀ client, broadcastsTo client sent <+: broadcastsSince client events
  all : ∀ client, s.Receives client → broadcastsTo client sent = broadcastsSince client events

theorem Told.step {events : List (ServiceEvent δ)} {sent : List (Sent δ)} (h : Told events sent s)
    (event : ServiceEvent δ) : Told (events ++ [event]) (sent ++ (s.step event).2) (s.step event).1 where
  listed := h.listed.step event
  connections := by rw [length_sockets_step, h.connections, greetings_concat, List.length_append]
  greeted client := by
    rw [toClient_append, List.head?_append, h.greeted client, greetings_concat]
    rcases Nat.lt_or_ge client (greetings events).length with hold | hnew
    · rw [List.getElem?_append_left hold, List.getElem?_eq_getElem hold, Option.map_some, Option.some_or]
    · rw [h.listed.toClient_step_of_unknown event (h.connections ▸ hnew), List.getElem?_append_right hnew,
        List.getElem?_eq_none hnew, h.connections, Option.map_none, Option.none_or, Option.head?_toList]
  isPrefix client := by
    rw [broadcastsTo_append, h.listed.broadcastsTo_step, broadcastsSince_concat]
    by_cases hr : s.Receives client
    · rw [if_pos hr, if_pos (h.connections ▸ h.listed.known client hr.1)]
      exact h.all client hr ▸ List.prefix_refl _
    · rw [if_neg hr, List.append_nil]
      exact (h.isPrefix client).trans (List.prefix_append ..)
  all client hafter := by
    rw [broadcastsTo_append, h.listed.broadcastsTo_step, broadcastsSince_concat]
    rcases Nat.lt_or_ge client (greetings events).length with hold | hnew
    · have hr : s.Receives client := receives_of_step (h.connections ▸ hold) hafter
      rw [if_pos hr, if_pos hold, h.all client hr]
    · have hnone : ¬ s.Receives client := fun hr =>
        Nat.not_lt_of_le hnew (h.connections ▸ h.listed.known client hr.1)
      have hsilent := h.isPrefix client
      rw [broadcastsSince_of_unknown hnew] at hsilent ⊢
      rw [if_neg hnone, if_neg (Nat.not_lt_of_le hnew), List.prefix_nil.1 hsilent]

theorem Told.init : Told ([] : List (ServiceEvent δ)) [] {} where
  listed := ⟨List.nodup_nil, fun _ hclient => absurd hclient List.not_mem_nil⟩
  connections := rfl
  greeted _ := rfl
  isPrefix _ := List.nil_prefix
  all _ hr := absurd hr.1 List.not_mem_nil

theorem told_run (events : List (ServiceEvent δ)) : Told events (service.run events).2 (service.run events).1 :=
  service.run_inv (P := fun events sent s => Told events sent s) Told.init
    (fun _ _ _ event h => h.step event) events

/-- A client that is not broadcast to stays so. -/
theorem broadcastsTo_later {events : List (ServiceEvent δ)} (hclient : client < (greetings events).length)
    (hr : ¬ (service.run events).1.Receives client) (later : List (ServiceEvent δ)) :
    broadcastsTo client (service.run (events ++ later)).2 = broadcastsTo client (service.run events).2 ∧
      ¬ (service.run (events ++ later)).1.Receives client := by
  induction later using List.reverseRecOn with
  | nil =>
    rw [List.append_nil]
    exact ⟨rfl, hr⟩
  | append_singleton later event ih =>
    obtain ⟨hsame, hnot⟩ := ih
    have htold := told_run (events ++ later)
    rw [← List.append_assoc, Machine.run_concat]
    constructor
    · dsimp only
      rw [broadcastsTo_append, hsame]
      have hstep := htold.listed.broadcastsTo_step event client
      rw [if_neg hnot] at hstep
      rw [show service.step = WebSocketService.step from rfl, hstep, List.append_nil]
    · intro hafter
      refine hnot (receives_of_step ?_ hafter)
      rw [htold.connections]
      exact Nat.lt_of_lt_of_le hclient (length_greetings_le events later)

/-- In every order of events a client is in the list at most once and is greeted first. It gets the
broadcasts since its connection from the first on: all of them while it is open and listed, and no more
after that. -/
theorem service_broadcasts (events : List (ServiceEvent δ)) :
    (service.run events).1.clients.Nodup ∧
      ∀ client greeting, (greetings events)[client]? = some greeting →
        (toClient client (service.run events).2).head? = some ⟨.ping, some greeting⟩ ∧
        broadcastsTo client (service.run events).2 <+: broadcastsSince client events ∧
        if (service.run events).1.Receives client then
          broadcastsTo client (service.run events).2 = broadcastsSince client events
        else ∀ later, broadcastsTo client (service.run (events ++ later)).2 =
          broadcastsTo client (service.run events).2 := by
  have htold := told_run events
  refine ⟨htold.listed.nodup, fun client greeting hgreeting => ⟨?_, htold.isPrefix client, ?_⟩⟩
  · rw [htold.greeted client, hgreeting]
    rfl
  · obtain ⟨hclient, -⟩ := List.getElem?_eq_some_iff.1 hgreeting
    by_cases hr : (service.run events).1.Receives client
    · rw [if_pos hr]
      exact htold.all client hr
    · rw [if_neg hr]
      exact fun later => (broadcastsTo_later hclient hr later).1

end WebSocketService

end Portfolio.VideoEditor
