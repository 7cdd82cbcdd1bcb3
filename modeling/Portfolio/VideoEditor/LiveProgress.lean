import Portfolio.VideoEditor.WebSocketService

/-!
# Pages and the service

The pages (`UseWebSocket`) and the service (`WebSocketService`) with the connections between them. A
connection keeps the order of its messages; it can break at either end at any time, and what is then under
way is lost. A page can go away (`cleanup`), and strangers can connect as well and send what they like.

What a page is told over all its connections together is in the order of the broadcasts, and none of it
comes twice (`live_progress`).
-/

namespace Portfolio.VideoEditor

/-- A connection of the service: the page and the socket at the other end, if it is a page, and what is
under way. -/
structure Wire (δ : Type) where
  page : Option (Nat × Nat) := none
  down : List (WSMessage δ) := []
  up : List (WSMessage δ) := []

/-- The wires are in the order of the clients of the service. -/
structure LiveProgress (δ : Type) where
  service : WebSocketService := {}
  pages : List (UseWebSocket δ) := []
  wires : List (Wire δ) := []

inductive LiveEvent (δ : Type) where
  | mount (throws : Bool)
  | unmount (page : Nat)
  | page (page : Nat) (event : HookEvent δ)
  | accept (page socket : Nat) (greeting : δ)
  | stranger (greeting : δ)
  | deliver (client : Nat)
  | receive (client : Nat) (timestamp : δ)
  | service (event : ServiceEvent δ)

inductive LiveOutput (δ : Type) where
  | served (event : ServiceEvent δ)
  | delivered (page : Nat) (message : WSMessage δ)

namespace LiveProgress
variable {δ : Type}

def serve (s : LiveProgress δ) (event : ServiceEvent δ) : LiveProgress δ × List (LiveOutput δ) :=
  ({ s with
      service := (s.service.step event).1
      wires := s.wires.mapIdx fun client wire =>
        { wire with down := wire.down ++ toClient client (s.service.step event).2 } },
    [.served event])

def connect (s : LiveProgress δ) (page : Option (Nat × Nat)) (greeting : δ) :
    LiveProgress δ × List (LiveOutput δ) :=
  serve { s with wires := s.wires ++ [{ page := page }] } (.connection greeting)

def pongs (output : List HookOutput) : List (WSMessage δ) :=
  output.filterMap fun
    | .sendPong _ => some ⟨.pong, none⟩
    | .newWebSocket => none

/-- The first message that is under way to a page. It waits until the socket is open, and a socket that is
closing or closed drops it. -/
def deliver (s : LiveProgress δ) (client : Nat) : LiveProgress δ × List (LiveOutput δ) :=
  match s.wires[client]? with
  | some ⟨some (page, socket), message :: down, up⟩ => match s.pages[page]? with
    | none => (s, [])
    | some hook => match hook.sockets[socket]? with
      | none | some .connecting => (s, [])
      | some .opened =>
        let next := hook.step (.message socket (some message))
        ({ s with
            pages := s.pages.set page next.1
            wires := s.wires.set client ⟨some (page, socket), down, up ++ pongs next.2⟩ },
          [.delivered page message])
      | some .closing | some .closed =>
        ({ s with wires := s.wires.set client ⟨some (page, socket), down, up⟩ }, [])
  | _ => (s, [])

def receive (s : LiveProgress δ) (client : Nat) (timestamp : δ) : LiveProgress δ × List (LiveOutput δ) :=
  match s.wires[client]? with
  | some ⟨page, down, message :: up⟩ =>
    serve { s with wires := s.wires.set client ⟨page, down, up⟩ } (.message client (some message) timestamp)
  | _ => (s, [])

def step (s : LiveProgress δ) : LiveEvent δ → LiveProgress δ × List (LiveOutput δ)
  | .mount throws => ({ s with pages := s.pages ++ [(UseWebSocket.connect throws {}).1] }, [])
  | .unmount page => ({ s with pages := s.pages.modify page UseWebSocket.cleanup }, [])
  | .page page event => match event with
    -- messages come off a wire only
    | .message _ _ => (s, [])
    | event => ({ s with pages := s.pages.modify page fun hook => (hook.step event).1 }, [])
  | .accept page socket greeting => match s.pages[page]? with
    | none => (s, [])
    | some hook =>
      if socket < hook.sockets.length ∧ ∀ wire ∈ s.wires, wire.page ≠ some (page, socket) then
        s.connect (some (page, socket)) greeting
      else (s, [])
  | .stranger greeting => s.connect none greeting
  | .deliver client => s.deliver client
  | .receive client timestamp => s.receive client timestamp
  | .service event => match event with
    | .connection _ => (s, [])
    | event => s.serve event

def live : Machine (LiveProgress δ) (LiveEvent δ) (LiveOutput δ) where
  init := {}
  step := step

end LiveProgress

/-! ### What an event does to a page -/

/-- A socket that has not begun to close. -/
def ReadyState.Reads (state : Option ReadyState) : Prop := state = some .connecting ∨ state = some .opened

theorem ReadyState.unclosed_close (state : ReadyState) : state.close.unclosed = state.unclosed := by
  cases state <;> rfl

namespace UseWebSocket
variable {δ : Type} {s : UseWebSocket δ} {socket : Nat}

theorem sockets_cleanup (s : UseWebSocket δ) :
    s.cleanup.sockets = s.sockets ∨ ∃ closing, s.cleanup.sockets = s.sockets.modify closing ReadyState.close := by
  rcases h : s.ws with _ | closing
  · exact .inl (by simp [cleanup, h])
  · exact .inr ⟨closing, by simp [cleanup, h]⟩

/-- The cleanup closes a socket or leaves it as it is. -/
theorem getElem?_sockets_cleanup (s : UseWebSocket δ) (socket : Nat) :
    s.cleanup.sockets[socket]? = s.sockets[socket]? ∨
      s.cleanup.sockets[socket]? = s.sockets[socket]?.map ReadyState.close := by
  rcases sockets_cleanup s with h | ⟨closing, h⟩
  · exact .inl (by rw [h])
  · rw [h, List.getElem?_modify]
    by_cases hsame : closing = socket
    · exact .inr (by simp [hsame])
    · exact .inl (by simp [hsame])

theorem unclosed_cleanup (s : UseWebSocket δ) : s.cleanup.unclosed = s.unclosed := by
  rw [unclosed, unclosed]
  rcases sockets_cleanup s with h | ⟨closing, h⟩
  · rw [h]
  · rw [h]
    rcases hstate : s.sockets[closing]? with _ | state
    · rw [List.modify_eq_self (List.getElem?_eq_none_iff.1 hstate)]
    · have hsum := sum_map_set ReadyState.unclosed hstate state.close
      rw [ReadyState.unclosed_close] at hsum
      have hset : s.sockets.modify closing ReadyState.close = s.sockets.set closing state.close := by
        refine List.ext_getElem? fun i => ?_
        rw [List.getElem?_modify]
        by_cases hsame : closing = i
        · subst hsame
          obtain ⟨hlt, -⟩ := List.getElem?_eq_some_iff.1 hstate
          simp [hstate, List.getElem?_set_self hlt]
        · simp [hsame, List.getElem?_set_ne hsame]
      rw [hset]
      exact Nat.add_right_cancel hsum

theorem timeouts_cleanup_sublist (s : UseWebSocket δ) : s.cleanup.timeouts.Sublist s.timeouts := by
  rw [cleanup]
  cases s.reconnectTimeout with
  | none => exact List.Sublist.refl _
  | some id => exact List.erase_sublist

/-- The page still has at most one socket or timeout. -/
theorem Mounted.cleanup (h : Mounted s) : Mounted s.cleanup := by
  refine ⟨?_, fun socket state hsocket hne => ?_, fun id hid => ?_⟩
  · rw [unclosed_cleanup]
    exact Nat.le_trans (Nat.add_le_add_left (timeouts_cleanup_sublist s).length_le _) h.one
  · rcases getElem?_sockets_cleanup s socket with hsame | hclosed
    · exact h.ws socket state (hsame ▸ hsocket) hne
    · rw [hsocket] at hclosed
      obtain ⟨old, hold, rfl⟩ := Option.map_eq_some_iff.1 hclosed.symm
      refine h.ws socket old hold fun hold => hne ?_
      rw [hold]
      rfl
  · exact h.reconnectTimeout id ((timeouts_cleanup_sublist s).subset hid)

theorem reads_of_cleanup (h : ReadyState.Reads s.cleanup.sockets[socket]?) :
    ReadyState.Reads s.sockets[socket]? := by
  rcases getElem?_sockets_cleanup s socket with hsame | hclosed
  · rwa [hsame] at h
  · rw [hclosed] at h
    rcases h with h | h
    · obtain ⟨old, -, hold⟩ := Option.map_eq_some_iff.1 h
      cases old <;> cases hold
    · obtain ⟨old, -, hold⟩ := Option.map_eq_some_iff.1 h
      cases old <;> cases hold

theorem length_sockets_cleanup (s : UseWebSocket δ) : s.cleanup.sockets.length = s.sockets.length := by
  rcases sockets_cleanup s with h | ⟨closing, h⟩
  · rw [h]
  · rw [h, List.length_modify]

/-- An event sets one socket or makes a new one. -/
theorem sockets_step (s : UseWebSocket δ) (event : HookEvent δ) :
    (s.step event).1.sockets = s.sockets ∨ (s.step event).1.sockets = s.sockets ++ [.connecting] ∨
      (∃ socket, s.sockets[socket]? = some .connecting ∧
        (s.step event).1.sockets = s.sockets.set socket .opened) ∨
      ∃ socket, (s.step event).1.sockets = s.sockets.set socket .closed := by
  cases event with
  | opened socket =>
    rw [UseWebSocket.step]
    split
    · next h => exact .inr (.inr (.inl ⟨socket, h, rfl⟩))
    · exact .inl rfl
  | message socket content =>
    rw [UseWebSocket.step]
    split
    · rcases content with _ | ⟨type, data⟩
      · exact .inl rfl
      · cases type <;> exact .inl rfl
    · exact .inl rfl
  | closed socket =>
    rw [UseWebSocket.step]
    split
    · exact .inl rfl
    · exact .inl rfl
    · exact .inr (.inr (.inr ⟨socket, rfl⟩))
  | error socket => exact .inl rfl
  | timeout id throws =>
    rw [UseWebSocket.step]
    split
    · cases throws with
      | true => exact .inl rfl
      | false => exact .inr (.inl rfl)
    · exact .inl rfl

theorem length_sockets_step (s : UseWebSocket δ) (event : HookEvent δ) :
    s.sockets.length ≤ (s.step event).1.sockets.length := by
  rcases sockets_step s event with h | h | ⟨socket, -, h⟩ | ⟨socket, h⟩
  · exact h ▸ Nat.le_refl _
  · rw [h, List.length_append]
    exact Nat.le_add_right _ _
  · exact h ▸ List.length_set ▸ Nat.le_refl _
  · exact h ▸ List.length_set ▸ Nat.le_refl _

theorem reads_of_step {event : HookEvent δ} (hsocket : socket < s.sockets.length)
    (h : ReadyState.Reads (s.step event).1.sockets[socket]?) : ReadyState.Reads s.sockets[socket]? := by
  rcases sockets_step s event with hstep | hstep | ⟨other, hother, hstep⟩ | ⟨other, hstep⟩
  · rwa [hstep] at h
  · rwa [hstep, List.getElem?_append_left hsocket] at h
  · rw [hstep] at h
    by_cases hsame : other = socket
    · exact .inl (hsame ▸ hother)
    · rwa [List.getElem?_set_ne hsame] at h
  · rw [hstep] at h
    by_cases hsame : other = socket
    · rw [hsame, List.getElem?_set_self hsocket] at h
      rcases h with h | h <;> cases h
    · rwa [List.getElem?_set_ne hsame] at h

theorem progress_step (s : UseWebSocket δ) {event : HookEvent δ}
    (hevent : ∀ socket content, event ≠ .message socket content) : (s.step event).1.progress = s.progress := by
  cases event with
  | opened socket =>
    rw [UseWebSocket.step]
    split <;> rfl
  | message socket content => exact absurd rfl (hevent socket content)
  | closed socket =>
    rw [UseWebSocket.step]
    split <;> rfl
  | error socket => rfl
  | timeout id throws =>
    rw [UseWebSocket.step]
    split
    · cases throws <;> rfl
    · rfl

end UseWebSocket

/-! ### What a page is told -/

variable {δ : Type}

/-- The events of the service. -/
def served (output : List (LiveOutput δ)) : List (ServiceEvent δ) :=
  output.filterMap fun
    | .served event => some event
    | .delivered _ _ => none

/-- The messages that a page got over all its connections. -/
def delivered (page : Nat) (output : List (LiveOutput δ)) : List (WSMessage δ) :=
  output.filterMap fun
    | .served _ => none
    | .delivered other message => if other = page then some message else none

/-- The data of the last `progress` message. -/
def lastProgress (messages : List (WSMessage δ)) : Option δ :=
  ((messages.filter (·.type = .progress)).getLast?).bind WSMessage.data

section
variable {output : List (LiveOutput δ)} {page : Nat}

theorem served_concat_served (output : List (LiveOutput δ)) (event : ServiceEvent δ) :
    served (output ++ [.served event]) = served output ++ [event] := by
  simp [served]

theorem served_concat_delivered (output : List (LiveOutput δ)) (page : Nat) (message : WSMessage δ) :
    served (output ++ [.delivered page message]) = served output := by
  simp [served]

theorem delivered_concat_served (page : Nat) (output : List (LiveOutput δ)) (event : ServiceEvent δ) :
    delivered page (output ++ [.served event]) = delivered page output := by
  simp [delivered]

theorem delivered_concat_delivered (page other : Nat) (output : List (LiveOutput δ)) (message : WSMessage δ) :
    delivered page (output ++ [.delivered other message]) =
      delivered page output ++ if other = page then [message] else [] := by
  by_cases h : other = page
  · simp [delivered, h]
  · simp [delivered, h]

theorem lastProgress_concat (messages : List (WSMessage δ)) (message : WSMessage δ) :
    lastProgress (messages ++ [message]) =
      if message.type = .progress then message.data else lastProgress messages := by
  by_cases h : message.type = .progress
  · simp [lastProgress, h]
  · simp [lastProgress, h]

/-- The last of some messages with a `progress` among them does not depend on what came before. -/
theorem lastProgress_append {messages : List (WSMessage δ)} (h : ∃ message ∈ messages, message.type = .progress)
    (earlier : List (WSMessage δ)) : lastProgress (earlier ++ messages) = lastProgress messages := by
  obtain ⟨message, hmessage, htype⟩ := h
  have hne : messages.filter (·.type = .progress) ≠ [] :=
    List.ne_nil_of_mem (List.mem_filter.2 ⟨hmessage, decide_eq_true htype⟩)
  obtain ⟨rest, last, hlast⟩ := (List.eq_nil_or_concat (messages.filter (·.type = .progress))).resolve_left hne
  rw [lastProgress, lastProgress, List.filter_append, hlast, List.concat_eq_append, ← List.append_assoc,
    List.getLast?_concat, List.getLast?_concat]

theorem lastProgress_filter_isBroadcast (messages : List (WSMessage δ)) :
    lastProgress (messages.filter WSMessage.isBroadcast) = lastProgress messages := by
  have hkept : ∀ message : WSMessage δ,
      (decide (message.type = .progress) && message.isBroadcast) = decide (message.type = .progress) := by
    intro message
    rw [WSMessage.isBroadcast]
    cases message.type <;> rfl
  simp only [lastProgress, List.filter_filter, hkept]

end

/-- What a page has been told and what is under way to it over its connection: some of the broadcasts from
before the connection, and then what the service has sent to it. -/
def UpToDate (told down : List (WSMessage δ)) (events : List (ServiceEvent δ)) (client : Nat) : Prop :=
  ∃ before earlier, broadcasts events = before ++ broadcastsSince client events ∧ earlier.Sublist before ∧
    told ++ down = earlier ++ broadcastsTo client (WebSocketService.service.run events).2

section UpToDate
variable {told down : List (WSMessage δ)} {events : List (ServiceEvent δ)} {client : Nat}

theorem UpToDate.sublist (h : UpToDate told down events client) : told.Sublist (broadcasts events) := by
  obtain ⟨before, earlier, hbroadcasts, hearlier, htold⟩ := h
  refine (List.sublist_append_left told down).trans ?_
  rw [htold, hbroadcasts]
  exact hearlier.append ((WebSocketService.told_run events).isPrefix client).sublist

theorem UpToDate.serve (h : UpToDate told down events client) (hclient : client < (greetings events).length)
    (event : ServiceEvent δ) :
    UpToDate told (down ++ broadcastsTo client ((WebSocketService.service.run events).1.step event).2)
      (events ++ [event]) client := by
  obtain ⟨before, earlier, hbroadcasts, hearlier, htold⟩ := h
  refine ⟨before, earlier, ?_, hearlier, ?_⟩
  · rw [broadcasts_concat, broadcastsSince_concat, if_pos hclient, hbroadcasts, List.append_assoc]
  · rw [Machine.run_concat]
    dsimp only
    rw [WebSocketService.broadcastsTo_append, ← List.append_assoc, htold, List.append_assoc]
    rfl

/-- A new connection has nothing of the broadcasts yet. -/
theorem UpToDate.connect (h : told.Sublist (broadcasts events)) (greeting : δ) :
    UpToDate told (broadcastsTo (greetings events).length
      ((WebSocketService.service.run events).1.step (.connection greeting)).2)
      (events ++ [.connection greeting]) (greetings events).length := by
  have hsince : broadcastsSince (greetings events).length (events ++ [.connection greeting]) = [] := by
    rw [broadcastsSince_concat, broadcastsSince_of_unknown (Nat.le_refl _), if_neg (Nat.lt_irrefl _)]
    rfl
  have hnone := (WebSocketService.told_run (events ++ [.connection greeting])).isPrefix (greetings events).length
  rw [hsince, List.prefix_nil] at hnone
  refine ⟨broadcasts events, told, ?_, h, ?_⟩
  · rw [hsince, broadcasts_concat]
    rfl
  · rw [hnone]
    rw [Machine.run_concat] at hnone
    dsimp only at hnone
    rw [WebSocketService.broadcastsTo_append, List.append_eq_nil_iff] at hnone
    exact congrArg _ hnone.2

end UpToDate

namespace LiveProgress

/-- What holds of a page that got `got`. -/
structure PageOf (wires : List (Wire δ)) (events : List (ServiceEvent δ)) (got : List (WSMessage δ))
    (page : Nat) (hook : UseWebSocket δ) : Prop where
  mounted : hook.Mounted
  sublist : (got.filter WSMessage.isBroadcast).Sublist (broadcasts events)
  progress : hook.progress = lastProgress got
  current : ∀ client wire socket, wires[client]? = some wire → wire.page = some (page, socket) →
    ReadyState.Reads hook.sockets[socket]? →
      UpToDate (got.filter WSMessage.isBroadcast) (wire.down.filter WSMessage.isBroadcast) events client

/-- Every wire of a page is at a socket of its own. -/
structure Wired (pages : List (UseWebSocket δ)) (wires : List (Wire δ)) : Prop where
  ends : ∀ (client : Nat) (wire : Wire δ) (page socket : Nat), wires[client]? = some wire →
    wire.page = some (page, socket) → ∃ hook, pages[page]? = some hook ∧ socket < hook.sockets.length
  one : ∀ (client other : Nat) (wire wire' : Wire δ) (page : Nat × Nat), wires[client]? = some wire →
    wires[other]? = some wire' → wire.page = some page → wire'.page = some page → client = other

structure Live (output : List (LiveOutput δ)) (s : LiveProgress δ) : Prop where
  service : s.service = (WebSocketService.service.run (served output)).1
  clients : s.wires.length = (greetings (served output)).length
  wired : Wired s.pages s.wires
  page : ∀ page hook, s.pages[page]? = some hook →
    PageOf s.wires (served output) (delivered page output) page hook
  later : ∀ page, s.pages.length ≤ page → delivered page output = []

section Step
variable {wires wires' : List (Wire δ)} {pages pages' : List (UseWebSocket δ)} {events : List (ServiceEvent δ)}
  {got : List (WSMessage δ)} {page client : Nat} {hook hook' : UseWebSocket δ} {s : LiveProgress δ}
  {wire wire' : Wire δ} {event : ServiceEvent δ} {output : List (LiveOutput δ)}

/-- A list of wires with the same ends. -/
theorem Wired.congr_wires (h : Wired pages wires) (hsame : ∀ (client : Nat) (wire' : Wire δ),
    wires'[client]? = some wire' → ∃ wire, wires[client]? = some wire ∧ wire.page = wire'.page) :
    Wired pages wires' where
  ends client wire' page socket hwire' hpage := by
    obtain ⟨wire, hwire, hends⟩ := hsame client wire' hwire'
    exact h.ends client wire page socket hwire (hends.trans hpage)
  one client other wire wire' page hwire hwire' hpage hpage' := by
    obtain ⟨old, hold, hends⟩ := hsame client wire hwire
    obtain ⟨old', hold', hends'⟩ := hsame other wire' hwire'
    exact h.one client other old old' page hold hold' (hends.trans hpage) (hends'.trans hpage')

/-- No page loses a socket. -/
theorem Wired.congr_pages (h : Wired pages wires) (hgrow : ∀ (page : Nat) (hook : UseWebSocket δ),
    pages[page]? = some hook → ∃ hook', pages'[page]? = some hook' ∧ hook.sockets.length ≤ hook'.sockets.length) :
    Wired pages' wires where
  ends client wire page socket hwire hpage := by
    obtain ⟨hook, hhook, hsocket⟩ := h.ends client wire page socket hwire hpage
    obtain ⟨hook', hhook', hle⟩ := hgrow page hook hhook
    exact ⟨hook', hhook', Nat.lt_of_lt_of_le hsocket hle⟩
  one := h.one

theorem getElem?_concat_wires {new : Wire δ} (h : (wires ++ [new])[client]? = some wire) :
    wires[client]? = some wire ∨ client = wires.length ∧ wire = new := by
  rcases Nat.lt_or_ge client wires.length with hlt | hge
  · rw [List.getElem?_append_left hlt] at h
    exact .inl h
  · rw [List.getElem?_append_right hge] at h
    obtain ⟨hlt, hnew⟩ := List.getElem?_eq_some_iff.1 h
    have hlt' : client - wires.length < 1 := hlt
    refine .inr ⟨by omega, ?_⟩
    rw [← hnew, List.getElem_singleton]

theorem Wired.connect (h : Wired pages wires) {page : Option (Nat × Nat)}
    (hnew : ∀ wire ∈ wires, wire.page = page → page = none)
    (hends : ∀ page' socket, page = some (page', socket) →
      ∃ hook, pages[page']? = some hook ∧ socket < hook.sockets.length) :
    Wired pages (wires ++ [{ page := page }]) where
  ends client wire page' socket hwire hpage := by
    rcases getElem?_concat_wires hwire with hold | ⟨-, rfl⟩
    · exact h.ends client wire page' socket hold hpage
    · exact hends page' socket hpage
  one client other wire wire' page' hwire hwire' hpage hpage' := by
    rcases getElem?_concat_wires hwire with hold | ⟨rfl, rfl⟩
    · rcases getElem?_concat_wires hwire' with hold' | ⟨rfl, rfl⟩
      · exact h.one client other wire wire' page' hold hold' hpage hpage'
      · have hnone := hnew wire (List.mem_of_getElem? hold) (hpage.trans hpage'.symm)
        exact absurd (hpage'.symm.trans hnone) (Option.some_ne_none _)
    · rcases getElem?_concat_wires hwire' with hold' | ⟨rfl, -⟩
      · have hnone := hnew wire' (List.mem_of_getElem? hold') (hpage'.trans hpage.symm)
        exact absurd (hpage.symm.trans hnone) (Option.some_ne_none _)
      · rfl

/-- What an event of the service puts under way. -/
def down (events : List (ServiceEvent δ)) (event : ServiceEvent δ) (wires : List (Wire δ)) : List (Wire δ) :=
  wires.mapIdx fun client wire =>
    { wire with
      down := wire.down ++ toClient client ((WebSocketService.service.run events).1.step event).2 }

theorem getElem?_down (h : (down events event wires)[client]? = some wire') :
    ∃ wire, wires[client]? = some wire ∧ wire' = { wire with
      down := wire.down ++ toClient client ((WebSocketService.service.run events).1.step event).2 } := by
  rw [down, List.getElem?_mapIdx] at h
  obtain ⟨wire, hwire, rfl⟩ := Option.map_eq_some_iff.1 h
  exact ⟨wire, hwire, rfl⟩

theorem Wired.down (h : Wired pages wires) (event : ServiceEvent δ) : Wired pages (down events event wires) :=
  h.congr_wires fun client wire' hwire' => by
    obtain ⟨wire, hwire, rfl⟩ := getElem?_down hwire'
    exact ⟨wire, hwire, rfl⟩

theorem PageOf.down (h : PageOf wires events got page hook) (hclients : wires.length = (greetings events).length)
    (event : ServiceEvent δ) : PageOf (LiveProgress.down events event wires) (events ++ [event]) got page hook where
  mounted := h.mounted
  sublist := by
    rw [broadcasts_concat]
    exact h.sublist.trans (List.sublist_append_left _ _)
  progress := h.progress
  current client wire' socket hwire' hpage hreads := by
    obtain ⟨wire, hwire, rfl⟩ := getElem?_down hwire'
    rw [List.filter_append]
    have hclient : client < wires.length := (List.getElem?_eq_some_iff.1 hwire).1
    exact (h.current client wire socket hwire hpage hreads).serve (hclients ▸ hclient) event

theorem PageOf.connect (h : PageOf wires events got page hook)
    (hclients : wires.length = (greetings events).length) (end' : Option (Nat × Nat)) (greeting : δ) :
    PageOf (LiveProgress.down events (.connection greeting) (wires ++ [{ page := end' }]))
      (events ++ [.connection greeting]) got page hook where
  mounted := h.mounted
  sublist := (h.down hclients (.connection greeting)).sublist
  progress := h.progress
  current client wire' socket hwire' hpage hreads := by
    obtain ⟨wire, hwire, rfl⟩ := getElem?_down hwire'
    rw [List.filter_append]
    rcases getElem?_concat_wires hwire with hold | ⟨hclient, rfl⟩
    · have hclient : client < wires.length := (List.getElem?_eq_some_iff.1 hold).1
      exact (h.current client wire socket hold hpage hreads).serve (hclients ▸ hclient) _
    · rw [hclient, hclients]
      exact UpToDate.connect h.sublist greeting

/-- The service handles an event and what it sends gets under way. -/
theorem Live.serve (h : Live output s) (event : ServiceEvent δ) (hevent : greetings [event] = []) :
    Live (output ++ (s.serve event).2) (s.serve event).1 := by
  have hwires : (s.serve event).1.wires = down (served output) event s.wires := by
    rw [LiveProgress.serve, down, h.service]
  have hout : (s.serve event).2 = [.served event] := rfl
  rw [hout]
  constructor
  · rw [served_concat_served, Machine.run_concat, ← h.service]
    rfl
  · rw [hwires, served_concat_served, greetings_concat, hevent, List.append_nil, down, List.length_mapIdx]
    exact h.clients
  · rw [hwires]
    exact h.wired.down event
  · intro page hook hhook
    rw [hwires, served_concat_served, delivered_concat_served]
    exact (h.page page hook hhook).down h.clients event
  · intro page hpage
    rw [delivered_concat_served]
    exact h.later page hpage

theorem Live.connect (h : Live output s) {page : Option (Nat × Nat)}
    (hnew : ∀ wire ∈ s.wires, wire.page = page → page = none)
    (hends : ∀ page' socket, page = some (page', socket) →
      ∃ hook, s.pages[page']? = some hook ∧ socket < hook.sockets.length) (greeting : δ) :
    Live (output ++ (s.connect page greeting).2) (s.connect page greeting).1 := by
  have hwires : (s.connect page greeting).1.wires =
      down (served output) (.connection greeting) (s.wires ++ [{ page := page }]) := by
    rw [LiveProgress.connect, LiveProgress.serve, down, h.service]
  have hout : (s.connect page greeting).2 = [.served (.connection greeting)] := rfl
  rw [hout]
  constructor
  · rw [served_concat_served, Machine.run_concat, ← h.service]
    rfl
  · rw [hwires, served_concat_served, greetings_concat, down, List.length_mapIdx, List.length_append, h.clients,
      List.length_append]
    rfl
  · rw [hwires]
    exact (h.wired.connect hnew hends).down _
  · intro page' hook hhook
    rw [hwires, served_concat_served, delivered_concat_served]
    exact (h.page page' hook hhook).connect h.clients page greeting
  · intro page' hpage'
    rw [delivered_concat_served]
    exact h.later page' hpage'

theorem getElem?_set_wire (hwire : wires[client]? = some wire) {other : Nat} {new : Wire δ}
    (h : (wires.set client new)[other]? = some wire') :
    other = client ∧ wire' = new ∨ other ≠ client ∧ wires[other]? = some wire' := by
  by_cases hsame : client = other
  · subst hsame
    rw [List.getElem?_set_self (List.getElem?_eq_some_iff.1 hwire).1] at h
    exact .inl ⟨rfl, (Option.some.inj h).symm⟩
  · rw [List.getElem?_set_ne hsame] at h
    exact .inr ⟨Ne.symm hsame, h⟩

theorem Wired.set (h : Wired pages wires) (hwire : wires[client]? = some wire) (hpage : wire'.page = wire.page) :
    Wired pages (wires.set client wire') :=
  h.congr_wires fun other new hnew => by
    rcases getElem?_set_wire hwire hnew with ⟨rfl, rfl⟩ | ⟨-, hold⟩
    · exact ⟨wire, hwire, hpage.symm⟩
    · exact ⟨new, hold, rfl⟩

/-- A wire to a socket that does not read may lose what is under way. -/
theorem Live.set (h : Live output s) (hwire : s.wires[client]? = some wire) (hpage : wire'.page = wire.page)
    (hdown : wire'.down = wire.down ∨ ∀ page socket hook, wire.page = some (page, socket) →
      s.pages[page]? = some hook → ¬ ReadyState.Reads hook.sockets[socket]?) :
    Live output { s with wires := s.wires.set client wire' } where
  service := h.service
  clients := List.length_set.trans h.clients
  wired := h.wired.set hwire hpage
  page page hook hhook := by
    have hold := h.page page hook hhook
    refine ⟨hold.mounted, hold.sublist, hold.progress, fun other new socket hnew hends hreads => ?_⟩
    rcases getElem?_set_wire hwire hnew with ⟨rfl, rfl⟩ | ⟨-, hother⟩
    · rcases hdown with hdown | hdown
      · rw [hdown]
        exact hold.current other wire socket hwire (hpage.symm.trans hends) hreads
      · exact absurd hreads (hdown page socket hook (hpage.symm.trans hends) hhook)
    · exact hold.current other new socket hother hends hreads
  later := h.later

theorem Live.receive (h : Live output s) (client : Nat) (timestamp : δ) :
    Live (output ++ (s.receive client timestamp).2) (s.receive client timestamp).1 := by
  rw [LiveProgress.receive]
  split
  · next page down message up hwire =>
    have hset : Live output { s with wires := s.wires.set client ⟨page, down, up⟩ } := h.set hwire rfl (.inl rfl)
    exact hset.serve _ rfl
  · rw [List.append_nil]
    exact h

/-- A message to an open socket. -/
theorem message_opened {socket : Nat} (message : WSMessage δ) (hopen : hook.sockets[socket]? = some .opened) :
    (hook.step (.message socket (some message))).1.sockets = hook.sockets ∧
      (hook.step (.message socket (some message))).1.progress =
        if message.type = .progress then message.data else hook.progress := by
  rw [UseWebSocket.step, if_pos hopen, UseWebSocket.onMessage]
  cases message.type with
  | progress => exact ⟨rfl, rfl⟩
  | _ => exact ⟨rfl, rfl⟩

theorem Live.deliver_opened (h : Live output s) {page socket : Nat} {message : WSMessage δ}
    {down up up' : List (WSMessage δ)}
    (hwire : s.wires[client]? = some ⟨some (page, socket), message :: down, up⟩)
    (hhook : s.pages[page]? = some hook) (hopen : hook.sockets[socket]? = some .opened) :
    Live (output ++ [.delivered page message])
      { s with
        pages := s.pages.set page (hook.step (.message socket (some message))).1
        wires := s.wires.set client ⟨some (page, socket), down, up'⟩ } := by
  have hold := h.page page hook hhook
  have hlt : page < s.pages.length := (List.getElem?_eq_some_iff.1 hhook).1
  obtain ⟨hsockets, hprogress⟩ := message_opened message hopen
  have hcurrent : UpToDate ((delivered page output ++ [message]).filter WSMessage.isBroadcast)
      (down.filter WSMessage.isBroadcast) (served output) client := by
    obtain ⟨before, earlier, hbefore, hearlier, htold⟩ := hold.current client _ socket hwire rfl (.inr hopen)
    refine ⟨before, earlier, hbefore, hearlier, ?_⟩
    rw [← htold, ← List.filter_append, ← List.filter_append, List.append_assoc]
    rfl
  constructor
  · rw [served_concat_delivered]
    exact h.service
  · rw [served_concat_delivered]
    exact List.length_set.trans h.clients
  · have hset : Wired s.pages (s.wires.set client ⟨some (page, socket), down, up'⟩) := h.wired.set hwire rfl
    refine hset.congr_pages fun other old hother => ?_
    by_cases hsame : page = other
    · subst hsame
      obtain rfl : hook = old := Option.some.inj (hhook.symm.trans hother)
      exact ⟨_, List.getElem?_set_self hlt, hsockets ▸ Nat.le_refl _⟩
    · exact ⟨old, (List.getElem?_set_ne hsame).trans hother, Nat.le_refl _⟩
  · intro other new hnew
    have hnew : (s.pages.set page (hook.step (.message socket (some message))).1)[other]? = some new := hnew
    rw [served_concat_delivered, delivered_concat_delivered]
    by_cases hsame : page = other
    · subst hsame
      rw [List.getElem?_set_self hlt] at hnew
      obtain rfl := Option.some.inj hnew
      rw [if_pos rfl]
      refine ⟨hold.mounted.step _, hcurrent.sublist, ?_, fun other new socket' hwire' hends hreads => ?_⟩
      · rw [hprogress, lastProgress_concat, hold.progress]
      · rw [hsockets] at hreads
        rcases getElem?_set_wire hwire hwire' with ⟨rfl, rfl⟩ | ⟨hne, hother⟩
        · exact hcurrent
        · -- the page has one socket that is not closed, and that is the one of `client`
          have hws := hold.mounted.ws socket .opened hopen (by decide)
          have hws' : hook.ws = some socket' := by
            rcases hreads with hreads | hreads
            · exact hold.mounted.ws socket' _ hreads (by decide)
            · exact hold.mounted.ws socket' _ hreads (by decide)
          obtain rfl : socket = socket' := Option.some.inj (hws.symm.trans hws')
          exact absurd (h.wired.one other client new _ (page, socket) hother hwire hends rfl) hne
    · rw [List.getElem?_set_ne hsame] at hnew
      rw [if_neg hsame, List.append_nil]
      have hother := h.page other new hnew
      refine ⟨hother.mounted, hother.sublist, hother.progress, fun client' wire' socket' hwire' hends hreads => ?_⟩
      rcases getElem?_set_wire hwire hwire' with ⟨rfl, rfl⟩ | ⟨-, hwire'⟩
      · exact absurd (congrArg Prod.fst (Option.some.inj hends)) hsame
      · exact hother.current client' wire' socket' hwire' hends hreads
  · intro other hother
    have hother : s.pages.length ≤ other := by simpa using hother
    rw [delivered_concat_delivered, h.later other hother, if_neg (Nat.ne_of_lt (Nat.lt_of_lt_of_le hlt hother))]
    rfl

theorem Live.deliver (h : Live output s) (client : Nat) :
    Live (output ++ (s.deliver client).2) (s.deliver client).1 := by
  have hnothing : Live (output ++ []) s := by
    rw [List.append_nil]
    exact h
  rw [LiveProgress.deliver]
  split
  · next page socket message down up hwire =>
    split
    · exact hnothing
    · next hook hhook =>
      have hdrop : ¬ ReadyState.Reads hook.sockets[socket]? → Live (output ++ [])
          { s with wires := s.wires.set client ⟨some (page, socket), down, up⟩ } := by
        intro hreads
        rw [List.append_nil]
        refine h.set hwire rfl (.inr fun page' socket' hook' hends hhook' => ?_)
        obtain ⟨rfl, rfl⟩ : page = page' ∧ socket = socket' := by simpa using hends
        rwa [← Option.some.inj (hhook.symm.trans hhook')]
      split
      · exact hnothing
      · exact hnothing
      · next hopen => exact h.deliver_opened hwire hhook hopen
      · next hclosing => exact hdrop (by simp [ReadyState.Reads, hclosing])
      · next hclosed => exact hdrop (by simp [ReadyState.Reads, hclosed])
  · exact hnothing

/-- A page changes by itself. -/
theorem Live.modify (h : Live output s) (page : Nat) (f : UseWebSocket δ → UseWebSocket δ)
    (hmounted : ∀ hook : UseWebSocket δ, hook.Mounted → (f hook).Mounted)
    (hprogress : ∀ hook, (f hook).progress = hook.progress)
    (hlength : ∀ hook, hook.sockets.length ≤ (f hook).sockets.length)
    (hreads : ∀ hook socket, socket < hook.sockets.length → ReadyState.Reads (f hook).sockets[socket]? →
      ReadyState.Reads hook.sockets[socket]?) :
    Live output { s with pages := s.pages.modify page f } where
  service := h.service
  clients := h.clients
  wired := h.wired.congr_pages fun other hook hother => by
    rw [List.getElem?_modify, hother]
    by_cases hsame : page = other
    · exact ⟨f hook, by simp [hsame], hlength hook⟩
    · exact ⟨hook, by simp [hsame], Nat.le_refl _⟩
  page other hook hother := by
    have hother : (s.pages.modify page f)[other]? = some hook := hother
    rw [List.getElem?_modify] at hother
    obtain ⟨old, hold, hhook⟩ := Option.map_eq_some_iff.1 hother
    have hpage := h.page other old hold
    by_cases hsame : page = other
    · obtain rfl : f old = hook := by simpa [hsame] using hhook
      refine ⟨hmounted old hpage.mounted, hpage.sublist, (hprogress old).trans hpage.progress,
        fun client wire socket hwire hends hafter => hpage.current client wire socket hwire hends ?_⟩
      obtain ⟨hook, hhook, hsocket⟩ := h.wired.ends client wire other socket hwire hends
      obtain rfl := Option.some.inj (hold.symm.trans hhook)
      exact hreads old socket hsocket hafter
    · obtain rfl : old = hook := by simpa [hsame] using hhook
      exact hpage
  later other hother := h.later other (by simpa using hother)

theorem Live.mount (h : Live output s) (throws : Bool) :
    Live output { s with pages := s.pages ++ [(UseWebSocket.connect throws {}).1] } where
  service := h.service
  clients := h.clients
  wired := h.wired.congr_pages fun page hook hhook =>
    ⟨hook, (List.getElem?_append_left (List.getElem?_eq_some_iff.1 hhook).1).trans hhook, Nat.le_refl _⟩
  page page hook hhook := by
    have hhook : (s.pages ++ [(UseWebSocket.connect throws {}).1])[page]? = some hook := hhook
    rcases Nat.lt_or_ge page s.pages.length with hlt | hge
    · rw [List.getElem?_append_left hlt] at hhook
      exact h.page page hook hhook
    · rw [List.getElem?_append_right hge] at hhook
      obtain rfl : (UseWebSocket.connect throws {}).1 = hook :=
        List.mem_singleton.1 (List.mem_of_getElem? hhook) ▸ rfl
      rw [h.later page hge]
      refine ⟨UseWebSocket.Mounted.connect rfl rfl throws, List.nil_sublist _, ?_,
        fun client wire socket hwire hends _ => ?_⟩
      · cases throws <;> rfl
      · obtain ⟨hook, hhook, -⟩ := h.wired.ends client wire page socket hwire hends
        exact absurd (List.getElem?_eq_some_iff.1 hhook).1 (Nat.not_lt_of_le hge)
  later page hpage := by
    have hpage : (s.pages ++ [(UseWebSocket.connect throws {}).1]).length ≤ page := hpage
    rw [List.length_append] at hpage
    exact h.later page (Nat.le_of_add_right_le hpage)

theorem Live.step (h : Live output s) (event : LiveEvent δ) :
    Live (output ++ (s.step event).2) (s.step event).1 := by
  have hnothing : Live (output ++ []) s := by
    rw [List.append_nil]
    exact h
  have hpage : ∀ (page : Nat) (event : HookEvent δ), (∀ socket content, event ≠ .message socket content) →
      Live (output ++ []) { s with pages := s.pages.modify page fun hook => (hook.step event).1 } := by
    intro page event hevent
    rw [List.append_nil]
    exact h.modify page _ (fun hook hmounted => hmounted.step event)
      (fun hook => UseWebSocket.progress_step hook hevent)
      (fun hook => UseWebSocket.length_sockets_step hook event)
      (fun hook socket hsocket => UseWebSocket.reads_of_step hsocket)
  cases event with
  | mount throws =>
    rw [LiveProgress.step, List.append_nil]
    exact h.mount throws
  | unmount page =>
    rw [LiveProgress.step, List.append_nil]
    exact h.modify page UseWebSocket.cleanup (fun hook hmounted => hmounted.cleanup) (fun hook => rfl)
      (fun hook => Nat.le_of_eq (UseWebSocket.length_sockets_cleanup hook).symm)
      (fun hook socket _ => UseWebSocket.reads_of_cleanup)
  | page page event =>
    cases event with
    | message socket content => exact hnothing
    | opened socket => exact hpage page _ nofun
    | closed socket => exact hpage page _ nofun
    | error socket => exact hpage page _ nofun
    | timeout id throws => exact hpage page _ nofun
  | accept page socket greeting =>
    rw [LiveProgress.step]
    split
    · exact hnothing
    · next hook hhook =>
      split
      · next hfree =>
        refine h.connect (fun wire hwire hpage => absurd hpage (hfree.2 wire hwire)) ?_ greeting
        intro page' socket' hends
        obtain ⟨rfl, rfl⟩ : page = page' ∧ socket = socket' := by simpa using hends
        exact ⟨hook, hhook, hfree.1⟩
      · exact hnothing
  | stranger greeting => exact h.connect (fun _ _ _ => rfl) nofun greeting
  | deliver client => exact h.deliver client
  | receive client timestamp => exact h.receive client timestamp
  | service event =>
    cases event with
    | connection greeting => exact hnothing
    | _ => exact h.serve _ rfl

theorem live_run (events : List (LiveEvent δ)) : Live (live.run events).2 (live.run events).1 := by
  refine live.run_inv (P := fun _ output s => Live output s) ?_ (fun _ _ _ event h => h.step event) events
  exact ⟨rfl, rfl, ⟨nofun, nofun⟩, nofun, fun _ _ => rfl⟩

end Step

/-- In every order of the events of pages, connections and service: the service runs as it does alone. What a
page has got over all its connections is in the order of the broadcasts and has none of them twice, and it
shows the last progress of it. While the service broadcasts to a page that has not begun to close, all that it
has got or that is under way is some of the broadcasts from before its connection and then all since; with
nothing under way it shows the newest progress there is, if there was any since its connection. -/
theorem live_progress (events : List (LiveEvent δ)) :
    (live.run events).1.service = (WebSocketService.service.run (served (live.run events).2)).1 ∧
      ∀ page hook, (live.run events).1.pages[page]? = some hook →
        ((delivered page (live.run events).2).filter WSMessage.isBroadcast).Sublist
            (broadcasts (served (live.run events).2)) ∧
          hook.progress = lastProgress (delivered page (live.run events).2) ∧
          ∀ client wire socket, (live.run events).1.wires[client]? = some wire →
            wire.page = some (page, socket) → ReadyState.Reads hook.sockets[socket]? →
            (live.run events).1.service.Receives client →
              (∃ before earlier, earlier.Sublist before ∧
                broadcasts (served (live.run events).2) =
                  before ++ broadcastsSince client (served (live.run events).2) ∧
                (delivered page (live.run events).2).filter WSMessage.isBroadcast ++
                  wire.down.filter WSMessage.isBroadcast =
                    earlier ++ broadcastsSince client (served (live.run events).2)) ∧
              (wire.down.filter WSMessage.isBroadcast = [] →
                (∃ message ∈ broadcastsSince client (served (live.run events).2), message.type = .progress) →
                hook.progress = lastProgress (broadcasts (served (live.run events).2))) := by
  have h := live_run events
  refine ⟨h.service, fun page hook hhook => ?_⟩
  have hpage := h.page page hook hhook
  refine ⟨hpage.sublist, hpage.progress, fun client wire socket hwire hends hreads hreceives => ?_⟩
  obtain ⟨before, earlier, hbefore, hearlier, htold⟩ := hpage.current client wire socket hwire hends hreads
  rw [h.service] at hreceives
  rw [(WebSocketService.told_run _).all client hreceives] at htold
  refine ⟨⟨before, earlier, hearlier, hbefore, htold⟩, fun hdown hnew => ?_⟩
  rw [hdown, List.append_nil] at htold
  rw [hpage.progress, ← lastProgress_filter_isBroadcast, htold, hbefore, lastProgress_append hnew,
    lastProgress_append hnew]

/-- A page that connects again after its first connection broke has missed what was broadcast between. -/
def reconnect : List (LiveEvent Nat) :=
  [.mount false, .accept 0 0 0, .page 0 (.opened 0), .deliver 0, .service (.broadcastProgress 10), .deliver 0,
    .page 0 (.closed 0), .service (.broadcastProgress 20), .page 0 (.timeout 1 false), .accept 0 1 0,
    .page 0 (.opened 1), .deliver 1, .service (.closed 0), .service (.broadcastProgress 30), .deliver 1]

example : (delivered 0 (live.run reconnect).2).filterMap WSMessage.data = [0, 10, 0, 30] ∧
    (live.run reconnect).1.pages.map UseWebSocket.progress = [some 30] := by decide

end LiveProgress

end Portfolio.VideoEditor
