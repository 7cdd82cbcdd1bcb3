import Portfolio.Chat.WebSocketServer

/-!
# Sessions of the chat server

`Core` is what the handlers read and write of a session, apart from the messages under way. `Quiet`
and `Changes` say what a handler does to the cores: nothing, or one change of one core. The registered
sessions are the open ones, and an open session is read, so that no weak pointer to it expires.
-/

namespace Portfolio.Chat
open Std

/-! ### Cores -/

structure Core where
  isOpen : Bool
  read : ReadState String
  joinedRooms : TreeSet String
  nickname : String

def WebSocketSession.core (x : WebSocketSession) : Core where
  isOpen := x.isOpen
  read := x.read
  joinedRooms := x.joinedRooms
  nickname := x.nickname

/-- An operation of the reading side is outstanding, after the handshake. -/
def Core.Busy (k : Core) : Prop := k.read ≠ .idle ∧ k.read ≠ .accepting

namespace WebSocketServer

def cores (s : WebSocketServer) (c : Nat) : Option Core := (s.heap c).map (·.core)

/-- The cores after a change of one of them. -/
def change (s : WebSocketServer) (c : Nat) (f : Core → Core) : Nat → Option Core :=
  Function.update s.cores c ((s.cores c).map f)

variable {s t u : WebSocketServer} {c : Nat} {f : Core → Core}

theorem change_self (s : WebSocketServer) (c : Nat) (f : Core → Core) :
    s.change c f c = (s.cores c).map f := Function.update_self ..

theorem change_of_ne {d : Nat} (h : d ≠ c) : s.change c f d = s.cores d := Function.update_of_ne h ..

theorem change_change (h : t.cores = s.change c f) (g : Core → Core) : t.change c g = s.change c (g ∘ f) := by
  funext d
  rw [change, h, change_self, Option.map_map]
  by_cases hd : d = c
  · subst hd
    rw [Function.update_self, change_self]
  · rw [Function.update_of_ne hd, change_of_ne hd, change_of_ne hd]

theorem nickname_eq {k : Core} (h : s.cores c = some k) : s.nickname c = k.nickname := by
  obtain ⟨x, hx, rfl⟩ := Option.map_eq_some_iff.1 h
  rw [nickname, hx]
  rfl

theorem joinedRooms_eq {k : Core} (h : s.cores c = some k) : s.joinedRooms c = k.joinedRooms := by
  obtain ⟨x, hx, rfl⟩ := Option.map_eq_some_iff.1 h
  rw [joinedRooms, hx]
  rfl

theorem lock_of_core {k : Core} (h : s.cores c = some k) (hbusy : k.read ≠ .idle) : s.lock c = true := by
  obtain ⟨x, hx, rfl⟩ := Option.map_eq_some_iff.1 h
  have hread : x.read ≠ .idle := hbusy
  simp [lock, hx, WebSocketSession.alive, hread]

/-! ### Steps that leave the cores alone -/

structure Quiet (s t : WebSocketServer) : Prop where
  cores : t.cores = s.cores
  sessions : t.sessions = s.sessions
  next : t.nextSessionId = s.nextSessionId

/-- One core changes. -/
structure Changes (s t : WebSocketServer) (c : Nat) (f : Core → Core) : Prop where
  cores : t.cores = s.change c f
  sessions : t.sessions = s.sessions
  next : t.nextSessionId = s.nextSessionId

theorem Quiet.refl (s : WebSocketServer) : Quiet s s := ⟨rfl, rfl, rfl⟩

theorem Quiet.trans (h : Quiet s t) (h' : Quiet t u) : Quiet s u :=
  ⟨h'.cores.trans h.cores, h'.sessions.trans h.sessions, h'.next.trans h.next⟩

theorem Changes.quiet (h : Changes s t c f) (h' : Quiet t u) : Changes s u c f :=
  ⟨h'.cores.trans h.cores, h'.sessions.trans h.sessions, h'.next.trans h.next⟩

theorem Changes.change (h : Changes s t c f) {g : Core → Core} (h' : Changes t u c g) :
    Changes s u c (g ∘ f) :=
  ⟨h'.cores.trans (change_change h.cores g), h'.sessions.trans h.sessions, h'.next.trans h.next⟩

/-- A change that changes nothing. -/
theorem Changes.toQuiet (h : Changes s t c f) (hf : ∀ k, s.cores c = some k → f k = k) : Quiet s t := by
  refine ⟨h.cores.trans ?_, h.sessions, h.next⟩
  funext d
  by_cases hd : d = c
  · subst hd
    rw [change_self]
    cases hk : s.cores d with
    | none => rfl
    | some k => rw [Option.map_some, hf k hk]
  · rw [change_of_ne hd]

theorem changes_modifySession (s : WebSocketServer) (c : Nat) {g : WebSocketSession → WebSocketSession}
    (h : ∀ x, (g x).core = f x.core) : Changes s (s.modifySession c g) c f := by
  refine ⟨?_, rfl, rfl⟩
  funext d
  show (Function.update s.heap c ((s.heap c).map g) d).map (·.core) = _
  by_cases hd : d = c
  · subst hd
    rw [Function.update_self, change_self, cores, Option.map_map, Option.map_map]
    exact Option.map_congr fun x _ => h x
  · rw [Function.update_of_ne hd, change_of_ne hd]
    rfl

theorem quiet_modifySession (s : WebSocketServer) (c : Nat) {g : WebSocketSession → WebSocketSession}
    (h : ∀ x, (g x).core = x.core) : Quiet s (s.modifySession c g) :=
  (changes_modifySession (f := id) s c h).toQuiet fun _ _ => rfl

theorem quiet_send (s : WebSocketServer) (c : Nat) (message : String) : Quiet s (s.send c message) :=
  quiet_modifySession s c fun _ => rfl

theorem quiet_foldl {β : Type} {g : WebSocketServer → β → WebSocketServer} (h : ∀ s b, Quiet s (g s b))
    (bs : List β) (s : WebSocketServer) : Quiet s (bs.foldl g s) := by
  induction bs generalizing s with
  | nil => exact .refl s
  | cons b bs ih => exact (h s b).trans (ih (g s b))

theorem quiet_broadcastToRoom (s : WebSocketServer) (room message : String) (sender : Option Nat) :
    Quiet s (s.broadcastToRoom room message sender) := by
  unfold broadcastToRoom
  split
  · exact .refl s
  · exact Quiet.trans (t := s.cleanupRoom room) ⟨rfl, rfl, rfl⟩ (quiet_foldl (fun s d => quiet_send s d message) _ _)

theorem quiet_leaveRoom (s : WebSocketServer) (c : Nat) (room : String) : Quiet s (s.leaveRoom c room) := by
  unfold leaveRoom
  split
  · exact .refl s
  · dsimp only
    split
    · exact ⟨rfl, rfl, rfl⟩
    · exact ⟨rfl, rfl, rfl⟩

theorem quiet_joinRoom (s : WebSocketServer) (c : Nat) (room : String) : Quiet s (s.joinRoom c room) :=
  ⟨rfl, rfl, rfl⟩

/-! ### Commands -/

theorem changes_handleJoin (s : WebSocketServer) (c : Nat) (room : String) :
    Quiet s (s.handleJoin c room) ∨ Changes s (s.handleJoin c room) c
      fun k => { k with joinedRooms := k.joinedRooms.insert room } := by
  unfold handleJoin
  split
  · exact .inl (quiet_send ..)
  · split
    · exact .inl (quiet_send ..)
    · exact .inr ((((changes_modifySession s c fun _ => rfl).quiet (quiet_joinRoom ..)).quiet
        (quiet_send ..)).quiet (quiet_broadcastToRoom ..))

theorem changes_handleLeave (s : WebSocketServer) (c : Nat) (room : String) :
    Quiet s (s.handleLeave c room) ∨ Changes s (s.handleLeave c room) c
      fun k => { k with joinedRooms := k.joinedRooms.erase room } := by
  unfold handleLeave
  split
  · exact .inl (quiet_send ..)
  · exact .inr ((((changes_modifySession s c fun _ => rfl).quiet (quiet_leaveRoom ..)).quiet
      (quiet_send ..)).quiet (quiet_broadcastToRoom ..))

theorem quiet_handleMessage (s : WebSocketServer) (c : Nat) (room text : String) :
    Quiet s (s.handleMessage c room text) := by
  unfold handleMessage
  split
  · exact quiet_send ..
  · split
    · exact quiet_send ..
    · exact (quiet_send ..).trans (quiet_broadcastToRoom ..)

theorem changes_handleNick (s : WebSocketServer) (c : Nat) (name : String) :
    Quiet s (s.handleNick c name) ∨ (s.isNicknameAvailable name c = true ∧
      Changes s (s.handleNick c name) c fun k => { k with nickname := name }) := by
  unfold handleNick
  split
  · exact .inl (quiet_send ..)
  · split
    · exact .inl (quiet_send ..)
    · rename_i havail
      refine .inr ⟨by simpa using havail, ?_⟩
      exact ((changes_modifySession s c fun _ => rfl).quiet (quiet_send ..)).quiet
        (quiet_foldl (fun _ _ => quiet_broadcastToRoom ..) _ _)

theorem quiet_handleListRooms (s : WebSocketServer) (c : Nat) : Quiet s (s.handleListRooms c) :=
  Quiet.trans (t := s.buildRoomList.1) ⟨rfl, rfl, rfl⟩ (quiet_send ..)

theorem quiet_handleListMembers (s : WebSocketServer) (c : Nat) (room : String) :
    Quiet s (s.handleListMembers c room) := by
  have hlist : Quiet s (s.buildMemberList room).1 := by
    unfold buildMemberList
    split
    · exact .refl s
    · exact ⟨rfl, rfl, rfl⟩
  unfold handleListMembers
  split
  · exact quiet_send ..
  · split
    · rename_i t heq
      rw [heq] at hlist
      exact hlist.trans (quiet_send ..)
    · rename_i t members heq
      rw [heq] at hlist
      exact hlist.trans (quiet_send ..)

/-! ### Closing -/

theorem changes_leaveAllRooms (s : WebSocketServer) (c : Nat) :
    Changes s (s.leaveAllRooms c) c fun k => { k with joinedRooms := ∅ } :=
  (changes_modifySession s c fun _ => rfl).quiet
    (quiet_foldl (fun _ _ => (quiet_leaveRoom ..).trans (quiet_broadcastToRoom ..)) _ _)

structure Wf (s : WebSocketServer) : Prop where
  fresh : ∀ c, s.nextSessionId ≤ c → s.cores c = none
  busy : ∀ c k, s.cores c = some k → k.isOpen = true → k.Busy
  registered : ∀ c, c ∈ s.sessions ↔ ∃ k, s.cores c = some k ∧ k.isOpen = true
  named : ∀ c k, s.cores c = some k → k.read = .accepting → k.nickname = "user-" ++ toString c

theorem Wf.lock (h : Wf s) {d : Nat} (hd : d ∈ s.sessions) : s.lock d = true := by
  obtain ⟨k, hk, hopen⟩ := (h.registered d).1 hd
  exact lock_of_core hk (h.busy d k hk hopen).1

/-- A session closes: it leaves its rooms and is no longer registered. -/
structure Closes (s t : WebSocketServer) (c : Nat) : Prop where
  cores : t.cores = s.change c fun k => { k with isOpen := false, joinedRooms := ∅ }
  sessions : ∀ d, d ∈ t.sessions ↔ d ∈ s.sessions ∧ d ≠ c
  next : t.nextSessionId = s.nextSessionId

theorem closes_onClose (h : Wf s) {k : Core} (hk : s.cores c = some k) (hopen : k.isOpen = true) :
    Closes s (s.onClose c) c := by
  obtain ⟨x, hx, rfl⟩ := Option.map_eq_some_iff.1 hk
  have heq : s.onClose c = ((s.modifySession c fun x => { x with isOpen := false }).leaveAllRooms
      c).unregisterSession c := by
    have hopen' : x.isOpen = true := hopen
    unfold onClose
    rw [hx]
    simp [hopen']
  have hch : Changes s ((s.modifySession c fun x => { x with isOpen := false }).leaveAllRooms c) c
      fun k => { k with isOpen := false, joinedRooms := ∅ } :=
    Changes.change (f := fun k => { k with isOpen := false }) (changes_modifySession s c fun _ => rfl)
      (changes_leaveAllRooms ..)
  rw [heq]
  refine ⟨hch.cores, fun d => ?_, hch.next⟩
  show d ∈ List.filter _ _ ↔ _
  rw [List.mem_filter, hch.sessions, Bool.and_eq_true, decide_eq_true_eq]
  constructor
  · exact fun hd => ⟨hd.1, hd.2.2⟩
  · rintro ⟨hd, hne⟩
    obtain ⟨k', hk', hopen'⟩ := (h.registered d).1 hd
    refine ⟨hd, lock_of_core (k := k') ?_ (h.busy d k' hk' hopen').1, hne⟩
    rw [hch.cores, change_of_ne hne, hk']

theorem onClose_of_closed {k : Core} (hk : s.cores c = some k) (hclosed : k.isOpen = false) :
    s.onClose c = s := by
  obtain ⟨x, hx, rfl⟩ := Option.map_eq_some_iff.1 hk
  have hclosed' : x.isOpen = false := hclosed
  unfold onClose
  rw [hx]
  simp [hclosed']

/-! ### What a step does to the cores -/

/-- A change that leaves the nickname alone, and an open session open and read. -/
structure Harmless (s : WebSocketServer) (c : Nat) (f : Core → Core) : Prop where
  isOpen : ∀ k, s.cores c = some k → (f k).isOpen = k.isOpen
  nickname : ∀ k, (f k).nickname = k.nickname
  accepting : ∀ k, (f k).read = .accepting → k.read = .accepting
  busy : ∀ k, s.cores c = some k → k.isOpen = true → (f k).Busy

/-- The end of a session. -/
structure Ending (f : Core → Core) : Prop where
  isOpen : ∀ k, (f k).isOpen = false
  nickname : ∀ k, (f k).nickname = k.nickname
  accepting : ∀ k, (f k).read = .accepting → k.read = .accepting

/-- The handshake of a session is done. -/
structure Accepts (s t : WebSocketServer) (c : Nat) : Prop where
  cores : t.cores = s.change c fun k => { k with isOpen := true, read := .reading }
  sessions : t.sessions = s.sessions ++ [c]
  next : t.nextSessionId = s.nextSessionId

inductive CoreStep (s t : WebSocketServer) : Event → Prop where
  | quiet {event : Event} (h : Quiet s t) : CoreStep s t event
  | change {event : Event} (c : Nat) (f : Core → Core) (h : Changes s t c f) (hf : Harmless s c f) :
    CoreStep s t event
  | rename {event : Event} (c : Nat) (name : String) (havail : s.isNicknameAvailable name c = true)
    (h : Changes s t c fun k => { k with nickname := name, read := .reading }) : CoreStep s t event
  | connect {event : Event}
    (h : t.cores = Function.update s.cores s.nextSessionId (some (WebSocketSession.new s.nextSessionId).core))
    (hsessions : t.sessions = s.sessions) (hnext : t.nextSessionId = s.nextSessionId + 1) : CoreStep s t event
  | accept (c : Nat) (k : Core) (hk : s.cores c = some k) (hread : k.read = .accepting) (h : Accepts s t c) :
    CoreStep s t (.accepted c true)
  | close {event : Event} (c : Nat) (f : Core → Core) (hf : Ending f) (h : t.cores = s.change c f)
    (hsessions : ∀ d, d ∈ t.sessions ↔ d ∈ s.sessions ∧ d ≠ c) (hnext : t.nextSessionId = s.nextSessionId) :
    CoreStep s t event

theorem changes_doRead (s : WebSocketServer) (c : Nat) :
    Changes s (s.doRead c) c fun k => { k with read := .reading } :=
  changes_modifySession s c fun _ => rfl

theorem changes_endRead (s : WebSocketServer) (c : Nat) :
    Changes s (s.endRead c) c fun k => { k with read := .idle } :=
  changes_modifySession s c fun _ => rfl

theorem Quiet.change (h : Quiet s t) {u : WebSocketServer} {f : Core → Core} (h' : Changes t u c f) :
    Changes s u c f := by
  refine ⟨?_, h'.sessions.trans h.sessions, h'.next.trans h.next⟩
  rw [h'.cores, WebSocketServer.change, WebSocketServer.change, h.cores]

theorem coreStep_handleCommand (s : WebSocketServer) (c : Nat) (command : Command) {event : Event} :
    CoreStep s ((s.handleCommand c command).doRead c) event := by
  have hbusy : ∀ k : Core, Core.Busy { k with read := .reading } :=
    fun k => ⟨nofun, nofun⟩
  have hquiet : ∀ t, Quiet s t → CoreStep s (t.doRead c) event := fun t ht =>
    .change c _ (ht.change (changes_doRead t c)) ⟨fun _ _ => rfl, fun _ => rfl, nofun, fun k _ _ => hbusy k⟩
  cases command with
  | join room =>
    rcases changes_handleJoin s c room with h | h
    · exact hquiet _ h
    · exact .change c _ (h.change (changes_doRead _ c)) ⟨fun _ _ => rfl, fun _ => rfl, nofun, fun k _ _ => hbusy _⟩
  | leave room =>
    rcases changes_handleLeave s c room with h | h
    · exact hquiet _ h
    · exact .change c _ (h.change (changes_doRead _ c)) ⟨fun _ _ => rfl, fun _ => rfl, nofun, fun k _ _ => hbusy _⟩
  | message room text => exact hquiet _ (quiet_handleMessage ..)
  | nick name =>
    rcases changes_handleNick s c name with h | ⟨havail, h⟩
    · exact hquiet _ h
    · exact .rename c name havail (h.change (changes_doRead _ c))
  | listRooms => exact hquiet _ (quiet_handleListRooms ..)
  | listMembers room => exact hquiet _ (quiet_handleListMembers ..)
  | error message => exact hquiet _ (quiet_send ..)

/-- A close, followed by the end of the operation whose handler runs. -/
theorem coreStep_onClose (h : Wf s) {k : Core} (hk : s.cores c = some k) {f : Core → Core}
    {g : WebSocketSession → WebSocketSession} (hchange : ∀ t : WebSocketServer, Changes t (t.modifySession c g) c f)
    (hopen : ∀ k, (f k).isOpen = k.isOpen) (hname : ∀ k, (f k).nickname = k.nickname)
    (hacc : ∀ k, (f k).read = .accepting → k.read = .accepting) {event : Event} :
    CoreStep s ((s.onClose c).modifySession c g) event := by
  cases ho : k.isOpen with
  | true =>
    have hcl := closes_onClose h hk ho
    exact .close c (f ∘ fun k => { k with isOpen := false, joinedRooms := ∅ })
      ⟨fun k => hopen _, fun k => hname _, fun k => hacc _⟩
      ((hchange _).cores.trans (change_change hcl.cores f)) hcl.sessions hcl.next
  | false =>
    rw [onClose_of_closed hk ho]
    refine .change c f (hchange s) ⟨fun k _ => hopen k, hname, hacc, fun k' hk' ho' => ?_⟩
    rw [hk] at hk'
    cases hk'
    rw [ho] at ho'
    cases ho'

theorem core_eq {x : WebSocketSession} (hx : s.heap c = some x) : s.cores c = some x.core := by
  rw [cores, hx]
  rfl

theorem cores_connect (s : WebSocketServer) : s.connect.cores =
    Function.update s.cores s.nextSessionId (some (WebSocketSession.new s.nextSessionId).core) := by
  funext d
  show (Function.update s.heap s.nextSessionId _ d).map (·.core) = _
  by_cases hd : d = s.nextSessionId
  · subst hd
    rw [Function.update_self, Function.update_self]
    rfl
  · rw [Function.update_of_ne hd, Function.update_of_ne hd]
    rfl

theorem accepts_onAccept {k : Core} (hk : s.cores c = some k) (hread : k.read = .accepting) :
    Accepts s (s.onAccept c true) c := by
  obtain ⟨x, hx, rfl⟩ := Option.map_eq_some_iff.1 hk
  have hread' : x.read = .accepting := hread
  have hopen : Changes s (s.modifySession c fun x => { x with isOpen := true }) c
      fun k => { k with isOpen := true } := changes_modifySession s c fun _ => rfl
  have hsends : ∀ t : WebSocketServer, ∀ m m', ((t.send c m).send c m').cores = t.cores := fun t m m' =>
    ((quiet_send t c m).trans (quiet_send _ c m')).cores
  unfold onAccept
  rw [hx]
  dsimp only
  rw [if_neg (not_not.2 hread'), if_neg (by decide)]
  exact ⟨(changes_doRead _ c).cores.trans (change_change ((hsends _ _ _).trans hopen.cores) _), rfl, rfl⟩

/-- A handshake matters to a session that waits for it; when it fails, only the reading side ends. -/
theorem onAccept_cases (s : WebSocketServer) (c : Nat) (ok : Bool) :
    s.onAccept c ok = s ∨
      ∃ k, s.cores c = some k ∧ k.read = .accepting ∧ (ok = true ∨ (ok = false ∧ s.onAccept c ok = s.endRead c)) := by
  cases hx : s.heap c with
  | none =>
    refine .inl ?_
    rw [onAccept, hx]
  | some x =>
    by_cases hread : x.read = .accepting
    · refine .inr ⟨x.core, core_eq hx, hread, ?_⟩
      cases ok with
      | true => exact .inl rfl
      | false => exact .inr ⟨rfl, by simp [onAccept, hx, hread]⟩
    · refine .inl ?_
      rw [onAccept, hx]
      exact if_pos hread

theorem core_runPosted (x : WebSocketSession) : x.runPosted.core = x.core := by
  unfold WebSocketSession.runPosted
  split
  · rfl
  · dsimp only
    split
    · rfl
    · split <;> rfl

theorem coreStep_exec (h : Wf s) (event : Event) : CoreStep s (s.exec event) event := by
  cases event with
  | connect => exact .connect s.cores_connect rfl rfl
  | accepted c ok =>
    show CoreStep s (s.onAccept c ok) _
    rcases s.onAccept_cases c ok with heq | ⟨k, hk, hread, rfl | ⟨rfl, heq⟩⟩
    · rw [heq]
      exact .quiet (.refl s)
    · exact .accept c k hk hread (accepts_onAccept hk hread)
    · -- the session was not open yet
      rw [heq]
      refine .change c _ (changes_endRead s c) ⟨fun _ _ => rfl, fun _ => rfl, nofun, fun k' hk' ho => ?_⟩
      have hbusy := (h.busy c k' hk' ho).2
      obtain rfl := Option.some.inj (hk.symm.trans hk')
      exact absurd hread hbusy
  | arrive c result =>
    let f (k : Core) : Core :=
      if k.read = .reading ∧ (k.isOpen = true ∨ result = none) then { k with read := .completed result } else k
    have hf : ∀ k, (f k).isOpen = k.isOpen ∧ (f k).nickname = k.nickname ∧
        ((f k).read = .accepting → k.read = .accepting) := by
      intro k
      unfold f
      split
      · exact ⟨rfl, rfl, nofun⟩
      · exact ⟨rfl, rfl, id⟩
    refine .change c f (changes_modifySession s c fun x => apply_ite WebSocketSession.core _ _ _)
      ⟨fun k _ => (hf k).1, fun k => (hf k).2.1, fun k => (hf k).2.2, fun k hk ho => ?_⟩
    unfold f
    split
    · exact ⟨nofun, nofun⟩
    · exact h.busy c k hk ho
  | read c =>
    show CoreStep s (s.onRead c) _
    unfold onRead
    split
    · exact .quiet (.refl s)
    rename_i x hx
    split
    · exact coreStep_onClose h (core_eq hx) (fun t => changes_endRead t c) (fun _ => rfl) (fun _ => rfl) nofun
    · exact coreStep_handleCommand ..
    · exact .quiet (.refl s)
  | runPosted c => exact .quiet (quiet_modifySession s c core_runPosted)
  | written c result =>
    show CoreStep s (s.onWrite c result) _
    unfold onWrite
    split
    · exact .quiet (.refl s)
    rename_i x hx
    split
    · exact .quiet (.refl s)
    split
    · exact .quiet (quiet_modifySession s c fun _ => rfl)
    · exact .quiet (quiet_modifySession s c fun _ => rfl)
    · exact coreStep_onClose (f := id) (g := fun x => { x with writePending := false }) h (core_eq hx)
        (fun t => changes_modifySession t c fun _ => rfl) (fun _ => rfl) (fun _ => rfl) fun _ => id

/-! ### The invariant of the sessions -/

theorem wf_init : Wf {} where
  fresh _ _ := rfl
  busy c k hk := by cases hk
  registered c := by simp [cores]
  named c k hk := by cases hk

theorem forall_change {f : Core → Core} {P : Nat → Core → Prop} (hcores : t.cores = s.change c f)
    (hc : ∀ k, s.cores c = some k → P c (f k)) (hd : ∀ d k, d ≠ c → s.cores d = some k → P d k) :
    ∀ d k, t.cores d = some k → P d k := by
  intro d k hk
  rw [hcores] at hk
  by_cases hdc : d = c
  · subst hdc
    rw [change_self] at hk
    obtain ⟨k', hk', rfl⟩ := Option.map_eq_some_iff.1 hk
    exact hc k' hk'
  · rw [change_of_ne hdc] at hk
    exact hd d k hdc hk

theorem fresh_change {f : Core → Core} (h : Wf s) (hcores : t.cores = s.change c f)
    (hnext : t.nextSessionId = s.nextSessionId) : ∀ d, t.nextSessionId ≤ d → t.cores d = none := by
  intro d hd
  have hnone := h.fresh d (hnext ▸ hd)
  rw [hcores]
  by_cases hdc : d = c
  · subst hdc
    rw [change_self, hnone]
    rfl
  · rw [change_of_ne hdc, hnone]

/-- The registered sessions, when one core changes. -/
theorem registered_change {f : Core → Core} (h : Wf s) (hcores : t.cores = s.change c f) {d : Nat}
    (hself : d = c → (d ∈ t.sessions ↔ ∃ k, s.cores c = some k ∧ (f k).isOpen = true))
    (hother : d ≠ c → (d ∈ t.sessions ↔ d ∈ s.sessions)) :
    d ∈ t.sessions ↔ ∃ k, t.cores d = some k ∧ k.isOpen = true := by
  rw [hcores]
  by_cases hdc : d = c
  · rw [hself hdc, hdc, change_self]
    constructor
    · rintro ⟨k, hk, ho⟩
      exact ⟨f k, by rw [hk]; rfl, ho⟩
    · rintro ⟨k, hk, ho⟩
      obtain ⟨k', hk', rfl⟩ := Option.map_eq_some_iff.1 hk
      exact ⟨k', hk', ho⟩
  · rw [hother hdc, change_of_ne hdc, h.registered d]

/-- One core changes, and is as open as it was. -/
theorem Wf.changes {f : Core → Core} (h : Wf s) (hch : Changes s t c f)
    (hopen : ∀ k, s.cores c = some k → (f k).isOpen = k.isOpen)
    (hbusy : ∀ k, s.cores c = some k → k.isOpen = true → (f k).Busy)
    (hnamed : ∀ k, s.cores c = some k → (f k).read = .accepting → (f k).nickname = "user-" ++ toString c) :
    Wf t := by
  refine ⟨fresh_change h hch.cores hch.next,
    forall_change hch.cores (fun k hk ho => hbusy k hk (hopen k hk ▸ ho)) fun d k _ => h.busy d k,
    fun d => registered_change h hch.cores (fun hdc => ?_) (fun _ => by rw [hch.sessions]),
    forall_change hch.cores hnamed fun d k _ => h.named d k⟩
  rw [hch.sessions, hdc, h.registered c]
  constructor
  · rintro ⟨k, hk, ho⟩
    exact ⟨k, hk, (hopen k hk).trans ho⟩
  · rintro ⟨k, hk, ho⟩
    exact ⟨k, hk, (hopen k hk).symm.trans ho⟩

theorem Wf.coreStep {event : Event} (h : Wf s) (hstep : CoreStep s t event) : Wf t := by
  cases hstep with
  | quiet hq =>
    refine ⟨fun c hc => ?_, fun c k hk => ?_, fun c => ?_, fun c k hk => ?_⟩
    · rw [hq.cores]
      exact h.fresh c (hq.next ▸ hc)
    · rw [hq.cores] at hk
      exact h.busy c k hk
    · rw [hq.sessions, hq.cores]
      exact h.registered c
    · rw [hq.cores] at hk
      exact h.named c k hk
  | change c f hch hf =>
    refine h.changes hch hf.isOpen hf.busy fun k hk hacc => ?_
    rw [hf.nickname]
    exact h.named c k hk (hf.accepting k hacc)
  | rename c name _ hch =>
    exact h.changes hch (fun _ _ => rfl) (fun _ _ _ => ⟨nofun, nofun⟩) nofun
  | connect hcores hsessions hnext =>
    have hnew : ∀ P : Nat → Core → Prop,
        P s.nextSessionId (WebSocketSession.new s.nextSessionId).core →
        (∀ c k, s.cores c = some k → P c k) → ∀ c k, t.cores c = some k → P c k := by
      intro P h0 hP c k hk
      rw [hcores] at hk
      by_cases hc : c = s.nextSessionId
      · subst hc
        rw [Function.update_self] at hk
        cases hk
        exact h0
      · rw [Function.update_of_ne hc] at hk
        exact hP c k hk
    refine ⟨fun c hc => ?_, hnew _ nofun h.busy, fun c => ?_, hnew _ (fun _ => rfl) h.named⟩
    · rw [hcores, Function.update_of_ne (by omega)]
      exact h.fresh c (by omega)
    · rw [hsessions, h.registered c]
      constructor
      · rintro ⟨k, hk, ho⟩
        refine ⟨k, ?_, ho⟩
        have hc : c ≠ s.nextSessionId := by
          rintro rfl
          rw [h.fresh _ (Nat.le_refl _)] at hk
          cases hk
        rw [hcores, Function.update_of_ne hc, hk]
      · rintro ⟨k, hk, ho⟩
        exact hnew (fun c k => k.isOpen = true → ∃ k, s.cores c = some k ∧ k.isOpen = true) nofun
          (fun c k hk ho => ⟨k, hk, ho⟩) c k hk ho
  | accept c k hk hread hacc =>
    refine ⟨fresh_change h hacc.cores hacc.next,
      forall_change hacc.cores (fun _ _ _ => ⟨nofun, nofun⟩) fun d k _ => h.busy d k, fun d => ?_,
      forall_change hacc.cores nofun fun d k _ => h.named d k⟩
    refine registered_change h hacc.cores (fun hdc => ?_) (fun hdc => ?_)
    · simp [hacc.sessions, hdc, hk]
    · simp [hacc.sessions, hdc]
  | close c f hf hcores hsessions hnext =>
    refine ⟨fresh_change h hcores hnext,
      forall_change hcores (fun k _ ho => ?_) fun d k _ => h.busy d k, fun d => ?_,
      forall_change hcores (fun k hk hacc => ?_) fun d k _ => h.named d k⟩
    · rw [hf.isOpen] at ho
      cases ho
    · refine registered_change h hcores (fun hdc => ?_) (fun hdc => ?_)
      · simp [hsessions, hdc, hf.isOpen]
      · simp [hsessions, hdc]
    · rw [hf.nickname]
      exact h.named c k hk (hf.accepting k hacc)

end WebSocketServer

theorem wf_run (events : List Event) : WebSocketServer.Wf (chatMachine.run events).1 :=
  chatMachine.run_inv (P := fun _ _ s => s.Wf) WebSocketServer.wf_init
    (fun _ _ _ event h => h.coreStep (WebSocketServer.coreStep_exec h event)) events

end Portfolio.Chat
