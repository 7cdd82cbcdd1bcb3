import Portfolio.Arena.ConnectionInv

/-!
# Runs of the arena server

Every handler keeps the connection bookkeeping (`Inv.step`), so it holds after every run. A session
that a takeover stopped is closed, but a read of it that had succeeded before is still handled, and
`OnRead` does not look at `closed_`.
-/

namespace Portfolio.Arena
open Std

theorem extractWord_ne_empty {cs rest : List Char} {word : String} (h : extractWord cs = some (word, rest)) :
    word ≠ "" := by
  unfold extractWord at h
  dsimp only at h
  split at h
  · cases h
  · next hne =>
    obtain ⟨rfl, -⟩ := Prod.mk.inj (Option.some.inj h)
    intro hempty
    have hchars := congrArg String.toList hempty
    rw [String.toList_ofList] at hchars
    rw [hchars] at hne
    exact hne rfl

theorem parseInputFrame_ne_empty {α : Type} {readInput : List Char → Option (MovementInput α)}
    {data id : String} {input : MovementInput α} (h : parseInputFrame readInput data = some (id, input)) :
    id ≠ "" := by
  unfold parseInputFrame at h
  split at h
  · cases h
  · split at h
    · cases h
    · split at h
      · cases h
      · next hword =>
        obtain ⟨input', -, heq⟩ := Option.map_eq_some_iff.1 h
        obtain ⟨rfl, -⟩ := Prod.mk.inj heq
        exact extractWord_ne_empty hword

namespace ConnectionServer
variable {α β : Type}

/-! ### Handlers of one session -/

theorem ClientOk.setRead {client : ClientSession α} (h : ClientOk client) {read : ReadState}
    (hread : read ≠ .idle) (hnew : client.playerId = "" → client.closed = false) :
    ClientOk (client.setRead read) := by
  refine ⟨fun _ => hread, h.silent, fun hid hclosed => ?_⟩
  have hopen := hnew hid
  rw [show client.closed = true from hclosed] at hopen
  cases hopen

theorem Inv.readLoop {s : ConnectionServer α β} (h : Inv s) {c : Nat}
    (hc : ∀ client, s.heap c = some client → client.playerId = "" → client.closed = false) :
    Inv (s.readLoop c) :=
  h.setClient fun client hclient hok => ⟨rfl, rfl, hok.setRead (fun h => nomatch h) (hc client hclient)⟩

/-- A session with an outstanding operation and without an id is open. -/
theorem Inv.open_of_busy {s : ConnectionServer α β} (h : Inv s) {c : Nat} {client : ClientSession α}
    (hc : s.heap c = some client) (hbusy : client.read ≠ .idle) (hnew : client.playerId = "") :
    client.closed = false := by
  by_contra hclosed
  exact hbusy ((h.ok c client hc).ended hnew (by simpa using hclosed))

theorem Inv.arrive {s : ConnectionServer α β} (h : Inv s) (c : Nat) (result : Option String) :
    Inv (s.arrive c result) := by
  refine h.setClient fun client hclient hok => ?_
  split
  · next hread =>
    refine ⟨rfl, rfl, hok.setRead (fun h => nomatch h) fun hnew => h.open_of_busy hclient ?_ hnew⟩
    rw [hread.1]
    exact fun h => nomatch h
  · exact ⟨rfl, rfl, hok⟩

theorem ClientOk.doWrite {client : ClientSession α} (h : ClientOk client) (hid : client.playerId ≠ "") :
    ClientOk client.doWrite ∧ client.doWrite.playerId = client.playerId ∧
      client.doWrite.closed = client.closed := by
  unfold ClientSession.doWrite
  split
  · exact ⟨⟨h.busy, h.silent, h.ended⟩, rfl, rfl⟩
  · exact ⟨⟨h.busy, fun hempty => absurd hempty hid, h.ended⟩, rfl, rfl⟩

theorem Inv.runPosted {s : ConnectionServer α β} (h : Inv s) (c : Nat) :
    Inv (s.setClient c ClientSession.runPosted) := by
  refine h.setClient fun client hclient hok => ?_
  unfold ClientSession.runPosted
  split
  · exact ⟨rfl, rfl, hok⟩
  · next message posted hposted =>
    have hid : client.playerId ≠ "" := by
      intro hempty
      rw [(hok.silent hempty).1] at hposted
      cases hposted
    have hnamed : ∀ {P : Prop}, client.playerId = "" → P := fun hempty => absurd hempty hid
    unfold ClientSession.queueMessage
    dsimp only
    split
    · exact ⟨rfl, rfl, ⟨hok.busy, hnamed, hok.ended⟩⟩
    · have hpushed : ClientOk { client with
          posted := posted, writeQueue := client.writeQueue ++ [message], writing := true } :=
        ⟨hok.busy, hnamed, hok.ended⟩
      obtain ⟨hwrite, hsame⟩ := hpushed.doWrite hid
      exact ⟨hsame.1, hsame.2, hwrite⟩

theorem Inv.handleWrite {s : ConnectionServer α β} (h : Inv s) (c : Nat) (ok : Bool) :
    Inv (s.handleWrite c ok) := by
  unfold ConnectionServer.handleWrite
  split
  · exact h
  · next client hclient =>
    split
    · exact h
    · next hpending =>
      have hid : client.playerId ≠ "" := by
        intro hempty
        rw [((h.ok c client hclient).silent hempty).2] at hpending
        exact hpending rfl
      split
      · refine h.setClient fun client' hclient' hok => ?_
        rw [hclient] at hclient'
        obtain rfl := Option.some.inj hclient'
        have hpopped : ClientOk { client with writePending := false, writeQueue := client.writeQueue.tail } :=
          ⟨hok.busy, fun hempty => absurd hempty hid, hok.ended⟩
        unfold ClientSession.onWrite
        dsimp only
        split
        · exact ⟨rfl, rfl, ⟨hok.busy, hpopped.silent, hok.ended⟩⟩
        · obtain ⟨hwrite, hsame⟩ := hpopped.doWrite hid
          exact ⟨hsame.1, hsame.2, hwrite⟩
      · refine h.finish fun client' hclient' hok => ?_
        rw [hclient] at hclient'
        obtain rfl := Option.some.inj hclient'
        exact ⟨rfl, rfl, ⟨fun hopen => (nomatch hopen), fun hempty => absurd hempty hid,
          fun hempty => absurd hempty hid⟩⟩

/-- The reading side ends with an error. -/
theorem Inv.readError {s : ConnectionServer α β} (h : Inv s) (c : Nat) :
    Inv ((s.setClient c (ClientSession.setRead .idle)).stop c) :=
  h.finish fun _ _ hok => ⟨rfl, rfl, ⟨fun hopen => (nomatch hopen), hok.silent, fun _ _ => rfl⟩⟩

theorem Inv.handleAccept {s : ConnectionServer α β} (h : Inv s) (c : Nat) (ok : Bool) :
    Inv (s.handleAccept c ok) := by
  unfold ConnectionServer.handleAccept
  split
  · exact h
  · next client hclient =>
    split
    · next hread =>
      split
      · refine h.readLoop fun client' hclient' => h.open_of_busy hclient' ?_
        rw [hclient] at hclient'
        rw [← Option.some.inj hclient', hread]
        exact fun h => nomatch h
      · exact h.readError c
    · exact h

theorem Inv.connect {s : ConnectionServer α β} (h : Inv s) : Inv s.connect := by
  have hheap : ∀ c, s.connect.heap c = if c = s.nextConn then some {} else s.heap c :=
    fun c => Function.update_apply ..
  refine ⟨{ h.consistent with clients := fun id c => (h.consistent.clients id c).trans ?_ }, ?_, ?_⟩
  · unfold Holds
    rw [hheap]
    split
    · next hc =>
      rw [hc, h.fresh _ le_rfl]
      refine iff_of_false ?_ ?_
      · rintro ⟨client, hclient, -⟩
        cases hclient
      · rintro ⟨client, hclient, hid, hne, -⟩
        obtain rfl := Option.some.inj hclient
        exact hne hid.symm
    · rfl
  · intro c client hc
    rw [hheap] at hc
    split at hc
    · obtain rfl := Option.some.inj hc
      exact ⟨fun _ h => (nomatch h), fun _ => ⟨rfl, rfl⟩, fun _ h => (nomatch h)⟩
    · exact h.ok c client hc
  · intro c hc
    have hc : s.nextConn + 1 ≤ c := hc
    rw [hheap, if_neg (by omega)]
    exact h.fresh c (by omega)

/-! ### Handlers that reach the session and the matchmaker -/

theorem Consistent.setSession {s : ConnectionServer α β} (h : Consistent s) {session : GameSession α}
    (hplayers : ∀ id, id ∈ session.players ↔ id ∈ s.base.session.players) : Consistent (s.setSession session) :=
  { h with players := fun id => (hplayers id).trans (h.players id) }

section
variable [Scalar α]

theorem Inv.applyInput {s : ConnectionServer α β} (h : Inv s) {c : Nat}
    (hc : ∀ client, s.heap c = some client → client.playerId ≠ "") (targetDelta : α)
    (input : MovementInput α) : Inv (s.applyInput targetDelta c input) := by
  have hset : Inv (s.setSession (s.base.session.applyInput (s.playerId c) input targetDelta).1) :=
    ⟨h.consistent.setSession (mem_players_applyInput _ _ _ _), h.ok, h.fresh⟩
  unfold ConnectionServer.applyInput
  dsimp only
  split
  · exact hset.readLoop fun client hclient hempty => absurd hempty (hc client hclient)
  · exact ⟨{ hset.consistent with }, hset.ok, hset.fresh⟩

theorem Inv.onRead (readInput : List Char → Option (MovementInput α)) (targetDelta : α) (now : Int)
    {s : ConnectionServer α β} (h : Inv s) {c : Nat} {client : ClientSession α} (hc : s.heap c = some client)
    (hbusy : client.read ≠ .idle) (data : String) : Inv (s.onRead readInput targetDelta now c data) := by
  unfold ConnectionServer.onRead
  split
  · refine h.readLoop fun client' hclient' => h.open_of_busy hclient' ?_
    rw [hc] at hclient'
    exact Option.some.inj hclient' ▸ hbusy
  · next id input hparse =>
    obtain ⟨hid, hnamed⟩ := h.identify hc hbusy (parseInputFrame_ne_empty hparse) now
    exact hid.applyInput hnamed targetDelta input

theorem Inv.handleRead (readInput : List Char → Option (MovementInput α)) (targetDelta : α) (now : Int)
    {s : ConnectionServer α β} (h : Inv s) (c : Nat) : Inv (s.handleRead readInput targetDelta now c) := by
  unfold ConnectionServer.handleRead
  split
  · exact h
  · next client hclient =>
    split
    · exact h.readError c
    · next data hread =>
      refine h.onRead readInput targetDelta now hclient ?_ data
      rw [hread]
      exact fun h => nomatch h
    · exact h

omit [Scalar α] in
/-- No pointer in the map has expired. -/
theorem dropExpired_eq {s : ConnectionServer α β} (h : Inv s) : s.dropExpired = s.clients := by
  have hnone : (s.clients.toList.filter fun kv => (s.lock kv.2).isNone) = [] := by
    refine List.filter_eq_nil_iff.2 ?_
    rintro ⟨id, c⟩ hmem
    have hholds := (h.consistent.clients id c).1 (TreeMap.mem_toList_iff_getElem?_eq_some.1 hmem)
    rw [lock_of_holds h hholds]
    exact Bool.false_ne_true
  rw [dropExpired, hnone, List.foldl_nil]

theorem Inv.broadcastState [LeaderboardStore β] (update : Int → Int → EloRatingUpdate)
    {s : ConnectionServer α β} (h : Inv s) (order : List String) (tick : Nat) (dt : α) :
    Inv (s.broadcastState update order tick dt) := by
  unfold ConnectionServer.broadcastState
  rw [dropExpired_eq h]
  refine ⟨{ h.consistent with
      clients := fun id c => (h.consistent.clients id c).trans (holds_map (fun c => rfl) ?_ c id).symm
      players := fun id => (mem_players_broadcastState update s.base order tick dt id).trans
        (h.consistent.players id) }, ?_, ?_⟩
  · intro c client _
    split
    · exact ⟨rfl, rfl⟩
    · exact ⟨rfl, rfl⟩
  · intro c client hc
    obtain ⟨client', hclient', rfl⟩ := Option.map_eq_some_iff.1 hc
    have hok := h.ok c client' hclient'
    split
    · next halive =>
      -- a client of the map has an id
      obtain ⟨⟨id, c'⟩, hmem, rfl⟩ := List.mem_map.1 halive
      obtain ⟨client, hclient, hid, hne, -⟩ :=
        (h.consistent.clients id c').1 (TreeMap.mem_toList_iff_getElem?_eq_some.1 hmem)
      rw [hclient'] at hclient
      obtain rfl := Option.some.inj hclient
      exact ⟨hok.busy, fun hempty => absurd (hid.symm.trans hempty) hne, hok.ended⟩
    · exact hok
  · intro c hc
    show (s.heap c).map _ = none
    rw [h.fresh c hc, Option.map_none]

theorem Inv.matching (conv : SecondsConv α) (sort : List QueuedPlayer → List QueuedPlayer)
    {s : ConnectionServer α β} (h : Inv s) (now : Int) :
    Inv { s with matchmaker := (s.matchmaker.runMatching conv sort now).1 } := by
  obtain ⟨hagree, hsub⟩ := pairLoop_subset conv now h.consistent.queue [] (s.matchmaker.queue.fetchOrdered sort)
  exact ⟨{ h.consistent with
    queue := hagree
    queued := fun x hx => h.consistent.queued x (hsub x hx) }, h.ok, h.fresh⟩

/-! ### Runs -/

theorem inv_new (leaderboard : Option β) : Inv (new leaderboard : ConnectionServer α β) := by
  refine ⟨⟨fun id c => ?_, fun id => ?_, ?_, InMemoryMatchQueue.agree_new, fun x hx => ?_⟩, ?_, fun c _ => rfl⟩
  · refine iff_of_false (fun h => ?_) ?_
    · rw [new, TreeMap.getElem?_emptyc] at h
      cases h
    · rintro ⟨client, hclient, -⟩
      cases hclient
  · exact iff_of_false TreeMap.not_mem_emptyc TreeMap.not_mem_emptyc
  · rfl
  · cases hx
  · intro c client hclient
    cases hclient

variable [LeaderboardStore β] (conv : SecondsConv α) (sort : List QueuedPlayer → List QueuedPlayer)
  (update : Int → Int → EloRatingUpdate) (readInput : List Char → Option (MovementInput α)) (targetDelta : α)

theorem Inv.step {s : ConnectionServer α β} (h : Inv s) (event : ConnectionEvent α) :
    Inv (s.step conv sort update readInput targetDelta event).1 := by
  unfold ConnectionServer.step
  split
  · exact h
  · cases event with
    | connect => exact h.connect
    | accepted c ok => exact h.handleAccept c ok
    | arrive c result => exact h.arrive c result
    | read c now => exact h.handleRead readInput targetDelta now c
    | runPosted c => exact h.runPosted c
    | written c ok => exact h.handleWrite c ok
    | tick order tick dt => exact h.broadcastState update order tick dt
    | matching now => exact h.matching conv sort now

theorem inv_run (leaderboard : Option β) (events : List (ConnectionEvent α)) :
    Inv ((connectionMachine conv sort update readInput targetDelta leaderboard).run events).1 :=
  (connectionMachine conv sort update readInput targetDelta leaderboard).run_inv
    (P := fun _ _ s => Inv s) (inv_new leaderboard)
    (fun _ _ _ event h => h.step conv sort update readInput targetDelta event) events

/-- After every run the client map, the session's players and the open sessions with an id agree, the
counter is their number, and the queue holds no one else. -/
theorem connections_consistent (leaderboard : Option β) (events : List (ConnectionEvent α)) :
    let s := ((connectionMachine conv sort update readInput targetDelta leaderboard).run events).1
    (∀ id, id ∈ s.clients ↔ id ∈ s.base.session.players) ∧
    (∀ id, id ∈ s.clients ↔ ∃ c client, s.heap c = some client ∧ client.playerId = id ∧ id ≠ "" ∧
      client.closed = false) ∧
    s.connectionCount = s.clients.size ∧
    ∀ x ∈ s.matchmaker.queue.contents, x.request.playerId ∈ s.clients := by
  have h := (inv_run conv sort update readInput targetDelta leaderboard events).consistent
  exact ⟨fun id => (h.players id).symm, mem_clients h, h.count, h.queued⟩

end

/-! ### Replaced sessions -/

/-- What may become of a session: it stays closed, and a closed one is not read successfully again. -/
structure Later (client client' : ClientSession α) : Prop where
  closed : client.closed = true → client'.closed = true
  read : client.closed = true → ∀ data, client'.read = .completed (some data) →
    client.read = .completed (some data)

def HeapLater (s s' : ConnectionServer α β) : Prop :=
  ∀ d client, s.heap d = some client → ∃ client', s'.heap d = some client' ∧ Later client client'

theorem Later.refl (client : ClientSession α) : Later client client := ⟨fun h => h, fun _ _ h => h⟩

theorem HeapLater.refl (s : ConnectionServer α β) : HeapLater s s := fun _ client h => ⟨client, h, .refl client⟩

theorem HeapLater.trans {s s' s'' : ConnectionServer α β} (h : HeapLater s s') (h' : HeapLater s' s'') :
    HeapLater s s'' := by
  intro d client hd
  obtain ⟨client', hd', hl⟩ := h d client hd
  obtain ⟨client'', hd'', hl'⟩ := h' d client' hd'
  exact ⟨client'', hd'', fun hc => hl'.closed (hl.closed hc),
    fun hc data hdata => hl.read hc data (hl'.read (hl.closed hc) data hdata)⟩

theorem HeapLater.of_eq {s s' : ConnectionServer α β} (h : s'.heap = s.heap) : HeapLater s s' := by
  intro d client hd
  exact ⟨client, h ▸ hd, .refl client⟩

theorem HeapLater.of_map {s s' : ConnectionServer α β} {g : Nat → ClientSession α → ClientSession α}
    (hheap : ∀ d, s'.heap d = (s.heap d).map (g d)) (hg : ∀ d client, Later client (g d client)) :
    HeapLater s s' := by
  intro d client hd
  exact ⟨g d client, by rw [hheap, hd]; rfl, hg d client⟩

theorem heapLater_setClient {s : ConnectionServer α β} {c : Nat} {f : ClientSession α → ClientSession α}
    (hf : ∀ client, s.heap c = some client → Later client (f client)) : HeapLater s (s.setClient c f) := by
  intro d client hd
  rw [heap_setClient]
  split
  · next hdc =>
    subst hdc
    exact ⟨f client, by rw [hd]; rfl, hf client hd⟩
  · exact ⟨client, hd, .refl client⟩

theorem heapLater_stop (s : ConnectionServer α β) (c : Nat) : HeapLater s (s.stop c) := by
  refine (heapLater_setClient (c := c) (f := ClientSession.close) fun client _ => ?_).trans
    (.of_eq (heap_stop s c).1)
  exact ⟨fun _ => rfl, fun _ _ h => h⟩

/-- Setting the reading side to anything but a successful read. -/
theorem heapLater_setRead (s : ConnectionServer α β) (c : Nat) {read : ReadState}
    (hread : ∀ data, read ≠ .completed (some data)) :
    HeapLater s (s.setClient c (ClientSession.setRead read)) :=
  heapLater_setClient fun _ _ => ⟨fun h => h, fun _ data h => absurd h (hread data)⟩

theorem heapLater_readError (s : ConnectionServer α β) (c : Nat) :
    HeapLater s ((s.setClient c (ClientSession.setRead .idle)).stop c) := by
  refine HeapLater.trans ?_ (heapLater_stop _ c)
  exact heapLater_setRead s c fun _ h => (nomatch h)

theorem heapLater_readLoop (s : ConnectionServer α β) (c : Nat) : HeapLater s (s.readLoop c) :=
  heapLater_setRead s c fun _ h => (nomatch h)

theorem heapLater_arrive (s : ConnectionServer α β) (c : Nat) (result : Option String) :
    HeapLater s (s.arrive c result) := by
  refine heapLater_setClient fun client _ => ?_
  split
  · next hread =>
    refine ⟨fun h => h, fun hclosed data hdata => ?_⟩
    rcases hread.2 with hopen | rfl
    · rw [hclosed] at hopen
      cases hopen
    · cases hdata
  · exact .refl client

theorem doWrite_frame (client : ClientSession α) :
    client.doWrite.closed = client.closed ∧ client.doWrite.read = client.read := by
  unfold ClientSession.doWrite
  split
  · exact ⟨rfl, rfl⟩
  · exact ⟨rfl, rfl⟩

theorem Later.of_frame {client client' : ClientSession α}
    (h : client'.closed = client.closed ∧ client'.read = client.read) : Later client client' :=
  ⟨fun hc => h.1.trans hc, fun _ _ hd => h.2 ▸ hd⟩

theorem heapLater_runPosted (s : ConnectionServer α β) (c : Nat) :
    HeapLater s (s.setClient c ClientSession.runPosted) := by
  refine heapLater_setClient fun client _ => .of_frame ?_
  unfold ClientSession.runPosted
  split
  · exact ⟨rfl, rfl⟩
  · unfold ClientSession.queueMessage
    dsimp only
    split
    · exact ⟨rfl, rfl⟩
    · exact doWrite_frame _

theorem heapLater_handleWrite (s : ConnectionServer α β) (c : Nat) (ok : Bool) :
    HeapLater s (s.handleWrite c ok) := by
  unfold handleWrite
  split
  · exact .refl s
  · split
    · exact .refl s
    · split
      · refine heapLater_setClient fun client _ => .of_frame ?_
        unfold ClientSession.onWrite
        dsimp only
        split
        · exact ⟨rfl, rfl⟩
        · exact doWrite_frame _
      · refine HeapLater.trans ?_ (heapLater_stop _ c)
        exact heapLater_setClient fun client _ => .of_frame ⟨rfl, rfl⟩

theorem heapLater_handleAccept (s : ConnectionServer α β) (c : Nat) (ok : Bool) :
    HeapLater s (s.handleAccept c ok) := by
  unfold handleAccept
  split
  · exact .refl s
  · split
    · split
      · exact heapLater_readLoop s c
      · exact heapLater_readError s c
    · exact .refl s

theorem heapLater_connect {s : ConnectionServer α β} (h : Inv s) : HeapLater s s.connect := by
  intro d client hd
  have hne : d ≠ s.nextConn := by
    rintro rfl
    rw [h.fresh _ le_rfl] at hd
    cases hd
  exact ⟨client, (Function.update_of_ne hne _ _).trans hd, .refl client⟩

theorem heapLater_stopPrevious (s : ConnectionServer α β) (id : String) : HeapLater s (s.stopPrevious id) := by
  unfold stopPrevious
  split
  · exact .refl s
  · exact heapLater_stop s _

section
variable [Scalar α]

theorem heapLater_identify (s : ConnectionServer α β) (now : Int) (c : Nat) (id : String) :
    HeapLater s (s.identify now c id) := by
  unfold identify
  split
  · refine HeapLater.trans ?_ (heapLater_stopPrevious _ id)
    exact heapLater_setClient fun client _ => .of_frame ⟨rfl, rfl⟩
  · exact .refl s

theorem heapLater_applyInput (s : ConnectionServer α β) (targetDelta : α) (c : Nat)
    (input : MovementInput α) : HeapLater s (s.applyInput targetDelta c input) := by
  unfold applyInput
  dsimp only
  split
  · exact heapLater_readLoop (s.setSession _) c
  · exact .refl s

theorem heapLater_handleRead (readInput : List Char → Option (MovementInput α)) (targetDelta : α) (now : Int)
    (s : ConnectionServer α β) (c : Nat) : HeapLater s (s.handleRead readInput targetDelta now c) := by
  unfold handleRead
  split
  · exact .refl s
  · split
    · exact heapLater_readError s c
    · unfold onRead
      split
      · exact heapLater_readLoop s c
      · exact (heapLater_identify s now c _).trans (heapLater_applyInput _ targetDelta c _)
    · exact .refl s

theorem heapLater_broadcastState [LeaderboardStore β] (update : Int → Int → EloRatingUpdate)
    (s : ConnectionServer α β) (order : List String) (tick : Nat) (dt : α) :
    HeapLater s (s.broadcastState update order tick dt) := by
  refine HeapLater.of_map (fun d => rfl) fun d client => .of_frame ?_
  split
  · exact ⟨rfl, rfl⟩
  · exact ⟨rfl, rfl⟩

variable [LeaderboardStore β] (conv : SecondsConv α) (sort : List QueuedPlayer → List QueuedPlayer)
  (update : Int → Int → EloRatingUpdate) (readInput : List Char → Option (MovementInput α)) (targetDelta : α)

theorem heapLater_step {s : ConnectionServer α β} (h : Inv s) (event : ConnectionEvent α) :
    HeapLater s (s.step conv sort update readInput targetDelta event).1 := by
  unfold ConnectionServer.step
  split
  · exact .refl s
  · cases event with
    | connect => exact heapLater_connect h
    | accepted c ok => exact heapLater_handleAccept s c ok
    | arrive c result => exact heapLater_arrive s c result
    | read c now => exact heapLater_handleRead readInput targetDelta now s c
    | runPosted c => exact heapLater_runPosted s c
    | written c ok => exact heapLater_handleWrite s c ok
    | tick order tick dt => exact heapLater_broadcastState update s order tick dt
    | matching now => exact .refl s

/-- The well-formed frame whose `OnRead` is queued for session `d`, if there is one. -/
def queuedFrame (readInput : List Char → Option (MovementInput α)) (s : ConnectionServer α β) (d : Nat) :
    Option (String × MovementInput α) :=
  match s.heap d with
  | none => none
  | some client => match client.read with
    | .completed (some data) => parseInputFrame readInput data
    | _ => none

/-- The condition: for a session that is about to be replaced no well-formed frame is queued. -/
def QuietTakeover (readInput : List Char → Option (MovementInput α)) (s : ConnectionServer α β) :
    ConnectionEvent α → Prop
  | .read c _ => (s.takeover readInput c).bind (s.queuedFrame readInput) = none
  | _ => True

instance (s : ConnectionServer α β) (event : ConnectionEvent α) :
    Decidable (QuietTakeover readInput s event) :=
  match event with
  | .read c _ => inferInstanceAs (Decidable ((s.takeover readInput c).bind (s.queuedFrame readInput) = none))
  | .connect | .accepted .. | .arrive .. | .runPosted _ | .written .. | .tick .. | .matching _ =>
    inferInstanceAs (Decidable True)

/-- A closed session that has no well-formed frame to handle. -/
def Silenced (readInput : List Char → Option (MovementInput α)) (s : ConnectionServer α β) (d : Nat) : Prop :=
  ∃ client, s.heap d = some client ∧ client.closed = true ∧
    ∀ data, client.read = .completed (some data) → parseInputFrame readInput data = none

omit [Scalar α] [LeaderboardStore β] in
theorem Silenced.later {s s' : ConnectionServer α β} {d : Nat} (h : Silenced readInput s d)
    (hl : HeapLater s s') : Silenced readInput s' d := by
  obtain ⟨client, hd, hclosed, hread⟩ := h
  obtain ⟨client', hd', hlater⟩ := hl d client hd
  exact ⟨client', hd', hlater.closed hclosed, fun data hdata => hread data (hlater.read hclosed data hdata)⟩

omit [Scalar α] [LeaderboardStore β] in
theorem takeover_some {s : ConnectionServer α β} {c d : Nat} (h : s.takeover readInput c = some d) :
    ∃ client data id input, s.heap c = some client ∧ client.read = .completed (some data) ∧
      client.playerId = "" ∧ parseInputFrame readInput data = some (id, input) ∧ s.previous id = some d := by
  unfold takeover at h
  split at h
  · cases h
  · next client hclient =>
    split at h
    · next data hread =>
      split at h
      · next hid =>
        obtain ⟨⟨id, input⟩, hparse, hprevious⟩ := Option.bind_eq_some_iff.1 h
        exact ⟨client, data, id, input, hclient, hread, hid, hparse, hprevious⟩
      · cases h
    · cases h

omit [LeaderboardStore β] in
/-- A session is silenced by a takeover that finds it without a well-formed frame. -/
theorem Silenced.of_takeover {s : ConnectionServer α β} (h : Inv s) {c d : Nat} {now : Int}
    (hd : s.takeover readInput c = some d) (hquiet : QuietTakeover readInput s (.read c now)) :
    Silenced readInput (s.handleRead readInput targetDelta now c) d := by
  obtain ⟨client, data, id, input, hclient, hread, hnew, hparse, hprevious⟩ := takeover_some readInput hd
  rw [previous_eq h] at hprevious
  obtain ⟨old, hold, hid, hne, -⟩ := (h.consistent.clients id d).1 hprevious
  have hself : s.clients[id]? ≠ some c := by
    rw [hprevious]
    rintro heq
    rw [Option.some.inj heq, hclient] at hold
    exact hne (hid.symm.trans (Option.some.inj hold ▸ hnew))
  have hstopped : Silenced readInput (s.stop d) d := by
    refine ⟨old.close, ?_, rfl, fun data' hdata' => ?_⟩
    · rw [(heap_stop s d).1, heap_setClient, if_pos rfl, hold, Option.map_some]
    · have hdata' : old.read = .completed (some data') := hdata'
      rw [QuietTakeover, hd, Option.bind_some, queuedFrame, hold] at hquiet
      dsimp only at hquiet
      rw [hdata'] at hquiet
      exact hquiet
  have hstop : s.stopPrevious id = s.stop d := by rw [stopPrevious, previous_eq h, hprevious]
  have hplayer : s.playerId c = "" := by
    rw [playerId, hclient]
    exact hnew
  have hidentify : Silenced readInput (s.identify now c id) d := by
    unfold identify
    rw [if_pos hplayer, registerClient, stopPrevious_setClient hself, hstop]
    refine Silenced.later readInput hstopped ?_
    exact heapLater_setClient fun client _ => .of_frame ⟨rfl, rfl⟩
  have hhandle : s.handleRead readInput targetDelta now c =
      (s.identify now c id).applyInput targetDelta c input := by
    unfold handleRead onRead
    rw [hclient]
    dsimp only
    rw [hread]
    dsimp only
    rw [hparse]
  rw [hhandle]
  exact Silenced.later readInput hidentify (heapLater_applyInput _ targetDelta c input)

theorem Silenced.step {s : ConnectionServer α β} (h : Inv s) {event : ConnectionEvent α} {d : Nat}
    (hd : d ∈ (s.step conv sort update readInput targetDelta event).2)
    (hquiet : QuietTakeover readInput s event) :
    Silenced readInput (s.step conv sort update readInput targetDelta event).1 d := by
  unfold ConnectionServer.step at hd ⊢
  split at hd
  · cases hd
  · next hdown =>
    rw [if_neg hdown]
    cases event with
    | read c now => exact Silenced.of_takeover readInput targetDelta h (Option.mem_toList.1 hd) hquiet
    | _ => cases hd

/-- In a run of quiet takeovers every replaced session is silenced. -/
theorem silenced_run (leaderboard : Option β) (events : List (ConnectionEvent α))
    (hquiet : (connectionMachine conv sort update readInput targetDelta leaderboard).Along
      (QuietTakeover readInput) events) :
    ∀ d ∈ ((connectionMachine conv sort update readInput targetDelta leaderboard).run events).2,
      Silenced readInput ((connectionMachine conv sort update readInput targetDelta leaderboard).run events).1 d := by
  refine ((connectionMachine conv sort update readInput targetDelta leaderboard).run_inv_along
    (G := QuietTakeover readInput) (P := fun _ os s => Inv s ∧ ∀ d ∈ os, Silenced readInput s d)
    ⟨inv_new leaderboard, fun d hd => (nomatch hd)⟩ ?_ events hquiet).2
  rintro _ os s event ⟨h, hos⟩ hevent
  refine ⟨h.step conv sort update readInput targetDelta event, fun d hd => ?_⟩
  rcases List.mem_append.1 hd with hd | hd
  · exact Silenced.later readInput (hos d hd) (heapLater_step conv sort update readInput targetDelta h event)
  · exact Silenced.step conv sort update readInput targetDelta h hd hevent

omit [LeaderboardStore β] in
theorem Silenced.session_eq {s : ConnectionServer α β} {d : Nat} (h : Silenced readInput s d) (now : Int) :
    (s.handleRead readInput targetDelta now d).base.session = s.base.session := by
  obtain ⟨client, hd, hclosed, hread⟩ := h
  unfold handleRead
  rw [hd]
  dsimp only
  split
  · have hstop : ((s.setClient d (ClientSession.setRead .idle)).stop d) =
        s.setClient d (ClientSession.setRead .idle) := by
      unfold stop
      rw [heap_setClient, if_pos rfl, hd, Option.map_some]
      dsimp only
      rw [if_pos (show (client.setRead .idle).closed = true from hclosed)]
    rw [hstop]
    rfl
  · next data hdata =>
    rw [onRead, hread data hdata]
    rfl
  · rfl

/-- In every run in which no takeover finds a well-formed frame of the previous session queued, no
`OnRead` of a replaced session changes the game session. -/
theorem replaced_cannot_act (leaderboard : Option β) (events : List (ConnectionEvent α))
    (hquiet : (connectionMachine conv sort update readInput targetDelta leaderboard).Along
      (QuietTakeover readInput) events) (d : Nat) (now : Int)
    (hd : d ∈ ((connectionMachine conv sort update readInput targetDelta leaderboard).run events).2) :
    ((connectionMachine conv sort update readInput targetDelta leaderboard).run
        (events ++ [.read d now])).1.base.session =
      ((connectionMachine conv sort update readInput targetDelta leaderboard).run events).1.base.session := by
  have hsilenced := silenced_run conv sort update readInput targetDelta leaderboard events hquiet d hd
  rw [Machine.run_concat]
  show (ConnectionServer.step conv sort update readInput targetDelta _ (.read d now)).1.base.session = _
  unfold ConnectionServer.step
  split
  · rfl
  · exact Silenced.session_eq readInput targetDelta hsilenced now

end

/-! ### A stale frame -/

/-- The numbers of the frames below. -/
def readExample (rest : List Char) : Option (MovementInput ℚ) :=
  if rest = " 5 0 0 0 0 1 0".toList then some { sequence := 5, mouseX := 1, mouseY := 0 }
  else if rest = " 1 0 0 0 0 1 0".toList then some { sequence := 1, mouseX := 1, mouseY := 0 }
  else if rest = " 9 1 0 0 0 1 0".toList then some { sequence := 9, up := true, mouseX := 1, mouseY := 0 }
  else none

def exampleMachine : Machine (ConnectionServer ℚ InMemoryLeaderboardStore) (ConnectionEvent ℚ) Nat :=
  connectionMachine exactSeconds (List.insertionSort fun a b => b.before a = false) (fun w l => ⟨w, l⟩)
    readExample (1 / 60) none

/-- Connection 0 plays `p`, then connection 1 claims `p`; `late` is what arrives for connection 0
before the first frame of connection 1 is handled. -/
def takeoverRun (late : List (ConnectionEvent ℚ)) : List (ConnectionEvent ℚ) :=
  [.connect, .accepted 0 true, .arrive 0 (some "input p 5 0 0 0 0 1 0"), .read 0 0,
    .connect, .accepted 1 true, .arrive 1 (some "input p 1 0 0 0 0 1 0")] ++ late ++ [.read 1 10]

/-- Without a frame in between the replaced session changes nothing. -/
theorem replaced_cannot_act_quiet :
    exampleMachine.Along (QuietTakeover readExample) (takeoverRun []) ∧
    0 ∈ (exampleMachine.run (takeoverRun [])).2 ∧
    (exampleMachine.run (takeoverRun [] ++ [.read 0 20])).1.base.session =
      (exampleMachine.run (takeoverRun [])).1.base.session := by
  have hquiet : exampleMachine.Along (QuietTakeover readExample) (takeoverRun []) :=
    exampleMachine.along_iff_forall_lt.2 (by decide +kernel)
  have hreplaced : 0 ∈ (exampleMachine.run (takeoverRun [])).2 := by decide +kernel
  exact ⟨hquiet, hreplaced, replaced_cannot_act _ _ _ _ _ _ _ hquiet 0 20 hreplaced⟩

/-- A frame of connection 0 that was read before the takeover still moves the new player and sets its
last sequence. -/
theorem replaced_acts :
    0 ∈ (exampleMachine.run (takeoverRun [.arrive 0 (some "input p 9 1 0 0 0 1 0")])).2 ∧
    ((exampleMachine.run (takeoverRun [.arrive 0 (some "input p 9 1 0 0 0 1 0")])).1.base.session.players["p"]?).map
      (fun r => (r.state.x, r.state.y, r.state.lastSequence)) = some (0, 0, 1) ∧
    ((exampleMachine.run (takeoverRun [.arrive 0 (some "input p 9 1 0 0 0 1 0")] ++
        [.read 0 20])).1.base.session.players["p"]?).map
      (fun r => (r.state.x, r.state.y, r.state.lastSequence)) = some (0, -1 / 12, 9) := by
  decide +kernel

end ConnectionServer

end Portfolio.Arena
