import Portfolio.Arena.Connections
import Portfolio.Arena.MatchmakerInv
import Portfolio.Arena.SessionRuns

/-!
# Connection bookkeeping

`Consistent`: the client map, the players of the session and the open sessions with an id are the
same, the counter is their number, and only they are queued. It is kept by `Stop` in any state
(`Consistent.stop`) and by a registration of an id that is free (`Consistent.enroll`); a takeover is
a `Stop` followed by the latter.
-/

namespace Portfolio.Arena
open Std

section
variable {α : Type}

/-! ### The parts of the system keep their players -/

theorem mem_updatePlayer {players : TreeMap String (PlayerRuntimeState α)} {id j : String}
    {f : PlayerRuntimeState α → PlayerRuntimeState α} : j ∈ updatePlayer players id f ↔ j ∈ players := by
  rw [TreeMap.mem_iff_isSome_getElem?, TreeMap.mem_iff_isSome_getElem?, getElem?_updatePlayer]
  split
  · rw [Option.isSome_map]
  · rfl

theorem mem_of_getElem? {players : TreeMap String (PlayerRuntimeState α)} {id : String}
    {r : PlayerRuntimeState α} (h : players[id]? = some r) : id ∈ players := by
  rw [TreeMap.mem_iff_isSome_getElem?, h]
  rfl

theorem mem_players_applyHit {s : GameSession α} {p : Projectile α} {id : String}
    {r : PlayerRuntimeState α} (hr : s.players[id]? = some r) (tick : Nat) (j : String) :
    j ∈ (s.applyHit p id r tick).1.players ↔ j ∈ s.players := by
  have hdamaged : j ∈ s.players.insert id (GameSession.damaged r) ↔ j ∈ s.players := by
    rw [TreeMap.mem_insert, Std.compare_eq_iff_eq, or_iff_right_of_imp]
    rintro rfl
    exact mem_of_getElem? hr
  unfold GameSession.applyHit
  dsimp only
  split
  · rw [mem_updatePlayer, mem_updatePlayer, hdamaged]
  · rw [mem_updatePlayer, hdamaged]

variable [Scalar α]

theorem mem_players_resolveHits (s : GameSession α) (order : List String) (tick : Nat)
    (ps : List (Projectile α)) (j : String) :
    j ∈ (s.resolveHits order tick ps).1.players ↔ j ∈ s.players := by
  refine resolveHits_rule (P := fun s' => j ∈ s'.players ↔ j ∈ s.players) (fun s' n hs => hs) ?_ Iff.rfl
    order tick ps
  intro s' p id r tick hr hs
  exact (mem_players_applyHit hr tick j).trans hs

theorem mem_players_broadcastState {β : Type} [LeaderboardStore β] (update : Int → Int → EloRatingUpdate)
    (server : WebSocketServer α β) (order : List String) (tick : Nat) (dt : α) (j : String) :
    j ∈ (server.broadcastState update order tick dt).1.session.players ↔ j ∈ server.session.players :=
  mem_players_resolveHits { server.session with elapsedTime := server.session.elapsedTime + dt } order tick _ j

theorem mem_players_applyInput (s : GameSession α) (id : String) (input : MovementInput α) (dt : α)
    (j : String) : j ∈ (s.applyInput id input dt).1.players ↔ j ∈ s.players := by
  rcases applyInput_cases s id input dt with heq | ⟨r, hr, hstep⟩
  · rw [heq]
  · obtain ⟨r', -, hget⟩ := hstep.players
    rw [TreeMap.mem_iff_isSome_getElem?, TreeMap.mem_iff_isSome_getElem?, hget]
    split
    · next h => simp [← h, hr]
    · rfl

/-- A matching round only takes players out of the queue. -/
theorem pairLoop_subset (conv : SecondsConv α) (now : Int) {m : Matchmaker α} (h : m.queue.Agree)
    (used : List String) (ordered : List QueuedPlayer) :
    (Matchmaker.pairLoop conv now m used ordered).1.queue.Agree ∧
      ∀ x ∈ (Matchmaker.pairLoop conv now m used ordered).1.queue.contents, x ∈ m.queue.contents := by
  induction ordered generalizing m used with
  | nil => exact ⟨h, fun x hx => hx⟩
  | cons candidate rest ih =>
    unfold Matchmaker.pairLoop
    split
    · exact ih h used
    · cases Matchmaker.findPartner conv now used candidate.request rest with
      | none => exact ih h used
      | some partner =>
        have hw := (h.remove candidate.request.playerId).1
        have hw' := (hw.agree.remove partner.playerId).1
        have hqueue := Matchmaker.createMatch_queue conv m now candidate.request partner
        obtain ⟨hagree, hsub⟩ := ih (m := (m.createMatch conv now candidate.request partner).1)
          (hqueue ▸ hw'.agree) (candidate.request.playerId :: partner.playerId :: used)
        refine ⟨hagree, fun x hx => ?_⟩
        have hx := hsub x hx
        rw [hqueue] at hx
        exact (hw.mem_contents.1 (hw'.mem_contents.1 hx).1).1

end

namespace ConnectionServer
variable {α β : Type}

/-! ### The invariant -/

/-- Connection `c` is open and has registered the id. -/
def Holds (heap : Nat → Option (ClientSession α)) (c : Nat) (id : String) : Prop :=
  ∃ client, heap c = some client ∧ client.playerId = id ∧ id ≠ "" ∧ client.closed = false

structure Consistent (s : ConnectionServer α β) : Prop where
  clients : ∀ (id : String) (c : Nat), s.clients[id]? = some c ↔ Holds s.heap c id
  players : ∀ id, id ∈ s.base.session.players ↔ id ∈ s.clients
  count : s.connectionCount = s.clients.size
  queue : s.matchmaker.queue.Agree
  queued : ∀ x ∈ s.matchmaker.queue.contents, x.request.playerId ∈ s.clients

/-- An open session has an operation outstanding; one without an id sends nothing and is not read
after it is closed. -/
structure ClientOk (client : ClientSession α) : Prop where
  busy : client.closed = false → client.read ≠ .idle
  silent : client.playerId = "" → client.posted = [] ∧ client.writePending = false
  ended : client.playerId = "" → client.closed = true → client.read = .idle

structure Inv (s : ConnectionServer α β) : Prop where
  consistent : Consistent s
  ok : ∀ c client, s.heap c = some client → ClientOk client
  fresh : ∀ c, s.nextConn ≤ c → s.heap c = none

theorem mem_clients {s : ConnectionServer α β} (h : Consistent s) (id : String) :
    id ∈ s.clients ↔ ∃ c, Holds s.heap c id := by
  rw [TreeMap.mem_iff_isSome_getElem?, Option.isSome_iff_exists]
  exact exists_congr fun c => h.clients id c

theorem Holds.unique {s : ConnectionServer α β} (h : Consistent s) {c d : Nat} {id : String}
    (hc : Holds s.heap c id) (hd : Holds s.heap d id) : c = d := by
  have := (h.clients id c).2 hc
  rw [(h.clients id d).2 hd] at this
  exact (Option.some.inj this).symm

/-! ### Writing one session -/

theorem heap_setClient (s : ConnectionServer α β) (c d : Nat) (f : ClientSession α → ClientSession α) :
    (s.setClient c f).heap d = if d = c then (s.heap c).map f else s.heap d :=
  Function.update_apply ..

theorem forall_heap_setClient {s : ConnectionServer α β} {P : Nat → ClientSession α → Prop}
    (h : ∀ d client, s.heap d = some client → P d client) {c : Nat} {f : ClientSession α → ClientSession α}
    (hf : ∀ client, s.heap c = some client → P c (f client)) (d : Nat) (client : ClientSession α)
    (hd : (s.setClient c f).heap d = some client) : P d client := by
  rw [heap_setClient] at hd
  split at hd
  · next hdc =>
    obtain ⟨client', hclient', rfl⟩ := Option.map_eq_some_iff.1 hd
    exact hdc ▸ hf client' hclient'
  · exact h d client hd

theorem holds_map {heap heap' : Nat → Option (ClientSession α)} {g : Nat → ClientSession α → ClientSession α}
    (hheap : ∀ c, heap' c = (heap c).map (g c)) (hg : ∀ c client, heap c = some client →
      (g c client).playerId = client.playerId ∧ (g c client).closed = client.closed) (c : Nat) (id : String) :
    Holds heap' c id ↔ Holds heap c id := by
  unfold Holds
  rw [hheap]
  constructor
  · rintro ⟨client, hclient, hid, hne, hclosed⟩
    obtain ⟨client', hclient', rfl⟩ := Option.map_eq_some_iff.1 hclient
    obtain ⟨hid', hclosed'⟩ := hg c client' hclient'
    exact ⟨client', hclient', hid'.symm.trans hid, hne, hclosed'.symm.trans hclosed⟩
  · rintro ⟨client, hclient, hid, hne, hclosed⟩
    obtain ⟨hid', hclosed'⟩ := hg c client hclient
    exact ⟨g c client, by rw [hclient]; rfl, hid'.trans hid, hne, hclosed'.trans hclosed⟩

theorem holds_setClient {s : ConnectionServer α β} {c : Nat} {f : ClientSession α → ClientSession α}
    (hf : ∀ client, s.heap c = some client →
      (f client).playerId = client.playerId ∧ (f client).closed = client.closed) (d : Nat) (id : String) :
    Holds (s.setClient c f).heap d id ↔ Holds s.heap d id := by
  refine holds_map (g := fun d => if d = c then f else fun client => client) (fun d => ?_) (fun d client hd => ?_) d id
  · rw [heap_setClient]
    split
    · next hdc => rw [hdc]
    · rw [Option.map_id']
  · split
    · next hdc => exact hf client (hdc ▸ hd)
    · exact ⟨rfl, rfl⟩

theorem Consistent.setClient {s : ConnectionServer α β} (h : Consistent s) {c : Nat}
    {f : ClientSession α → ClientSession α} (hf : ∀ client, s.heap c = some client →
      (f client).playerId = client.playerId ∧ (f client).closed = client.closed) :
    Consistent (s.setClient c f) :=
  { h with clients := fun id d => (h.clients id d).trans (holds_setClient hf d id).symm }

theorem fresh_setClient {s : ConnectionServer α β} (h : ∀ c, s.nextConn ≤ c → s.heap c = none) (c : Nat)
    (f : ClientSession α → ClientSession α) (d : Nat) (hd : s.nextConn ≤ d) :
    (s.setClient c f).heap d = none := by
  rw [heap_setClient]
  split
  · next hdc => rw [← hdc, h d hd, Option.map_none]
  · exact h d hd

/-- What one session does by itself. -/
theorem Inv.setClient {s : ConnectionServer α β} (h : Inv s) {c : Nat}
    {f : ClientSession α → ClientSession α} (hf : ∀ client, s.heap c = some client → ClientOk client →
      (f client).playerId = client.playerId ∧ (f client).closed = client.closed ∧ ClientOk (f client)) :
    Inv (s.setClient c f) where
  consistent := h.consistent.setClient fun client hclient =>
    ⟨(hf client hclient (h.ok c client hclient)).1, (hf client hclient (h.ok c client hclient)).2.1⟩
  ok := forall_heap_setClient h.ok fun client hclient => (hf client hclient (h.ok c client hclient)).2.2
  fresh := fresh_setClient h.fresh c f

/-! ### `Stop` -/

theorem unregisterClient_heap (s : ConnectionServer α β) (id : String) :
    (s.unregisterClient id).heap = s.heap ∧ (s.unregisterClient id).nextConn = s.nextConn := by
  unfold unregisterClient
  dsimp only
  split
  · exact ⟨rfl, rfl⟩
  · exact ⟨rfl, rfl⟩

theorem setClient_heap_self {s : ConnectionServer α β} {c : Nat} {f : ClientSession α → ClientSession α}
    (h : (s.heap c).map f = s.heap c) : (s.setClient c f).heap = s.heap := by
  funext d
  rw [heap_setClient]
  split
  · next hdc => rw [h, hdc]
  · rfl

theorem heap_stop (s : ConnectionServer α β) (c : Nat) :
    (s.stop c).heap = (s.setClient c ClientSession.close).heap ∧ (s.stop c).nextConn = s.nextConn := by
  unfold stop
  split
  · next hc =>
    rw [setClient_heap_self (by rw [hc]; rfl)]
    exact ⟨rfl, rfl⟩
  · next client hc =>
    split
    · next hclosed =>
      have hclose : client.close = client := by
        rw [ClientSession.close, ← hclosed]
      rw [setClient_heap_self (by rw [hc, Option.map_some, hclose])]
      exact ⟨rfl, rfl⟩
    · dsimp only
      split
      · exact ⟨rfl, rfl⟩
      · exact unregisterClient_heap _ _

theorem holds_close {s : ConnectionServer α β} (c d : Nat) (id : String) :
    Holds (s.setClient c ClientSession.close).heap d id ↔
      d ≠ c ∧ Holds s.heap d id := by
  unfold Holds
  rw [heap_setClient]
  split
  · next hdc =>
    refine iff_of_false ?_ fun h => h.1 hdc
    rintro ⟨client, hclient, -, -, hclosed⟩
    obtain ⟨client', -, rfl⟩ := Option.map_eq_some_iff.1 hclient
    cases hclosed
  · next hdc => exact (and_iff_right hdc).symm

/-- Closing a session that holds no id changes nothing. -/
theorem Consistent.close {s : ConnectionServer α β} (h : Consistent s) {c : Nat}
    (hc : ∀ id, ¬ Holds s.heap c id) :
    Consistent (s.setClient c ClientSession.close) := by
  refine { h with clients := fun id d => (h.clients id d).trans ?_ }
  rw [holds_close]
  refine (and_iff_right_of_imp ?_).symm
  rintro hd rfl
  exact hc id hd

/-- The open session of a player is closed and unregistered. -/
theorem Consistent.unregister {s : ConnectionServer α β} (h : Consistent s) {c : Nat} {id : String}
    (hc : Holds s.heap c id) :
    Consistent ((s.setClient c ClientSession.close).unregisterClient id) := by
  have hmap : (s.setClient c ClientSession.close).clients[id]? = some c := (h.clients id c).2 hc
  have hmem : id ∈ s.clients := (mem_clients h id).2 ⟨c, hc⟩
  have hw := (h.queue.remove id).1
  unfold unregisterClient
  rw [hmap]
  refine ⟨fun j d => ?_, fun j => ?_, ?_, hw.agree, fun x hx => ?_⟩
  · show (s.clients.erase id)[j]? = some d ↔ Holds (s.setClient c ClientSession.close).heap d j
    rw [holds_close, ← h.clients, TreeMap.getElem?_erase]
    simp only [Std.compare_eq_iff_eq]
    split
    · next hj =>
      refine iff_of_false (fun h => nomatch h) ?_
      rintro ⟨hd, hj'⟩
      exact hd (Holds.unique h ((h.clients j d).1 hj') (hj ▸ hc))
    · next hj =>
      refine (and_iff_right_of_imp fun hd hdc => hj ?_).symm
      obtain ⟨client, hclient, rfl, -, -⟩ := (h.clients j d).1 hd
      obtain ⟨client', hclient', rfl, -, -⟩ := hc
      rw [hdc, hclient'] at hclient
      rw [Option.some.inj hclient]
  · show j ∈ s.base.session.players.erase id ↔ j ∈ s.clients.erase id
    rw [TreeMap.mem_erase, TreeMap.mem_erase, h.players]
  · show s.connectionCount - 1 = (s.clients.erase id).size
    rw [TreeMap.size_erase, if_pos (TreeMap.contains_iff_mem.2 hmem), h.count]
  · show x.request.playerId ∈ s.clients.erase id
    obtain ⟨hx, hne⟩ := hw.mem_contents.1 hx
    rw [TreeMap.mem_erase, ne_eq, Std.compare_eq_iff_eq]
    exact ⟨fun heq => hne heq.symm, h.queued x hx⟩

theorem Consistent.stop {s : ConnectionServer α β} (h : Consistent s) (c : Nat) : Consistent (s.stop c) := by
  unfold ConnectionServer.stop
  cases hc : s.heap c with
  | none => exact h
  | some client =>
    dsimp only
    split
    · exact h
    · next hclosed =>
      split
      · next hid =>
        refine h.close ?_
        rintro id ⟨client', hclient', rfl, hne, -⟩
        rw [hc] at hclient'
        exact hne (Option.some.inj hclient' ▸ hid)
      · next hid => exact h.unregister ⟨client, hc, rfl, hid, by simpa using hclosed⟩

theorem Inv.of_stop {s : ConnectionServer α β} {c : Nat} (h : Consistent s)
    (hok : ∀ d client, s.heap d = some client → d ≠ c → ClientOk client)
    (hc : ∀ client, s.heap c = some client → ClientOk client.close)
    (hfresh : ∀ d, s.nextConn ≤ d → s.heap d = none) : Inv (s.stop c) := by
  have hheap := heap_stop s c
  refine ⟨h.stop c, ?_, ?_⟩
  · rw [hheap.1]
    intro d client hd
    rw [heap_setClient] at hd
    split at hd
    · obtain ⟨client', hclient', rfl⟩ := Option.map_eq_some_iff.1 hd
      exact hc client' hclient'
    · next hdc => exact hok d client hd hdc
  · rw [hheap.1, hheap.2]
    exact fresh_setClient hfresh c _

/-- A session finishes an operation and is stopped. -/
theorem Inv.finish {s : ConnectionServer α β} (h : Inv s) {c : Nat} {f : ClientSession α → ClientSession α}
    (hf : ∀ client, s.heap c = some client → ClientOk client → (f client).playerId = client.playerId ∧
      (f client).closed = client.closed ∧ ClientOk (f client).close) :
    Inv ((s.setClient c f).stop c) := by
  have hf := fun client hclient => hf client hclient (h.ok c client hclient)
  refine Inv.of_stop (h.consistent.setClient fun client hclient =>
    ⟨(hf client hclient).1, (hf client hclient).2.1⟩) ?_ ?_ (fresh_setClient h.fresh c f)
  · intro d client hd hdc
    rw [heap_setClient, if_neg hdc] at hd
    exact h.ok d client hd
  · intro client hclient
    rw [heap_setClient, if_pos rfl] at hclient
    obtain ⟨client', hclient', rfl⟩ := Option.map_eq_some_iff.1 hclient
    exact (hf client' hclient').2.2

/-! ### Registration -/

theorem setClient_comm {c d : Nat} (hne : d ≠ c) (s : ConnectionServer α β)
    (f g : ClientSession α → ClientSession α) :
    (s.setClient c f).setClient d g = (s.setClient d g).setClient c f := by
  simp only [setClient, Function.update_of_ne hne, Function.update_of_ne hne.symm]
  rw [Function.update_comm hne]

theorem unregisterClient_setClient (s : ConnectionServer α β) (c : Nat)
    (f : ClientSession α → ClientSession α) (id : String) :
    (s.setClient c f).unregisterClient id = (s.unregisterClient id).setClient c f := by
  unfold unregisterClient
  rw [show (s.setClient c f).clients = s.clients from rfl]
  cases s.clients[id]? with
  | none => rfl
  | some d => rfl

theorem stop_setClient {c d : Nat} (hne : d ≠ c) (s : ConnectionServer α β)
    (f : ClientSession α → ClientSession α) : (s.setClient c f).stop d = (s.stop d).setClient c f := by
  unfold stop
  rw [heap_setClient, if_neg hne]
  cases s.heap d with
  | none => rfl
  | some client =>
    dsimp only
    split
    · rfl
    · rw [setClient_comm hne]
      split
      · rfl
      · rw [unregisterClient_setClient]

section
variable [Scalar α]

/-- An open session without an id takes one that is free. -/
theorem Consistent.enroll {s : ConnectionServer α β} (h : Consistent s) {c : Nat} {client : ClientSession α}
    (hc : s.heap c = some client) (hnew : client.playerId = "") (hopen : client.closed = false) {id : String}
    (hne : id ≠ "") (hfree : id ∉ s.clients) (now : Int) :
    Consistent ((s.setClient c (ClientSession.setPlayerId id)).enroll now id c) := by
  have hup := h.queue.upsert { playerId := id, elo := 1200, enqueuedAt := now } (s.matchmaker.orderCounter + 1)
  have hholds : ∀ d j, Holds (s.setClient c (ClientSession.setPlayerId id)).heap d j ↔
      (d = c ∧ j = id) ∨ Holds s.heap d j := by
    intro d j
    unfold Holds
    rw [heap_setClient]
    split
    · next hdc =>
      subst hdc
      rw [hc, Option.map_some]
      constructor
      · rintro ⟨client', hclient', rfl, -, -⟩
        exact .inl ⟨rfl, by rw [← Option.some.inj hclient']; rfl⟩
      · rintro (⟨-, rfl⟩ | ⟨client', hclient', rfl, hne', -⟩)
        · exact ⟨_, rfl, rfl, hne, hopen⟩
        · exact absurd (Option.some.inj hclient' ▸ hnew) hne'
    · next hdc => exact (or_iff_right fun h => hdc h.1).symm
  refine ⟨fun j d => ?_, fun j => ?_, ?_, hup.1, fun x hx => ?_⟩
  · show (s.clients.insert id c)[j]? = some d ↔ Holds (s.setClient c (ClientSession.setPlayerId id)).heap d j
    rw [hholds, TreeMap.getElem?_insert]
    simp only [Std.compare_eq_iff_eq]
    split
    · next hj =>
      subst hj
      have hnot : ¬ Holds s.heap d id := fun hd => hfree ((mem_clients h id).2 ⟨d, hd⟩)
      simp [hnot, eq_comm]
    · next hj => simp [h.clients, Ne.symm hj]
  · show j ∈ s.base.session.players.insert id _ ↔ j ∈ s.clients.insert id c
    rw [TreeMap.mem_insert, TreeMap.mem_insert, h.players]
  · show s.connectionCount + 1 = (s.clients.insert id c).size
    rw [TreeMap.size_insert, if_neg fun hmem => hfree (TreeMap.contains_iff_mem.1 hmem), h.count]
  · show x.request.playerId ∈ s.clients.insert id c
    rw [TreeMap.mem_insert, Std.compare_eq_iff_eq]
    rcases (hup.2 x).1 hx with rfl | ⟨hx, -⟩
    · exact .inl rfl
    · exact .inr (h.queued x hx)

omit [Scalar α] in
theorem lock_of_holds {s : ConnectionServer α β} (h : Inv s) {c : Nat} {id : String} (hc : Holds s.heap c id) :
    s.lock c = some c := by
  obtain ⟨client, hclient, -, -, hopen⟩ := hc
  have halive : client.alive = true := by
    simp [ClientSession.alive, (h.ok c client hclient).busy hopen]
  rw [lock, hclient]
  dsimp only
  rw [if_pos halive]

omit [Scalar α] in
/-- The previous session of an id is the one that holds it. -/
theorem previous_eq {s : ConnectionServer α β} (h : Inv s) (id : String) :
    s.previous id = s.clients[id]? := by
  unfold previous
  cases hd : s.clients[id]? with
  | none => rfl
  | some d => exact lock_of_holds h ((h.consistent.clients id d).1 hd)

omit [Scalar α] in
/-- Stopping the previous session keeps the bookkeeping and frees the id. -/
theorem Inv.stopPrevious {s : ConnectionServer α β} (h : Inv s) (id : String) :
    Inv (s.stopPrevious id) ∧ id ∉ (s.stopPrevious id).clients := by
  unfold ConnectionServer.stopPrevious
  rw [previous_eq h]
  cases hd : s.clients[id]? with
  | none =>
    refine ⟨h, ?_⟩
    rw [TreeMap.mem_iff_isSome_getElem?, hd]
    exact Bool.false_ne_true
  | some d =>
    have hholds := (h.consistent.clients id d).1 hd
    refine ⟨Inv.of_stop h.consistent (fun c client hc _ => h.ok c client hc) ?_ h.fresh, ?_⟩
    · intro client hclient
      obtain ⟨client', hclient', hid, hne, -⟩ := hholds
      rw [hclient] at hclient'
      obtain rfl := Option.some.inj hclient'
      exact ⟨fun hopen => (nomatch hopen), fun hempty => absurd (hid.symm.trans hempty) hne,
        fun hempty => absurd (hid.symm.trans hempty) hne⟩
    · rw [mem_clients (h.consistent.stop d)]
      rintro ⟨c, hc⟩
      rw [(heap_stop s d).1, holds_close] at hc
      exact hc.1 (Holds.unique h.consistent hc.2 hholds)

omit [Scalar α] in
theorem stopPrevious_setClient {s : ConnectionServer α β} {c : Nat} {id : String}
    (hc : s.clients[id]? ≠ some c) (f : ClientSession α → ClientSession α) :
    (s.setClient c f).stopPrevious id = (s.stopPrevious id).setClient c f := by
  have hprevious : (s.setClient c f).previous id = s.previous id := by
    show (s.clients[id]?).bind (s.setClient c f).lock = (s.clients[id]?).bind s.lock
    cases hd : s.clients[id]? with
    | none => rfl
    | some d =>
      have hne : d ≠ c := by
        rintro rfl
        exact hc hd
      show (s.setClient c f).lock d = s.lock d
      rw [lock, lock, heap_setClient, if_neg hne]
  unfold stopPrevious
  rw [hprevious]
  cases hd : s.previous id with
  | none => rfl
  | some d =>
    refine stop_setClient ?_ s f
    rintro rfl
    obtain ⟨e, he, hlock⟩ := Option.bind_eq_some_iff.1 hd
    have hed : e = d := by
      unfold lock at hlock
      split at hlock
      · cases hlock
      · split at hlock
        · exact Option.some.inj hlock
        · cases hlock
    exact hc (hed ▸ he)

omit [Scalar α] in
theorem heap_stopPrevious {s : ConnectionServer α β} (h : Inv s) {c : Nat} {client : ClientSession α}
    (hc : s.heap c = some client) (hnew : client.playerId = "") (id : String) :
    (s.stopPrevious id).heap c = some client := by
  unfold stopPrevious
  rw [previous_eq h]
  cases hd : s.clients[id]? with
  | none => exact hc
  | some d =>
    have hne : c ≠ d := by
      rintro rfl
      obtain ⟨client', hclient', rfl, hne, -⟩ := (h.consistent.clients id c).1 hd
      rw [hc] at hclient'
      exact hne (Option.some.inj hclient' ▸ hnew)
    show (s.stop d).heap c = some client
    rw [(heap_stop s d).1, heap_setClient, if_neg hne, hc]

/-- The first frame of a session: its id is taken over from the session that holds it, if any. -/
theorem Inv.identify {s : ConnectionServer α β} (h : Inv s) {c : Nat} {client : ClientSession α}
    (hc : s.heap c = some client) (hbusy : client.read ≠ .idle) {id : String} (hne : id ≠ "") (now : Int) :
    Inv (s.identify now c id) ∧
      ∀ client', (s.identify now c id).heap c = some client' → client'.playerId ≠ "" := by
  have hplayer : s.playerId c = client.playerId := by rw [playerId, hc]
  unfold ConnectionServer.identify
  rw [hplayer]
  split
  · next hnew =>
    have hopen : client.closed = false := by
      by_contra hclosed
      exact hbusy ((h.ok c client hc).ended hnew (by simpa using hclosed))
    have hself : s.clients[id]? ≠ some c := by
      intro hid
      obtain ⟨client', hclient', rfl, hne', -⟩ := (h.consistent.clients id c).1 hid
      rw [hc] at hclient'
      exact hne' (Option.some.inj hclient' ▸ hnew)
    obtain ⟨hstop, hfree⟩ := h.stopPrevious id
    have hc' := heap_stopPrevious h hc hnew id
    unfold registerClient
    rw [stopPrevious_setClient hself]
    refine ⟨⟨hstop.consistent.enroll hc' hnew hopen hne hfree now, ?_, ?_⟩, ?_⟩
    · refine forall_heap_setClient hstop.ok fun client' hclient' => ?_
      have hok := hstop.ok c client' hclient'
      exact ⟨hok.busy, fun hempty => absurd hempty hne, fun hempty => absurd hempty hne⟩
    · exact fresh_setClient hstop.fresh c _
    · intro client' hclient'
      have hclient' : ((s.stopPrevious id).setClient c (ClientSession.setPlayerId id)).heap c = some client' :=
        hclient'
      rw [heap_setClient, if_pos rfl] at hclient'
      obtain ⟨client'', -, rfl⟩ := Option.map_eq_some_iff.1 hclient'
      exact hne
  · next hold =>
    refine ⟨h, fun client' hclient' => ?_⟩
    rw [hc] at hclient'
    exact Option.some.inj hclient' ▸ hold

end

end ConnectionServer

end Portfolio.Arena
