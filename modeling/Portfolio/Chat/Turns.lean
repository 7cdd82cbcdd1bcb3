import Portfolio.Chat.Membership
import Portfolio.Chat.Nicknames
import Portfolio.Lib.Outbox

/-!
# What a handler says

An `Utterance` is a message with the sessions that are to hear it, in terms of the rooms they have
joined. `Turn` follows a handler through its calls: who is in the rooms by the table of the server, and
what has been handed to the outboxes. It speaks of the sessions that are open after the handler, so that
it holds whether or not sessions that are closed are left in the table.
-/

namespace Portfolio.Chat
open Std WebSocketServer

structure Utterance where
  hears : Nat → Bool
  message : String

/-- What the session `d` hears, in order. -/
def heard (d : Nat) (us : List Utterance) : List String := (us.filter (·.hears d)).map (·.message)

@[simp] theorem heard_nil (d : Nat) : heard d [] = [] := rfl

@[simp] theorem heard_append (d : Nat) (us vs : List Utterance) : heard d (us ++ vs) = heard d us ++ heard d vs := by
  simp [heard]

theorem heard_single (d : Nat) (u : Utterance) : heard d [u] = if u.hears d then [u.message] else [] := by
  unfold heard
  by_cases h : u.hears d = true
  · simp [h]
  · simp [h]

theorem heard_eq_nil {d : Nat} {us : List Utterance} (h : ∀ u ∈ us, u.hears d ≠ true) : heard d us = [] := by
  rw [heard, List.filter_eq_nil_iff.2 h, List.map_nil]

def WebSocketSession.outbox (x : WebSocketSession) : Outbox String where
  posted := x.posted
  queue := x.writeQueue
  pending := x.writePending

namespace WebSocketServer

def outbox (s : WebSocketServer) (c : Nat) : Outbox String := ((s.heap c).map (·.outbox)).getD {}

/-- The open sessions that have joined a room. -/
def inRoom (s : WebSocketServer) (room : String) (d : Nat) : Bool :=
  s.isOpen d && (s.joinedRooms d).contains room

variable {s t : WebSocketServer} {c d : Nat}

theorem isOpen_iff : s.isOpen d = true ↔ Open s.cores d := by
  cases hx : s.heap d with
  | none => simp [isOpen, Open, cores, hx]
  | some x => simp [isOpen, Open, cores, hx, WebSocketSession.core]

theorem inRoom_iff {room : String} : s.inRoom room d = true ↔ Open s.cores d ∧ Joined s.cores room d := by
  rw [inRoom, Bool.and_eq_true, isOpen_iff, TreeSet.contains_iff_mem]
  cases hx : s.heap d with
  | none => simp [Open, cores, hx]
  | some x => simp [Joined, joinedRooms, cores, hx, WebSocketSession.core]

theorem nickname_of_cores (h : t.cores c = s.cores c) :
    t.nickname c = s.nickname c := by
  have hname : ∀ s : WebSocketServer, s.nickname c = ((s.cores c).map (·.nickname)).getD "" := by
    intro s
    rw [cores, Option.map_map]
    rfl
  rw [hname, hname, h]

theorem nickname_of_changes {f : Core → Core} (h : Changes s t c f)
    (hf : ∀ k, (f k).nickname = k.nickname) : t.nickname c = s.nickname c := by
  cases hk : s.cores c with
  | none =>
    refine nickname_of_cores ?_
    rw [h.cores, change_self, hk]
    rfl
  | some k =>
    have hk' : t.cores c = some (f k) := by rw [h.cores, change_self, hk, Option.map_some]
    rw [nickname_eq hk, nickname_eq hk', hf]

theorem joinedRooms_of_cores (h : t.cores c = s.cores c) :
    t.joinedRooms c = s.joinedRooms c := by
  have hrooms : ∀ s : WebSocketServer, s.joinedRooms c = ((s.cores c).map (·.joinedRooms)).getD ∅ := by
    intro s
    rw [cores, Option.map_map]
    rfl
  rw [hrooms, hrooms, h]

theorem joinedRooms_of_changes {f : Core → Core} (h : Changes s t c f)
    (hf : ∀ k, (f k).joinedRooms = k.joinedRooms) : t.joinedRooms c = s.joinedRooms c := by
  cases hk : s.cores c with
  | none =>
    refine joinedRooms_of_cores ?_
    rw [h.cores, change_self, hk]
    rfl
  | some k =>
    have hk' : t.cores c = some (f k) := by rw [h.cores, change_self, hk, Option.map_some]
    rw [joinedRooms_eq hk, joinedRooms_eq hk', hf]

theorem onClose_of_not_open (h : s.isOpen c = false) : s.onClose c = s := by
  cases hx : s.heap c with
  | none =>
    unfold onClose
    rw [hx]
  | some x =>
    refine onClose_of_closed (core_eq hx) ?_
    rw [← isOpen_eq (core_eq hx), h]

/-! ### Outboxes after a step -/

theorem outbox_modifySession_of_ne (g : WebSocketSession → WebSocketSession) (h : d ≠ c) :
    (s.modifySession c g).outbox d = s.outbox d := by
  unfold outbox modifySession
  dsimp only
  rw [Function.update_of_ne h]

theorem outbox_modifySession {g : WebSocketSession → WebSocketSession} {f : Outbox String → Outbox String}
    (hg : ∀ x, (g x).outbox = f x.outbox) {x : WebSocketSession} (hx : s.heap c = some x) :
    (s.modifySession c g).outbox c = f (s.outbox c) := by
  simp [outbox, modifySession, hx, hg]

theorem outbox_of_heap (h : t.heap = s.heap) (d : Nat) : t.outbox d = s.outbox d := by
  rw [outbox, h]
  rfl

/-- A change of a session that does not touch its messages. -/
theorem outbox_modifySession_frame {g : WebSocketSession → WebSocketSession} (hg : ∀ x, (g x).outbox = x.outbox)
    (d : Nat) : (s.modifySession c g).outbox d = s.outbox d := by
  by_cases h : d = c
  · subst h
    cases hx : s.heap d with
    | none => simp [outbox, modifySession, hx]
    | some x => exact outbox_modifySession (f := id) hg hx
  · exact outbox_modifySession_of_ne g h

theorem outbox_send_of_ne (message : String) (h : d ≠ c) : (s.send c message).outbox d = s.outbox d :=
  outbox_modifySession_of_ne _ h

theorem outbox_send_self (message : String) {x : WebSocketSession} (hx : s.heap c = some x) :
    (s.send c message).outbox c = (s.outbox c).post [message] :=
  outbox_modifySession (f := (·.post [message])) (fun _ => rfl) hx

theorem queue_send (s : WebSocketServer) (c : Nat) (message : String) (d : Nat) :
    ((s.send c message).outbox d).queue = (s.outbox d).queue := by
  by_cases h : d = c
  · subst h
    cases hx : s.heap d with
    | none => simp [outbox, send, modifySession, hx]
    | some x => rw [outbox_send_self message hx, Outbox.post_queue]
  · rw [outbox_send_of_ne message h]

theorem heap_of_core {k : Core} (h : s.cores d = some k) : ∃ x, s.heap d = some x := by
  obtain ⟨x, hx, -⟩ := Option.map_eq_some_iff.1 h
  exact ⟨x, hx⟩

theorem queue_sends (recipients : List Nat) (message : String) (s : WebSocketServer) (d : Nat) :
    ((recipients.foldl (fun s e => s.send e message) s).outbox d).queue = (s.outbox d).queue := by
  induction recipients generalizing s with
  | nil => rfl
  | cons e recipients ih => rw [List.foldl_cons, ih, queue_send]

theorem outbox_sends_of_notMem {recipients : List Nat} (message : String) (h : d ∉ recipients) :
    (recipients.foldl (fun s e => s.send e message) s).outbox d = s.outbox d := by
  induction recipients generalizing s with
  | nil => rfl
  | cons e recipients ih =>
    rw [List.mem_cons, not_or] at h
    rw [List.foldl_cons, ih h.2, outbox_send_of_ne message h.1]

/-- Each recipient is sent the message once. -/
theorem outbox_sends_of_mem {recipients : List Nat} (hnodup : recipients.Nodup) (message : String)
    (h : d ∈ recipients) {k : Core} (hk : s.cores d = some k) :
    (recipients.foldl (fun s e => s.send e message) s).outbox d = (s.outbox d).post [message] := by
  induction recipients generalizing s with
  | nil => cases h
  | cons e recipients ih =>
    obtain ⟨hnot, hnodup⟩ := List.nodup_cons.1 hnodup
    rw [List.foldl_cons]
    by_cases hd : d = e
    · subst hd
      obtain ⟨x, hx⟩ := heap_of_core hk
      rw [outbox_sends_of_notMem message hnot, outbox_send_self message hx]
    · have hmem : d ∈ recipients := (List.mem_cons.1 h).resolve_left hd
      have hk' : (s.send e message).cores d = some k := by rw [(quiet_send s e message).cores, hk]
      rw [ih hnodup hmem hk', outbox_send_of_ne message hd]

theorem mem_cleanup {ms : List Nat} : d ∈ s.cleanup ms ↔ d ∈ ms ∧ s.lock d = true := List.mem_filter

theorem nodup_joinMembers {ms : List Nat} (h : ms.Nodup) : (s.joinMembers c ms).Nodup := by
  refine List.nodup_append.2 ⟨(h.filter _).filter _, by simp, fun d hd e he => ?_⟩
  obtain rfl := List.mem_singleton.1 he
  simpa using (List.mem_filter.1 hd).2

/-! ### The rooms of a table after a step -/

theorem lookups_cleanup (s : WebSocketServer) (room r : String) :
    (s.cleanupRoom room).lookups r = if r = room then (s.lookups r).map s.cleanup else s.lookups r := by
  show (s.rooms.modify room s.cleanup)[r]? = _
  rw [TreeMap.getElem?_modify]
  by_cases hr : r = room
  · subst hr
    rw [if_pos rfl, if_pos (Std.compare_eq_iff_eq.2 rfl)]
    rfl
  · rw [if_neg hr, if_neg fun heq => hr (Std.compare_eq_iff_eq.1 heq).symm]
    rfl

theorem lookups_join (s : WebSocketServer) (c : Nat) (room r : String) :
    (s.joinRoom c room).lookups r =
      if r = room then some (s.joinMembers c ((s.lookups room).getD [])) else s.lookups r := by
  show (s.rooms.insert room _)[r]? = _
  rw [TreeMap.getElem?_insert, TreeMap.getD_eq_getD_getElem?]
  by_cases hr : r = room
  · subst hr
    rw [if_pos rfl, if_pos (Std.compare_eq_iff_eq.2 rfl)]
    rfl
  · rw [if_neg hr, if_neg fun heq => hr (Std.compare_eq_iff_eq.1 heq).symm]
    rfl

theorem lookups_leave (s : WebSocketServer) (c : Nat) (room r : String) :
    (s.leaveRoom c room).lookups r =
      if r = room then without c ((s.lookups r).map s.cleanup) else s.lookups r := by
  unfold leaveRoom
  split
  · rename_i hnone
    have hnone' : s.lookups room = none := hnone
    split
    · rename_i hr
      rw [hr, hnone']
      rfl
    · rfl
  · rename_i ms hms
    have hms' : s.lookups room = some ms := hms
    dsimp only
    by_cases hr : r = room
    · subst hr
      rw [if_pos rfl, hms', without, Option.map_some, Option.map_some, Option.filter_some]
      split
      · rename_i hempty
        show (s.rooms.erase r)[r]? = _
        rw [TreeMap.getElem?_erase_self, hempty]
        rfl
      · rename_i hempty
        show (s.rooms.insert r _)[r]? = _
        rw [TreeMap.getElem?_insert_self, Bool.eq_false_iff.2 hempty]
        rfl
    · have hcmp : compare room r ≠ .eq := fun heq => hr (Std.compare_eq_iff_eq.1 heq).symm
      rw [if_neg hr]
      split
      · show (s.rooms.erase room)[r]? = _
        rw [TreeMap.getElem?_erase, if_neg hcmp]
        rfl
      · show (s.rooms.insert room _)[r]? = _
        rw [TreeMap.getElem?_insert, if_neg hcmp]
        rfl

end WebSocketServer

/-! ### A handler at work -/

/-- A handler that began in `b` has come to `s`: the members by the table are those of `M`, as far as
the sessions of `P` are concerned, and the sessions of `P` have been handed what they hear of `us`. The
sessions of `Q` are in no room and have been handed nothing. -/
structure Turn (P Q : Nat → Prop) (b s : WebSocketServer) (M : String → Nat → Prop) (us : List Utterance) :
    Prop where
  busy : ∀ d, P d → ∃ k, s.cores d = some k ∧ k.read ≠ .idle
  sub : ∀ room d, Member s.lookups room d → M room d
  keep : ∀ room d, P d → M room d → Member s.lookups room d
  aside : ∀ room d, Q d → ¬ M room d
  nodup : ∀ room ms, s.lookups room = some ms → ms.Nodup
  exact : ∀ d, P d → s.outbox d = (b.outbox d).post (heard d us)
  untouched : ∀ d, Q d → s.outbox d = b.outbox d
  queue : ∀ d, (s.outbox d).queue = (b.outbox d).queue

namespace Turn
variable {P Q : Nat → Prop} {b s t : WebSocketServer} {M : String → Nat → Prop} {us : List Utterance} {c : Nat}

theorem lock (h : Turn P Q b s M us) {d : Nat} (hd : P d) : s.lock d = true := by
  obtain ⟨k, hk, hread⟩ := h.busy d hd
  exact lock_of_core hk hread

theorem member_iff (h : Turn P Q b s M us) {room : String} {d : Nat} (hd : P d) :
    Member s.lookups room d ↔ M room d := ⟨h.sub room d, h.keep room d hd⟩

/-- What is said matters by what the sessions of `P` hear. -/
theorem congr (h : Turn P Q b s M us) {vs : List Utterance} (hvs : ∀ d, P d → heard d us = heard d vs) :
    Turn P Q b s M vs :=
  { h with exact := fun d hd => by rw [h.exact d hd, hvs d hd] }

/-- A change of a session that goes on being read. -/
theorem modify (h : Turn P Q b s M us) {g : WebSocketSession → WebSocketSession}
    (hg : ∀ x, (g x).outbox = x.outbox) (hread : P c → ∀ x, x.read ≠ .idle → (g x).read ≠ .idle) :
    Turn P Q b (s.modifySession c g) M us where
  busy d hd := by
    obtain ⟨k, hk, hk'⟩ := h.busy d hd
    by_cases hdc : d = c
    · subst hdc
      obtain ⟨x, hx, rfl⟩ := Option.map_eq_some_iff.1 hk
      refine ⟨(g x).core, core_eq ?_, hread hd x hk'⟩
      show Function.update s.heap d _ d = _
      rw [Function.update_self, hx, Option.map_some]
    · refine ⟨k, ?_, hk'⟩
      rw [← hk]
      show (Function.update s.heap c _ d).map _ = _
      rw [Function.update_of_ne hdc]
      rfl
  sub := h.sub
  keep := h.keep
  aside := h.aside
  nodup := h.nodup
  exact d hd := (outbox_modifySession_frame hg d).trans (h.exact d hd)
  untouched d hd := (outbox_modifySession_frame hg d).trans (h.untouched d hd)
  queue d := (congrArg _ (outbox_modifySession_frame hg d)).trans (h.queue d)

theorem send (h : Turn P Q b s M us) (hc : ¬ Q c) (message : String) :
    Turn P Q b (s.send c message) M (us ++ [⟨(· == c), message⟩]) where
  busy d hd := by
    obtain ⟨k, hk, hread⟩ := h.busy d hd
    exact ⟨k, by rw [(quiet_send s c message).cores, hk], hread⟩
  sub := h.sub
  keep := h.keep
  aside := h.aside
  nodup := h.nodup
  exact d hd := by
    rw [heard_append, heard_single, ← Outbox.post_post, ← h.exact d hd]
    by_cases hdc : d = c
    · subst hdc
      obtain ⟨k, hk, -⟩ := h.busy d hd
      obtain ⟨x, hx⟩ := heap_of_core hk
      rw [outbox_send_self message hx, if_pos (beq_self_eq_true d)]
    · rw [outbox_send_of_ne message hdc, if_neg (by simpa using hdc), Outbox.post_nil]
  untouched d hd := by
    have hdc : d ≠ c := by
      rintro rfl
      exact hc hd
    rw [outbox_send_of_ne message hdc, h.untouched d hd]
  queue d := (queue_send s c message d).trans (h.queue d)

/-- A change of the table only. -/
theorem table (h : Turn P Q b s M us) (hheap : t.heap = s.heap) {M' : String → Nat → Prop}
    (hsub : ∀ room d, Member t.lookups room d → M' room d)
    (hkeep : ∀ room d, P d → M' room d → Member t.lookups room d) (haside : ∀ room d, Q d → ¬ M' room d)
    (hnodup : ∀ room ms, t.lookups room = some ms → ms.Nodup) : Turn P Q b t M' us where
  busy d hd := by
    obtain ⟨k, hk, hread⟩ := h.busy d hd
    refine ⟨k, ?_, hread⟩
    rw [← hk, cores, hheap]
    rfl
  sub := hsub
  keep := hkeep
  aside := haside
  nodup := hnodup
  exact d hd := (outbox_of_heap hheap d).trans (h.exact d hd)
  untouched d hd := (outbox_of_heap hheap d).trans (h.untouched d hd)
  queue d := (congrArg _ (outbox_of_heap hheap d)).trans (h.queue d)

/-- Dead members are removed from some rooms. -/
theorem sweep (h : Turn P Q b s M us) (hheap : t.heap = s.heap)
    (hlook : ∀ r, t.lookups r = s.lookups r ∨ t.lookups r = (s.lookups r).map s.cleanup) : Turn P Q b t M us := by
  refine h.table hheap (fun r d hd => h.sub r d ?_) (fun r d hd hm => ?_) h.aside fun r ms hms => ?_
  · obtain ⟨ms, hms, hmem⟩ := hd
    rcases hlook r with heq | heq
    · exact ⟨ms, heq ▸ hms, hmem⟩
    · obtain ⟨ms', hms', rfl⟩ := Option.map_eq_some_iff.1 (heq ▸ hms)
      exact ⟨ms', hms', (mem_cleanup.1 hmem).1⟩
  · obtain ⟨ms, hms, hmem⟩ := h.keep r d hd hm
    rcases hlook r with heq | heq
    · exact ⟨ms, heq.trans hms, hmem⟩
    · refine ⟨s.cleanup ms, by rw [heq, hms, Option.map_some], mem_cleanup.2 ⟨hmem, h.lock hd⟩⟩
  · rcases hlook r with heq | heq
    · exact h.nodup r ms (heq ▸ hms)
    · obtain ⟨ms', hms', rfl⟩ := Option.map_eq_some_iff.1 (heq ▸ hms)
      exact (h.nodup r ms' hms').filter _

theorem cleanupRoom (h : Turn P Q b s M us) (room : String) : Turn P Q b (s.cleanupRoom room) M us := by
  refine h.sweep rfl fun r => ?_
  rw [lookups_cleanup]
  split
  · exact .inr rfl
  · exact .inl rfl

theorem joinRoom (h : Turn P Q b s M us) (hc : ¬ Q c) (room : String) :
    Turn P Q b (s.joinRoom c room) (fun r d => M r d ∨ (r = room ∧ d = c)) us := by
  have hmem : ∀ d, d ∈ s.joinMembers c ((s.lookups room).getD []) ↔
      (d ∈ s.cleanup ((s.lookups room).getD []) ∧ d ≠ c) ∨ d = c := by
    intro d
    simp [joinMembers]
  have hgetD : ∀ d, d ∈ (s.lookups room).getD [] ↔ Member s.lookups room d := by
    intro d
    cases hms : s.lookups room with
    | none => simp [Member, hms]
    | some ms => simp [Member, hms]
  refine h.table (t := s.joinRoom c room) rfl (fun r d hd => ?_) (fun r d hd hm => ?_) (fun r d hd hm => ?_)
    fun r ms hms => ?_
  · unfold Member at hd
    rw [lookups_join] at hd
    split at hd
    · rename_i hr
      subst hr
      obtain ⟨ms, hms, hd⟩ := hd
      cases hms
      rcases (hmem d).1 hd with ⟨hd, -⟩ | rfl
      · exact .inl (h.sub r d ((hgetD d).1 (mem_cleanup.1 hd).1))
      · exact .inr ⟨rfl, rfl⟩
    · exact .inl (h.sub r d hd)
  · unfold Member
    rw [lookups_join]
    split
    · rename_i hr
      subst hr
      refine ⟨_, rfl, (hmem d).2 ?_⟩
      by_cases hdc : d = c
      · exact .inr hdc
      · have hm' : M r d := hm.resolve_right fun heq => hdc heq.2
        exact .inl ⟨mem_cleanup.2 ⟨(hgetD d).2 (h.keep r d hd hm'), h.lock hd⟩, hdc⟩
    · rename_i hr
      exact h.keep r d hd (hm.resolve_right fun heq => hr heq.1)
  · rcases hm with hm | ⟨-, rfl⟩
    · exact h.aside r d hd hm
    · exact hc hd
  · rw [lookups_join] at hms
    split at hms
    · cases hms
      refine nodup_joinMembers ?_
      cases hms : s.lookups room with
      | none => exact List.nodup_nil
      | some ms => exact h.nodup room ms hms
    · exact h.nodup r ms hms

theorem leaveRoom (h : Turn P Q b s M us) (c : Nat) (room : String) :
    Turn P Q b (s.leaveRoom c room) (fun r d => M r d ∧ ¬ (r = room ∧ d = c)) us := by
  have hheap : (s.leaveRoom c room).heap = s.heap := by
    unfold WebSocketServer.leaveRoom
    split
    · rfl
    · dsimp only
      split
      · rfl
      · rfl
  refine h.table hheap (fun r d hd => ?_) (fun r d hd hm => ?_) (fun r d hd hm => h.aside r d hd hm.1)
    fun r ms hms => ?_
  · unfold Member at hd
    rw [lookups_leave] at hd
    split at hd
    · obtain ⟨⟨ms, hms, hmem⟩, hne⟩ := mem_without.1 hd
      obtain ⟨ms', hms', rfl⟩ := Option.map_eq_some_iff.1 hms
      exact ⟨h.sub r d ⟨ms', hms', (mem_cleanup.1 hmem).1⟩, fun heq => hne heq.2⟩
    · rename_i hr
      exact ⟨h.sub r d hd, fun heq => hr heq.1⟩
  · obtain ⟨ms, hms, hmem⟩ := h.keep r d hd hm.1
    unfold Member
    rw [lookups_leave]
    split
    · rename_i hr
      refine mem_without.2 ⟨⟨s.cleanup ms, by rw [hms, Option.map_some], mem_cleanup.2 ⟨hmem, h.lock hd⟩⟩, ?_⟩
      exact fun hdc => hm.2 ⟨hr, hdc⟩
    · exact ⟨ms, hms, hmem⟩
  · rw [lookups_leave] at hms
    split at hms
    · obtain ⟨⟨ms', hms', rfl⟩, -⟩ := without_eq_some.1 hms
      obtain ⟨ms'', hms'', rfl⟩ := Option.map_eq_some_iff.1 hms'
      exact ((h.nodup r ms'' hms'').filter _).filter _
    · exact h.nodup r ms hms

/-- A broadcast reaches the members but the sender, once each. -/
theorem broadcast (h : Turn P Q b s M us) {room message : String} {sender : Option Nat} {p : Nat → Bool}
    (hp : ∀ d, P d → (p d = true ↔ M room d ∧ some d ≠ sender)) :
    Turn P Q b (s.broadcastToRoom room message sender) M (us ++ [⟨p, message⟩]) := by
  unfold broadcastToRoom
  split
  · -- nobody is in the room
    rename_i hnone
    refine ⟨h.busy, h.sub, h.keep, h.aside, h.nodup, fun d hd => ?_, h.untouched, h.queue⟩
    have hnot : ¬ p d = true := by
      intro hpd
      obtain ⟨ms, hms, -⟩ := h.keep room d hd ((hp d hd).1 hpd).1
      have hnone' : s.lookups room = none := hnone
      rw [hnone'] at hms
      cases hms
    rw [heard_append, heard_single, if_neg hnot, List.append_nil]
    exact h.exact d hd
  · rename_i ms hms
    have hms' : s.lookups room = some ms := hms
    have hclean := h.cleanupRoom room
    have hmem : ∀ d, d ∈ (s.cleanup ms).filter (fun d => some d ≠ sender) ↔
        (d ∈ ms ∧ s.lock d = true) ∧ some d ≠ sender := by
      intro d
      rw [List.mem_filter, mem_cleanup, decide_eq_true_eq]
    have hnodup : ((s.cleanup ms).filter fun d => some d ≠ sender).Nodup :=
      ((h.nodup room ms hms').filter _).filter _
    have hcores := (quiet_foldl (fun s d => quiet_send s d message)
      ((s.cleanup ms).filter fun d => some d ≠ sender) (s.cleanupRoom room)).cores
    refine ⟨fun d hd => ?_, fun r d hd => ?_, fun r d hd hm => ?_, h.aside, fun r ms' hms' => ?_, fun d hd => ?_,
      fun d hd => ?_, fun d => ?_⟩
    · rw [hcores]
      exact hclean.busy d hd
    · rw [lookups_sends] at hd
      exact hclean.sub r d hd
    · rw [lookups_sends]
      exact hclean.keep r d hd hm
    · rw [lookups_sends] at hms'
      exact hclean.nodup r ms' hms'
    · rw [heard_append, heard_single, ← Outbox.post_post, ← hclean.exact d hd]
      obtain ⟨k, hk, -⟩ := hclean.busy d hd
      by_cases hpd : p d = true
      · obtain ⟨hm, hne⟩ := (hp d hd).1 hpd
        obtain ⟨ms', hms'', hmem'⟩ := h.keep room d hd hm
        rw [hms'] at hms''
        cases hms''
        rw [if_pos hpd]
        exact outbox_sends_of_mem hnodup message ((hmem d).2 ⟨⟨hmem', h.lock hd⟩, hne⟩) hk
      · rw [if_neg hpd, Outbox.post_nil]
        refine outbox_sends_of_notMem message fun hmem' => hpd ((hp d hd).2 ?_)
        obtain ⟨⟨hmem', -⟩, hne⟩ := (hmem d).1 hmem'
        exact ⟨h.sub room d ⟨ms, hms', hmem'⟩, hne⟩
    · refine (outbox_sends_of_notMem message fun hmem' => ?_).trans (h.untouched d hd)
      exact h.aside room d hd (h.sub room d ⟨ms, hms', ((hmem d).1 hmem').1.1⟩)
    · exact (queue_sends _ message _ d).trans (h.queue d)

/-- The loop of `handle_nick`. -/
theorem broadcasts {p : String → Nat → Bool} (hp : ∀ room d, P d → (p room d = true ↔ M room d))
    (text : String → String) (rooms : List String) (h : Turn P Q b s M us) :
    Turn P Q b (rooms.foldl (fun s room => s.broadcastToRoom room (text room) none) s) M
      (us ++ rooms.map fun room => ⟨p room, text room⟩) := by
  induction rooms generalizing s us with
  | nil => simpa using h
  | cons room rooms ih =>
    have hroom : Turn P Q b (s.broadcastToRoom room (text room) none) M (us ++ [⟨p room, text room⟩]) :=
      h.broadcast fun d hd => (hp room d hd).trans (by simp)
    simpa using ih hroom

/-- The loop of `leave_all_rooms`. -/
theorem departures {p : String → Nat → Bool} (hp : ∀ room d, P d → (p room d = true ↔ M room d ∧ d ≠ c))
    {name : String} (hname : s.nickname c = name) (rooms : List String) (h : Turn P Q b s M us) :
    Turn P Q b (rooms.foldl (fun s room => (s.leaveRoom c room).broadcastToRoom room
        (announcement room (s.nickname c ++ " left the room")) (some c)) s)
      (fun r d => M r d ∧ ¬ (r ∈ rooms ∧ d = c))
      (us ++ rooms.map fun room => ⟨p room, announcement room (name ++ " left the room")⟩) := by
  induction rooms generalizing s us M with
  | nil => simpa using h
  | cons room rooms ih =>
    have hroom : Turn P Q b ((s.leaveRoom c room).broadcastToRoom room
        (announcement room (s.nickname c ++ " left the room")) (some c)) _
        (us ++ [⟨p room, announcement room (s.nickname c ++ " left the room")⟩]) :=
      (h.leaveRoom c room).broadcast fun d hd => by
        rw [hp room d hd]
        simp
    have hquiet : Quiet s ((s.leaveRoom c room).broadcastToRoom room
        (announcement room (s.nickname c ++ " left the room")) (some c)) :=
      (quiet_leaveRoom ..).trans (quiet_broadcastToRoom ..)
    have hrest := ih (M := fun r d => M r d ∧ ¬ (r = room ∧ d = c)) (fun r d hd => by
      rw [hp r d hd]
      constructor
      · exact fun hm => ⟨⟨hm.1, fun heq => hm.2 heq.2⟩, hm.2⟩
      · exact fun hm => ⟨hm.1.1, hm.2⟩) ((nickname_of_cores (congrFun hquiet.cores c)).trans hname) hroom
    have hM : ∀ r d, ((M r d ∧ ¬ (r = room ∧ d = c)) ∧ ¬ (r ∈ rooms ∧ d = c)) =
        (M r d ∧ ¬ (r ∈ room :: rooms ∧ d = c)) := by
      intro r d
      rw [List.mem_cons]
      refine propext ⟨fun hm => ⟨hm.1.1, ?_⟩, fun hm => ⟨⟨hm.1, ?_⟩, ?_⟩⟩
      · rintro ⟨rfl | hr, hdc⟩
        · exact hm.1.2 ⟨rfl, hdc⟩
        · exact hm.2 ⟨hr, hdc⟩
      · exact fun heq => hm.2 ⟨.inl heq.1, heq.2⟩
      · exact fun heq => hm.2 ⟨.inr heq.1, heq.2⟩
    simp only [hM, hname, List.append_assoc, List.singleton_append] at hrest
    rw [List.foldl_cons, List.map_cons, hname]
    exact hrest

end Turn
end Portfolio.Chat
