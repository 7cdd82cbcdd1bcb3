import Portfolio.Chat.Spoken

/-!
# What a step hands to the sessions

An open session is in the rooms that it has joined, whatever has become of the closed ones, and a step
hands to it exactly what it is to hear of what is said.
-/

namespace Portfolio.Chat
open Std WebSocketServer

/-! ### The rooms of the open sessions -/

/-- A session that has not begun to read. -/
def Fresh (cores : Nat → Option Core) (d : Nat) : Prop := ∀ k, cores d = some k → k.read = .accepting

/-- The open sessions are members of the rooms they have joined, once each. -/
structure Served (s : WebSocketServer) : Prop where
  agree : ∀ room d, Open s.cores d → (Member s.lookups room d ↔ Joined s.cores room d)
  member : ∀ room d, Fresh s.cores d → ¬ Member s.lookups room d
  joined : ∀ room d, Fresh s.cores d → ¬ Joined s.cores room d
  nodup : ∀ room ms, s.lookups room = some ms → ms.Nodup

namespace Served
variable {P Q : Nat → Prop} {s t : WebSocketServer} {c d : Nat} {us : List Utterance}

theorem turn (h : Served s) (hbusy : ∀ d, P d → ∃ k, s.cores d = some k ∧ k.read ≠ .idle)
    (hfresh : ∀ d, Q d → Fresh s.cores d) : Turn P Q s s (Member s.lookups) [] where
  busy := hbusy
  sub _ _ := id
  keep _ _ _ := id
  aside room d hd := h.member room d (hfresh d hd)
  nodup := h.nodup
  exact _ _ := by simp
  untouched _ _ := rfl
  queue _ := rfl

theorem start (hwf : Wf s) (h : Served s) (hopen : ∀ d, P d → Open s.cores d)
    (hfresh : ∀ d, Q d → Fresh s.cores d) (hc : ¬ Q c) : Start P Q s c where
  turn := h.turn (fun d hd => by
    obtain ⟨k, hk, ho⟩ := hopen d hd
    exact ⟨k, hk, (hwf.busy d k hk ho).1⟩) hfresh
  notAside := hc
  isOpen := hopen
  joined room d hd := h.agree room d (hopen d hd)

theorem of_ends (hends : Ends (Open t.cores) (Fresh t.cores) s t us)
    (hjoined : ∀ room d, Fresh t.cores d → ¬ Joined t.cores room d) : Served t := by
  obtain ⟨M, hturn, hM⟩ := hends
  exact ⟨fun room d hd => (hturn.member_iff hd).trans (hM room d hd),
    fun room d hd hm => hturn.aside room d hd (hturn.sub room d hm), hjoined, hturn.nodup⟩

theorem of_eq (h : Served s) (hcores : t.cores = s.cores) (hrooms : t.lookups = s.lookups) : Served t := by
  rcases h with ⟨hagree, hmember, hjoined, hnodup⟩
  rw [← hcores, ← hrooms] at hagree hmember
  rw [← hcores] at hjoined
  rw [← hrooms] at hnodup
  exact ⟨hagree, hmember, hjoined, hnodup⟩

end Served

/-! ### One step -/

/-- What a step has to do with the session `d`, unless its messages move on. -/
structure Handed (s t : WebSocketServer) (us : List Utterance) (d : Nat) : Prop where
  before : Open t.cores d → Open s.cores d ∨ Fresh s.cores d
  exact : Open t.cores d → t.outbox d = (s.outbox d).post (heard d us)
  fresh : Fresh t.cores d → Fresh s.cores d ∧ t.outbox d = s.outbox d ∧ heard d us = []
  queue : (t.outbox d).queue = (s.outbox d).queue

section Step
variable {P Q : Nat → Prop} {s t : WebSocketServer} {c d : Nat} {us : List Utterance} {f : Core → Core}

/-- A session that is fresh after the change was fresh before, and has joined no room since. -/
def Tame (f : Core → Core) : Prop :=
  ∀ k, (f k).read = .accepting → k.read = .accepting ∧ ∀ room, room ∈ (f k).joinedRooms → room ∈ k.joinedRooms

theorem not_open_of_fresh (hwf : Wf s) (h : Fresh s.cores d) : ¬ Open s.cores d := by
  rintro ⟨k, hk, ho⟩
  exact (hwf.busy d k hk ho).2 (h k hk)

theorem fresh_of_change (hcores : t.cores = s.change c f) (hf : Tame f) (h : Fresh t.cores d) :
    Fresh s.cores d := by
  intro k hk
  by_cases hdc : d = c
  · subst hdc
    exact (hf k (h (f k) (by rw [hcores, change_self, hk, Option.map_some]))).1
  · exact h k (by rw [hcores, change_of_ne hdc, hk])

theorem joined_of_change (hs : Served s) (hcores : t.cores = s.change c f) (hf : Tame f) (room : String) (d : Nat)
    (h : Fresh t.cores d) : ¬ Joined t.cores room d := by
  rintro ⟨k', hk', hroom⟩
  refine hs.joined room d (fresh_of_change hcores hf h) ?_
  have hread := h k' hk'
  rw [hcores] at hk'
  by_cases hdc : d = c
  · subst hdc
    rw [change_self] at hk'
    obtain ⟨k, hk, rfl⟩ := Option.map_eq_some_iff.1 hk'
    exact ⟨k, hk, (hf k hread).2 room hroom⟩
  · rw [change_of_ne hdc] at hk'
    exact ⟨k', hk', hroom⟩

theorem open_of_change (hcores : t.cores = s.change c f) (hf : ∀ k, (f k).isOpen = true → k.isOpen = true)
    (h : Open t.cores d) : Open s.cores d := by
  rw [hcores, open_change] at h
  split at h
  · rename_i hdc
    subst hdc
    obtain ⟨k, hk, ho⟩ := h
    exact ⟨k, hk, hf k ho⟩
  · exact h

theorem Ends.modify (h : Ends P Q s t us) {g : WebSocketSession → WebSocketSession}
    (hch : Changes t (t.modifySession c g) c f) (hg : ∀ x, (g x).outbox = x.outbox)
    (hread : P c → ∀ x, x.read ≠ .idle → (g x).read ≠ .idle) (hf : ∀ k, (f k).joinedRooms = k.joinedRooms) :
    Ends P Q s (t.modifySession c g) us := by
  obtain ⟨M, hturn, hM⟩ := h
  refine ⟨M, hturn.modify hg hread, fun room d hd => (hM room d hd).trans ?_⟩
  rw [hch.cores, joined_change]
  split
  · rename_i hdc
    simp only [hf, hdc, Joined]
  · rfl

theorem handed_of_ends (hends : Ends (Open t.cores) (Fresh t.cores) s t us)
    (hbefore : Open t.cores d → Open s.cores d ∨ Fresh s.cores d)
    (hfresh : Fresh t.cores d → Fresh s.cores d ∧ heard d us = []) : Handed s t us d := by
  obtain ⟨M, hturn, -⟩ := hends
  exact ⟨hbefore, hturn.exact d, fun h => ⟨(hfresh h).1, hturn.untouched d h, (hfresh h).2⟩, hturn.queue d⟩

/-- A step that changes one core, and does not open it. -/
theorem served_handed (hs : Served s) (hends : Ends (Open t.cores) (Fresh t.cores) s t us)
    (hcores : t.cores = s.change c f) (hf : Tame f) (hopen : ∀ k, (f k).isOpen = true → k.isOpen = true)
    (hheard : ∀ d, Fresh t.cores d → heard d us = []) : Served t ∧ ∀ d, Handed s t us d :=
  ⟨.of_ends hends (joined_of_change hs hcores hf), fun d => handed_of_ends hends
    (fun h => .inl (open_of_change hcores hopen h)) fun h => ⟨fresh_of_change hcores hf h, hheard d h⟩⟩

theorem hears_reply {command : Command} {u : Utterance} (hu : u ∈ s.reply c command) (h : u.hears d = true) :
    d = c ∨ Open s.cores d := by
  have hself : ∀ message, u = toSelf c message → d = c := by
    rintro message rfl
    simpa [toSelf] using h
  have hroom : ∀ room message, u = s.toRoom room message → Open s.cores d := by
    rintro room message rfl
    exact (inRoom_iff.1 h).1
  have hothers : ∀ room message, u = s.toOthers c room message → Open s.cores d := by
    rintro room message rfl
    exact (inRoom_iff.1 (Bool.and_eq_true_iff.1 h).2).1
  cases command with
  | join room =>
    rw [reply] at hu
    split at hu
    · exact .inl (hself _ (List.mem_singleton.1 hu))
    split at hu
    · exact .inl (hself _ (List.mem_singleton.1 hu))
    rcases List.mem_pair.1 hu with hu | hu
    · exact .inl (hself _ hu)
    · exact .inr (hothers _ _ hu)
  | leave room =>
    rw [reply] at hu
    split at hu
    · rcases List.mem_pair.1 hu with hu | hu
      · exact .inl (hself _ hu)
      · exact .inr (hothers _ _ hu)
    · exact .inl (hself _ (List.mem_singleton.1 hu))
  | message room text =>
    rw [reply] at hu
    split at hu
    · exact .inl (hself _ (List.mem_singleton.1 hu))
    split at hu
    · exact .inr (hroom _ _ (List.mem_singleton.1 hu))
    · exact .inl (hself _ (List.mem_singleton.1 hu))
  | nick name =>
    rw [reply] at hu
    split at hu
    · exact .inl (hself _ (List.mem_singleton.1 hu))
    split at hu
    · rcases List.mem_cons.1 hu with hu | hu
      · exact .inl (hself _ hu)
      · obtain ⟨room, -, hu⟩ := List.mem_map.1 hu
        exact .inr (hroom _ _ hu.symm)
    · exact .inl (hself _ (List.mem_singleton.1 hu))
  | listRooms => exact .inl (hself _ (List.mem_singleton.1 hu))
  | listMembers room =>
    rw [reply] at hu
    split at hu
    · exact .inl (hself _ (List.mem_singleton.1 hu))
    split at hu
    · exact .inl (hself _ (List.mem_singleton.1 hu))
    · exact .inl (hself _ (List.mem_singleton.1 hu))
  | error message => exact .inl (hself _ (List.mem_singleton.1 hu))

theorem heard_reply (hwf : Wf s) (hd : Fresh s.cores d) (hdc : d ≠ c) (command : Command) :
    heard d (s.reply c command) = [] := by
  refine heard_eq_nil fun u hu h => ?_
  rcases hears_reply hu h with h | h
  · exact hdc h
  · exact not_open_of_fresh hwf hd h

theorem heard_farewell (hwf : Wf s) (hd : Fresh s.cores d) : heard d (s.farewell c) = [] := by
  refine heard_eq_nil fun u hu h => not_open_of_fresh hwf hd ?_
  unfold farewell at hu
  split at hu
  · obtain ⟨room, -, rfl⟩ := List.mem_map.1 hu
    exact (inRoom_iff.1 (Bool.and_eq_true_iff.1 h).2).1
  · cases hu

theorem handed_self (s : WebSocketServer) (d : Nat) : Handed s s [] d where
  before := .inl
  exact _ := by simp
  fresh h := ⟨h, rfl, rfl⟩
  queue := rfl

theorem handed_connect (hwf : Wf s) (hs : Served s) : Served s.connect ∧ ∀ d, Handed s s.connect [] d := by
  have hfresh := hwf.fresh s.nextSessionId (Nat.le_refl _)
  have hnew : s.connect.cores s.nextSessionId = some (WebSocketSession.new s.nextSessionId).core := by
    rw [cores_connect, Function.update_self]
  have hold : ∀ d, d ≠ s.nextSessionId → s.connect.cores d = s.cores d := by
    intro d hd
    rw [cores_connect, Function.update_of_ne hd]
  have hopen : ∀ d, Open s.connect.cores d → d ≠ s.nextSessionId := by
    rintro d ⟨k, hk, ho⟩ rfl
    rw [hnew] at hk
    cases hk
    cases ho
  have hback : ∀ d, Fresh s.connect.cores d → Fresh s.cores d := by
    intro d hd k hk
    refine hd k ?_
    rw [hold d, hk]
    rintro rfl
    rw [hfresh] at hk
    cases hk
  have hbox : ∀ d, s.connect.outbox d = s.outbox d := by
    intro d
    by_cases hd : d = s.nextSessionId
    · subst hd
      have hnone : s.heap s.nextSessionId = none := Option.map_eq_none_iff.1 hfresh
      simp [outbox, connect, hnone]
      rfl
    · simp [outbox, connect, Function.update_of_ne hd]
  refine ⟨⟨fun room d hd => ?_, fun room d hd => hs.member room d (hback d hd), fun room d hd => ?_, hs.nodup⟩,
    fun d => ⟨fun hd => .inl ?_, fun _ => (hbox d).trans (Outbox.post_nil _).symm,
      fun hd => ⟨hback d hd, hbox d, rfl⟩, congrArg _ (hbox d)⟩⟩
  · have hd' : Open s.cores d := by
      unfold Open at hd ⊢
      rwa [hold d (hopen d hd)] at hd
    refine (hs.agree room d hd').trans ?_
    unfold Joined
    rw [hold d (hopen d hd)]
  · rintro ⟨k, hk, hroom⟩
    by_cases hdn : d = s.nextSessionId
    · subst hdn
      rw [hnew] at hk
      cases hk
      exact TreeSet.not_mem_emptyc hroom
    · rw [hold d hdn] at hk
      exact hs.joined room d (hback d hd) ⟨k, hk, hroom⟩
  · have hd' := hd
    unfold Open at hd ⊢
    rwa [hold d (hopen d hd')] at hd

/-- The handler of the handshake. -/
theorem turn_accept {M : String → Nat → Prop} (h : Turn P Q s s M []) (hc : ¬ Q c) {x : WebSocketSession}
    (hx : s.heap c = some x) (hread : x.read = .accepting) :
    Turn P Q s (s.onAccept c true) M (greeting c x.sessionId) := by
  let t := (s.modifySession c fun x => { x with isOpen := true }).registerSession c
  have ht : Turn P Q s t M [] :=
    (h.modify (c := c) (g := fun x => { x with isOpen := true }) (fun _ => rfl) fun _ _ => id).sweep rfl
      fun _ => .inl rfl
  have heq : s.onAccept c true = ((t.send c (makePayload "INFO"
      [("message", "Welcome to the WebSocket chat!")])).send c
        (makePayload "INFO" [("message", "Connected as " ++ x.sessionId)])).doRead c := by
    unfold onAccept
    rw [hx]
    dsimp only
    rw [if_neg (not_not.2 hread), if_neg (by decide)]
  rw [heq]
  exact ((ht.send hc _).send hc _).modify (c := c) (g := fun x => { x with read := .reading }) (fun _ => rfl)
    fun _ _ _ => nofun

theorem handed_accept (hwf : Wf s) (hs : Served s) {x : WebSocketSession} (hx : s.heap c = some x)
    (hread : x.read = .accepting) :
    Served (s.onAccept c true) ∧ ∀ d, Handed s (s.onAccept c true) (greeting c x.sessionId) d := by
  have hcores := (accepts_onAccept (core_eq hx) hread).cores
  have htame : Tame fun k => { k with isOpen := true, read := .reading } := nofun
  have hfreshc : Fresh s.cores c := by
    intro k hk
    rw [core_eq hx] at hk
    cases hk
    exact hread
  have hnot : ¬ Fresh (s.onAccept c true).cores c := by
    intro h
    cases h _ (by rw [hcores, change_self, core_eq hx, Option.map_some])
  have hopen : ∀ d, d ≠ c → Open (s.onAccept c true).cores d → Open s.cores d := by
    intro d hd
    rw [hcores, open_change, if_neg hd]
    exact id
  have hjoined : ∀ room d, Joined (s.onAccept c true).cores room d ↔ Joined s.cores room d := by
    intro room d
    rw [hcores, joined_change]
    split
    · rename_i hd
      rw [hd]
      rfl
    · rfl
  have hends : Ends (Open (s.onAccept c true).cores) (Fresh (s.onAccept c true).cores) s (s.onAccept c true)
      (greeting c x.sessionId) := by
    refine ⟨_, turn_accept (hs.turn (fun d hd => ?_) fun d => fresh_of_change hcores htame) hnot hx hread,
      fun room d hd => ?_⟩
    · by_cases hdc : d = c
      · subst hdc
        have hidle : x.core.read ≠ .idle := by
          show x.read ≠ .idle
          simp [hread]
        exact ⟨x.core, core_eq hx, hidle⟩
      · obtain ⟨k, hk, ho⟩ := hopen d hdc hd
        exact ⟨k, hk, (hwf.busy d k hk ho).1⟩
    · rw [hjoined]
      by_cases hdc : d = c
      · subst hdc
        exact iff_of_false (hs.member room d hfreshc) (hs.joined room d hfreshc)
      · exact hs.agree room d (hopen d hdc hd)
  refine ⟨.of_ends hends (joined_of_change hs hcores htame), fun d => handed_of_ends hends (fun hd => ?_)
    fun hd => ⟨fresh_of_change hcores htame hd, ?_⟩⟩
  · by_cases hdc : d = c
    · subst hdc
      exact .inr hfreshc
    · exact .inl (hopen d hdc hd)
  · refine heard_eq_nil fun u hu h => hnot ?_
    have hdc : d = c := by
      rcases List.mem_pair.1 hu with rfl | rfl
      · simpa [toSelf] using h
      · simpa [toSelf] using h
    exact hdc ▸ hd

/-- The cores after a command: one of them goes on reading. -/
theorem cores_command (s : WebSocketServer) (c : Nat) (command : Command) :
    ∃ f : Core → Core, ((s.handleCommand c command).doRead c).cores = s.change c f ∧
      ∀ k, (f k).read = .reading ∧ (f k).isOpen = k.isOpen := by
  have hquiet : ∀ {t : WebSocketServer}, Quiet s t → ∃ f : Core → Core, (t.doRead c).cores = s.change c f ∧
      ∀ k, (f k).read = .reading ∧ (f k).isOpen = k.isOpen := fun ht =>
    ⟨_, (ht.change (changes_doRead _ c)).cores, fun _ => ⟨rfl, rfl⟩⟩
  cases command with
  | join room =>
    rcases changes_handleJoin s c room with h | h
    · exact hquiet h
    · exact ⟨_, (h.change (changes_doRead _ c)).cores, fun _ => ⟨rfl, rfl⟩⟩
  | leave room =>
    rcases changes_handleLeave s c room with h | h
    · exact hquiet h
    · exact ⟨_, (h.change (changes_doRead _ c)).cores, fun _ => ⟨rfl, rfl⟩⟩
  | message room text => exact hquiet (quiet_handleMessage ..)
  | nick name =>
    rcases changes_handleNick s c name with h | ⟨-, h⟩
    · exact hquiet h
    · exact ⟨_, (h.change (changes_doRead _ c)).cores, fun _ => ⟨rfl, rfl⟩⟩
  | listRooms => exact hquiet (quiet_handleListRooms ..)
  | listMembers room => exact hquiet (quiet_handleListMembers ..)
  | error message => exact hquiet (quiet_send ..)

theorem handed_command (hwf : Wf s) (hs : Served s) {k : Core} (hk : s.cores c = some k)
    (hread : k.read ≠ .accepting) (command : Command) :
    Served ((s.handleCommand c command).doRead c) ∧
      ∀ d, Handed s ((s.handleCommand c command).doRead c) (s.reply c command) d := by
  obtain ⟨f, hcores, hf⟩ := cores_command s c command
  have htame : Tame f := by
    intro k hk
    rw [(hf k).1] at hk
    cases hk
  have hopen : ∀ k, (f k).isOpen = true → k.isOpen = true := fun k => (hf k).2 ▸ id
  have hnot : ¬ Fresh s.cores c := fun h => hread (h k hk)
  have hstart := Served.start hwf hs (c := c) (fun d => open_of_change (d := d) hcores hopen)
    (fun d => fresh_of_change (d := d) hcores htame) fun h => hnot (fresh_of_change hcores htame h)
  refine served_handed hs ((hstart.handleCommand command).modify (changes_doRead _ c) (fun _ => rfl)
    (fun _ _ _ => nofun) fun _ => rfl) hcores htame hopen fun d hd => ?_
  refine heard_reply hwf (fresh_of_change hcores htame hd) ?_ command
  rintro rfl
  exact hnot (fresh_of_change hcores htame hd)

theorem Handed.trans {u : WebSocketServer} {vs : List Utterance} (h : Handed s u us d) (h' : Handed u t vs d)
    (hopen : Open t.cores d → Open u.cores d) : Handed s t (us ++ vs) d where
  before hd := h.before (hopen hd)
  exact hd := by rw [h'.exact hd, h.exact (hopen hd), Outbox.post_post, heard_append]
  fresh hd := by
    obtain ⟨hu, hbox, hvs⟩ := h'.fresh hd
    obtain ⟨hs, hbox', hus⟩ := h.fresh hu
    exact ⟨hs, hbox.trans hbox', by rw [heard_append, hus, hvs, List.append_nil]⟩
  queue := h'.queue.trans h.queue

/-- A step that changes one core, and neither a room nor an outbox. -/
theorem handed_modify (hs : Served s) {g : WebSocketSession → WebSocketSession}
    (hch : Changes s (s.modifySession c g) c f) (hg : ∀ x, (g x).outbox = x.outbox)
    (hread : ∀ k, (f k).read = .accepting → k.read = .accepting)
    (hopen : ∀ k, (f k).isOpen = true → k.isOpen = true) (hjoined : ∀ k, (f k).joinedRooms = k.joinedRooms) :
    Served (s.modifySession c g) ∧ ∀ d, Handed s (s.modifySession c g) [] d := by
  have htame : Tame f := fun k hk => ⟨hread k hk, fun room => by rw [hjoined]; exact id⟩
  have hback : ∀ {d}, Fresh (s.modifySession c g).cores d → Fresh s.cores d := fresh_of_change hch.cores htame
  refine ⟨⟨fun room d hd => ?_, fun room d hd => hs.member room d (hback hd),
    joined_of_change hs hch.cores htame, hs.nodup⟩, fun d => ⟨fun hd => .inl (open_of_change hch.cores hopen hd),
      fun _ => ?_, fun hd => ⟨hback hd, outbox_modifySession_frame hg d, rfl⟩,
      congrArg _ (outbox_modifySession_frame hg d)⟩⟩
  · refine (hs.agree room d (open_of_change hch.cores hopen hd)).trans ?_
    rw [hch.cores, joined_change]
    split
    · rename_i hdc
      simp only [hjoined, hdc, Joined]
    · rfl
  · rw [outbox_modifySession_frame hg d, heard_nil, Outbox.post_nil]

theorem handed_endRead (hs : Served s) (c : Nat) :
    Served (s.endRead c) ∧ ∀ d, Handed s (s.endRead c) [] d := by
  have hidle : ∀ k : Core, ({ k with read := .idle } : Core).read = .accepting → k.read = .accepting := by
    intro k hk
    cases hk
  exact handed_modify hs (changes_endRead s c) (fun _ => rfl) hidle (fun _ => id) fun _ => rfl

theorem handed_close (hwf : Wf s) (hs : Served s) (c : Nat) :
    Served (s.onClose c) ∧ (∀ d, Handed s (s.onClose c) (s.farewell c) d) ∧ ¬ Open (s.onClose c).cores c := by
  by_cases hopen : s.isOpen c = true
  · obtain ⟨k, hk, ho⟩ := isOpen_iff.1 hopen
    have hcores := (closes_onClose hwf hk ho).cores
    have htame : Tame fun k => { k with isOpen := false, joinedRooms := ∅ } :=
      fun k hk => ⟨hk, fun room hroom => absurd hroom TreeSet.not_mem_emptyc⟩
    have hclosed : ¬ Open (s.onClose c).cores c := by
      rw [hcores, open_change, if_pos rfl]
      simp
    have hnot : ¬ Fresh (s.onClose c).cores c := fun h =>
      not_open_of_fresh hwf (fresh_of_change hcores htame h) ⟨k, hk, ho⟩
    have hstart := Served.start hwf hs (c := c) (fun d => open_of_change (d := d) hcores nofun)
      (fun d => fresh_of_change (d := d) hcores htame) hnot
    obtain ⟨hserved, hhanded⟩ := served_handed hs (hstart.onClose hclosed) hcores htame nofun fun d hd =>
      heard_farewell hwf (fresh_of_change hcores htame hd)
    exact ⟨hserved, hhanded, hclosed⟩
  · have heq : s.onClose c = s := onClose_of_not_open (Bool.eq_false_iff.2 hopen)
    rw [heq, farewell, if_neg hopen]
    exact ⟨hs, handed_self s, fun h => hopen (isOpen_iff.2 h)⟩

theorem handed_read (hwf : Wf s) (hs : Served s) (c : Nat) :
    Served (s.onRead c) ∧ ∀ d, Handed s (s.onRead c) (s.spoken (.read c)) d := by
  cases hx : s.heap c with
  | none =>
    simp only [onRead, spoken, hx]
    exact ⟨hs, handed_self s⟩
  | some x =>
    cases hread : x.read with
    | completed result =>
      cases result with
      | none =>
        simp only [onRead, spoken, hx, hread]
        obtain ⟨hserved, hhanded, hclosed⟩ := handed_close hwf hs c
        obtain ⟨hserved', hhanded'⟩ := handed_endRead hserved c
        refine ⟨hserved', fun d => ?_⟩
        have htrans := (hhanded d).trans (hhanded' d)
          (open_of_change (changes_endRead (s.onClose c) c).cores fun _ => id)
        rw [List.append_nil] at htrans
        exact htrans
      | some payload =>
        simp only [onRead, spoken, hx, hread]
        have hread' : x.core.read ≠ .accepting := by
          show x.read ≠ .accepting
          simp [hread]
        exact handed_command hwf hs (core_eq hx) hread' _
    | idle =>
      simp only [onRead, spoken, hx, hread]
      exact ⟨hs, handed_self s⟩
    | accepting =>
      simp only [onRead, spoken, hx, hread]
      exact ⟨hs, handed_self s⟩
    | reading =>
      simp only [onRead, spoken, hx, hread]
      exact ⟨hs, handed_self s⟩

theorem handed_accepted (hwf : Wf s) (hs : Served s) (c : Nat) (ok : Bool) :
    Served (s.onAccept c ok) ∧ ∀ d, Handed s (s.onAccept c ok) (s.spoken (.accepted c ok)) d := by
  cases hx : s.heap c with
  | none =>
    have heq : s.onAccept c ok = s ∧ s.spoken (.accepted c ok) = [] := by
      cases ok with
      | true => simp [onAccept, spoken, hx]
      | false => simp [onAccept, spoken, hx]
    rw [heq.1, heq.2]
    exact ⟨hs, handed_self s⟩
  | some x =>
    by_cases hread : x.read = .accepting
    · cases ok with
      | true =>
        simp only [spoken, hx, hread, if_true]
        exact handed_accept hwf hs hx hread
      | false =>
        have heq : s.onAccept c false = s.endRead c := by simp [onAccept, hx, hread]
        rw [heq]
        exact handed_endRead hs c
    · have heq : s.onAccept c ok = s ∧ s.spoken (.accepted c ok) = [] := by
        cases ok with
        | true => simp [onAccept, spoken, hx, hread]
        | false => simp [onAccept, spoken, hx, hread]
      rw [heq.1, heq.2]
      exact ⟨hs, handed_self s⟩

theorem handed_arrive (hs : Served s) (c : Nat) (result : Option String) :
    Served (s.arrive c result) ∧ ∀ d, Handed s (s.arrive c result) [] d := by
  refine handed_modify (f := fun k => if k.read = .reading ∧ (k.isOpen = true ∨ result = none) then
    { k with read := .completed result } else k) hs
    (changes_modifySession s c fun x => apply_ite WebSocketSession.core _ _ _) (fun x => ?_) (fun k => ?_)
    (fun k => ?_) fun k => ?_
  · split
    · rfl
    · rfl
  · split
    · nofun
    · exact id
  · split
    · exact id
    · exact id
  · split
    · rfl
    · rfl

end Step

end Portfolio.Chat
