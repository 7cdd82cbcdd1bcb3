import Portfolio.Chat.Handed

/-!
# Delivery of the chat server

On every run, an open session has been handed exactly what it was to hear, in the order in which it was
said; what is written to it is a beginning of that, and once the handlers that are outstanding have run
it is all of it. The sessions hear one log, so that two of them hear what both hear in the same order.
-/

namespace Portfolio.Chat
open Std WebSocketServer

/-- What the sessions have said on a run. -/
def chatLog (events : List Event) : List Utterance := ((chatMachine.observe spoken).run events).2

/-- What has been written to the session `d`. -/
def chatWire (events : List Event) (d : Nat) : List String :=
  (((chatMachine.observe written).run events).2.filter (·.1 = d)).map (·.2)

theorem chatLog_concat (events : List Event) (event : Event) :
    chatLog (events ++ [event]) = chatLog events ++ spoken (chatMachine.run events).1 event :=
  chatMachine.observe_run_snd_concat ..

theorem chatWire_concat (events : List Event) (event : Event) (d : Nat) :
    chatWire (events ++ [event]) d =
      chatWire events d ++ ((written (chatMachine.run events).1 event).filter (·.1 = d)).map (·.2) := by
  rw [chatWire, chatMachine.observe_run_snd_concat, List.filter_append, List.map_append]
  rfl

/-! ### The messages of a session -/

/-- Of what the session `d` was to hear, what has become of it. -/
structure Delivered (s : WebSocketServer) (all wire : List String) (d : Nat) : Prop where
  intact : Open s.cores d ∨ Fresh s.cores d → (s.outbox d).Intact all wire
  fresh : Fresh s.cores d → s.outbox d = {}
  cut : (s.outbox d).Cut all wire

namespace Delivered
variable {s t : WebSocketServer} {all wire : List String} {us : List Utterance} {c d : Nat}

theorem handed (h : Delivered s all wire d) (hd : Handed s t us d) : Delivered t (all ++ heard d us) wire d where
  intact hlive := by
    rcases hlive with hopen | hfresh
    · rw [hd.exact hopen]
      exact (h.intact (hd.before hopen)).post _
    · obtain ⟨hfresh, hbox, hus⟩ := hd.fresh hfresh
      rw [hbox, hus, List.append_nil]
      exact h.intact (.inr hfresh)
  fresh hfresh := by
    obtain ⟨hfresh, hbox, -⟩ := hd.fresh hfresh
    exact hbox.trans (h.fresh hfresh)
  cut := h.cut.of_queue hd.queue _

/-- A step that leaves the session alone. -/
theorem of_eq (h : Delivered s all wire d) (hcores : t.cores = s.cores) (hbox : t.outbox d = s.outbox d) :
    Delivered t all wire d := by
  rcases h with ⟨hintact, hfresh, hcut⟩
  rw [← hcores, ← hbox] at hintact hfresh
  rw [← hbox] at hcut
  exact ⟨hintact, hfresh, hcut⟩

theorem not_fresh (h : Delivered s all wire d) (hpending : (s.outbox d).pending = true) : ¬ Fresh s.cores d := by
  intro hfresh
  rw [h.fresh hfresh] at hpending
  cases hpending

end Delivered

theorem outbox_runPosted (x : WebSocketSession) :
    x.runPosted.outbox = if x.isOpen then x.outbox.pass else x.outbox.drop := by
  unfold WebSocketSession.runPosted Outbox.pass Outbox.drop WebSocketSession.outbox
  cases hposted : x.posted with
  | nil => simp [hposted]
  | cons m posted =>
    cases hopen : x.isOpen with
    | false => simp
    | true =>
      cases hqueue : x.writeQueue with
      | nil => simp
      | cons m' queue => simp

namespace WebSocketServer
variable {s : WebSocketServer} {all wire : List String} {c d : Nat}

theorem outbox_eq {x : WebSocketSession} (hx : s.heap c = some x) : s.outbox c = x.outbox := by
  rw [outbox, hx]
  rfl

theorem cores_runPosted (s : WebSocketServer) (c : Nat) : (s.exec (.runPosted c)).cores = s.cores :=
  (quiet_modifySession s c core_runPosted).cores

theorem outbox_runPosted_of_open (hopen : Open s.cores c) : (s.exec (.runPosted c)).outbox c = (s.outbox c).pass := by
  obtain ⟨k, hk, ho⟩ := hopen
  obtain ⟨x, hx, rfl⟩ := Option.map_eq_some_iff.1 hk
  have hopen' : x.isOpen = true := ho
  simp [exec, outbox, modifySession, hx, outbox_runPosted, hopen']

theorem outbox_runPosted_of_closed (hclosed : ¬ Open s.cores c) :
    (s.exec (.runPosted c)).outbox c = (s.outbox c).drop := by
  cases hx : s.heap c with
  | none => simp [exec, outbox, modifySession, hx, Outbox.drop]
  | some x =>
    have hopen : x.isOpen ≠ true := fun ho => hclosed ⟨x.core, core_eq hx, ho⟩
    simp [exec, outbox, modifySession, hx, outbox_runPosted, hopen]

theorem outbox_written_ok (hpending : (s.outbox c).pending = true) :
    s.exec (.written c .ok) = s.modifySession c WebSocketSession.onWrite ∧
      (s.exec (.written c .ok)).outbox c = (s.outbox c).done := by
  cases hx : s.heap c with
  | none => simp [outbox, hx] at hpending
  | some x =>
    have hx' : x.writePending = true := by
      rw [outbox_eq hx] at hpending
      exact hpending
    have heq : s.exec (.written c .ok) = s.modifySession c WebSocketSession.onWrite := by
      simp [exec, onWrite, hx, hx']
    rw [heq]
    exact ⟨rfl, outbox_modifySession (f := Outbox.done) (fun _ => rfl) hx⟩

/-- Without a write under way, the end of one does not come. -/
theorem exec_written_of_idle (h : (s.outbox c).pending = false) (result : WriteResult) :
    s.exec (.written c result) = s := by
  cases hx : s.heap c with
  | none => simp [exec, onWrite, hx]
  | some x =>
    have hx' : x.writePending = false := by
      rw [outbox_eq hx] at h
      exact h
    simp [exec, onWrite, hx, hx']

theorem exec_written_halt (hpending : (s.outbox c).pending = true) :
    s.exec (.written c .aborted) = s.modifySession c (fun x => { x with writePending := false }) ∧
      s.exec (.written c .failed) = (s.onClose c).modifySession c fun x => { x with writePending := false } := by
  cases hx : s.heap c with
  | none => simp [outbox, hx] at hpending
  | some x =>
    have hx' : x.writePending = true := by
      rw [outbox_eq hx] at hpending
      exact hpending
    simp [exec, onWrite, hx, hx']

theorem queue_halt (s : WebSocketServer) (c d : Nat) :
    ((s.modifySession c fun x => { x with writePending := false }).outbox d).queue = (s.outbox d).queue := by
  by_cases hd : d = c
  · subst hd
    cases hx : s.heap d with
    | none => simp [outbox, modifySession, hx]
    | some x => rw [outbox_modifySession (f := Outbox.halt) (fun _ => rfl) hx, Outbox.halt_queue]
  · rw [outbox_modifySession_of_ne _ hd]

/-! ### Steps -/

theorem cores_halt (s : WebSocketServer) (c : Nat) :
    (s.modifySession c fun x => { x with writePending := false }).cores = s.cores :=
  (quiet_modifySession s c (g := fun x => { x with writePending := false }) fun _ => rfl).cores

theorem delivered_runPosted (h : Delivered s all wire d) (c : Nat) :
    Delivered (s.exec (.runPosted c)) all wire d := by
  have hcores := cores_runPosted s c
  by_cases hdc : d = c
  swap
  · exact h.of_eq hcores (outbox_modifySession_of_ne _ hdc)
  subst hdc
  by_cases hopen : Open s.cores d
  · have hbox := outbox_runPosted_of_open hopen
    have hintact := (h.intact (.inl hopen)).pass
    refine ⟨fun _ => hbox ▸ hintact, fun hfresh => ?_, hbox ▸ hintact.cut⟩
    rw [hcores] at hfresh
    rw [hbox, h.fresh hfresh]
    rfl
  · have hbox := outbox_runPosted_of_closed hopen
    have hfresh : Fresh s.cores d → (s.outbox d).drop = s.outbox d := by
      intro hfresh
      rw [h.fresh hfresh]
      rfl
    refine ⟨fun hlive => ?_, fun hf => ?_, ?_⟩
    · rw [hcores] at hlive
      have hf := hlive.resolve_left hopen
      rw [hbox, hfresh hf]
      exact h.intact hlive
    · rw [hcores] at hf
      rw [hbox, hfresh hf]
      exact h.fresh hf
    · rw [hbox]
      simpa using h.cut.of_queue (Outbox.drop_queue _) []

theorem delivered_written_ok (h : Delivered s all wire d) (hpending : (s.outbox c).pending = true) :
    Delivered (s.exec (.written c .ok)) all
      (wire ++ ((s.written (.written c .ok)).filter (·.1 = d)).map (·.2)) d := by
  obtain ⟨heq, hbox⟩ := outbox_written_ok hpending
  have hcores : (s.exec (.written c .ok)).cores = s.cores := by
    rw [heq]
    exact (quiet_modifySession s c (g := WebSocketSession.onWrite) fun _ => rfl).cores
  rw [written, if_pos hpending]
  by_cases hdc : d = c
  · subst hdc
    have hwire : ((((s.outbox d).queue.take 1).map (d, ·)).filter (·.1 = d)).map (·.2) =
        (s.outbox d).queue.take 1 := by
      rw [List.filter_eq_self.2, List.map_map]
      · exact List.map_id _
      · intro e he
        obtain ⟨m, -, rfl⟩ := List.mem_map.1 he
        exact decide_eq_true rfl
    rw [hwire]
    refine ⟨fun hlive => ?_, fun hf => ?_, ?_⟩
    · rw [hcores] at hlive
      rw [hbox]
      exact (h.intact hlive).done
    · rw [hcores] at hf
      exact absurd hf (h.not_fresh hpending)
    · rw [hbox]
      exact h.cut.done
  · have hwire : (((s.outbox c).queue.take 1).map (c, ·)).filter (·.1 = d) = [] := by
      rw [List.filter_eq_nil_iff]
      intro e he
      obtain ⟨m, -, rfl⟩ := List.mem_map.1 he
      simpa using Ne.symm hdc
    rw [hwire, List.map_nil, List.append_nil]
    refine h.of_eq hcores ?_
    rw [heq]
    exact outbox_modifySession_of_ne _ hdc

/-- A write of `c` ends in another way. -/
theorem delivered_halt (h : Delivered s all wire d) (hfresh : d = c → ¬ Fresh s.cores d) :
    Delivered (s.modifySession c fun x => { x with writePending := false }) all wire d := by
  have hcores := cores_halt s c
  by_cases hdc : d = c
  swap
  · exact h.of_eq hcores (outbox_modifySession_of_ne _ hdc)
  have hcut : ((s.modifySession c fun x => { x with writePending := false }).outbox d).Cut all wire := by
    simpa using h.cut.of_queue (queue_halt s c d) []
  refine ⟨fun hlive => ?_, fun hf => ?_, hcut⟩
  · rw [hcores] at hlive
    subst hdc
    rcases hlive with hopen | hf
    · obtain ⟨k, hk, ho⟩ := hopen
      obtain ⟨x, hx⟩ := heap_of_core hk
      rw [outbox_modifySession (f := Outbox.halt) (fun _ => rfl) hx]
      exact (h.intact (.inl ⟨k, hk, ho⟩)).halt
    · exact absurd hf (hfresh rfl)
  · rw [hcores] at hf
    exact absurd hf (hfresh hdc)

theorem served_exec (hwf : Wf s) (hs : Served s) (event : Event) : Served (s.exec event) := by
  cases event with
  | connect => exact (handed_connect hwf hs).1
  | accepted c ok => exact (handed_accepted hwf hs c ok).1
  | arrive c result => exact (handed_arrive hs c result).1
  | read c => exact (handed_read hwf hs c).1
  | runPosted c => exact hs.of_eq (cores_runPosted s c) rfl
  | written c result =>
    cases hpending : (s.outbox c).pending with
    | false =>
      rw [exec_written_of_idle hpending]
      exact hs
    | true =>
      cases result with
      | ok =>
        rw [(outbox_written_ok hpending).1]
        exact hs.of_eq (quiet_modifySession s c (g := WebSocketSession.onWrite) fun _ => rfl).cores rfl
      | aborted =>
        rw [(exec_written_halt hpending).1]
        exact hs.of_eq (cores_halt s c) rfl
      | failed =>
        rw [(exec_written_halt hpending).2]
        exact (handed_close hwf hs c).1.of_eq (cores_halt _ c) rfl

theorem delivered_exec (hwf : Wf s) (hs : Served s) (event : Event) (h : Delivered s all wire d) :
    Delivered (s.exec event) (all ++ heard d (s.spoken event))
      (wire ++ ((s.written event).filter (·.1 = d)).map (·.2)) d := by
  have hquiet : ∀ {t : WebSocketServer}, Delivered t all wire d → Delivered t (all ++ heard d [])
      (wire ++ (([] : List (Nat × String)).filter (·.1 = d)).map (·.2)) d := by
    intro t ht
    simpa using ht
  have hhanded : ∀ {t : WebSocketServer} {us : List Utterance}, Handed s t us d →
      Delivered t (all ++ heard d us) (wire ++ (([] : List (Nat × String)).filter (·.1 = d)).map (·.2)) d := by
    intro t us ht
    simpa using h.handed ht
  cases event with
  | connect => exact hhanded ((handed_connect hwf hs).2 d)
  | accepted c ok => exact hhanded ((handed_accepted hwf hs c ok).2 d)
  | arrive c result => exact hhanded ((handed_arrive hs c result).2 d)
  | read c => exact hhanded ((handed_read hwf hs c).2 d)
  | runPosted c => exact hquiet (delivered_runPosted h c)
  | written c result =>
    cases hpending : (s.outbox c).pending with
    | false =>
      have hspoken : s.spoken (.written c result) = [] := by
        cases result with
        | failed => simp [spoken, hpending]
        | ok => rfl
        | aborted => rfl
      have hwritten : s.written (.written c result) = [] := by
        cases result with
        | ok => simp [written, hpending]
        | failed => rfl
        | aborted => rfl
      rw [exec_written_of_idle hpending, hspoken, hwritten]
      exact hquiet h
    | true =>
      have hfresh : d = c → ¬ Fresh s.cores d := by
        rintro rfl
        exact h.not_fresh hpending
      cases result with
      | ok =>
        have hspoken : s.spoken (.written c .ok) = [] := rfl
        rw [hspoken, heard_nil, List.append_nil]
        exact delivered_written_ok h hpending
      | aborted =>
        rw [(exec_written_halt hpending).1]
        exact hquiet (delivered_halt h hfresh)
      | failed =>
        have hspoken : s.spoken (.written c .failed) = s.farewell c := by simp [spoken, hpending]
        have hclose := (handed_close hwf hs c).2.1 d
        rw [(exec_written_halt hpending).2, hspoken]
        simpa [written] using delivered_halt (h.handed hclose) fun hdc hf => hfresh hdc (hclose.fresh hf).1

end WebSocketServer

/-! ### Runs -/

theorem served_run (events : List Event) : Served (chatMachine.run events).1 := by
  induction events using List.reverseRecOn with
  | nil =>
    have hnone : ∀ room, chatMachine.init.lookups room = none := fun _ => TreeMap.getElem?_emptyc
    refine ⟨fun room d => ?_, fun room d _ => ?_, fun room d _ => ?_, fun room ms hms => ?_⟩
    · rintro ⟨k, hk, -⟩
      cases hk
    · rintro ⟨ms, hms, -⟩
      rw [Machine.run_nil, hnone] at hms
      cases hms
    · rintro ⟨k, hk, -⟩
      cases hk
    · rw [Machine.run_nil, hnone] at hms
      cases hms
  | append_singleton events event ih =>
    rw [Machine.run_concat]
    exact served_exec (wf_run events) ih event

theorem delivered_run (events : List Event) (d : Nat) :
    Delivered (chatMachine.run events).1 (heard d (chatLog events)) (chatWire events d) d := by
  induction events using List.reverseRecOn with
  | nil => exact ⟨fun _ => Outbox.intact_empty, fun _ => rfl, Outbox.intact_empty.cut⟩
  | append_singleton events event ih =>
    rw [chatLog_concat, chatWire_concat, heard_append, Machine.run_concat]
    exact delivered_exec (wf_run events) (served_run events) event ih

/-- What is written to a session begins what it was to hear of the log, and while the session is open the
rest of that waits in its queue and its handlers, in order. -/
theorem chat_delivers (events : List Event) (d : Nat) :
    chatWire events d <+: heard d (chatLog events) ∧
      ∀ x, (chatMachine.run events).1.heap d = some x → x.isOpen = true →
        chatWire events d ++ x.writeQueue ++ x.posted = heard d (chatLog events) := by
  have h := delivered_run events d
  refine ⟨h.cut.wire_prefix, fun x hx hopen => ?_⟩
  have hintact := h.intact (.inl ⟨x.core, core_eq hx, hopen⟩)
  rw [outbox_eq hx] at hintact
  exact hintact

/-! ### Progress -/

namespace WebSocketServer
variable {s t : WebSocketServer} {all wire : List String} {us : List Utterance} {c d : Nat}

/-- A write to the session `d` is under way as long as something is queued, unless it is closed. -/
def Works (s : WebSocketServer) (d : Nat) : Prop := Open s.cores d ∨ Fresh s.cores d → (s.outbox d).Working

theorem Works.of_eq (h : s.Works d) (hcores : t.cores = s.cores) (hbox : t.outbox d = s.outbox d) : t.Works d := by
  unfold Works at h ⊢
  rw [hcores, hbox]
  exact h

theorem Works.handed (h : s.Works d) (hd : Handed s t us d) : t.Works d := by
  rintro (hopen | hfresh)
  · rw [hd.exact hopen]
    exact (h (hd.before hopen)).post _
  · obtain ⟨hfresh, hbox, -⟩ := hd.fresh hfresh
    rw [hbox]
    exact h (.inr hfresh)

theorem works_exec (hwf : Wf s) (hs : Served s) {event : Event} (hdel : Delivered s all wire d) (h : s.Works d)
    (habort : event ≠ .written d .aborted) : (s.exec event).Works d := by
  cases event with
  | connect => exact h.handed ((handed_connect hwf hs).2 d)
  | accepted c ok => exact h.handed ((handed_accepted hwf hs c ok).2 d)
  | arrive c result => exact h.handed ((handed_arrive hs c result).2 d)
  | read c => exact h.handed ((handed_read hwf hs c).2 d)
  | runPosted c =>
    by_cases hdc : d = c
    swap
    · exact h.of_eq (cores_runPosted s c) (outbox_modifySession_of_ne _ hdc)
    subst hdc
    intro hlive
    rw [cores_runPosted] at hlive
    by_cases hopen : Open s.cores d
    · rw [outbox_runPosted_of_open hopen]
      exact (h hlive).pass
    · rw [outbox_runPosted_of_closed hopen, hdel.fresh (hlive.resolve_left hopen)]
      exact Outbox.working_empty
  | written c result =>
    cases hpending : (s.outbox c).pending with
    | false =>
      rw [exec_written_of_idle hpending]
      exact h
    | true =>
      have hother : d ≠ c → ∀ {t : WebSocketServer}, t.Works d →
          (t.modifySession c fun x => { x with writePending := false }).Works d := fun hdc t ht =>
        ht.of_eq (cores_halt t c) (outbox_modifySession_of_ne _ hdc)
      cases result with
      | ok =>
        obtain ⟨heq, hbox⟩ := outbox_written_ok hpending
        by_cases hdc : d = c
        · subst hdc
          intro _
          rw [hbox]
          exact .done _
        · rw [heq]
          exact h.of_eq (quiet_modifySession s c (g := WebSocketSession.onWrite) fun _ => rfl).cores
            (outbox_modifySession_of_ne _ hdc)
      | aborted =>
        rw [(exec_written_halt hpending).1]
        refine hother ?_ h
        rintro rfl
        exact habort rfl
      | failed =>
        rw [(exec_written_halt hpending).2]
        obtain ⟨-, hclose, hclosed⟩ := handed_close hwf hs c
        by_cases hdc : d = c
        · subst hdc
          intro hlive
          rw [cores_halt] at hlive
          exact absurd ((hclose d).fresh (hlive.resolve_left hclosed)).1 (hdel.not_fresh hpending)
        · exact hother hdc (h.handed (hclose d))

end WebSocketServer

theorem works_run {events : List Event} {d : Nat} (habort : Event.written d .aborted ∉ events) :
    (chatMachine.run events).1.Works d := by
  induction events using List.reverseRecOn with
  | nil => exact fun _ => Outbox.working_empty
  | append_singleton events event ih =>
    rw [List.mem_append, not_or, List.mem_singleton] at habort
    rw [Machine.run_concat]
    exact works_exec (wf_run events) (served_run events) (delivered_run events d) (ih habort.1)
      (Ne.symm habort.2)

/-- The handlers of `send` have run. -/
theorem run_posted (events : List Event) {d : Nat} (hopen : Open (chatMachine.run events).1.cores d) (n : Nat)
    (hn : ((chatMachine.run events).1.outbox d).posted.length = n) :
    Open (chatMachine.run (events ++ List.replicate n (.runPosted d))).1.cores d ∧
      ((chatMachine.run (events ++ List.replicate n (.runPosted d))).1.outbox d).posted = [] ∧
      ((chatMachine.run (events ++ List.replicate n (.runPosted d))).1.outbox d).queue.length =
        ((chatMachine.run events).1.outbox d).queue.length + n ∧
      chatLog (events ++ List.replicate n (.runPosted d)) = chatLog events := by
  induction n generalizing events with
  | zero =>
    rw [List.replicate_zero, List.append_nil]
    exact ⟨hopen, List.length_eq_zero_iff.1 hn, rfl, rfl⟩
  | succ n ih =>
    have hrun : (chatMachine.run (events ++ [.runPosted d])).1 = (chatMachine.run events).1.exec (.runPosted d) := by
      rw [Machine.run_concat]
      rfl
    have hbox := outbox_runPosted_of_open hopen
    have hlog : chatLog (events ++ [.runPosted d]) = chatLog events := by
      rw [chatLog_concat]
      exact List.append_nil _
    have hposted : ((chatMachine.run (events ++ [.runPosted d])).1.outbox d).posted.length = n := by
      rw [hrun, hbox, Outbox.posted_pass, List.length_tail, hn]
      rfl
    obtain ⟨h, hnil, hlen, hlog'⟩ := ih (events ++ [.runPosted d]) (by
      rw [hrun, cores_runPosted]
      exact hopen) hposted
    rw [List.replicate_succ, ← List.singleton_append, ← List.append_assoc]
    refine ⟨h, hnil, hlen.trans ?_, hlog'.trans hlog⟩
    have hpass := Outbox.length_pass ((chatMachine.run events).1.outbox d)
    rw [hrun, hbox] at hposted ⊢
    omega

/-- The writes are done. -/
theorem run_written (events : List Event) {d : Nat} (hopen : Open (chatMachine.run events).1.cores d)
    (habort : Event.written d .aborted ∉ events) (n : Nat)
    (hposted : ((chatMachine.run events).1.outbox d).posted = [])
    (hn : ((chatMachine.run events).1.outbox d).queue.length = n) :
    chatWire (events ++ List.replicate n (.written d .ok)) d = heard d (chatLog events) := by
  induction n generalizing events with
  | zero =>
    rw [List.replicate_zero, List.append_nil]
    exact ((delivered_run events d).intact (.inl hopen)).all_written (List.length_eq_zero_iff.1 hn) hposted
  | succ n ih =>
    have hpending : ((chatMachine.run events).1.outbox d).pending = true := by
      have hworks : _ = _ := works_run habort (.inl hopen)
      rw [hworks]
      cases hqueue : ((chatMachine.run events).1.outbox d).queue with
      | nil => simp [hqueue] at hn
      | cons m queue => rfl
    obtain ⟨heq, hbox⟩ := outbox_written_ok hpending
    have hrun : (chatMachine.run (events ++ [.written d .ok])).1 =
        (chatMachine.run events).1.exec (.written d .ok) := by
      rw [Machine.run_concat]
      rfl
    have hlog : chatLog (events ++ [.written d .ok]) = chatLog events := by
      rw [chatLog_concat]
      exact List.append_nil _
    rw [List.replicate_succ, ← List.singleton_append, ← List.append_assoc, ← hlog]
    refine ih (events ++ [.written d .ok]) ?_ (by simpa using habort) ?_ ?_
    · rw [hrun, heq, (quiet_modifySession _ d (g := WebSocketSession.onWrite) fun _ => rfl).cores]
      exact hopen
    · rw [hrun, hbox]
      exact hposted
    · rw [hrun, hbox]
      simp [Outbox.done, hn]

/-- As long as no write to an open session has been aborted, the handlers that are outstanding and the
writes they start bring it all that it was to hear. -/
theorem chat_drains (events : List Event) {d : Nat} {x : WebSocketSession}
    (hx : (chatMachine.run events).1.heap d = some x) (hopen : x.isOpen = true)
    (habort : Event.written d .aborted ∉ events) :
    chatWire (events ++ List.replicate x.posted.length (.runPosted d) ++
      List.replicate (x.writeQueue.length + x.posted.length) (.written d .ok)) d = heard d (chatLog events) := by
  have hbox := outbox_eq hx
  obtain ⟨hopen', hnil, hlen, hlog⟩ := run_posted events ⟨x.core, core_eq hx, hopen⟩ x.posted.length
    (by rw [hbox]; rfl)
  rw [run_written _ hopen' ?_ _ hnil (hlen.trans (by rw [hbox]; rfl)), hlog]
  simpa using habort

/-- Two sessions join a room, and the second one speaks there. -/
def roomRun : List Event :=
  [.connect, .accepted 1 true, .arrive 1 (some "\x7b\"cmd\":\"JOIN\",\"room\":\"lobby\"\x7d"), .read 1,
    .connect, .accepted 2 true, .arrive 2 (some "\x7b\"cmd\":\"JOIN\",\"room\":\"lobby\"\x7d"), .read 2,
    .arrive 2 (some "\x7b\"cmd\":\"MSG\",\"room\":\"lobby\",\"text\":\"hi\"\x7d"), .read 2]

theorem chat_drains_roomRun :
    chatWire (roomRun ++ List.replicate 5 (.runPosted 1) ++ List.replicate 5 (.written 1 .ok)) 1 =
      heard 1 (chatLog roomRun) := by
  have hrun : ((chatMachine.run roomRun).1.heap 1).map
      (fun x => (x.isOpen, x.posted.length, x.writeQueue.length)) = some (true, 5, 0) := by decide +kernel
  obtain ⟨x, hx, heq⟩ := Option.map_eq_some_iff.1 hrun
  obtain ⟨hopen, hlen⟩ := Prod.mk.inj heq
  obtain ⟨hposted, hqueue⟩ := Prod.mk.inj hlen
  have h := chat_drains roomRun hx hopen (by decide)
  rw [hposted, hqueue] at h
  exact h

end Portfolio.Chat
