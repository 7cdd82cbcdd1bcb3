import Mathlib.Logic.Function.Basic
import Portfolio.Netcode.RedisMatchmaker

/-!
# Matching without overlap

`process_queue` decides on its pairs when it reads the queue and acts on them later. As long as
no other call plans with a player that is not due again and no client takes it out before its
assignment is stored (`Exclusive`), a player that a call is going to store is still due for an
assignment (`Core.fresh`), and every player is assigned once (`assigned_once`).
-/

namespace Portfolio.Netcode.RedisMatchmaker
open Std

/-! ### Players that are due -/

theorem fresh_nil (player : String) : Fresh player [] := by
  intro front e back h
  simp at h

theorem fresh_enqueued (player : String) (log : List Log) : Fresh player (log ++ [.enqueued player]) := by
  intro front e back h he
  rcases concat_eq_append_cons.1 h with ⟨-, rfl, rfl⟩ | ⟨back', rfl, -⟩
  · rcases he with he | ⟨_, _, he⟩
    · cases he
    · cases he
  · simp

theorem Fresh.concat {player : String} {log : List Log} (h : Fresh player log) {e : Log}
    (hd : e ≠ .dequeued player) (hs : ∀ call a, e ≠ .stored call player a) : Fresh player (log ++ [e]) := by
  intro front e' back hcut he'
  rcases concat_eq_append_cons.1 hcut with ⟨-, rfl, -⟩ | ⟨back', rfl, hcut'⟩
  · rcases he' with he' | ⟨call, a, he'⟩
    · exact absurd he' hd
    · exact absurd he' (hs call a)
  · exact List.mem_append_left _ (h front e' back' hcut' he')

/-! ### Commands that are still to be issued -/

theorem mem_update {todo : Nat → List Command} {id i : Nat} {rest : List Command} {c : Command}
    (h : c ∈ Function.update todo id rest i) : (i = id ∧ c ∈ rest) ∨ (i ≠ id ∧ c ∈ todo i) := by
  rcases eq_or_ne i id with rfl | hne
  · rw [Function.update_self] at h
    exact .inl ⟨rfl, h⟩
  · rw [Function.update_of_ne hne] at h
    exact .inr ⟨hne, h⟩

theorem mem_of_mem_update {todo : Nat → List Command} {id i : Nat} {rest : List Command}
    (hrest : ∀ c ∈ rest, c ∈ todo id) {c : Command} (h : c ∈ Function.update todo id rest i) :
    c ∈ todo i := by
  rcases mem_update h with ⟨rfl, hc⟩ | ⟨-, hc⟩
  · exact hrest c hc
  · exact hc

/-- Issuing a command of another player does not touch a player. -/
theorem untouched_of_update {todo : Nat → List Command} {id : Nat} {c : Command} {rest : List Command}
    {player : String} (htodo : todo id = c :: rest) (hne : c.player ≠ player)
    (h : ∀ i, ∀ d ∈ Function.update todo id rest i, d.player ≠ player) (i : Nat) (d : Command)
    (hd : d ∈ todo i) : d.player ≠ player := by
  rcases eq_or_ne i id with rfl | hi
  · rw [htodo] at hd
    rcases List.mem_cons.1 hd with rfl | hd
    · exact hne
    · exact h i d (by simpa using hd)
  · exact h i d (by rwa [Function.update_of_ne hi])

theorem player_of_commands {as : List RoomAssignment} {c : Command} (h : c ∈ as.flatMap commands) :
    ∃ a ∈ as, c.player ∈ a.players := by
  obtain ⟨a, ha, hc⟩ := List.mem_flatMap.1 h
  refine ⟨a, ha, ?_⟩
  simp only [commands, List.mem_cons, List.not_mem_nil, or_false] at hc
  rcases hc with rfl | rfl | rfl | rfl <;> simp [Command.player, RoomAssignment.players]

/-! ### The invariant -/

/-- The calls under way by what they have still to do, and the log so far. -/
structure Core (log : List Log) (queue : TreeMap String Int32) (todo : Nat → List Command) : Prop where
  apart : ∀ i j player a b, .setex player a ∈ todo i → .setex player b ∈ todo j → i = j
  fresh : ∀ i player a, .setex player a ∈ todo i → Fresh player log
  queued : ∀ player ∈ queue, (∀ i, ∀ c ∈ todo i, c.player ≠ player) → Fresh player log
  stored : ∀ front i player a back, log = front ++ .stored i player a :: back → Fresh player front
  returned : ∀ front i as back, log = front ++ .returned i as :: back →
    (as.flatMap RoomAssignment.players).Nodup ∧ ∀ a ∈ as, ∀ player ∈ a.players, .stored i player a ∈ front

namespace Core
variable {log : List Log} {queue : TreeMap String Int32} {todo : Nat → List Command}

theorem stored_concat (h : Core log queue todo) {e : Log}
    (he : ∀ i player a, e = .stored i player a → Fresh player log) (front : List Log) (i : Nat)
    (player : String) (a : RoomAssignment) (back : List Log)
    (hcut : log ++ [e] = front ++ .stored i player a :: back) : Fresh player front := by
  rcases concat_eq_append_cons.1 hcut with ⟨rfl, heq, -⟩ | ⟨back', -, hcut'⟩
  · exact he i player a heq
  · exact h.stored front i player a back' hcut'

theorem returned_concat (h : Core log queue todo) {e : Log}
    (he : ∀ i as, e = .returned i as → (as.flatMap RoomAssignment.players).Nodup ∧
      ∀ a ∈ as, ∀ player ∈ a.players, .stored i player a ∈ log)
    (front : List Log) (i : Nat) (as : List RoomAssignment) (back : List Log)
    (hcut : log ++ [e] = front ++ .returned i as :: back) :
    (as.flatMap RoomAssignment.players).Nodup ∧
      ∀ a ∈ as, ∀ player ∈ a.players, .stored i player a ∈ front := by
  rcases concat_eq_append_cons.1 hcut with ⟨rfl, heq, -⟩ | ⟨back', -, hcut'⟩
  · exact he i as heq
  · exact h.returned front i as back' hcut'

theorem enqueue (h : Core log queue todo) (player : String) (mmr : Int32) :
    Core (log ++ [.enqueued player]) (queue.insert player mmr) todo := by
  refine ⟨h.apart, fun i q a hq => (h.fresh i q a hq).concat (by simp) (by simp), fun q hq huntouched => ?_,
    h.stored_concat (by simp), h.returned_concat (by simp)⟩
  rw [TreeMap.mem_insert, Std.compare_eq_iff_eq] at hq
  rcases hq with rfl | hq
  · exact fresh_enqueued player log
  · exact (h.queued q hq huntouched).concat (by simp) (by simp)

theorem dequeue (h : Core log queue todo) {player : String}
    (hundecided : ∀ i a, .setex player a ∉ todo i) :
    Core (log ++ [.dequeued player]) (queue.erase player) todo := by
  refine ⟨h.apart, fun i q a hq => ?_, fun q hq huntouched => ?_, h.stored_concat (by simp),
    h.returned_concat (by simp)⟩
  · have hne : player ≠ q := by
      rintro rfl
      exact hundecided i a hq
    exact (h.fresh i q a hq).concat (by simpa using hne) (by simp)
  · rw [TreeMap.mem_erase, Ne, Std.compare_eq_iff_eq] at hq
    exact (h.queued q hq.2 huntouched).concat (by simpa using hq.1) (by simp)

/-- A call that has just read the queue. -/
theorem zrange (h : Core log queue todo) {id : Nat} (hid : todo id = []) {as : List RoomAssignment}
    (hdue : ∀ a ∈ as, ∀ player ∈ a.players, (∀ i b, .setex player b ∉ todo i) ∧ Fresh player log) :
    Core log queue (Function.update todo id (as.flatMap commands)) := by
  have hold : ∀ i c, c ∈ todo i → c ∈ Function.update todo id (as.flatMap commands) i := by
    intro i c hc
    rcases eq_or_ne i id with rfl | hne
    · rw [hid] at hc
      cases hc
    · rwa [Function.update_of_ne hne]
  have hplanned : ∀ player b, .setex player b ∈ as.flatMap commands →
      (∀ i b, .setex player b ∉ todo i) ∧ Fresh player log := by
    intro player b hb
    obtain ⟨a, ha, hp⟩ := player_of_commands hb
    exact hdue a ha player hp
  refine ⟨fun i j player a b ha hb => ?_, fun i player a ha => ?_, fun player hp hun => ?_, h.stored, h.returned⟩
  · rcases mem_update ha with ⟨hi, hnew⟩ | ⟨-, ha'⟩
    · rcases mem_update hb with ⟨hj, -⟩ | ⟨-, hb'⟩
      · rw [hi, hj]
      · exact absurd hb' ((hplanned player a hnew).1 j b)
    · rcases mem_update hb with ⟨-, hnew⟩ | ⟨-, hb'⟩
      · exact absurd ha' ((hplanned player b hnew).1 i a)
      · exact h.apart i j player a b ha' hb'
  · rcases mem_update ha with ⟨-, hnew⟩ | ⟨-, ha'⟩
    · exact (hplanned player a hnew).2
    · exact h.fresh i player a ha'
  · exact h.queued player hp fun i c hc => hun i c (hold i c hc)

/-- The `SETEX` of a player, whose `ZREM` is still to come. -/
theorem setex (h : Core log queue todo) {id : Nat} {player : String} {a : RoomAssignment}
    {rest : List Command} (htodo : todo id = .setex player a :: rest)
    (hafter : ∃ done, .zrem player done ∈ rest) (honce : ∀ a', .setex player a' ∉ rest) :
    Core (log ++ [.stored id player a]) queue (Function.update todo id rest) := by
  have hhead : .setex player a ∈ todo id := by simp [htodo]
  have hrest : ∀ c ∈ rest, c ∈ todo id := fun c hc => by simp [htodo, hc]
  refine ⟨?_, fun i q b hb => ?_, fun q hq hun => ?_, h.stored_concat ?_, h.returned_concat (by simp)⟩
  · exact fun i j q b b' hb hb' => h.apart i j q b b' (mem_of_mem_update hrest hb) (mem_of_mem_update hrest hb')
  · -- no other call is going to store the player, and this one does not store it twice
    have hne : player ≠ q := by
      rintro rfl
      rcases mem_update hb with ⟨-, hb⟩ | ⟨hi, hb⟩
      · exact honce b hb
      · exact hi (h.apart i id player b a hb hhead)
    exact (h.fresh i q b (mem_of_mem_update hrest hb)).concat (by simp) (by simp [hne])
  · have hne : player ≠ q := by
      rintro rfl
      obtain ⟨done, hdone⟩ := hafter
      exact hun id _ (by simpa using hdone) rfl
    exact (h.queued q hq (untouched_of_update htodo hne hun)).concat (by simp) (by simp [hne])
  · intro i q b he
    cases he
    exact h.fresh id player a hhead

theorem zrem (h : Core log queue todo) {id : Nat} {player : String} {done : Option RoomAssignment}
    {rest : List Command} (htodo : todo id = .zrem player done :: rest) :
    Core log (queue.erase player) (Function.update todo id rest) := by
  have hrest : ∀ c ∈ rest, c ∈ todo id := fun c hc => by simp [htodo, hc]
  refine ⟨?_, fun i q b hb => h.fresh i q b (mem_of_mem_update hrest hb), fun q hq hun => ?_, h.stored,
    h.returned⟩
  · exact fun i j q b b' hb hb' => h.apart i j q b b' (mem_of_mem_update hrest hb) (mem_of_mem_update hrest hb')
  · rw [TreeMap.mem_erase, Ne, Std.compare_eq_iff_eq] at hq
    exact h.queued q hq.2 (untouched_of_update htodo hq.1 hun)

theorem finish (h : Core log queue todo) {id : Nat} {as : List RoomAssignment}
    (hnodup : (as.flatMap RoomAssignment.players).Nodup)
    (hstored : ∀ a ∈ as, ∀ player ∈ a.players, .stored id player a ∈ log) :
    Core (log ++ [.returned id as]) queue todo := by
  refine ⟨h.apart, fun i q a ha => (h.fresh i q a ha).concat (by simp) (by simp),
    fun q hq hun => (h.queued q hq hun).concat (by simp) (by simp), h.stored_concat (by simp),
    h.returned_concat ?_⟩
  intro i bs he
  cases he
  exact ⟨hnodup, hstored⟩

end Core

/-- What the call `id` has still to do. -/
def todoOf (s : Redis) (id : Nat) : List Command :=
  match s.calls[id]? with
  | none => []
  | some call => call.todo

/-- A call has issued a first part of its plan, stored what that part stores and collected what it
completes. -/
structure Progress (log : List Log) (id : Nat) (call : Call) (plan : List RoomAssignment)
    (issued : List Command) : Prop where
  split : plan.flatMap commands = issued ++ call.todo
  nodup : (plan.flatMap RoomAssignment.players).Nodup
  assignments : call.assignments = issued.filterMap finished
  stored : ∀ player a, .setex player a ∈ issued → .stored id player a ∈ log

structure Inv (log : List Log) (s : Redis) : Prop where
  core : Core log s.queue (todoOf s)
  ids : ∀ id ∈ s.calls, id < s.nextCall
  progress : ∀ (id : Nat) (call : Call), s.calls[id]? = some call →
    ∃ plan issued, Progress log id call plan issued

theorem Progress.mono {log log' : List Log} {id : Nat} {call : Call} {plan : List RoomAssignment}
    {issued : List Command} (h : Progress log id call plan issued) (hlog : ∀ e ∈ log, e ∈ log') :
    Progress log' id call plan issued :=
  ⟨h.split, h.nodup, h.assignments, fun player a ha => hlog _ (h.stored player a ha)⟩

/-- A call with nothing left to do has stored and collected its whole plan. -/
theorem Progress.complete {log : List Log} {id : Nat} {call : Call} {plan : List RoomAssignment}
    {issued : List Command} (h : Progress log id call plan issued) (htodo : call.todo = []) :
    call.assignments = plan ∧ ∀ a ∈ plan, ∀ player ∈ a.players, .stored id player a ∈ log := by
  have hsplit := h.split
  rw [htodo, List.append_nil] at hsplit
  refine ⟨?_, fun a ha player hp => h.stored player a ?_⟩
  · rw [h.assignments, ← hsplit, filterMap_finished]
  · rw [← hsplit]
    refine List.mem_flatMap.2 ⟨a, ha, ?_⟩
    simp only [RoomAssignment.players, List.mem_cons, List.not_mem_nil, or_false] at hp
    rcases hp with rfl | rfl <;> simp [commands]

theorem todoOf_putCall (s : Redis) (id : Nat) (call : Call) :
    todoOf (s.putCall id call).1 = Function.update (todoOf s) id call.todo := by
  funext i
  unfold Redis.putCall
  split
  · next htodo =>
    simp only [todoOf, TreeMap.getElem?_erase, Std.compare_eq_iff_eq]
    rcases eq_or_ne i id with rfl | hne
    · simp [htodo]
    · rw [if_neg hne.symm, Function.update_of_ne hne]
      rfl
  · simp only [todoOf, TreeMap.getElem?_insert, Std.compare_eq_iff_eq]
    rcases eq_or_ne i id with rfl | hne
    · simp
    · rw [if_neg hne.symm, Function.update_of_ne hne]
      rfl

/-- A call goes on or returns. -/
theorem Inv.putCall {log : List Log} {s : Redis} {id : Nat} {call : Call}
    (hcore : Core log s.queue (Function.update (todoOf s) id call.todo))
    (hids : ∀ i ∈ s.calls, i < s.nextCall) (hid : id < s.nextCall)
    (hprogress : ∀ (i : Nat) (c : Call), s.calls[i]? = some c → i ≠ id →
      ∃ plan issued, Progress log i c plan issued)
    {plan : List RoomAssignment} {issued : List Command} (hcall : Progress log id call plan issued) :
    Inv (log ++ (s.putCall id call).2) (s.putCall id call).1 := by
  have htodos := todoOf_putCall s id call
  unfold Redis.putCall at htodos ⊢
  split
  · next htodo =>
    rw [if_pos htodo] at htodos
    obtain ⟨has, hstored⟩ := hcall.complete htodo
    refine ⟨?_, fun i hi => ?_, fun i c hc => ?_⟩
    · rw [htodos]
      refine hcore.finish ?_ ?_
      · rw [has]
        exact hcall.nodup
      · rw [has]
        exact hstored
    · exact hids i (TreeMap.mem_of_mem_erase hi)
    · simp only [TreeMap.getElem?_erase, Std.compare_eq_iff_eq] at hc
      split at hc
      · cases hc
      · next hne =>
        obtain ⟨plan', issued', h⟩ := hprogress i c hc (Ne.symm hne)
        exact ⟨plan', issued', h.mono fun e he => List.mem_append_left _ he⟩
  · next htodo =>
    rw [if_neg htodo] at htodos
    rw [List.append_nil]
    refine ⟨?_, fun i hi => ?_, fun i c hc => ?_⟩
    · rw [htodos]
      exact hcore
    · rw [TreeMap.mem_insert, Std.compare_eq_iff_eq] at hi
      rcases hi with rfl | hi
      · exact hid
      · exact hids i hi
    · simp only [TreeMap.getElem?_insert, Std.compare_eq_iff_eq] at hc
      split at hc
      · next heq =>
        subst heq
        cases hc
        exact ⟨plan, issued, hcall⟩
      · next hne => exact hprogress i c hc (Ne.symm hne)

/-! ### Steps and runs -/

theorem todoOf_eq {s : Redis} {id : Nat} {call : Call} (h : s.calls[id]? = some call) :
    todoOf s id = call.todo := by
  rw [todoOf, h]

theorem mem_calls {s : Redis} {i : Nat} {c : Command} (h : c ∈ todoOf s i) :
    ∃ e ∈ s.calls.toList, c ∈ e.2.todo := by
  unfold todoOf at h
  split at h
  · cases h
  · next call hcall => exact ⟨(i, call), TreeMap.mem_toList_iff_getElem?_eq_some.2 hcall, h⟩

theorem Inv.progress_append {log : List Log} {s : Redis} (h : Inv log s) (log' : List Log) (id : Nat)
    (call : Call) (hcall : s.calls[id]? = some call) :
    ∃ plan issued, Progress (log ++ log') id call plan issued := by
  obtain ⟨plan, issued, hprogress⟩ := h.progress id call hcall
  exact ⟨plan, issued, hprogress.mono fun e he => List.mem_append_left _ he⟩

theorem Inv.next {log : List Log} {s : Redis} (h : Inv log s) {id : Nat} {call : Call}
    (hcall : s.calls[id]? = some call) : Inv (log ++ (s.issue id call).2) (s.issue id call).1 := by
  obtain ⟨plan, issued, hprogress⟩ := h.progress id call hcall
  have hid : id < s.nextCall := h.ids id (TreeMap.mem_iff_isSome_getElem?.2 (by rw [hcall]; rfl))
  have hsplit := hprogress.split
  unfold Redis.issue
  match htodo : call.todo with
  | [] =>
    rw [List.append_nil]
    exact h
  | .setex player a :: rest =>
    rw [htodo] at hsplit
    obtain ⟨hafter, honce⟩ := commands_after_setex hsplit hprogress.nodup
    have hcall' : Progress (log ++ [.stored id player a]) id { call with todo := rest } plan
        (issued ++ [.setex player a]) := by
      refine ⟨by simpa using hsplit, hprogress.nodup, ?_, fun q b hb => ?_⟩
      · rw [List.filterMap_append, ← hprogress.assignments]
        exact (List.append_nil _).symm
      · rcases List.mem_append.1 hb with hb | hb
        · exact List.mem_append_left _ (hprogress.stored q b hb)
        · cases List.mem_singleton.1 hb
          simp
    dsimp only
    rw [List.append_cons]
    exact Inv.putCall (h.core.setex ((todoOf_eq hcall).trans htodo) hafter honce) h.ids hid
      (fun i c hc _ => h.progress_append _ i c hc) hcall'
  | .zrem player done :: rest =>
    rw [htodo] at hsplit
    have hcall' : Progress log id { todo := rest, assignments := call.assignments ++ done.toList } plan
        (issued ++ [.zrem player done]) := by
      refine ⟨by simpa using hsplit, hprogress.nodup, ?_, fun q b hb => ?_⟩
      · rw [List.filterMap_append, ← hprogress.assignments]
        cases done <;> rfl
      · rcases List.mem_append.1 hb with hb | hb
        · exact hprogress.stored q b hb
        · cases List.mem_singleton.1 hb
    exact Inv.putCall (h.core.zrem ((todoOf_eq hcall).trans htodo)) h.ids hid
      (fun i c hc _ => h.progress i c hc) hcall'

theorem Inv.step {log : List Log} {s : Redis} (h : Inv log s) {event : Event} (hex : Exclusive (s, log) event) :
    Inv (log ++ (step s event).2) (step s event).1 := by
  cases event with
  | enqueue player mmr =>
    exact ⟨h.core.enqueue player mmr, h.ids, h.progress_append _⟩
  | dequeue player =>
    simp only [RedisMatchmaker.step]
    split
    · next hmem =>
      refine ⟨h.core.dequeue fun i a ha => ?_, h.ids, h.progress_append _⟩
      obtain ⟨e, he, hc⟩ := mem_calls ha
      exact hex hmem e he _ hc rfl
    · rw [List.append_nil]
      exact h
  | zrange rng =>
    obtain ⟨hnodup, hqueue⟩ := planned_players rng s.queue
    have hnew : todoOf s s.nextCall = [] := by
      unfold todoOf
      split
      · rfl
      · next call hcall =>
        have hmem : s.nextCall ∈ s.calls := TreeMap.mem_iff_isSome_getElem?.2 (by rw [hcall]; rfl)
        exact absurd (h.ids _ hmem) (Nat.lt_irrefl _)
    have hcall : Progress log s.nextCall { todo := (planned rng s.queue).flatMap commands }
        (planned rng s.queue) [] := ⟨rfl, hnodup, rfl, by simp⟩
    refine Inv.putCall (s := { s with nextCall := s.nextCall + 1 }) ?_
      (fun i hi => Nat.lt_succ_of_lt (h.ids i hi)) (Nat.lt_succ_self _)
      (fun i c hc _ => h.progress i c hc) hcall
    refine h.core.zrange hnew fun a ha player hp => ?_
    rcases hex a ha player hp with huntouched | ⟨hundecided, hfresh⟩
    · have hun : ∀ i, ∀ c ∈ todoOf s i, c.player ≠ player := by
        intro i c hc
        obtain ⟨e, he, hc⟩ := mem_calls hc
        exact huntouched e he c hc
      exact ⟨fun i b hb => hun i _ hb rfl, h.core.queued player (hqueue a ha player hp) hun⟩
    · refine ⟨fun i b hb => ?_, hfresh⟩
      obtain ⟨e, he, hb⟩ := mem_calls hb
      exact hundecided e he _ hb rfl
  | next id =>
    simp only [RedisMatchmaker.step]
    cases hcall : s.calls[id]? with
    | none =>
      rw [List.append_nil]
      exact h
    | some call => exact h.next hcall

theorem inv_init : Inv [] {} := by
  have htodo : ∀ i, todoOf {} i = [] := by
    intro i
    simp [todoOf]
  refine ⟨⟨?_, ?_, ?_, ?_, ?_⟩, ?_, ?_⟩
  · intro i j player a b ha
    simp [htodo] at ha
  · intro i player a ha
    simp [htodo] at ha
  · intro player _ _
    exact fresh_nil player
  · intro front i player a back hcut
    simp at hcut
  · intro front i as back hcut
    simp at hcut
  · intro i hi
    simp at hi
  · intro i c hc
    simp at hc

theorem inv_run (events : List Event) (hex : matchMachine.logged.Along Exclusive events) :
    Inv (matchMachine.run events).2 (matchMachine.run events).1 := by
  have hinv := matchMachine.logged.run_inv_along (P := fun _ _ r => Inv r.2 r.1) inv_init
    (fun _ _ r event h hex => h.step hex) events hex
  rwa [Machine.logged_run] at hinv

/-- In every run in which the calls and dequeues do not overlap on a player that is not due again,
every player is assigned at most once for each time it is enqueued, and never after it has left the
queue. -/
theorem assigned_once (events : List Event) (hex : matchMachine.logged.Along Exclusive events) :
    AssignedOnce (matchMachine.run events).2 := by
  have hinv := inv_run events hex
  refine ⟨fun player front call a mid call' a' back hcut => ?_, fun player front mid call a back hcut => ?_,
    hinv.core.returned⟩
  · have hfresh := hinv.core.stored _ call' player a' back hcut
    exact hfresh front _ mid rfl (.inr ⟨call, a, rfl⟩)
  · have hfresh := hinv.core.stored _ call player a back hcut
    exact hfresh front _ mid rfl (.inl rfl)

/-- Two matches of `a`, with an enqueue and one call at a time; then `b` is enqueued again before the
call that has stored it takes it out, and the next call pairs it. -/
def requeued : List Event :=
  [.enqueue "a" 1000, .enqueue "b" 1100, .zrange fun n => n, .next 0, .next 0, .next 0, .next 0, .enqueue "a" 1020,
    .enqueue "d" 900, .dequeue "d", .enqueue "b" 1060, .zrange fun n => n + 7, .next 1, .next 1, .next 1,
    .enqueue "b" 1080, .enqueue "c" 1150, .zrange fun n => n + 9, .next 1, .next 2, .next 2, .next 2, .next 2]

theorem assigned_once_requeued :
    matchMachine.logged.Along Exclusive requeued ∧ AssignedOnce (matchMachine.run requeued).2 := by
  have hex : matchMachine.logged.Along Exclusive requeued := by
    rw [Machine.along_iff_forall_lt]
    decide +kernel
  exact ⟨hex, assigned_once requeued hex⟩

/-- The room that the call `draw` gives to `a` and `b`. -/
def roomOf (draw : Nat) : RoomAssignment := ⟨generateRoomId draw, "127.0.0.1:7777", "a", "b"⟩

/-- Two calls that read the queue before either acts. -/
def overlapping : List Event :=
  [.enqueue "a" 1000, .enqueue "b" 1100, .zrange fun _ => 0, .zrange fun _ => 7, .next 0, .next 0, .next 0,
    .next 0, .next 1, .next 1, .next 1, .next 1]

/-- A client that cancels while a call is on its way. -/
def cancelled : List Event :=
  [.enqueue "a" 1000, .enqueue "b" 1100, .zrange fun _ => 0, .dequeue "a", .next 0, .next 0, .next 0, .next 0]

theorem assigned_twice :
    ¬ AssignedOnce (matchMachine.run overlapping).2 ∧ ¬ AssignedOnce (matchMachine.run cancelled).2 := by
  have hoverlapping : (matchMachine.run overlapping).2 =
      [Log.enqueued "a", Log.enqueued "b"] ++ Log.stored 0 "a" (roomOf 0) ::
        [Log.stored 0 "b" (roomOf 0), Log.returned 0 [roomOf 0]] ++ Log.stored 1 "a" (roomOf 7) ::
        [Log.stored 1 "b" (roomOf 7), Log.returned 1 [roomOf 7]] := by decide +kernel
  have hcancelled : (matchMachine.run cancelled).2 =
      [Log.enqueued "a", Log.enqueued "b"] ++ Log.dequeued "a" :: [] ++ Log.stored 0 "a" (roomOf 0) ::
        [Log.stored 0 "b" (roomOf 0), Log.returned 0 [roomOf 0]] := by decide +kernel
  refine ⟨fun h => ?_, fun h => ?_⟩
  · have := h.once _ _ _ _ _ _ _ _ hoverlapping
    simp at this
  · have := h.gone _ _ _ _ _ _ hcancelled
    cases this

end Portfolio.Netcode.RedisMatchmaker
