import Portfolio.Arena.Matchmaker
import Portfolio.Arena.QueueInv
import Portfolio.Lib.SerialId

/-!
# Safety and conservation of the matchmaker

The pairing loop works on a copied list while the queue shrinks; `pairLoop_safe` follows both. The
counters of a matchmaker are followed apart from the players, in `Booked`.
-/

namespace Portfolio.Arena

section
variable {α : Type} [Scalar α] (conv : SecondsConv α)

/-! ### One pair -/

/-- Both players accept each other at time `now`. -/
structure Compatible (now : Int) (a b : MatchRequest) : Prop where
  distinct : a.playerId ≠ b.playerId
  regions : a.regionsCompatible b = true
  left : |a.elo - b.elo| ≤ a.currentTolerance conv now
  right : |a.elo - b.elo| ≤ b.currentTolerance conv now

namespace Matchmaker

theorem findPartner_some {now : Int} {used : List String} {request partner : MatchRequest}
    {rest : List QueuedPlayer} (h : findPartner conv now used request rest = some partner)
    (hne : ∀ x ∈ rest, request.playerId ≠ x.request.playerId) :
    (∃ x ∈ rest, x.request = partner) ∧ partner.playerId ∉ used ∧ Compatible conv now request partner := by
  induction rest with
  | nil => cases h
  | cons other rest ih =>
    have hrest := fun h => ih h fun x hx => hne x (List.mem_cons_of_mem _ hx)
    have hlift : ((∃ x ∈ rest, x.request = partner) ∧ partner.playerId ∉ used ∧
        Compatible conv now request partner) → (∃ x ∈ other :: rest, x.request = partner) ∧
          partner.playerId ∉ used ∧ Compatible conv now request partner := by
      rintro ⟨⟨x, hx, hxp⟩, h⟩
      exact ⟨⟨x, List.mem_cons_of_mem _ hx, hxp⟩, h⟩
    unfold findPartner at h
    split at h
    · exact hlift (hrest h)
    · next hused =>
      split at h
      · exact hlift (hrest h)
      · next hregion =>
        dsimp only at h
        split at h
        · next htol =>
          cases h
          have hregion' : request.regionsCompatible other.request = true := by simpa using hregion
          exact ⟨⟨other, List.mem_cons_self, rfl⟩, hused,
            hne other List.mem_cons_self, hregion', htol.1, htol.2⟩
        · split at h
          · cases h
          · exact hlift (hrest h)

theorem observeWaitLocked_queue (m : Matchmaker α) (seconds : α) :
    (m.observeWaitLocked seconds).queue = m.queue ∧
      (m.observeWaitLocked seconds).matchCounter = m.matchCounter ∧
      (m.observeWaitLocked seconds).matchesCreated = m.matchesCreated := by
  unfold observeWaitLocked
  dsimp only
  split <;> exact ⟨rfl, rfl, rfl⟩

theorem createMatch_queue (m : Matchmaker α) (now : Int) (request partner : MatchRequest) :
    (m.createMatch conv now request partner).1.queue =
      ((m.queue.remove request.playerId).1.remove partner.playerId).1 := by
  unfold createMatch
  dsimp only
  rw [(observeWaitLocked_queue _ _).1, (observeWaitLocked_queue _ _).1]

/-! ### The pairing loop -/

/-- The players of the matches, in their order. -/
def matched (matches_ : List Match) : List String := matches_.flatMap (·.players)

theorem matched_cons (mt : Match) (matches_ : List Match) :
    matched (mt :: matches_) = mt.players ++ matched matches_ :=
  List.flatMap_cons

/-- A part of a matching round: `q` is the queue at its start, of which the players `used` are gone,
and `q'` the queue after the part, which made `matches_`. -/
structure Safe (now : Int) (q : InMemoryMatchQueue) (used : List String) (matches_ : List Match)
    (q' : InMemoryMatchQueue) : Prop where
  agree : q'.Agree
  paired : ∀ mt ∈ matches_, ∃ a ∈ q.contents, ∃ b ∈ q.contents,
    mt.players = [a.request.playerId, b.request.playerId] ∧ Compatible conv now a.request b.request
  once : (matched matches_).Nodup
  apart : ∀ p ∈ matched matches_, p ∉ used
  rest : ∀ x, x ∈ q'.contents ↔
    x ∈ q.contents ∧ x.request.playerId ∉ used ∧ x.request.playerId ∉ matched matches_

theorem Safe.cons {now : Int} {q q' : InMemoryMatchQueue} {used : List String} {matches_ : List Match}
    {a b : QueuedPlayer} {mt : Match}
    (h : Safe conv now q (a.request.playerId :: b.request.playerId :: used) matches_ q')
    (ha : a ∈ q.contents) (hb : b ∈ q.contents) (hau : a.request.playerId ∉ used)
    (hbu : b.request.playerId ∉ used) (hab : Compatible conv now a.request b.request)
    (hmt : mt.players = [a.request.playerId, b.request.playerId]) :
    Safe conv now q used (mt :: matches_) q' := by
  have hnot : a.request.playerId ∉ matched matches_ ∧ b.request.playerId ∉ matched matches_ :=
    ⟨fun hm => h.apart _ hm List.mem_cons_self,
      fun hm => h.apart _ hm (List.mem_cons_of_mem _ List.mem_cons_self)⟩
  refine ⟨h.agree, ?_, ?_, ?_, ?_⟩
  · intro mt' hmt'
    rcases List.mem_cons.1 hmt' with rfl | hmt'
    · exact ⟨a, ha, b, hb, hmt, hab⟩
    · exact h.paired mt' hmt'
  · rw [matched_cons, hmt, List.cons_append, List.cons_append, List.nil_append, List.nodup_cons,
      List.nodup_cons, List.mem_cons, not_or]
    exact ⟨⟨hab.distinct, hnot.1⟩, hnot.2, h.once⟩
  · intro p hp
    rw [matched_cons, hmt, List.cons_append, List.cons_append, List.nil_append, List.mem_cons,
      List.mem_cons] at hp
    rcases hp with rfl | rfl | hp
    · exact hau
    · exact hbu
    · intro hpu
      exact h.apart p hp (List.mem_cons_of_mem _ (List.mem_cons_of_mem _ hpu))
  · intro x
    rw [h.rest, matched_cons, hmt]
    simp only [List.mem_cons, List.mem_append, not_or, List.not_mem_nil, not_false_eq_true, and_true]
    constructor
    · rintro ⟨hx, ⟨hxa, hxb, hxu⟩, hxm⟩
      exact ⟨hx, hxu, ⟨hxa, hxb⟩, hxm⟩
    · rintro ⟨hx, hxu, ⟨hxa, hxb⟩, hxm⟩
      exact ⟨hx, ⟨hxa, hxb, hxu⟩, hxm⟩

/-- The loop from some position on. -/
theorem pairLoop_safe (now : Int) {q : InMemoryMatchQueue} {m : Matchmaker α} {used : List String}
    {ordered : List QueuedPlayer} (hagree : m.queue.Agree)
    (hmem : ∀ x, x ∈ m.queue.contents ↔ x ∈ q.contents ∧ x.request.playerId ∉ used)
    (hsub : ∀ x ∈ ordered, x ∈ q.contents) (hnodup : (ordered.map (·.request.playerId)).Nodup) :
    Safe conv now q used (pairLoop conv now m used ordered).2
      (pairLoop conv now m used ordered).1.queue := by
  induction ordered generalizing m used with
  | nil =>
    refine ⟨hagree, fun mt hmt => (nomatch hmt), List.Pairwise.nil, fun p hp => (nomatch hp), fun x => ?_⟩
    rw [show (pairLoop conv now m used []).1.queue = m.queue from rfl, hmem]
    simp [pairLoop, matched]
  | cons candidate rest ih =>
    rw [List.map_cons, List.nodup_cons] at hnodup
    obtain ⟨hfirst, hnodup⟩ := hnodup
    have hsub' := fun x hx => hsub x (List.mem_cons_of_mem _ hx)
    unfold pairLoop
    split
    · exact ih hagree hmem hsub' hnodup
    · next hused =>
      cases hfind : findPartner conv now used candidate.request rest with
      | none => exact ih hagree hmem hsub' hnodup
      | some partner =>
        obtain ⟨⟨x, hx, rfl⟩, hpused, hcompat⟩ := findPartner_some conv hfind fun x hx heq =>
          hfirst (heq ▸ List.mem_map_of_mem hx)
        have hw := (hagree.remove candidate.request.playerId).1
        have hw' := (hw.agree.remove x.request.playerId).1
        refine Safe.cons conv (ih ?_ ?_ hsub' hnodup) (hsub _ List.mem_cons_self) (hsub' x hx) hused
          hpused hcompat rfl
        · rw [createMatch_queue]
          exact hw'.agree
        · intro y
          rw [createMatch_queue, hw'.mem_contents, hw.mem_contents, hmem]
          simp only [List.mem_cons, not_or]
          constructor
          · rintro ⟨⟨⟨hy, hyu⟩, hya⟩, hyb⟩
            exact ⟨hy, hya, hyb, hyu⟩
          · rintro ⟨hy, hya, hyb, hyu⟩
            exact ⟨⟨⟨hy, hyu⟩, hya⟩, hyb⟩

/-! ### Counters -/

/-- The wait histogram and the match counters fit together. -/
structure Booked (m : Matchmaker α) : Prop where
  histogram : m.waitBucketCounts.sum + m.waitOverflowCount = m.waitCount
  waits : m.waitCount = 2 * m.matchesCreated

theorem raiseBucket_sum {seconds : α} {bounds : List α} {counts counts' : List Nat}
    (h : raiseBucket seconds bounds counts = some counts') : counts'.sum = counts.sum + 1 := by
  induction bounds generalizing counts counts' with
  | nil => cases h
  | cons bound bounds ih =>
    cases counts with
    | nil => cases h
    | cons count counts =>
      unfold raiseBucket at h
      split at h
      · cases h
        rw [List.sum_cons, List.sum_cons]
        omega
      · obtain ⟨rest, hrest, rfl⟩ := Option.map_eq_some_iff.1 h
        rw [List.sum_cons, List.sum_cons, ih hrest]
        omega

/-- One observed wait is counted once, in a bucket or as overflow. -/
theorem observeWaitLocked_counts (m : Matchmaker α) (seconds : α) :
    (m.observeWaitLocked seconds).waitCount = m.waitCount + 1 ∧
      (m.observeWaitLocked seconds).waitBucketCounts.sum + (m.observeWaitLocked seconds).waitOverflowCount =
        m.waitBucketCounts.sum + m.waitOverflowCount + 1 := by
  unfold observeWaitLocked
  dsimp only
  split
  · next counts hcounts =>
    refine ⟨rfl, ?_⟩
    show counts.sum + m.waitOverflowCount = _
    rw [raiseBucket_sum hcounts]
    omega
  · exact ⟨rfl, rfl⟩

theorem createMatch_counts (m : Matchmaker α) (now : Int) (request partner : MatchRequest) :
    (Booked m → Booked (m.createMatch conv now request partner).1) ∧
      (m.createMatch conv now request partner).1.matchCounter = m.matchCounter + 1 ∧
      (m.createMatch conv now request partner).2.matchId = "match-" ++ toString (m.matchCounter + 1) := by
  unfold createMatch
  dsimp only
  refine ⟨fun h => ⟨?_, ?_⟩, ?_, rfl⟩
  · rw [(observeWaitLocked_counts _ _).2, (observeWaitLocked_counts _ _).2,
      (observeWaitLocked_counts _ _).1, (observeWaitLocked_counts _ _).1, h.histogram]
  · rw [(observeWaitLocked_counts _ _).1, (observeWaitLocked_counts _ _).1,
      (observeWaitLocked_queue _ _).2.2, (observeWaitLocked_queue _ _).2.2]
    show m.waitCount + 1 + 1 = 2 * (m.matchesCreated + 1)
    rw [h.waits]
    omega
  · rw [(observeWaitLocked_queue _ _).2.1, (observeWaitLocked_queue _ _).2.1]

/-- The ids of a round continue the counter. -/
theorem pairLoop_counts (now : Int) (m : Matchmaker α) (used : List String) (ordered : List QueuedPlayer) :
    (Booked m → Booked (pairLoop conv now m used ordered).1) ∧
      (pairLoop conv now m used ordered).1.matchCounter =
        m.matchCounter + (pairLoop conv now m used ordered).2.length ∧
      (pairLoop conv now m used ordered).2.map (·.matchId) =
        (List.range' (m.matchCounter + 1) (pairLoop conv now m used ordered).2.length).map
          ("match-" ++ toString ·) := by
  induction ordered generalizing m used with
  | nil => exact ⟨id, rfl, rfl⟩
  | cons candidate rest ih =>
    unfold pairLoop
    split
    · exact ih m used
    · cases hfind : findPartner conv now used candidate.request rest with
      | none => exact ih m used
      | some partner =>
        obtain ⟨hb, hc, hid⟩ := createMatch_counts conv m now candidate.request partner
        obtain ⟨hb', hc', hid'⟩ := ih (m.createMatch conv now candidate.request partner).1
          (candidate.request.playerId :: partner.playerId :: used)
        dsimp only
        refine ⟨fun h => hb' (hb h), ?_, ?_⟩
        · rw [hc', hc, List.length_cons]
          omega
        · rw [List.map_cons, hid', hid, hc, List.length_cons, List.range'_succ, List.map_cons]

/-! ### Rounds and runs -/

/-- A matching round at time `now` on the queue `q`, which made `matches_` and left `q'`. -/
structure RoundOk (now : Int) (q : InMemoryMatchQueue) (matches_ : List Match) (q' : InMemoryMatchQueue) :
    Prop where
  paired : ∀ mt ∈ matches_, ∃ a ∈ q.contents, ∃ b ∈ q.contents,
    mt.players = [a.request.playerId, b.request.playerId] ∧ Compatible conv now a.request b.request
  once : (matched matches_).Nodup
  rest : ∀ x, x ∈ q'.contents ↔ x ∈ q.contents ∧ x.request.playerId ∉ matched matches_
  restOnce : (q'.contents.map (·.request.playerId)).Nodup

section
variable {sort : List QueuedPlayer → List QueuedPlayer}

theorem runMatching_ok (hsort : IsSort sort) {m : Matchmaker α} (h : m.queue.Agree) (now : Int) :
    (m.runMatching conv sort now).1.queue.Agree ∧
      RoundOk conv now m.queue (m.runMatching conv sort now).2 (m.runMatching conv sort now).1.queue := by
  obtain ⟨hperm, -⟩ := hsort m.queue.contents
  have hsafe : Safe conv now m.queue [] (m.runMatching conv sort now).2
      (m.runMatching conv sort now).1.queue := by
    refine pairLoop_safe conv now h (fun x => ?_) (fun x hx => hperm.mem_iff.1 hx) ?_
    · simp only [List.not_mem_nil, not_false_eq_true, and_true]
    · exact (hperm.map _).nodup_iff.2 h.nodup_contents
  refine ⟨hsafe.agree, hsafe.paired, hsafe.once, fun x => ?_, hsafe.agree.nodup_contents⟩
  rw [hsafe.rest]
  simp only [List.not_mem_nil, not_false_eq_true, true_and]

/-- The ids that were given out are the numbers up to the counter. -/
theorem booked_run (sort : List QueuedPlayer → List QueuedPlayer) (ops : List MatchmakerOp) :
    Booked ((matchmakerMachine conv sort).run ops).1 ∧
      ((matchmakerMachine conv sort).run ops).2.map (·.matchId) =
        (List.range' 1 ((matchmakerMachine conv sort).run ops).1.matchCounter).map
          ("match-" ++ toString ·) := by
  refine (matchmakerMachine conv sort).run_inv (P := fun _ matches_ m => Booked m ∧
    matches_.map (·.matchId) = (List.range' 1 m.matchCounter).map ("match-" ++ toString ·)) ?_ ?_ ops
  · exact ⟨⟨rfl, rfl⟩, rfl⟩
  · rintro _ matches_ m op ⟨hb, hid⟩
    cases op with
    | enqueue request =>
      refine ⟨⟨hb.histogram, hb.waits⟩, ?_⟩
      show (matches_ ++ []).map _ = _
      rw [List.append_nil]
      exact hid
    | cancel playerId =>
      refine ⟨⟨hb.histogram, hb.waits⟩, ?_⟩
      show (matches_ ++ []).map _ = _
      rw [List.append_nil]
      exact hid
    | runMatching now =>
      obtain ⟨hb', hc', hid'⟩ := pairLoop_counts conv now m [] (m.queue.fetchOrdered sort)
      refine ⟨⟨(hb' hb).histogram, (hb' hb).waits⟩, ?_⟩
      show (matches_ ++ (pairLoop conv now m [] _).2).map _ =
        (List.range' 1 (pairLoop conv now m [] _).1.matchCounter).map _
      rw [List.map_append, hid, hid', hc', ← List.map_append, Nat.add_comm _ 1, List.range'_append_1]

/-- The queued players are numbered by the order counter. -/
structure Numbered (m : Matchmaker α) : Prop where
  agree : m.queue.Agree
  bound : ∀ x ∈ m.queue.contents, x.order ≤ m.orderCounter
  orders : ∀ x ∈ m.queue.contents, ∀ y ∈ m.queue.contents, x.order = y.order → x = y

omit [Scalar α] in
theorem Numbered.mono {m m' : Matchmaker α} (h : Numbered m) (hagree : m'.queue.Agree)
    (hcounter : m'.orderCounter = m.orderCounter) (hsub : ∀ x ∈ m'.queue.contents, x ∈ m.queue.contents) :
    Numbered m' := by
  refine ⟨hagree, fun x hx => ?_, fun x hx y hy => h.orders x (hsub x hx) y (hsub y hy)⟩
  rw [hcounter]
  exact h.bound x (hsub x hx)

omit [Scalar α] in
theorem Numbered.enqueue {m : Matchmaker α} (h : Numbered m) (request : MatchRequest) :
    Numbered (m.enqueue request) := by
  obtain ⟨hagree, hmem⟩ := h.agree.upsert request (m.orderCounter + 1)
  have hold : ∀ x, x ∈ m.queue.contents ∧ x.request.playerId ≠ request.playerId →
      x.order < m.orderCounter + 1 := fun x hx => Nat.lt_succ_of_le (h.bound x hx.1)
  refine ⟨hagree, fun x hx => ?_, fun x hx y hy hxy => ?_⟩
  · rcases (hmem x).1 hx with rfl | hx
    · exact Nat.le_refl _
    · exact Nat.le_of_lt (hold x hx)
  · rcases (hmem x).1 hx with rfl | hx <;> rcases (hmem y).1 hy with rfl | hy
    · rfl
    · exact absurd hxy (Nat.ne_of_gt (hold y hy))
    · exact absurd hxy (Nat.ne_of_lt (hold x hx))
    · exact h.orders x hx.1 y hy.1 hxy

theorem pairLoop_orderCounter (now : Int) (m : Matchmaker α) (used : List String)
    (ordered : List QueuedPlayer) : (pairLoop conv now m used ordered).1.orderCounter = m.orderCounter := by
  have hobserve : ∀ (m : Matchmaker α) (seconds : α),
      (m.observeWaitLocked seconds).orderCounter = m.orderCounter := by
    intro m seconds
    unfold observeWaitLocked
    dsimp only
    split <;> rfl
  induction ordered generalizing m used with
  | nil => rfl
  | cons candidate rest ih =>
    unfold pairLoop
    split
    · exact ih m used
    · split
      · exact ih m used
      · dsimp only
        rw [ih]
        unfold createMatch
        dsimp only
        rw [hobserve, hobserve]

theorem Numbered.step (hsort : IsSort sort) {m : Matchmaker α} (h : Numbered m) (op : MatchmakerOp) :
    Numbered (op.exec conv sort m).1 := by
  cases op with
  | enqueue request => exact h.enqueue request
  | cancel playerId =>
    have hw := (h.agree.remove playerId).1
    exact h.mono hw.agree rfl fun x hx => (hw.mem_contents.1 hx).1
  | runMatching now =>
    obtain ⟨hagree, hround⟩ := runMatching_ok conv hsort h.agree now
    exact h.mono hagree (pairLoop_orderCounter conv now m [] _) fun x hx => ((hround.rest x).1 hx).1

theorem numbered_run (hsort : IsSort sort) (ops : List MatchmakerOp) :
    Numbered ((matchmakerMachine conv sort).run ops).1 := by
  refine (matchmakerMachine conv sort).run_inv (P := fun _ _ m => Numbered m) ?_ ?_ ops
  · exact ⟨InMemoryMatchQueue.agree_new, fun x hx => (nomatch hx), fun x hx => (nomatch hx)⟩
  · exact fun _ _ m op h => h.step conv hsort op

/-- A matchmaker numbers its requests, so it does not matter how `std::sort` treats equal entries. -/
theorem matchmaker_run_congr {sort' : List QueuedPlayer → List QueuedPlayer} (hsort : IsSort sort)
    (hsort' : IsSort sort') (ops : List MatchmakerOp) :
    (matchmakerMachine conv sort).run ops = (matchmakerMachine conv sort').run ops := by
  induction ops using List.reverseRecOn with
  | nil => rfl
  | append_singleton ops op ih =>
    have h := numbered_run conv hsort ops
    have hfetch : ((matchmakerMachine conv sort).run ops).1.queue.fetchOrdered sort =
        ((matchmakerMachine conv sort).run ops).1.queue.fetchOrdered sort' := by
      rw [h.agree.fetchOrdered_eq hsort h.orders, h.agree.fetchOrdered_eq hsort' h.orders]
    have hstep : op.exec conv sort ((matchmakerMachine conv sort).run ops).1 =
        op.exec conv sort' ((matchmakerMachine conv sort).run ops).1 := by
      cases op with
      | enqueue request => rfl
      | cancel playerId => rfl
      | runMatching now =>
        show runMatching conv sort _ now = runMatching conv sort' _ now
        unfold runMatching
        rw [hfetch]
    rw [Machine.run_concat, Machine.run_concat, ← ih]
    show ((op.exec conv sort _).1, _ ++ (op.exec conv sort _).2) =
      ((op.exec conv sort' _).1, _ ++ (op.exec conv sort' _).2)
    rw [hstep]

/-- Every round is safe, whatever is queued; over whole histories the ids are distinct and every match
accounts for two waits. -/
theorem matching_safe_and_conserving (hsort : IsSort sort) :
    (∀ (m : Matchmaker α) (queueOps : List QueueOp) (now : Int),
      RoundOk conv now (queueMachine.run queueOps).1
        ({ m with queue := (queueMachine.run queueOps).1 }.runMatching conv sort now).2
        ({ m with queue := (queueMachine.run queueOps).1 }.runMatching conv sort now).1.queue) ∧
    ∀ ops : List MatchmakerOp,
      (∀ now, RoundOk conv now ((matchmakerMachine conv sort).run ops).1.queue
        (((matchmakerMachine conv sort).run ops).1.runMatching conv sort now).2
        (((matchmakerMachine conv sort).run ops).1.runMatching conv sort now).1.queue) ∧
      (((matchmakerMachine conv sort).run ops).2.map (·.matchId)).Nodup ∧
      ((matchmakerMachine conv sort).run ops).1.waitBucketCounts.sum +
        ((matchmakerMachine conv sort).run ops).1.waitOverflowCount =
          ((matchmakerMachine conv sort).run ops).1.waitCount ∧
      ((matchmakerMachine conv sort).run ops).1.waitCount =
        2 * ((matchmakerMachine conv sort).run ops).1.matchesCreated := by
  refine ⟨fun m queueOps now => ?_, fun ops => ?_⟩
  · have hagree : { m with queue := (queueMachine.run queueOps).1 }.queue.Agree := (queue_run queueOps).1
    exact (runMatching_ok conv hsort hagree now).2
  · obtain ⟨hb, hid⟩ := booked_run conv sort ops
    have hq := (numbered_run conv hsort ops).agree
    refine ⟨fun now => (runMatching_ok conv hsort hq now).2, ?_, hb.histogram, hb.waits⟩
    rw [hid]
    exact List.Nodup.map (fun a b => append_toString_inj) (List.nodup_range' _)

end

end Matchmaker

end

/-- The clock in exact arithmetic. -/
def exactSeconds : SecondsConv ℚ where
  seconds n := n / 10 ^ 9
  toInt q := q.num.tdiv q.den

/-- Three players, of whom two fit; the third one gives up. -/
def threePlayers : List MatchmakerOp :=
  [.enqueue ⟨"alice", 1200, 0, "any"⟩, .enqueue ⟨"bob", 1400, 0, "global"⟩,
    .enqueue ⟨"carol", 1210, 0, "global"⟩, .runMatching 3000000000, .cancel "bob"]

theorem matching_safe_and_conserving_three :
    (((matchmakerMachine exactSeconds (List.insertionSort fun a b => b.before a = false)).run
        threePlayers).2.map (·.players) = [["alice", "carol"]] ∧
      ((matchmakerMachine exactSeconds (List.insertionSort fun a b => b.before a = false)).run
        threePlayers).1.waitBucketCounts = [0, 2, 0, 0, 0, 0]) ∧
    (((matchmakerMachine exactSeconds (List.insertionSort fun a b => b.before a = false)).run
        threePlayers).2.map (·.matchId)).Nodup :=
  ⟨by decide +kernel,
    ((Matchmaker.matching_safe_and_conserving exactSeconds isSort_insertionSort).2 threePlayers).2.1⟩

end Portfolio.Arena
