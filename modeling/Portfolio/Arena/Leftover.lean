import Portfolio.Arena.MatchmakerInv

/-!
# What a matching round leaves

`pairLoop_cases`: of two players who accept each other, one that a round leaves unmatched has lost
the other to a match whose first player stands before it in the order of the queue. So no two
players left over accept each other, and the player who has waited longest is passed over only for
players with a lower rating.
-/

namespace Portfolio.Arena

section
variable {α : Type} [Scalar α] (conv : SecondsConv α)

theorem MatchRequest.regionsCompatible_comm (a b : MatchRequest) :
    a.regionsCompatible b = b.regionsCompatible a := by
  simp only [regionsCompatible, or_comm, eq_comm]

variable {conv} in
theorem Compatible.symm {now : Int} {a b : MatchRequest} (h : Compatible conv now a b) :
    Compatible conv now b a := by
  refine ⟨h.distinct.symm, ?_, ?_, ?_⟩
  · rw [MatchRequest.regionsCompatible_comm]
    exact h.regions
  · rw [abs_sub_comm]
    exact h.right
  · rw [abs_sub_comm]
    exact h.left

namespace Matchmaker

/-- A scan without result has not missed anybody, since the ratings only go up from the first one
that is too high. -/
theorem findPartner_none {now : Int} {used : List String} {request : MatchRequest}
    {rest : List QueuedPlayer} (h : findPartner conv now used request rest = none)
    (hsorted : rest.Pairwise fun a b => a.request.elo ≤ b.request.elo) :
    ∀ x ∈ rest, x.request.playerId ∉ used → ¬ Compatible conv now request x.request := by
  induction rest with
  | nil => exact fun x hx => (nomatch hx)
  | cons other rest ih =>
    obtain ⟨hle, hsorted⟩ := List.pairwise_cons.1 hsorted
    have hskip : findPartner conv now used request rest = none →
        (other.request.playerId ∉ used → ¬ Compatible conv now request other.request) →
        ∀ x ∈ other :: rest, x.request.playerId ∉ used → ¬ Compatible conv now request x.request := by
      intro hrest hother x hx
      rcases List.mem_cons.1 hx with rfl | hx
      · exact hother
      · exact ih hrest hsorted x hx
    unfold findPartner at h
    split at h
    · next hused => exact hskip h fun hnot => absurd hused hnot
    · split at h
      · next hregion =>
        refine hskip h fun _ hc => ?_
        rw [hc.regions] at hregion
        cases hregion
      · dsimp only at h
        split at h
        · cases h
        · next htol =>
          have hother : ¬ Compatible conv now request other.request :=
            fun hc => htol ⟨hc.left, hc.right⟩
          split at h
          · next hfar =>
            -- The scan stops here: everybody after `other` is at least as far from the request.
            intro x hx _ hc
            rcases List.mem_cons.1 hx with rfl | hx
            · exact hother hc
            · have hle := hle x hx
              have hleft := hc.left
              rw [abs_sub_comm] at hleft
              have := le_abs_self (x.request.elo - request.elo)
              omega
          · exact hskip h fun _ => hother

/-- The player `y` has been paired by a player that stands before `x` in `ordered`. -/
def TakenBefore (ordered : List QueuedPlayer) (matches_ : List Match) (x y : QueuedPlayer) : Prop :=
  ∃ mt ∈ matches_, ∃ a b : QueuedPlayer, mt.players = [a.request.playerId, b.request.playerId] ∧
    [a, x].Sublist ordered ∧ (y.request.playerId = a.request.playerId ∨
      y.request.playerId = b.request.playerId)

theorem TakenBefore.cons {ordered : List QueuedPlayer} {matches_ : List Match} {x y : QueuedPlayer}
    (h : TakenBefore ordered matches_ x y) (c : QueuedPlayer) :
    TakenBefore (c :: ordered) matches_ x y := by
  obtain ⟨mt, hmt, a, b, hplayers, hsub, hy⟩ := h
  exact ⟨mt, hmt, a, b, hplayers, hsub.cons c, hy⟩

theorem TakenBefore.mono {ordered : List QueuedPlayer} {matches_ matches' : List Match}
    {x y : QueuedPlayer} (h : TakenBefore ordered matches_ x y) (hsub : ∀ mt ∈ matches_, mt ∈ matches') :
    TakenBefore ordered matches' x y := by
  obtain ⟨mt, hmt, h⟩ := h
  exact ⟨mt, hsub mt hmt, h⟩

theorem TakenBefore.matched {ordered : List QueuedPlayer} {matches_ : List Match} {x y : QueuedPlayer}
    (h : TakenBefore ordered matches_ x y) : y.request.playerId ∈ matched matches_ := by
  obtain ⟨mt, hmt, a, b, hplayers, -, hy⟩ := h
  refine List.mem_flatMap.2 ⟨mt, hmt, ?_⟩
  rw [hplayers]
  rcases hy with hy | hy <;> simp [hy]

/-- The loop from some position on: `x` is paired, or has lost `y`. -/
theorem pairLoop_cases (now : Int) {m : Matchmaker α} {used : List String} {ordered : List QueuedPlayer}
    (hsorted : ordered.Pairwise fun a b => a.request.elo ≤ b.request.elo)
    (hnodup : (ordered.map (·.request.playerId)).Nodup) {x y : QueuedPlayer} (hx : x ∈ ordered)
    (hy : y ∈ ordered) (hxu : x.request.playerId ∉ used) (hyu : y.request.playerId ∉ used)
    (hxy : Compatible conv now x.request y.request) :
    x.request.playerId ∈ matched (pairLoop conv now m used ordered).2 ∨
      TakenBefore ordered (pairLoop conv now m used ordered).2 x y := by
  induction ordered generalizing m used with
  | nil => cases hx
  | cons candidate rest ih =>
    rw [List.map_cons, List.nodup_cons] at hnodup
    obtain ⟨hfirst, hnodup⟩ := hnodup
    obtain ⟨hle, hsorted⟩ := List.pairwise_cons.1 hsorted
    unfold pairLoop
    split
    · next hused =>
      have hrest : ∀ z ∈ candidate :: rest, z.request.playerId ∉ used → z ∈ rest := by
        intro z hz hzu
        rcases List.mem_cons.1 hz with rfl | hz
        · exact absurd hused hzu
        · exact hz
      rcases ih hsorted hnodup (hrest x hx hxu) (hrest y hy hyu) hxu hyu with h | h
      · exact .inl h
      · exact .inr (h.cons candidate)
    · next hused =>
      cases hfind : findPartner conv now used candidate.request rest with
      | none =>
        have hnone := findPartner_none conv hfind hsorted
        -- Neither of the two is the candidate, which accepts nobody that is left.
        rcases List.mem_cons.1 hx with rfl | hxrest
        · rcases List.mem_cons.1 hy with rfl | hyrest
          · exact absurd rfl hxy.distinct
          · exact absurd hxy (hnone y hyrest hyu)
        · rcases List.mem_cons.1 hy with rfl | hyrest
          · exact absurd hxy.symm (hnone x hxrest hxu)
          · rcases ih hsorted hnodup hxrest hyrest hxu hyu with h | h
            · exact .inl h
            · exact .inr (h.cons candidate)
      | some partner =>
        obtain ⟨⟨p, hp, rfl⟩, -, -⟩ := findPartner_some conv hfind fun z hz heq =>
          hfirst (heq ▸ List.mem_map_of_mem hz)
        dsimp only
        have hplayers : (m.createMatch conv now candidate.request p.request).2.players =
            [candidate.request.playerId, p.request.playerId] := rfl
        rw [matched_cons, hplayers]
        by_cases hxc : x.request.playerId ∈ [candidate.request.playerId, p.request.playerId]
        · exact .inl (List.mem_append_left _ hxc)
        · simp only [List.mem_cons, List.not_mem_nil, or_false, not_or] at hxc
          have hxrest : x ∈ rest := by
            rcases List.mem_cons.1 hx with rfl | hx
            · exact absurd rfl hxc.1
            · exact hx
          by_cases hyc : y.request.playerId = candidate.request.playerId ∨
              y.request.playerId = p.request.playerId
          · exact .inr ⟨_, List.mem_cons_self, candidate, p, hplayers,
              (List.singleton_sublist.2 hxrest).cons_cons candidate, hyc⟩
          · rw [not_or] at hyc
            have hyrest : y ∈ rest := by
              rcases List.mem_cons.1 hy with rfl | hy
              · exact absurd rfl hyc.1
              · exact hy
            have hstill : ∀ z : QueuedPlayer, z.request.playerId ∉ used →
                z.request.playerId ≠ candidate.request.playerId ∧
                  z.request.playerId ≠ p.request.playerId →
                z.request.playerId ∉ candidate.request.playerId :: p.request.playerId :: used := by
              rintro z hzu ⟨hzc, hzp⟩ hz
              rcases List.mem_cons.1 hz with hz | hz
              · exact hzc hz
              · rcases List.mem_cons.1 hz with hz | hz
                · exact hzp hz
                · exact hzu hz
            rcases ih (m := (m.createMatch conv now candidate.request p.request).1) hsorted hnodup hxrest
              hyrest (hstill x hxu hxc) (hstill y hyu hyc) with h | h
            · exact .inl (List.mem_append_right _ h)
            · exact .inr ((h.cons candidate).mono fun mt hmt => List.mem_cons_of_mem _ hmt)

/-! ### Rounds -/

section
variable {sort : List QueuedPlayer → List QueuedPlayer}

/-- A round on a queue: `x` is paired, or has lost `y`. -/
theorem runMatching_cases (hsort : IsSort sort) {m : Matchmaker α} (h : m.queue.Agree) (now : Int)
    {x y : QueuedPlayer} (hx : x ∈ m.queue.contents) (hy : y ∈ m.queue.contents)
    (hxy : Compatible conv now x.request y.request) :
    x.request.playerId ∈ matched (m.runMatching conv sort now).2 ∨
      TakenBefore (m.queue.fetchOrdered sort) (m.runMatching conv sort now).2 x y := by
  obtain ⟨hperm, hsorted⟩ := hsort m.queue.contents
  refine pairLoop_cases conv now (hsorted.imp fun hab => ?_) ((hperm.map _).nodup_iff.2 h.nodup_contents)
    (hperm.mem_iff.2 hx) (hperm.mem_iff.2 hy) List.not_mem_nil List.not_mem_nil hxy
  rw [not_before_iff] at hab
  omega

theorem incompatible_of_left (hsort : IsSort sort) {m : Matchmaker α} (h : m.queue.Agree) (now : Int) :
    ∀ x ∈ (m.runMatching conv sort now).1.queue.contents,
      ∀ y ∈ (m.runMatching conv sort now).1.queue.contents, ¬ Compatible conv now x.request y.request := by
  intro x hx y hy hxy
  have hround := (runMatching_ok conv hsort h now).2
  obtain ⟨hx, hxm⟩ := (hround.rest x).1 hx
  obtain ⟨hy, hym⟩ := (hround.rest y).1 hy
  rcases runMatching_cases conv hsort h now hx hy hxy with hm | ht
  · exact hxm hm
  · exact hym ht.matched

/-- After a round no two players in the queue accept each other, so that another round at the same
time makes no match. -/
theorem no_compatible_pair_left (hsort : IsSort sort) (m : Matchmaker α) (queueOps : List QueueOp)
    (now : Int) :
    (∀ x ∈ ({ m with queue := (queueMachine.run queueOps).1 }.runMatching conv sort now).1.queue.contents,
      ∀ y ∈ ({ m with queue := (queueMachine.run queueOps).1 }.runMatching conv sort now).1.queue.contents,
        ¬ Compatible conv now x.request y.request) ∧
    (({ m with queue := (queueMachine.run queueOps).1 }.runMatching conv sort now).1.runMatching conv sort
      now).2 = [] := by
  have hagree : { m with queue := (queueMachine.run queueOps).1 }.queue.Agree := (queue_run queueOps).1
  have hleft := incompatible_of_left conv hsort hagree now
  refine ⟨hleft, List.eq_nil_iff_forall_not_mem.2 fun mt hmt => ?_⟩
  obtain ⟨hagree', -⟩ := runMatching_ok conv hsort hagree now
  obtain ⟨x, hx, y, hy, -, hxy⟩ := (runMatching_ok conv hsort hagree' now).2.paired mt hmt
  exact hleft x hx y hy hxy

/-- A player with a compatible partner who was queued before everybody else is matched, or that
partner is in a match whose first player has a lower rating. -/
theorem oldest_matched_or_outranked (hsort : IsSort sort) (m : Matchmaker α) (queueOps : List QueueOp)
    (now : Int) {x y : QueuedPlayer} (hx : x ∈ (queueMachine.run queueOps).1.contents)
    (holdest : ∀ z ∈ (queueMachine.run queueOps).1.contents, z ≠ x → x.order < z.order)
    (hy : y ∈ (queueMachine.run queueOps).1.contents) (hxy : Compatible conv now x.request y.request) :
    x.request.playerId ∈
        matched ({ m with queue := (queueMachine.run queueOps).1 }.runMatching conv sort now).2 ∨
      ∃ mt ∈ ({ m with queue := (queueMachine.run queueOps).1 }.runMatching conv sort now).2,
        y.request.playerId ∈ mt.players ∧ ∃ a ∈ (queueMachine.run queueOps).1.contents,
          mt.players.head? = some a.request.playerId ∧ a.request.elo < x.request.elo := by
  have hagree : (queueMachine.run queueOps).1.Agree := (queue_run queueOps).1
  obtain ⟨hperm, hsorted⟩ := hsort (queueMachine.run queueOps).1.contents
  rcases runMatching_cases conv hsort (m := { m with queue := (queueMachine.run queueOps).1 }) hagree now
    hx hy hxy with h | ⟨mt, hmt, a, b, hplayers, hsub, hya⟩
  · exact .inl h
  · have ha := hperm.mem_iff.1 (hsub.subset List.mem_cons_self)
    have hax : a ≠ x := by
      rintro rfl
      have hnodup := ((hperm.map (·.request.playerId)).nodup_iff.2 hagree.nodup_contents).sublist
        (hsub.map (·.request.playerId))
      simp at hnodup
    have hbefore := List.pairwise_pair.1 (hsorted.sublist hsub)
    rw [not_before_iff] at hbefore
    have hlater := holdest a ha hax
    refine .inr ⟨mt, hmt, ?_, a, ha, ?_, by omega⟩
    · rw [hplayers]
      rcases hya with hya | hya <;> simp [hya]
    · rw [hplayers]
      rfl

end

end Matchmaker

end

/-- Three players with ratings 80 apart; the one with the highest has waited longest. -/
def oldestOnTop : List QueueOp :=
  [.upsert ⟨"old", 1200, 0, "global"⟩ 1, .upsert ⟨"mid", 1120, 1, "global"⟩ 2,
    .upsert ⟨"low", 1040, 2, "global"⟩ 3]

/-- A round of these three at time 3. -/
def oldestOnTopRound : Matchmaker ℚ × List Match :=
  { (Matchmaker.new : Matchmaker ℚ) with queue := (queueMachine.run oldestOnTop).1 }.runMatching
    exactSeconds (List.insertionSort fun a b => b.before a = false) 3

theorem no_compatible_pair_left_oldestOnTop :
    oldestOnTopRound.1.queue.contents.map (·.request.playerId) = ["old"] ∧
      (oldestOnTopRound.1.runMatching exactSeconds
        (List.insertionSort fun a b => b.before a = false) 3).2 = [] :=
  ⟨by decide +kernel,
    (Matchmaker.no_compatible_pair_left exactSeconds isSort_insertionSort .new oldestOnTop 3).2⟩

theorem compatible_old_mid : Compatible exactSeconds 3 ⟨"old", 1200, 0, "global"⟩ ⟨"mid", 1120, 1, "global"⟩ := by
  refine ⟨by decide, by decide, by decide +kernel, by decide +kernel⟩

/-- The two lower players are paired first, and the oldest one stays behind. -/
theorem oldest_left_behind :
    ¬ ∀ x ∈ (queueMachine.run oldestOnTop).1.contents,
      (∀ z ∈ (queueMachine.run oldestOnTop).1.contents, z ≠ x → x.order < z.order) →
      (∃ y ∈ (queueMachine.run oldestOnTop).1.contents, Compatible exactSeconds 3 x.request y.request) →
      x.request.playerId ∈ Matchmaker.matched oldestOnTopRound.2 := by
  intro h
  have hleft := h ⟨⟨"old", 1200, 0, "global"⟩, 1⟩ (by decide +kernel) (by decide +kernel)
    ⟨⟨⟨"mid", 1120, 1, "global"⟩, 2⟩, by decide +kernel, compatible_old_mid⟩
  revert hleft
  decide +kernel

theorem oldest_matched_or_outranked_oldestOnTop :
    "old" ∈ Matchmaker.matched oldestOnTopRound.2 ∨
      ∃ mt ∈ oldestOnTopRound.2, "mid" ∈ mt.players ∧
        ∃ a ∈ (queueMachine.run oldestOnTop).1.contents,
          mt.players.head? = some a.request.playerId ∧ a.request.elo < 1200 :=
  Matchmaker.oldest_matched_or_outranked exactSeconds isSort_insertionSort .new oldestOnTop 3
    (x := ⟨⟨"old", 1200, 0, "global"⟩, 1⟩) (y := ⟨⟨"mid", 1120, 1, "global"⟩, 2⟩) (by decide +kernel)
    (by decide +kernel) (by decide +kernel) compatible_old_mid

end Portfolio.Arena
