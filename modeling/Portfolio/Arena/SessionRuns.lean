import Portfolio.Arena.CombatInv
import Portfolio.Lib.SerialId

/-!
# Runs of a game session

Every operation keeps `Settled`, so it holds after every run of `sessionMachine`. `CombatInv` reads
the invariant off in the words of the session: health, deaths, projectiles and shots.
-/

namespace Portfolio.Arena
open Std

section
variable {α : Type}

/-! ### Upsert, removal and consumption -/

theorem hitsSince_upsert (id j : String) (trace : List SessionTrace) :
    hitsSince id (trace ++ [.upsert j]) = if j = id then 0 else hitsSince id trace := by
  unfold hitsSince
  rw [List.foldl_append]
  rfl

theorem hitsSince_consumed (id : String) (events : List CombatEvent) (trace : List SessionTrace) :
    hitsSince id (trace ++ [.consumed events]) = hitsSince id trace := by
  unfold hitsSince
  rw [List.foldl_append]
  rfl

theorem inFlight_eq_zero {id : String} {ps : List (Projectile α)}
    (h : ∀ p ∈ ps, p.active = true → p.ownerId ≠ id) : inFlight id ps = 0 := by
  unfold inFlight
  rw [List.countP_eq_zero]
  intro p hp
  simp only [Bool.and_eq_true, decide_eq_true_eq, not_and]
  exact h p hp

end

section
variable {α : Type} [Scalar α]
open GameSession

omit [Scalar α] in
theorem PlayerOk.revive {id : String} {n : Nat} {r : PlayerRuntimeState α} (h : PlayerOk id n r) :
    PlayerOk id 0 (revive r) := by
  have hmax : r.health.reset.current = 100 := h.max
  have halive : r.health.reset.isAlive = true := by
    unfold HealthComponent.isAlive
    rw [hmax]
    rfl
  refine ⟨h.named, h.max, hmax, by decide, rfl, rfl, ?_, h.counters⟩
  show false = !r.health.reset.isAlive
  rw [halive]
  rfl

theorem initRuntime_new {id : String} (hid : id ≠ "") :
    PlayerOk id 0 (initRuntime id (newRuntime : PlayerRuntimeState α)) := by
  unfold initRuntime newRuntime
  rw [if_pos rfl]
  exact ⟨⟨hid, rfl⟩, rfl, rfl, by decide, rfl, rfl, rfl, rfl, rfl, rfl⟩

theorem initRuntime_of_named {id : String} {r : PlayerRuntimeState α} (h : r.state.playerId ≠ "") :
    initRuntime id r = r := by
  unfold initRuntime
  exact if_neg h

theorem getElem?_upsertPlayer (s : GameSession α) (id j : String) :
    (s.upsertPlayer id).players[j]? =
      if id = j then some (revive (initRuntime id ((s.players[id]?).getD newRuntime)))
      else s.players[j]? := by
  unfold upsertPlayer
  simp only [TreeMap.getElem?_insert, Std.compare_eq_iff_eq]

theorem Settled.upsert {trace : List SessionTrace} {s : GameSession α} (h : Settled trace s)
    {id : String} (hid : id ≠ "") : Settled (trace ++ [.upsert id]) (s.upsertPlayer id) := by
  refine ⟨⟨?_, ?_, ?_, h.loop.ids, h.loop.named, ?_, ?_⟩, h.active⟩
  · intro j r hj
    rw [getElem?_upsertPlayer] at hj
    rw [hitsSince_upsert]
    split at hj
    · next hij =>
      subst hij
      cases hj
      rw [if_pos rfl]
      cases hs : s.players[id]? with
      | none => exact (initRuntime_new hid).revive
      | some r =>
        have hok := h.loop.player id r hs
        rw [Option.getD_some, initRuntime_of_named (hok.named.2 ▸ hid)]
        exact hok.revive
    · next hij =>
      rw [if_neg hij]
      exact h.loop.player j r hj
  · intro p hp hpa
    rw [getElem?_upsertPlayer]
    split
    · exact ⟨_, rfl⟩
    · exact h.loop.owner p hp hpa
  · intro j r hj
    rw [getElem?_upsertPlayer] at hj
    split at hj
    · next hij =>
      subst hij
      cases hj
      cases hs : s.players[id]? with
      | none =>
        -- a projectile in flight has a registered owner
        have hzero : inFlight id s.projectiles = 0 := by
          refine inFlight_eq_zero fun p hp hpa hpo => ?_
          obtain ⟨r, hr⟩ := h.loop.owner p hp hpa
          rw [hpo, hs] at hr
          cases hr
        show _ + inFlight id s.projectiles ≤ _
        rw [hzero, Option.getD_none]
        unfold initRuntime newRuntime
        exact Nat.le_refl 0
      | some r =>
        have hok := h.loop.player id r hs
        rw [Option.getD_some, initRuntime_of_named (hok.named.2 ▸ hid)]
        exact h.loop.budget id r hs
    · exact h.loop.budget j r hj
  · rw [consumedIn_append, deathsIn_append]
    show (consumedIn trace ++ []) ++ s.pendingDeaths = deathsIn trace ++ []
    rw [List.append_nil, List.append_nil, h.loop.queue]
  · rw [deathsIn_append]
    show s.playersDeadTotal = (deathsIn trace ++ []).length
    rw [List.append_nil, h.loop.total]

omit [Scalar α] in
theorem Settled.remove {trace : List SessionTrace} {s : GameSession α} (h : Settled trace s)
    (id : String) : Settled trace (s.removePlayer id) := by
  have hget : ∀ j, (s.removePlayer id).players[j]? = if id = j then none else s.players[j]? := by
    intro j
    unfold removePlayer
    simp only [TreeMap.getElem?_erase, Std.compare_eq_iff_eq]
  have hloop : Loop trace s (s.projectiles.filter fun p => p.ownerId ≠ id) :=
    h.loop.sublist List.filter_sublist
  refine ⟨⟨?_, ?_, ?_, hloop.ids, hloop.named, hloop.queue, hloop.total⟩, ?_⟩
  · intro j r hj
    rw [hget] at hj
    split at hj
    · cases hj
    · exact h.loop.player j r hj
  · intro p hp hpa
    obtain ⟨hmem, hne⟩ := List.mem_filter.1 hp
    rw [hget, if_neg (Ne.symm (by simpa using hne))]
    exact h.loop.owner p hmem hpa
  · intro j r hj
    rw [hget] at hj
    split at hj
    · cases hj
    · exact hloop.budget j r hj
  · intro p hp
    exact h.active p (List.mem_filter.1 hp).1

omit [Scalar α] in
theorem Settled.consume {trace : List SessionTrace} {s : GameSession α} (h : Settled trace s) :
    Settled (trace ++ [.consumed s.consumeDeathEvents.2]) s.consumeDeathEvents.1 := by
  refine ⟨⟨?_, h.loop.owner, h.loop.budget, h.loop.ids, h.loop.named, ?_, ?_⟩, h.active⟩
  · intro j r hj
    rw [hitsSince_consumed]
    exact h.loop.player j r hj
  · rw [consumedIn_append, deathsIn_append]
    show (consumedIn trace ++ (s.pendingDeaths ++ [])) ++ [] = deathsIn trace ++ []
    rw [List.append_nil, List.append_nil, List.append_nil, h.loop.queue]
  · rw [deathsIn_append]
    show s.playersDeadTotal = (deathsIn trace ++ []).length
    rw [List.append_nil, h.loop.total]

/-! ### Input -/

/-- Input leaves the life and the hits of a player alone. -/
structure SameLife (r r' : PlayerRuntimeState α) : Prop where
  health : r'.health = r.health
  announced : r'.deathAnnounced = r.deathAnnounced
  hits : r'.hitsLanded = r.hitsLanded
  deaths : r'.deaths = r.deaths
  state : r'.state.playerId = r.state.playerId ∧ r'.state.health = r.state.health ∧
    r'.state.isAlive = r.state.isAlive ∧ r'.state.hitsLanded = r.state.hitsLanded ∧
    r'.state.deaths = r.state.deaths

omit [Scalar α] in
theorem PlayerOk.sameLife {id : String} {n : Nat} {r r' : PlayerRuntimeState α} (h : PlayerOk id n r)
    (hs : SameLife r r') (hshots : r'.state.shotsFired = r'.shotsFired) : PlayerOk id n r' := by
  obtain ⟨h1, h2, h3, h4, h5⟩ := hs.state
  refine ⟨⟨h.named.1, h1.trans h.named.2⟩, ?_, ?_, h.hits, ?_, ?_, ?_, hshots, ?_, ?_⟩
  · rw [hs.health, h.max]
  · rw [hs.health, h.current]
  · rw [h2, hs.health, h.health]
  · rw [h3, hs.health, h.alive]
  · rw [hs.announced, h3, h.announced]
  · rw [h4, hs.hits, h.counters.2.1]
  · rw [h5, hs.deaths, h.counters.2.2]

/-- What an input of player `id` with record `r` does to the session: `r'` is written back, with or
without a shot. -/
inductive InputStep (s : GameSession α) (id : String) (r : PlayerRuntimeState α) :
    GameSession α → Prop where
  | quiet (r' : PlayerRuntimeState α) (n : Nat) (life : SameLife r r') (counter : s.projectileCounter ≤ n)
      (shots : r'.shotsFired = r.shotsFired ∧ r'.state.shotsFired = r.state.shotsFired) :
      InputStep s id r { s with players := s.players.insert id r', projectileCounter := n }
  | shot (r' : PlayerRuntimeState α) (p : Projectile α) (life : SameLife r r')
      (shots : r'.shotsFired = r.shotsFired + 1 ∧ r'.state.shotsFired = r'.shotsFired)
      (active : p.active = true) (owner : p.ownerId = r.state.playerId)
      (serial : p.id = "projectile-" ++ toString (s.projectileCounter + 1)) :
      InputStep s id r { s with
        players := s.players.insert id r'
        projectileCounter := s.projectileCounter + 1
        projectiles := s.projectiles ++ [p]
        projectilesSpawnedTotal := s.projectilesSpawnedTotal + 1 }

theorem make_ok {id ownerId : String} {x y dirX dirY now : α} {p : Projectile α}
    (h : Projectile.make id ownerId x y dirX dirY now = .ok p) :
    p.active = true ∧ p.ownerId = ownerId ∧ p.id = id ∧ p.spawnTime = now := by
  unfold Projectile.make at h
  dsimp only at h
  split at h
  · cases h
  · cases h
    exact ⟨rfl, rfl, rfl, rfl⟩

/-- `r` is the record before the input and `r'` the one after the move. -/
theorem trySpawnProjectile_step (s : GameSession α) (id : String) {r r' : PlayerRuntimeState α}
    (input : MovementInput α) (hlife : SameLife r r')
    (hshots : r'.shotsFired = r.shotsFired ∧ r'.state.shotsFired = r.state.shotsFired) :
    InputStep s id r (s.trySpawnProjectile id r' input).1 := by
  unfold trySpawnProjectile
  dsimp only
  split
  · exact .quiet r' _ hlife (Nat.le_refl _) hshots
  · split
    · exact .quiet r' _ hlife (Nat.le_refl _) hshots
    · split
      · exact .quiet r' _ hlife (Nat.le_refl _) hshots
      · split
        · exact .quiet _ _ ⟨hlife.health, hlife.announced, hlife.hits, hlife.deaths, hlife.state⟩
            (Nat.le_succ _) hshots
        · next p hp =>
          obtain ⟨hact, howner, hserial, -⟩ := make_ok hp
          refine .shot _ p ⟨hlife.health, hlife.announced, hlife.hits, hlife.deaths, hlife.state⟩
            ⟨?_, rfl⟩ hact (howner.trans hlife.state.1) hserial
          show r'.shotsFired + 1 = r.shotsFired + 1
          rw [hshots.1]

theorem applyInput_cases (s : GameSession α) (id : String) (input : MovementInput α) (dt : α) :
    (s.applyInput id input dt).1 = s ∨
      ∃ r, s.players[id]? = some r ∧ InputStep s id r (s.applyInput id input dt).1 := by
  unfold applyInput
  cases hr : s.players[id]? with
  | none => exact .inl rfl
  | some r =>
    dsimp only
    split
    · exact .inl rfl
    · refine .inr ⟨r, rfl, trySpawnProjectile_step s id input ?_ ?_⟩
      · refine ⟨rfl, rfl, rfl, rfl, ?_⟩
        dsimp only
        split <;> exact ⟨rfl, rfl, rfl, rfl, rfl⟩
      · dsimp only
        split <;> exact ⟨rfl, rfl⟩

omit [Scalar α] in
theorem InputStep.players {s s' : GameSession α} {id : String} {r : PlayerRuntimeState α}
    (h : InputStep s id r s') :
    ∃ r', SameLife r r' ∧ ∀ j, s'.players[j]? = if id = j then some r' else s.players[j]? := by
  cases h with
  | quiet r' n life =>
    refine ⟨r', life, fun j => ?_⟩
    simp only [TreeMap.getElem?_insert, Std.compare_eq_iff_eq]
  | shot r' p life =>
    refine ⟨r', life, fun j => ?_⟩
    simp only [TreeMap.getElem?_insert, Std.compare_eq_iff_eq]

omit [Scalar α] in
theorem InputStep.progress {s s' : GameSession α} {id : String} {r : PlayerRuntimeState α}
    (hr : s.players[id]? = some r) (h : InputStep s id r s') : Progress s s' [] := by
  obtain ⟨r', hlife, hget⟩ := h.players
  intro j
  refine .inl ⟨?_, rfl⟩
  unfold status
  rw [hget]
  split
  · next hij =>
    subst hij
    obtain ⟨-, -, h3, -, h5⟩ := hlife.state
    rw [hr, Option.map_some, Option.map_some, h3, h5]
  · rfl

omit [Scalar α] in
/-- Writing the record `r'` back, with `ps'` as the new projectiles. -/
theorem Loop.write {trace : List SessionTrace} {s s' : GameSession α} {ps ps' : List (Projectile α)}
    (h : Loop trace s ps) {id : String} {r' : PlayerRuntimeState α}
    (hok : PlayerOk id (hitsSince id trace) r') (hp : s'.players = s.players.insert id r')
    (hq : s'.pendingDeaths = s.pendingDeaths) (ht : s'.playersDeadTotal = s.playersDeadTotal)
    (howner : ∀ p ∈ ps', p.active = true → ∃ r, s.players[p.ownerId]? = some r)
    (hbudget : r'.hitsLanded + inFlight id ps' ≤ r'.shotsFired)
    (hothers : ∀ j, id ≠ j → inFlight j ps' = inFlight j ps) (hids : (ps'.map (·.id)).Nodup)
    (hnamed : ∀ p ∈ ps', ∃ k, k ≤ s'.projectileCounter ∧ p.id = "projectile-" ++ toString k) :
    Loop trace s' ps' := by
  have hget : ∀ j, s'.players[j]? = if id = j then some r' else s.players[j]? := by
    intro j
    rw [hp]
    simp only [TreeMap.getElem?_insert, Std.compare_eq_iff_eq]
  refine ⟨?_, ?_, ?_, hids, hnamed, hq ▸ h.queue, ht ▸ h.total⟩
  · intro j rj hj
    rw [hget] at hj
    split at hj
    · next hij =>
      subst hij
      cases hj
      exact hok
    · exact h.player j rj hj
  · intro p hps hpa
    rw [hget]
    split
    · exact ⟨_, rfl⟩
    · exact howner p hps hpa
  · intro j rj hj
    rw [hget] at hj
    split at hj
    · next hij =>
      subst hij
      cases hj
      exact hbudget
    · next hij =>
      rw [hothers j hij]
      exact h.budget j rj hj

omit [Scalar α] in
theorem Settled.inputStep {trace : List SessionTrace} {s s' : GameSession α} (h : Settled trace s)
    {id : String} {r : PlayerRuntimeState α} (hr : s.players[id]? = some r)
    (hstep : InputStep s id r s') : Settled trace s' := by
  have hok := h.loop.player id r hr
  have hbudget := h.loop.budget id r hr
  cases hstep with
  | quiet r' n life counter shots =>
    have hok' := hok.sameLife life (by rw [shots.1, shots.2, hok.counters.1])
    refine ⟨h.loop.write hok' rfl rfl rfl h.loop.owner ?_ (fun _ _ => rfl) h.loop.ids ?_, h.active⟩
    · rw [life.hits, shots.1]
      exact hbudget
    · intro p hp
      obtain ⟨k, hk, hid⟩ := h.loop.named p hp
      exact ⟨k, hk.trans counter, hid⟩
  | shot r' p life shots active owner serial =>
    have hown : p.ownerId = id := owner.trans hok.named.2
    have hflight : ∀ j, inFlight j (s.projectiles ++ [p]) =
        inFlight j s.projectiles + if id = j then 1 else 0 := by
      intro j
      rw [inFlight_split, hown]
      simp [active, inFlight]
    refine ⟨h.loop.write (hok.sameLife life shots.2) rfl rfl rfl ?_ ?_ ?_ ?_ ?_, ?_⟩
    · intro q hq hqa
      rcases List.mem_append.1 hq with hq | hq
      · exact h.loop.owner q hq hqa
      · rw [List.mem_singleton.1 hq, hown]
        exact ⟨r, hr⟩
    · rw [hflight, if_pos rfl, life.hits, shots.1]
      omega
    · intro j hij
      rw [hflight, if_neg hij]
      rfl
    · -- the serial of the shot is larger than all before
      rw [List.map_append, List.nodup_append]
      refine ⟨h.loop.ids, List.pairwise_singleton _ _, ?_⟩
      intro x hx y hy hxy
      obtain ⟨q, hq, rfl⟩ := List.mem_map.1 hx
      obtain ⟨k, hk, hid⟩ := h.loop.named q hq
      rw [List.map_singleton, List.mem_singleton] at hy
      rw [hy, serial, hid] at hxy
      have := append_toString_inj hxy
      omega
    · intro q hq
      rcases List.mem_append.1 hq with hq | hq
      · obtain ⟨k, hk, hid⟩ := h.loop.named q hq
        exact ⟨k, Nat.le_succ_of_le hk, hid⟩
      · rw [List.mem_singleton.1 hq]
        exact ⟨_, Nat.le_refl _, serial⟩
    · intro q hq
      rcases List.mem_append.1 hq with hq | hq
      · exact h.active q hq
      · rw [List.mem_singleton.1 hq]
        exact active

theorem Settled.input {trace : List SessionTrace} {s : GameSession α} (h : Settled trace s)
    (id : String) (input : MovementInput α) (dt : α) :
    Settled trace (s.applyInput id input dt).1 ∧ Progress s (s.applyInput id input dt).1 [] := by
  rcases applyInput_cases s id input dt with heq | ⟨r, hr, hstep⟩
  · rw [heq]
    exact ⟨h, .of_players rfl⟩
  · exact ⟨h.inputStep hr hstep, hstep.progress hr⟩

/-! ### Runs -/

/-- The operations of a session; `order` is the iteration order of `players_` in that tick. -/
inductive SessionOp (α : Type) where
  | upsertPlayer (id : String)
  | removePlayer (id : String)
  | applyInput (id : String) (input : MovementInput α) (dt : α)
  | tick (order : List String) (tick : Nat) (dt : α)
  | consumeDeathEvents

def SessionOp.exec (s : GameSession α) : SessionOp α → GameSession α × List SessionTrace
  | .upsertPlayer id => (s.upsertPlayer id, [.upsert id])
  | .removePlayer id => (s.removePlayer id, [])
  | .applyInput id input dt => ((s.applyInput id input dt).1, [])
  | .tick order n dt => ((s.tick order n dt).1, (s.tick order n dt).2.map .event)
  | .consumeDeathEvents => (s.consumeDeathEvents.1, [.consumed s.consumeDeathEvents.2])

variable (α) in
/-- A session that takes one operation after the other. -/
def sessionMachine : Machine (GameSession α) (SessionOp α) SessionTrace where
  init := .new
  step := SessionOp.exec

/-- The callers register players under their own, non-empty ids. -/
def SessionOp.Named : SessionOp α → Prop
  | .upsertPlayer id => id ≠ ""
  | _ => True

/-- Whether a registered player lives. -/
def lives {α : Type} (s : GameSession α) (id : String) : Option Bool :=
  (s.players[id]?).map (·.state.isAlive)

/-- Player `id` lives before the operation and is dead after it. -/
def EndsLife (id : String) (s : GameSession α) (op : SessionOp α) : Prop :=
  lives s id = some true ∧ lives (op.exec s).1 id = some false

instance (id : String) (s : GameSession α) (op : SessionOp α) : Decidable (EndsLife id s op) :=
  inferInstanceAs (Decidable (_ ∧ _))

omit [Scalar α] in
theorem lives_eq_status (s : GameSession α) (id : String) : lives s id = (status s id).map (·.1) := by
  unfold lives status
  rw [Option.map_map]
  rfl

theorem countP_deathsIn (id : String) (events : List CombatEvent) :
    (deathsIn (events.map .event)).countP (·.targetId = id) = events.countP (·.IsDeathOf id) := by
  rw [deathsIn_events, List.countP_filter]
  congr 1
  funext e
  simp [CombatEvent.IsDeathOf, and_comm]

omit [Scalar α] in
theorem Progress.deaths {s s' : GameSession α} {events : List CombatEvent} (h : Progress s s' events)
    (id : String) : events.countP (·.IsDeathOf id) =
      if lives s id = some true ∧ lives s' id = some false then 1 else 0 := by
  rw [lives_eq_status, lives_eq_status]
  rcases h id with ⟨h1, h2⟩ | ⟨d, h1, h2, h3⟩
  · rw [h2, h1, if_neg]
    rintro ⟨ht, hf⟩
    rw [ht] at hf
    cases hf
  · rw [h3, h1, h2, if_pos ⟨rfl, rfl⟩]

/-- Every operation keeps the invariant. -/
theorem Settled.step {trace : List SessionTrace} {s : GameSession α} (h : Settled trace s)
    {op : SessionOp α} (hn : op.Named) : Settled (trace ++ (op.exec s).2) (op.exec s).1 := by
  cases op with
  | upsertPlayer id => exact h.upsert hn
  | removePlayer id =>
    show Settled (trace ++ []) _
    rw [List.append_nil]
    exact h.remove id
  | applyInput id input dt =>
    show Settled (trace ++ []) _
    rw [List.append_nil]
    exact (h.input id input dt).1
  | tick order n dt => exact (h.tick order n dt).1
  | consumeDeathEvents => exact h.consume

omit [Scalar α] in
theorem PlayerOk.alive_iff {id : String} {n : Nat} {r : PlayerRuntimeState α} (h : PlayerOk id n r) :
    r.state.isAlive = true ↔ 0 < r.state.health := by
  rw [h.alive, h.health]
  exact decide_eq_true_iff

/-- An operation queues a death exactly for the players whose life it ends. -/
theorem Settled.step_deaths {trace : List SessionTrace} {s : GameSession α} (h : Settled trace s)
    {op : SessionOp α} (hn : op.Named) (id : String) :
    (deathsIn (op.exec s).2).countP (·.targetId = id) = if EndsLife id s op then 1 else 0 := by
  cases op with
  | upsertPlayer j =>
    show 0 = _
    rw [if_neg]
    rintro ⟨ht, hf⟩
    by_cases hij : j = id
    · -- an upserted player lives
      subst hij
      obtain ⟨r, hr, hdead⟩ := Option.map_eq_some_iff.1 hf
      have hok := (h.upsert hn).loop.player j r hr
      rw [hitsSince_upsert, if_pos rfl] at hok
      have halive : r.state.isAlive = true := by
        rw [hok.alive_iff, hok.health, hok.current]
        decide
      rw [halive] at hdead
      cases hdead
    · unfold lives at ht hf
      rw [show (SessionOp.exec s (.upsertPlayer j)).1 = s.upsertPlayer j from rfl,
        getElem?_upsertPlayer, if_neg hij, ht] at hf
      cases hf
  | removePlayer j =>
    show 0 = _
    rw [if_neg]
    rintro ⟨ht, hf⟩
    unfold lives at ht hf
    rw [show (SessionOp.exec s (.removePlayer j)).1.players = s.players.erase j from rfl,
      TreeMap.getElem?_erase] at hf
    split at hf
    · cases hf
    · rw [ht] at hf
      cases hf
  | applyInput j input dt => exact (h.input j input dt).2.deaths id
  | tick order n dt =>
    show (deathsIn ((s.tick order n dt).2.map .event)).countP _ = _
    rw [countP_deathsIn]
    exact (h.tick order n dt).2.deaths id
  | consumeDeathEvents =>
    show 0 = _
    rw [if_neg]
    rintro ⟨ht, hf⟩
    rw [show lives (SessionOp.exec s .consumeDeathEvents).1 id = lives s id from rfl, ht] at hf
    cases hf

/-- The combat invariant of a session after `ops`, which showed `trace`. -/
structure CombatInv (ops : List (SessionOp α)) (trace : List SessionTrace) (s : GameSession α) :
    Prop where
  health : ∀ (id : String) (r : PlayerRuntimeState α), s.players[id]? = some r →
    r.state.health = r.health.current ∧ r.state.health = 100 - 20 * hitsSince id trace ∧
      (r.state.isAlive = true ↔ 0 < r.state.health) ∧
      (r.deathAnnounced = true ↔ r.state.isAlive = false)
  deaths : ∀ id, (deathsIn trace).countP (·.targetId = id) =
    (sessionMachine α).countSteps (EndsLife id) ops
  queue : consumedIn trace ++ s.pendingDeaths = deathsIn trace
  total : s.playersDeadTotal = (deathsIn trace).length
  projectiles : ∀ p ∈ s.projectiles, p.active = true ∧ ∃ r, s.players[p.ownerId]? = some r
  ids : (s.projectiles.map (·.id)).Nodup
  shots : ∀ id r, s.players[id]? = some r →
    r.hitsLanded + s.projectiles.countP (·.ownerId = id) ≤ r.shotsFired ∧
      r.state.hitsLanded = r.hitsLanded ∧ r.state.shotsFired = r.shotsFired ∧
      r.state.deaths = r.deaths

theorem settled_new : Settled [] (.new : GameSession α) := by
  have hget : ∀ id : String, (GameSession.new : GameSession α).players[id]? = none := by
    intro id
    exact TreeMap.getElem?_emptyc
  refine ⟨⟨?_, ?_, ?_, List.Pairwise.nil, ?_, rfl, rfl⟩, ?_⟩
  · intro id r hr
    rw [hget] at hr
    cases hr
  · intro p hp
    cases hp
  · intro id r hr
    rw [hget] at hr
    cases hr
  · intro p hp
    cases hp
  · intro p hp
    cases hp

/-- What holds after every run: `Settled`, and one death for each life that ended. -/
theorem settled_run (ops : List (SessionOp α)) (hn : ∀ op ∈ ops, op.Named) :
    Settled ((sessionMachine α).run ops).2 ((sessionMachine α).run ops).1 ∧
      ∀ id, (deathsIn ((sessionMachine α).run ops).2).countP (·.targetId = id) =
        (sessionMachine α).countSteps (EndsLife id) ops := by
  induction ops using List.reverseRecOn with
  | nil => exact ⟨settled_new, fun _ => rfl⟩
  | append_singleton ops op ih =>
    obtain ⟨h, hd⟩ := ih fun op hop => hn op (List.mem_append_left _ hop)
    have hop := hn op (by simp)
    rw [Machine.run_concat]
    refine ⟨h.step hop, fun id => ?_⟩
    rw [Machine.countSteps_concat, ← hd id, deathsIn_append, List.countP_append]
    exact congrArg _ (h.step_deaths hop id)

theorem combat_invariant (ops : List (SessionOp α)) (hn : ∀ op ∈ ops, op.Named) :
    CombatInv ops ((sessionMachine α).run ops).2 ((sessionMachine α).run ops).1 := by
  obtain ⟨h, hd⟩ := settled_run ops hn
  refine ⟨?_, hd, h.loop.queue, h.loop.total, ?_, h.loop.ids, ?_⟩
  · intro id r hr
    have hok := h.loop.player id r hr
    refine ⟨hok.health, by rw [hok.health, hok.current], hok.alive_iff, ?_⟩
    rw [hok.announced]
    cases r.state.isAlive <;> simp
  · intro p hp
    exact ⟨h.active p hp, h.loop.owner p hp (h.active p hp)⟩
  · intro id r hr
    obtain ⟨h1, h2, h3⟩ := (h.loop.player id r hr).counters
    have hbudget := h.loop.budget id r hr
    have hflight : inFlight id ((sessionMachine α).run ops).1.projectiles =
        ((sessionMachine α).run ops).1.projectiles.countP (·.ownerId = id) := by
      refine List.countP_congr fun p hp => ?_
      rw [h.active p hp, Bool.true_and]
    rw [hflight] at hbudget
    exact ⟨hbudget, h2, h1, h3⟩

end

/-- Player `a` shoots `b` dead with five hits; `b` comes back while the sixth shot is in flight. -/
def duelRun : List (SessionOp ℚ) :=
  let shoot (n : Nat) : SessionOp ℚ :=
    .applyInput "a" { sequence := n, mouseX := 1, mouseY := 0, fire := true } 0
  let round (n : Nat) : List (SessionOp ℚ) :=
    [shoot n, .tick ["b", "a"] (2 * n) (1 / 100), .tick ["b", "a"] (2 * n + 1) (1 / 10)]
  [.upsertPlayer "a", .upsertPlayer "b"] ++ (List.range 5).flatMap round ++
    [shoot 5, .consumeDeathEvents, .upsertPlayer "b", .tick ["a", "b"] 10 (1 / 100)]

theorem combat_invariant_duel :
    ((((sessionMachine ℚ).run duelRun).1.players["b"]?).map (·.state.health) = some 80 ∧
      ((sessionMachine ℚ).run duelRun).1.playersDeadTotal = 1) ∧
    CombatInv duelRun ((sessionMachine ℚ).run duelRun).2 ((sessionMachine ℚ).run duelRun).1 := by
  refine ⟨by decide +kernel, combat_invariant duelRun ?_⟩
  intro op hop
  cases op with
  | upsertPlayer id =>
    have hid : id = "a" ∨ id = "b" := by simpa [duelRun] using hop
    rintro rfl
    revert hid
    decide
  | _ => trivial

end Portfolio.Arena
