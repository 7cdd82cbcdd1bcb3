import Portfolio.Arena.Movement

/-!
# The fire-rate limit

`last_fire_time` is a field of the player's record, and `UpsertPlayer` resets it: a player that joins
again may fire at once. The shots of an id keep their distance in the runs in which an id joins only
after the cooldown of its earlier shots (`RestedJoins`).
-/

namespace Portfolio.Arena
open Std GameSession

section
variable {α β : Type} [Scalar α]

/-- The projectiles that a call spawns. -/
def WebSocketServer.spawned (server : WebSocketServer α β) : ServerOp α → List (Projectile α)
  | .applyInput id input dt =>
    (server.session.applyInput id input dt).1.projectiles.drop server.session.projectiles.length
  | _ => []

variable [LeaderboardStore β] (update : Int → Int → EloRatingUpdate) (leaderboard : Option β)

/-- The projectiles that are spawned in a run, oldest first. -/
def shots (ops : List (ServerOp α)) : List (Projectile α) :=
  (((serverMachine α update leaderboard).observe WebSocketServer.spawned).run ops).2

theorem shots_concat (ops : List (ServerOp α)) (op : ServerOp α) :
    shots update leaderboard (ops ++ [op]) =
      shots update leaderboard ops ++ ((serverMachine α update leaderboard).run ops).1.spawned op :=
  Machine.observe_run_snd_concat ..

end

section
variable {β : Type} [LeaderboardStore β] (update : Int → Int → EloRatingUpdate) (leaderboard : Option β)

/-- Two shots of one id are at least 0.1 s apart. -/
def Spaced (ps : List (Projectile ℝ)) : Prop :=
  ps.Pairwise fun p q => p.ownerId = q.ownerId → p.spawnTime + 0.1 ≤ q.spawnTime

/-- Whenever `UpsertPlayer` is called for an id, every `last_fire_time` that this id has had is at least
0.1 s back. -/
def RestedJoins (ops : List (ServerOp ℝ)) : Prop :=
  ∀ pre id post, ops = pre ++ .upsertPlayer id :: post → ∀ earlier, earlier <+: pre → ∀ r t,
    ((serverMachine ℝ update leaderboard).run earlier).1.session.players[id]? = some r →
    r.lastFireTime = some t →
    t + 0.1 ≤ ((serverMachine ℝ update leaderboard).run pre).1.session.elapsedTime

/-- The steady clock of the game loop. -/
def ServerOp.Forward : ServerOp ℝ → Prop
  | .broadcastState _ _ dt => 0 ≤ dt
  | _ => True

/-- The shots so far against the state: a shot is in the past, was once the last one of its id, and
unless its cooldown is over the record still knows of it or of a later one. -/
structure FireInv (ops : List (ServerOp ℝ)) (ps : List (Projectile ℝ)) (s : GameSession ℝ) : Prop where
  named : Named s
  spaced : Spaced ps
  past : ∀ p ∈ ps, p.spawnTime ≤ s.elapsedTime
  recorded : ∀ p ∈ ps, ∃ earlier, earlier <+: ops ∧ ∃ r,
    ((serverMachine ℝ update leaderboard).run earlier).1.session.players[p.ownerId]? = some r ∧
      r.lastFireTime = some p.spawnTime
  cooling : ∀ p ∈ ps, ∀ r, s.players[p.ownerId]? = some r →
    (∃ t, r.lastFireTime = some t ∧ p.spawnTime ≤ t) ∨ p.spawnTime + 0.1 ≤ s.elapsedTime

variable {update leaderboard}

/-- Nothing is spawned, and a shot whose cooldown runs stays on the record. -/
theorem FireInv.quiet {ops : List (ServerOp ℝ)} {ps : List (Projectile ℝ)} {s s' : GameSession ℝ}
    (h : FireInv update leaderboard ops ps s) (op : ServerOp ℝ) (hnamed : Named s')
    (htime : s.elapsedTime ≤ s'.elapsedTime)
    (hlast : ∀ p ∈ ps, ∀ r', s'.players[p.ownerId]? = some r' →
      (∃ r, s.players[p.ownerId]? = some r ∧ r'.lastFireTime = r.lastFireTime) ∨
        p.spawnTime + 0.1 ≤ s'.elapsedTime) :
    FireInv update leaderboard (ops ++ [op]) ps s' := by
  refine ⟨hnamed, h.spaced, fun p hp => (h.past p hp).trans htime, fun p hp => ?_, fun p hp r' hr' => ?_⟩
  · obtain ⟨earlier, hpre, hrec⟩ := h.recorded p hp
    exact ⟨earlier, hpre.trans (List.prefix_append ..), hrec⟩
  · rcases hlast p hp r' hr' with ⟨r, hr, heq⟩ | hover
    · rw [heq]
      rcases h.cooling p hp r hr with hknown | hold
      · exact .inl hknown
      · exact .inr (hold.trans htime)
    · exact .inr hover

/-- What the cooldown check says of the earlier shots of the player. -/
theorem FireInv.cooled {ops : List (ServerOp ℝ)} {ps : List (Projectile ℝ)} {s : GameSession ℝ}
    (h : FireInv update leaderboard ops ps s) {r : PlayerRuntimeState ℝ} (hcool : s.coolingDown r = false)
    {p : Projectile ℝ} (hp : p ∈ ps) (hr : s.players[p.ownerId]? = some r) :
    p.spawnTime + 0.1 ≤ s.elapsedTime := by
  rcases h.cooling p hp r hr with ⟨t, ht, hle⟩ | hover
  · have hsince : ¬ s.elapsedTime - t < kFireCooldown := by
      simpa [coolingDown, ht] using hcool
    have htenth : (kFireCooldown : ℝ) = 0.1 := by norm_num [kFireCooldown]
    rw [htenth] at hsince
    linarith
  · exact hover

/-- A player that is not cooling down fires, with the projectiles `qs`. -/
theorem FireInv.fired {ops : List (ServerOp ℝ)} {ps qs : List (Projectile ℝ)} {s s' : GameSession ℝ}
    (h : FireInv update leaderboard ops ps s) {op : ServerOp ℝ}
    (hrun : ((serverMachine ℝ update leaderboard).run (ops ++ [op])).1.session = s') (hnamed : Named s')
    (htime : s'.elapsedTime = s.elapsedTime) {id : String} {r r' : PlayerRuntimeState ℝ}
    (hr : s.players[id]? = some r) (hcool : s.coolingDown r = false)
    (hlast : r'.lastFireTime = some s.elapsedTime)
    (hget : ∀ j, s'.players[j]? = if id = j then some r' else s.players[j]?)
    (hqs : ∀ q ∈ qs, q.ownerId = id ∧ q.spawnTime = s.elapsedTime) (hone : qs.length ≤ 1) :
    FireInv update leaderboard (ops ++ [op]) (ps ++ qs) s' := by
  have hself : s'.players[id]? = some r' := by rw [hget, if_pos rfl]
  refine ⟨hnamed, List.pairwise_append.2 ⟨h.spaced, ?_, ?_⟩, ?_, ?_, ?_⟩
  · exact List.pairwise_iff_getElem.2 fun i j _ hj hij => absurd hone (by omega)
  · intro p hp q hq hsame
    obtain ⟨howner, hnow⟩ := hqs q hq
    rw [hnow]
    refine h.cooled hcool hp ?_
    rw [hsame, howner, hr]
  · intro p hp
    rw [htime]
    rcases List.mem_append.1 hp with hp | hp
    · exact h.past p hp
    · exact (hqs p hp).2.le
  · intro p hp
    rcases List.mem_append.1 hp with hp | hp
    · obtain ⟨earlier, hpre, hrec⟩ := h.recorded p hp
      exact ⟨earlier, hpre.trans (List.prefix_append ..), hrec⟩
    · obtain ⟨howner, hnow⟩ := hqs p hp
      refine ⟨ops ++ [op], List.prefix_refl _, r', ?_, ?_⟩
      · rw [hrun, howner, hself]
      · rw [hlast, hnow]
  · intro p hp rp hrp
    rw [htime]
    by_cases howner : p.ownerId = id
    · -- the record now holds this moment
      rw [howner, hself] at hrp
      obtain rfl := Option.some.inj hrp
      refine .inl ⟨s.elapsedTime, hlast, ?_⟩
      rcases List.mem_append.1 hp with hp | hp
      · exact h.past p hp
      · exact (hqs p hp).2.le
    · rcases List.mem_append.1 hp with hp | hp
      · rw [hget, if_neg (Ne.symm howner)] at hrp
        exact h.cooling p hp rp hrp
      · exact absurd (hqs p hp).1 howner

theorem FireInv.upsert {ops : List (ServerOp ℝ)} {ps : List (Projectile ℝ)} {base : WebSocketServer ℝ β}
    (hbase : base = ((serverMachine ℝ update leaderboard).run ops).1)
    (h : FireInv update leaderboard ops ps base.session) {id : String}
    (hrested : RestedJoins update leaderboard (ops ++ [.upsertPlayer id])) :
    FireInv update leaderboard (ops ++ [.upsertPlayer id]) ps (base.session.upsertPlayer id) := by
  refine h.quiet _ (h.named.upsert id) le_rfl fun p hp r' hr' => ?_
  by_cases hid : p.ownerId = id
  · obtain ⟨earlier, hpre, r, hr, ht⟩ := h.recorded p hp
    rw [hid] at hr
    have hback := hrested ops id [] rfl earlier hpre r p.spawnTime hr ht
    rw [← hbase] at hback
    exact .inr hback
  · rw [getElem?_upsertPlayer, if_neg (Ne.symm hid)] at hr'
    exact .inl ⟨r', hr', rfl⟩

theorem FireInv.remove {ops : List (ServerOp ℝ)} {ps : List (Projectile ℝ)} {base : WebSocketServer ℝ β}
    (h : FireInv update leaderboard ops ps base.session) (id : String) :
    FireInv update leaderboard (ops ++ [.removePlayer id]) ps (base.session.removePlayer id) := by
  refine h.quiet _ (h.named.step update (.removePlayer id)) le_rfl fun p hp r' hr' => ?_
  have hget : (base.session.players.erase id)[p.ownerId]? = some r' := hr'
  rw [TreeMap.getElem?_erase] at hget
  split at hget
  · cases hget
  · exact .inl ⟨r', hget, rfl⟩

theorem FireInv.tick {ops : List (ServerOp ℝ)} {ps : List (Projectile ℝ)} {base : WebSocketServer ℝ β}
    (h : FireInv update leaderboard ops ps base.session) (order : List String) (tick : Nat) {dt : ℝ}
    (hforward : 0 ≤ dt) :
    FireInv update leaderboard (ops ++ [.broadcastState order tick dt]) ps
      (base.broadcastState update order tick dt).1.session := by
  have hground := broadcastState_ground update base order tick dt
  have htime : base.session.elapsedTime ≤
      (base.broadcastState update order tick dt).1.session.elapsedTime := by
    rw [hground.elapsed]
    exact le_add_of_nonneg_right hforward
  refine h.quiet _ (h.named.step update (.broadcastState order tick dt)) htime fun p hp r' hr' => ?_
  have hbody := hground.body p.ownerId
  rw [body?, body?, hr', Option.map_some] at hbody
  obtain ⟨r, hr, heq⟩ := Option.map_eq_some_iff.1 hbody.symm
  exact .inl ⟨r, hr, (congrArg (·.2.2) heq).symm⟩

theorem FireInv.input {ops : List (ServerOp ℝ)} {ps : List (Projectile ℝ)} {base : WebSocketServer ℝ β}
    (hbase : base = ((serverMachine ℝ update leaderboard).run ops).1)
    (h : FireInv update leaderboard ops ps base.session) (id : String) (input : MovementInput ℝ) (dt : ℝ) :
    FireInv update leaderboard (ops ++ [.applyInput id input dt])
      (ps ++ base.spawned (.applyInput id input dt)) (base.session.applyInput id input dt).1 := by
  have hnamed : Named (base.session.applyInput id input dt).1 := h.named.step update (.applyInput id input dt)
  have htime := (applyInput_ground base.session id input dt).2
  have hspawned : ∀ qs, (base.session.applyInput id input dt).1.projectiles = base.session.projectiles ++ qs →
      base.spawned (.applyInput id input dt) = qs := by
    intro qs hqs
    rw [WebSocketServer.spawned, hqs, List.drop_left]
  cases hr : base.session.players[id]? with
  | none =>
    rw [hspawned [] (by rw [applyInput_of_none hr, List.append_nil]), List.append_nil]
    refine h.quiet _ hnamed htime.ge fun p hp r' hr' => .inl ⟨r', ?_, rfl⟩
    rwa [applyInput_of_none hr] at hr'
  | some r =>
    obtain ⟨r', hget, hbody⟩ := applyInput_of_some hr input dt
    rcases hbody.fire with ⟨hlast, hps⟩ | ⟨hcool, hlast, hps⟩
    · rw [hspawned [] (by rw [hps, List.append_nil]), List.append_nil]
      refine h.quiet _ hnamed htime.ge fun p hp rp hrp => .inl ?_
      rw [hget] at hrp
      split at hrp
      · rename_i hid
        obtain rfl := Option.some.inj hrp
        exact ⟨r, hid ▸ hr, hlast⟩
      · exact ⟨rp, hrp, rfl⟩
    · have hrun : ((serverMachine ℝ update leaderboard).run (ops ++ [.applyInput id input dt])).1.session =
          (base.session.applyInput id input dt).1 := by
        rw [Machine.run_concat, ← hbase]
        rfl
      rcases hps with hps | ⟨q, hps, howner, hnow⟩
      · rw [hspawned [] (by rw [hps, List.append_nil])]
        exact h.fired hrun hnamed htime hr hcool hlast hget (by simp) (by simp)
      · rw [hspawned [q] hps]
        refine h.fired hrun hnamed htime hr hcool hlast hget (fun p hp => ?_) (by simp)
        rw [List.mem_singleton.1 hp]
        exact ⟨howner.trans (h.named id r hr), hnow⟩

/-- One call of a forward clock that does not let a player in before its time. -/
theorem FireInv.step {ops : List (ServerOp ℝ)} {ps : List (Projectile ℝ)} {base : WebSocketServer ℝ β}
    (hbase : base = ((serverMachine ℝ update leaderboard).run ops).1)
    (h : FireInv update leaderboard ops ps base.session) {op : ServerOp ℝ} (hforward : op.Forward)
    (hrested : RestedJoins update leaderboard (ops ++ [op])) :
    FireInv update leaderboard (ops ++ [op]) (ps ++ base.spawned op) (op.exec update base).1.session := by
  cases op with
  | upsertPlayer id =>
    show FireInv update leaderboard _ (ps ++ []) _
    rw [List.append_nil]
    exact h.upsert hbase hrested
  | removePlayer id =>
    show FireInv update leaderboard _ (ps ++ []) _
    rw [List.append_nil]
    exact h.remove id
  | broadcastState order tick dt =>
    show FireInv update leaderboard _ (ps ++ []) _
    rw [List.append_nil]
    exact h.tick order tick hforward
  | applyInput id input dt => exact h.input hbase id input dt

/-! ### Runs -/

theorem RestedJoins.of_concat {ops : List (ServerOp ℝ)} {op : ServerOp ℝ}
    (h : RestedJoins update leaderboard (ops ++ [op])) : RestedJoins update leaderboard ops :=
  fun pre id post hops => h pre id (post ++ [op]) (by rw [hops]; simp)

theorem fireInv_run {ops : List (ServerOp ℝ)} (hforward : ∀ op ∈ ops, op.Forward)
    (hrested : RestedJoins update leaderboard ops) :
    FireInv update leaderboard ops (shots update leaderboard ops)
      ((serverMachine ℝ update leaderboard).run ops).1.session := by
  induction ops using List.reverseRecOn with
  | nil =>
    have hnamed : Named ((serverMachine ℝ update leaderboard).run []).1.session := by
      intro id r hr
      cases hr
    have hnone : shots update leaderboard ([] : List (ServerOp ℝ)) = [] := rfl
    rw [hnone]
    exact ⟨hnamed, List.Pairwise.nil, by simp, by simp, by simp⟩
  | append_singleton ops op ih =>
    have hops : ∀ op' ∈ ops, op'.Forward := fun op' h => hforward op' (List.mem_append_left _ h)
    have hstep := (ih hops hrested.of_concat).step rfl (hforward op (by simp)) hrested
    rw [shots_concat, Machine.run_concat]
    exact hstep

/-- Shots that keep their distance are at most ten in a second. -/
theorem Spaced.length_le {ps : List (Projectile ℝ)} (h : Spaced ps) (id : String) (t : ℝ) :
    (ps.filter fun p => p.ownerId = id ∧ t ≤ p.spawnTime ∧ p.spawnTime < t + 1).length ≤ 10 := by
  set qs := ps.filter fun p => p.ownerId = id ∧ t ≤ p.spawnTime ∧ p.spawnTime < t + 1 with hqs
  by_cases hempty : qs = []
  · rw [hempty]
    decide
  · have hmem : ∀ q ∈ qs, q.ownerId = id ∧ t ≤ q.spawnTime ∧ q.spawnTime < t + 1 := by
      intro q hq
      simpa using (List.mem_filter.1 hq).2
    have hspaced : (qs.map (·.spawnTime)).Pairwise fun a b => a + 0.1 ≤ b := by
      refine List.pairwise_map.2 ((List.Pairwise.filter _ h).imp_of_mem fun hp hq hkeep => ?_)
      exact hkeep ((hmem _ hp).1.trans (hmem _ hq).1.symm)
    have hlast := lt_of_spaced (t := t) (u := t + 1) (by simpa using hempty) hspaced (by
      intro x hx
      obtain ⟨q, hq, rfl⟩ := List.mem_map.1 hx
      exact (hmem q hq).2)
    rw [List.length_map] at hlast
    have hlt : (qs.length : ℝ) < (11 : Nat) := by
      push_cast
      linarith
    have hnat : qs.length < 11 := Nat.cast_lt.1 hlt
    omega

end

/-! ### Ticks in which nobody is hit -/

section
variable {α : Type} [Scalar α]

theorem scan_eq_none {players : TreeMap String (PlayerRuntimeState α)} {p : Projectile α}
    (h : ∀ (id : String) (r : PlayerRuntimeState α), players[id]? = some r →
      r.state.playerId ≠ p.ownerId → collides p r.state = false) (order : List String) :
    (scan players p order).2 = none := by
  induction order with
  | nil => rfl
  | cons id order ih =>
    unfold scan
    cases hr : players[id]? with
    | none => exact ih
    | some r =>
      dsimp only
      split
      · exact ih
      · next hskip =>
        simp only [Bool.or_eq_true, decide_eq_true_eq, not_or] at hskip
        rw [h id r hr hskip.2]
        exact ih

/-- Projectiles that meet nobody change no player. -/
theorem resolveHits_of_scan (s : GameSession α) (order : List String) (n : Nat) (ps : List (Projectile α))
    (h : ∀ p ∈ ps, (scan s.players p order).2 = none) :
    (s.resolveHits order n ps).1.players = s.players ∧ (s.resolveHits order n ps).2.1 = ps := by
  induction ps generalizing s with
  | nil => exact ⟨rfl, rfl⟩
  | cons p ps ih =>
    have hstep : (s.stepProjectile order n p).1.players = s.players ∧ (s.stepProjectile order n p).2.1 = p := by
      unfold stepProjectile
      split
      · exact ⟨rfl, rfl⟩
      · dsimp only
        rw [h p List.mem_cons_self, Option.bind_none]
        exact ⟨rfl, rfl⟩
    have hrest := ih (s.stepProjectile order n p).1 fun q hq => by
      rw [hstep.1]
      exact h q (List.mem_cons_of_mem p hq)
    unfold resolveHits
    dsimp only
    exact ⟨hrest.1.trans hstep.1, by rw [hstep.2, hrest.2]⟩

end

namespace ConnectionServer
variable {β : Type} [LeaderboardStore β]

/-- With a clock that does not go back, the shots of an id are at least 0.1 s apart, and at most ten in a
second, if an id joins only when every `last_fire_time` it has had is 0.1 s back. -/
theorem fire_rate_limited (conv : SecondsConv ℝ) (sort : List QueuedPlayer → List QueuedPlayer)
    (update : Int → Int → EloRatingUpdate) (readInput : List Char → Option (MovementInput ℝ))
    (targetDelta : ℝ) (leaderboard : Option β) (events : List (ConnectionEvent ℝ))
    (hclock : ∀ order tick dt, .tick order tick dt ∈ events → 0 ≤ dt)
    {ops : List (ServerOp ℝ)}
    (hops : ops = runCalls conv sort update readInput targetDelta leaderboard events)
    (hrested : RestedJoins update leaderboard ops) :
    Spaced (shots update leaderboard ops) ∧
      ∀ id t, ((shots update leaderboard ops).filter fun p =>
        p.ownerId = id ∧ t ≤ p.spawnTime ∧ p.spawnTime < t + 1).length ≤ 10 := by
  have hforward : ∀ op ∈ ops, op.Forward := by
    intro op hop
    rw [hops, ← List.nil_append events, runCalls_append] at hop
    obtain ⟨event, hmem, hcall⟩ := mem_callsFrom conv sort update readInput targetDelta _ events hop
    cases hcall with
    | upsertPlayer hid => trivial
    | removePlayer id => trivial
    | applyInput id input => trivial
    | broadcastState hticked =>
      rw [hticked] at hmem
      exact hclock _ _ _ hmem
  have hspaced := (fireInv_run hforward hrested).spaced
  exact ⟨hspaced, hspaced.length_le⟩

noncomputable section

/-- A frame that shoots along the first axis. -/
def fireFrame (sequence : Nat) : MovementInput ℝ where
  sequence := sequence
  mouseX := 1
  mouseY := 0
  fire := true

/-- `id` is alone in the game, alive, and fired last at `t` with frame `k`. -/
structure LastShot (s : GameSession ℝ) (id : String) (k : Nat) (t : ℝ) : Prop where
  named : Named s
  own : ∀ p ∈ s.projectiles, p.ownerId = id
  alone : ∀ (j : String) (r : PlayerRuntimeState ℝ), s.players[j]? = some r → j = id
  record : ∃ r, s.players[id]? = some r ∧ r.state.isAlive = true ∧ r.state.lastSequence = k ∧
    r.lastFireTime = some t

/-- Nobody is in the game. -/
structure Vacant (s : GameSession ℝ) : Prop where
  players : ∀ j : String, s.players[j]? = none
  projectiles : s.projectiles = []

variable {s : GameSession ℝ} {id : String} {k : Nat} {t : ℝ}

theorem LastShot.tick (h : LastShot s id k t) (order : List String) (n : Nat) (dt : ℝ) :
    LastShot (s.tick order n dt).1 id k t := by
  have hown : ∀ p ∈ s.projectiles.map (moveProjectile (s.elapsedTime + dt) dt), p.ownerId = id := by
    intro p hp
    obtain ⟨q, hq, rfl⟩ := List.mem_map.1 hp
    exact (moveProjectile_spec (s.elapsedTime + dt) dt q).2.1.trans (h.own q hq)
  -- every projectile is the player's own
  obtain ⟨hplayers, hps⟩ := resolveHits_of_scan { s with elapsedTime := s.elapsedTime + dt } order n
    (s.projectiles.map (moveProjectile (s.elapsedTime + dt) dt)) fun p hp =>
      scan_eq_none (fun j r hr hne =>
        absurd ((h.named j r hr).trans ((h.alone j r hr).trans (hown p hp).symm)) hne) order
  have hget : (s.tick order n dt).1.players = s.players := hplayers
  refine ⟨fun j r hr => h.named j r (hget ▸ hr), fun p hp => ?_, fun j r hr => h.alone j r (hget ▸ hr), ?_⟩
  · have hmem : p ∈ s.projectiles.map (moveProjectile (s.elapsedTime + dt) dt) := by
      rw [← hps]
      exact List.mem_of_mem_filter hp
    exact hown p hmem
  · rw [hget]
    exact h.record

theorem Vacant.remove (h : LastShot s id k t) : Vacant (s.removePlayer id) := by
  refine ⟨fun j => ?_, List.filter_eq_nil_iff.2 fun p hp => by simp [h.own p hp]⟩
  show (s.players.erase id)[j]? = none
  rw [TreeMap.getElem?_erase]
  split
  · rfl
  · next hne =>
    cases hj : s.players[j]? with
    | none => rfl
    | some r => exact absurd (by simp [h.alone j r hj]) hne

/-- What a shot leaves behind. -/
structure Fired (s s' : GameSession ℝ) (id : String) (k : Nat) : Prop where
  projectile : ∃ p, s'.projectiles = s.projectiles ++ [p] ∧ p.ownerId = id ∧ p.spawnTime = s.elapsedTime
  record : ∃ r, s'.players = s.players.insert id r ∧ r.state.playerId = id ∧ r.state.isAlive = true ∧
    r.state.lastSequence = k ∧ r.lastFireTime = some s.elapsedTime

theorem trySpawnProjectile_fireFrame (s : GameSession ℝ) {id : String} {r : PlayerRuntimeState ℝ}
    (hname : r.state.playerId = id) (hcool : s.coolingDown r = false)
    (halive : r.state.isAlive = true) (k : Nat) :
    (s.trySpawnProjectile id r (fireFrame k)).2 = .ok true ∧
      Fired s (s.trySpawnProjectile id r (fireFrame k)).1 id r.state.lastSequence := by
  have haim : Scalar.sqrt ((fireFrame k).mouseX * (fireFrame k).mouseX +
      (fireFrame k).mouseY * (fireFrame k).mouseY) = 1 := by
    simp [fireFrame]
  have hlong : ¬ (1 : ℝ) < Scalar.lit (1 / 10 ^ 6) := by norm_num
  have hunit : ¬ Scalar.sqrt ((fireFrame k).mouseX / 1 * ((fireFrame k).mouseX / 1) +
      (fireFrame k).mouseY / 1 * ((fireFrame k).mouseY / 1)) < (Projectile.kEpsilon : ℝ) := by
    norm_num [fireFrame, Projectile.kEpsilon]
  unfold trySpawnProjectile Projectile.make
  simp only [haim, if_neg hlong, hcool, halive, if_neg hunit]
  exact ⟨rfl, ⟨_, rfl, hname, rfl⟩, _, rfl, hname, rfl, rfl, rfl⟩

theorem applyInput_fireFrame {s : GameSession ℝ} {id : String} {r : PlayerRuntimeState ℝ}
    (hr : s.players[id]? = some r) (hname : r.state.playerId = id) (halive : r.state.isAlive = true)
    (hcool : s.coolingDown r = false) {k : Nat} (hseq : r.state.lastSequence ≤ k) (dt : ℝ) :
    (s.applyInput id (fireFrame k) dt).2 = .ok true ∧ Fired s (s.applyInput id (fireFrame k) dt).1 id k := by
  have hfresh : ¬ (fireFrame k).sequence < r.state.lastSequence := Nat.not_lt.2 hseq
  rw [GameSession.applyInput, hr]
  dsimp only
  rw [if_neg hfresh, if_pos halive]
  exact trySpawnProjectile_fireFrame s
    (r := { r with state := s.movePlayer { r.state with lastSequence := k } (fireFrame k) dt })
    hname hcool halive k

theorem Fired.lastShot {s' : GameSession ℝ} (hf : Fired s s' id k) (hown : ∀ p ∈ s.projectiles, p.ownerId = id)
    (halone : ∀ (j : String) (r : PlayerRuntimeState ℝ), s.players[j]? = some r → j = id) :
    LastShot s' id k s.elapsedTime := by
  obtain ⟨⟨p, hps, howner, -⟩, r, hplayers, hname, halive, hseq, hlast⟩ := hf
  have hget : ∀ (j : String) (r' : PlayerRuntimeState ℝ), s'.players[j]? = some r' → j = id ∧ r' = r := by
    intro j r' hr'
    rw [hplayers, TreeMap.getElem?_insert] at hr'
    split at hr'
    · next heq => exact ⟨(Std.compare_eq_iff_eq.1 heq).symm, (Option.some.inj hr').symm⟩
    · next hne => exact absurd (Std.compare_eq_iff_eq.2 (halone j r' hr').symm) hne
  refine ⟨fun j r' hr' => ?_, fun q hq => ?_, fun j r' hr' => (hget j r' hr').1, r, ?_, halive, hseq, hlast⟩
  · obtain ⟨rfl, rfl⟩ := hget j r' hr'
    exact hname
  · rw [hps] at hq
    rcases List.mem_append.1 hq with hq | hq
    · exact hown q hq
    · rw [List.mem_singleton.1 hq]
      exact howner
  · rw [hplayers]
    exact TreeMap.getElem?_insert_self

/-- The player may fire again after the cooldown. -/
theorem LastShot.fire (h : LastShot s id k t) (hcool : t + 0.1 ≤ s.elapsedTime) {k' : Nat} (hseq : k ≤ k')
    (dt : ℝ) :
    (s.applyInput id (fireFrame k') dt).2 = .ok true ∧ Fired s (s.applyInput id (fireFrame k') dt).1 id k' := by
  obtain ⟨r, hr, halive, hlast, ht⟩ := h.record
  refine applyInput_fireFrame hr (h.named id r hr) halive ?_ (hlast.trans_le hseq) dt
  have htenth : (kFireCooldown : ℝ) = 0.1 := by norm_num [kFireCooldown]
  rw [coolingDown, ht]
  dsimp only
  rw [htenth]
  exact decide_eq_false (by linarith)

/-- A player that joins under a new id may fire at once. -/
theorem fire_of_join (s : GameSession ℝ) (id : String) (hnew : s.players[id]? = none) (k : Nat) (dt : ℝ) :
    ((s.upsertPlayer id).applyInput id (fireFrame k) dt).2 = .ok true ∧
      Fired (s.upsertPlayer id) ((s.upsertPlayer id).applyInput id (fireFrame k) dt).1 id k := by
  have hget : (s.upsertPlayer id).players[id]? = some (revive (initRuntime id newRuntime)) := by
    rw [getElem?_upsertPlayer, if_pos rfl, hnew]
    rfl
  exact applyInput_fireFrame hget rfl rfl rfl (Nat.zero_le k) dt

theorem Vacant.join (h : Vacant s) (id : String) (k : Nat) (dt : ℝ) :
    LastShot ((s.upsertPlayer id).applyInput id (fireFrame k) dt).1 id k s.elapsedTime := by
  refine (fire_of_join s id (h.players id) k dt).2.lastShot (fun p hp => ?_) fun j r hr => ?_
  · have hnone : p ∈ s.projectiles := hp
    rw [h.projectiles] at hnone
    cases hnone
  · rw [getElem?_upsertPlayer] at hr
    split at hr
    · next heq => exact heq.symm
    · rw [h.players j] at hr
      cases hr

def readFire (rest : List Char) : Option (MovementInput ℝ) :=
  if rest = " 1 0 0 0 0 1 0 1".toList then some (fireFrame 1)
  else if rest = " 2 0 0 0 0 1 0 1".toList then some (fireFrame 2)
  else none

/-- Connection 0 joins as `p` and fires. -/
def firstShotRun : List (ConnectionEvent ℝ) :=
  [.connect, .accepted 0 true, .arrive 0 (some "input p 1 0 0 0 0 1 0 1"), .read 0 0]

/-- Connection 1 takes `p` over and fires. -/
def secondShotRun : List (ConnectionEvent ℝ) :=
  [.connect, .accepted 1 true, .arrive 1 (some "input p 1 0 0 0 0 1 0 1"), .read 1 1]

omit [LeaderboardStore β] in
theorem applyInput_of_ok {targetDelta : ℝ} {s : ConnectionServer ℝ β} {c : Nat} {input : MovementInput ℝ}
    {b : Bool} (h : (s.base.session.applyInput (s.playerId c) input targetDelta).2 = .ok b) :
    s.applyInput targetDelta c input =
      (s.setSession (s.base.session.applyInput (s.playerId c) input targetDelta).1).readLoop c := by
  unfold applyInput
  dsimp only
  rw [h]

/-- The calls and the shots of a server whose clients send these frames. -/
def fireCalls (events : List (ConnectionEvent ℝ)) : List (ServerOp ℝ) :=
  runCalls realSeconds (List.insertionSort fun a b => b.before a = false) (fun w l => ⟨w, l⟩) readFire
    frameDelta (none : Option InMemoryLeaderboardStore) events

def fireShots (ops : List (ServerOp ℝ)) : List (Projectile ℝ) :=
  shots (fun w l => ⟨w, l⟩) (none : Option InMemoryLeaderboardStore) ops

def sessionAt (ops : List (ServerOp ℝ)) : GameSession ℝ :=
  ((serverMachine ℝ (fun w l => ⟨w, l⟩) (none : Option InMemoryLeaderboardStore)).run ops).1.session

section
variable {ops : List (ServerOp ℝ)}

theorem lastShot_tick (h : LastShot (sessionAt ops) id k t) (order : List String) (n : Nat) (dt : ℝ) :
    LastShot (sessionAt (ops ++ [.broadcastState order n dt])) id k t ∧
      (sessionAt (ops ++ [.broadcastState order n dt])).elapsedTime = (sessionAt ops).elapsedTime + dt := by
  unfold sessionAt
  rw [Machine.run_concat]
  have htick := h.tick order n dt
  exact ⟨⟨htick.named, htick.own, htick.alone, htick.record⟩, (broadcastState_ground _ _ order n dt).elapsed⟩

theorem lastShot_fire (h : LastShot (sessionAt ops) id k t) (hcool : t + 0.1 ≤ (sessionAt ops).elapsedTime)
    {k' : Nat} (hseq : k ≤ k') (dt : ℝ) :
    LastShot (sessionAt (ops ++ [.applyInput id (fireFrame k') dt])) id k' (sessionAt ops).elapsedTime ∧
      (sessionAt (ops ++ [.applyInput id (fireFrame k') dt])).elapsedTime = (sessionAt ops).elapsedTime := by
  have hfired := (h.fire hcool hseq dt).2.lastShot h.own h.alone
  unfold sessionAt at hfired ⊢
  rw [Machine.run_concat]
  exact ⟨hfired, (applyInput_ground _ id (fireFrame k') dt).2⟩

/-- Whose shots, and when. -/
def shotTimes (ops : List (ServerOp ℝ)) : List (String × ℝ) :=
  (fireShots ops).map fun p => (p.ownerId, p.spawnTime)

theorem shotTimes_quiet {op : ServerOp ℝ}
    (h : ∀ server : WebSocketServer ℝ InMemoryLeaderboardStore, server.spawned op = []) :
    shotTimes (ops ++ [op]) = shotTimes ops := by
  unfold shotTimes fireShots
  rw [shots_concat, h, List.append_nil]

theorem shotTimes_fire (h : Fired (sessionAt ops) ((sessionAt ops).applyInput id (fireFrame k) dt).1 id k) :
    shotTimes (ops ++ [.applyInput id (fireFrame k) dt]) =
      shotTimes ops ++ [(id, (sessionAt ops).elapsedTime)] := by
  obtain ⟨p, hps, howner, hnow⟩ := h.projectile
  have hspawned : WebSocketServer.spawned
      ((serverMachine ℝ (fun w l => ⟨w, l⟩) (none : Option InMemoryLeaderboardStore)).run ops).1
      (.applyInput id (fireFrame k) dt) = [p] := by
    show List.drop _ ((sessionAt ops).applyInput id (fireFrame k) dt).1.projectiles = [p]
    rw [hps]
    exact List.drop_left
  unfold shotTimes fireShots
  rw [shots_concat, hspawned, List.map_append, List.map_singleton, howner, hnow]

end

theorem vacant_new : Vacant (sessionAt []) := ⟨fun _ => rfl, rfl⟩

def joinCalls : List (ServerOp ℝ) := [.upsertPlayer "p", .applyInput "p" (fireFrame 1) frameDelta]

/-- A player joins a game without others and fires. -/
theorem lastShot_join {ops : List (ServerOp ℝ)} (h : Vacant (sessionAt ops)) :
    LastShot (sessionAt (ops ++ joinCalls)) "p" 1 (sessionAt ops).elapsedTime ∧
      (sessionAt (ops ++ joinCalls)).elapsedTime = (sessionAt ops).elapsedTime := by
  have hjoined := h.join "p" 1 frameDelta
  unfold sessionAt at hjoined ⊢
  rw [joinCalls, List.append_cons, Machine.run_concat, Machine.run_concat]
  exact ⟨hjoined, (applyInput_ground (GameSession.upsertPlayer _ "p") "p" (fireFrame 1) frameDelta).2⟩

theorem shotTimes_join {ops : List (ServerOp ℝ)} (h : Vacant (sessionAt ops)) :
    shotTimes (ops ++ joinCalls) = shotTimes ops ++ [("p", (sessionAt ops).elapsedTime)] := by
  have hjoined : sessionAt (ops ++ [.upsertPlayer "p"]) = (sessionAt ops).upsertPlayer "p" := by
    unfold sessionAt
    rw [Machine.run_concat]
    rfl
  have hfired := (fire_of_join _ "p" (h.players "p") 1 frameDelta).2
  rw [← hjoined] at hfired
  rw [joinCalls, List.append_cons, shotTimes_fire hfired, shotTimes_quiet fun _ => rfl, hjoined]
  rfl

theorem vacant_remove {ops : List (ServerOp ℝ)} (h : LastShot (sessionAt ops) id k t) :
    Vacant (sessionAt (ops ++ [.removePlayer id])) ∧
      (sessionAt (ops ++ [.removePlayer id])).elapsedTime = (sessionAt ops).elapsedTime := by
  have hvacant := Vacant.remove h
  unfold sessionAt at hvacant ⊢
  rw [Machine.run_concat]
  exact ⟨hvacant, rfl⟩

theorem elapsedTime_start : (sessionAt []).elapsedTime = 0 := Rat.cast_zero

theorem lastShot_first : LastShot (sessionAt joinCalls) "p" 1 0 ∧ (sessionAt joinCalls).elapsedTime = 0 := by
  have hshot := lastShot_join vacant_new
  rw [elapsedTime_start] at hshot
  exact hshot

theorem shotTimes_first : shotTimes joinCalls = [("p", 0)] := by
  refine (shotTimes_join vacant_new).trans ?_
  rw [elapsedTime_start]
  rfl

/-- The server after the first shot. -/
theorem run_firstShot : ((exactMachine readFire).run firstShotRun).1 =
    ((((exactMachine readFire).run (firstShotRun.take 3)).1.identify 0 0 "p").setSession
      ((GameSession.new.upsertPlayer "p").applyInput "p" (fireFrame 1) frameDelta).1).readLoop 0 := by
  have hfirst : ((exactMachine readFire).run firstShotRun).1 =
      (((exactMachine readFire).run (firstShotRun.take 3)).1.identify 0 0 "p").applyInput frameDelta 0
        (fireFrame 1) := rfl
  -- the shot is not an error, so the server goes on
  rw [applyInput_of_ok (fire_of_join _ "p" (vacant_new.players "p") 1 frameDelta).1] at hfirst
  exact hfirst

/-! A player fires, fires again a tenth of a second later, and joins again after another tenth. -/

/-- A tenth of a second later connection 0 fires again. -/
def nextShotRun : List (ConnectionEvent ℝ) :=
  [.tick ["p"] 1 0.1, .arrive 0 (some "input p 2 0 0 0 0 1 0 1"), .read 0 1]

def rejoinRun : List (ConnectionEvent ℝ) :=
  firstShotRun ++ nextShotRun ++ .tick ["p"] 2 0.1 :: secondShotRun

def againCalls : List (ServerOp ℝ) :=
  joinCalls ++ [.broadcastState ["p"] 1 0.1] ++ [.applyInput "p" (fireFrame 2) frameDelta]

def leaveCalls : List (ServerOp ℝ) := againCalls ++ [.broadcastState ["p"] 2 0.1] ++ [.removePlayer "p"]

theorem lastShot_ticked :
    LastShot (sessionAt (joinCalls ++ [.broadcastState ["p"] 1 0.1])) "p" 1 0 ∧
      (sessionAt (joinCalls ++ [.broadcastState ["p"] 1 0.1])).elapsedTime = 0.1 := by
  obtain ⟨hshot, htime⟩ := lastShot_tick lastShot_first.1 ["p"] 1 0.1
  rw [lastShot_first.2] at htime
  exact ⟨hshot, htime.trans (by norm_num)⟩

theorem lastShot_again : LastShot (sessionAt againCalls) "p" 2 0.1 ∧ (sessionAt againCalls).elapsedTime = 0.1 := by
  have hcool : (0 : ℝ) + 0.1 ≤ (sessionAt (joinCalls ++ [.broadcastState ["p"] 1 0.1])).elapsedTime := by
    rw [lastShot_ticked.2, zero_add]
  have hshot := lastShot_fire lastShot_ticked.1 hcool (by decide : 1 ≤ 2) frameDelta
  rw [lastShot_ticked.2] at hshot
  exact hshot

theorem lastShot_rested :
    LastShot (sessionAt (againCalls ++ [.broadcastState ["p"] 2 0.1])) "p" 2 0.1 ∧
      (sessionAt (againCalls ++ [.broadcastState ["p"] 2 0.1])).elapsedTime = 0.2 := by
  obtain ⟨hshot, htime⟩ := lastShot_tick lastShot_again.1 ["p"] 2 0.1
  rw [lastShot_again.2] at htime
  exact ⟨hshot, htime.trans (by norm_num)⟩

theorem vacant_left : Vacant (sessionAt leaveCalls) ∧ (sessionAt leaveCalls).elapsedTime = 0.2 := by
  obtain ⟨hvacant, htime⟩ := vacant_remove lastShot_rested.1
  exact ⟨hvacant, htime.trans lastShot_rested.2⟩

theorem rejoin_calls : fireCalls rejoinRun = leaveCalls ++ joinCalls := by
  have hnext : ((exactMachine readFire).run (firstShotRun ++ nextShotRun)).1 =
      ((nextShotRun.take 2).foldl (fun s event => ((exactMachine readFire).step s event).1)
        ((exactMachine readFire).run firstShotRun).1).applyInput frameDelta 0 (fireFrame 2) := by
    rw [Machine.run_append_fst, run_firstShot]
    rfl
  have hcool : (0 : ℝ) + 0.1 ≤ (sessionAt (joinCalls ++ [.broadcastState ["p"] 1 0.1])).elapsedTime := by
    rw [lastShot_ticked.2, zero_add]
  have hshot := lastShot_ticked.1.fire hcool (by decide : 1 ≤ 2) frameDelta
  rw [run_firstShot, applyInput_of_ok hshot.1] at hnext
  rw [fireCalls, rejoinRun, runCalls_append, runCalls_append]
  show _ ++ callsFrom _ _ _ _ _ ((exactMachine readFire).run firstShotRun).1 _ ++
    callsFrom _ _ _ _ _ ((exactMachine readFire).run (firstShotRun ++ nextShotRun)).1 _ = _
  rw [hnext, run_firstShot]
  rfl

/-- When the player joins again, both its shots are a tenth of a second back. -/
theorem rejoin_rested {earlier : List (ServerOp ℝ)} (hpre : earlier <+: leaveCalls) {r : PlayerRuntimeState ℝ}
    {t : ℝ} (hr : (sessionAt earlier).players["p"]? = some r) (ht : r.lastFireTime = some t) :
    t + 0.1 ≤ (sessionAt leaveCalls).elapsedTime := by
  have hshot : ∀ {ops k u}, LastShot (sessionAt ops) "p" k u → earlier = ops → u ≤ 0.1 →
      t + 0.1 ≤ (sessionAt leaveCalls).elapsedTime := by
    intro ops k u hlast hops hu
    obtain ⟨r', hr', -, -, ht'⟩ := hlast.record
    rw [hops, hr'] at hr
    rw [← Option.some.inj hr, ht'] at ht
    rw [vacant_left.2, ← Option.some.inj ht]
    linarith
  rw [List.prefix_iff_eq_take] at hpre
  have hlength : earlier.length ≤ 6 := by
    rw [hpre]
    exact List.length_take_le' _ _
  generalize earlier.length = n at hpre hlength
  rcases n with _ | _ | _ | _ | _ | _ | _ | n
  · rw [hpre] at hr
    cases hr
  · rw [hpre] at hr
    cases hr
    cases ht
  · exact hshot lastShot_first.1 hpre (by norm_num)
  · exact hshot lastShot_ticked.1 hpre (by norm_num)
  · exact hshot lastShot_again.1 hpre le_rfl
  · exact hshot lastShot_rested.1 hpre le_rfl
  · rw [show earlier = leaveCalls from hpre, vacant_left.1.players] at hr
    cases hr
  · omega

theorem restedJoins_rejoin : RestedJoins (fun w l => ⟨w, l⟩) (none : Option InMemoryLeaderboardStore)
    (leaveCalls ++ joinCalls) := by
  intro pre id post hops earlier hpre r t hr ht
  have hat : (leaveCalls ++ joinCalls)[pre.length]? = some (.upsertPlayer id) := by
    rw [hops, List.getElem?_append_right le_rfl, Nat.sub_self]
    rfl
  have htake : pre = (leaveCalls ++ joinCalls).take pre.length := by rw [hops, List.take_left]
  generalize pre.length = n at hat htake
  rcases n with _ | _ | _ | _ | _ | _ | _ | _ | n
  · rw [htake] at hpre
    obtain rfl := List.prefix_nil.1 hpre
    cases hr
  · cases hat
  · cases hat
  · cases hat
  · cases hat
  · cases hat
  · cases hat
    rw [show pre = leaveCalls from htake] at hpre ⊢
    exact rejoin_rested hpre hr ht
  · cases hat
  · cases hat

/-- Three shots of one player, which joins again before the last. -/
theorem fire_rate_limited_rejoin :
    shotTimes (fireCalls rejoinRun) = [("p", 0), ("p", 0.1), ("p", 0.2)] ∧
      Spaced (fireShots (fireCalls rejoinRun)) ∧
      ∀ id t, ((fireShots (fireCalls rejoinRun)).filter fun p =>
        p.ownerId = id ∧ t ≤ p.spawnTime ∧ p.spawnTime < t + 1).length ≤ 10 := by
  refine ⟨?_, fire_rate_limited realSeconds (List.insertionSort fun a b => b.before a = false)
    (fun w l => ⟨w, l⟩) readFire frameDelta none rejoinRun ?_ rfl ?_⟩
  · have hagain : shotTimes againCalls = [("p", 0), ("p", 0.1)] := by
      have hcool : (0 : ℝ) + 0.1 ≤ (sessionAt (joinCalls ++ [.broadcastState ["p"] 1 0.1])).elapsedTime := by
        rw [lastShot_ticked.2, zero_add]
      have hfired := (lastShot_ticked.1.fire hcool (by decide : 1 ≤ 2) frameDelta).2
      refine (shotTimes_fire hfired).trans ?_
      rw [lastShot_ticked.2, shotTimes_quiet fun _ => rfl, shotTimes_first]
      rfl
    have hleft : shotTimes leaveCalls = [("p", 0), ("p", 0.1)] := by
      rw [leaveCalls, shotTimes_quiet fun _ => rfl, shotTimes_quiet fun _ => rfl, hagain]
    rw [rejoin_calls, shotTimes_join vacant_left.1, vacant_left.2, hleft]
    rfl
  · intro order tick dt hmem
    have hdt : dt = 0.1 := by
      simp [rejoinRun, firstShotRun, nextShotRun, secondShotRun] at hmem
      rcases hmem with ⟨-, -, h⟩ | ⟨-, -, h⟩
      · exact h
      · exact h
    rw [hdt]
    norm_num
  · rw [rejoin_calls]
    exact restedJoins_rejoin

/-- The two connections make these calls. -/
theorem takeover_calls : fireCalls (firstShotRun ++ secondShotRun) =
    joinCalls ++ [.removePlayer "p"] ++ joinCalls := by
  rw [fireCalls, runCalls_append]
  show _ ++ callsFrom _ _ _ _ _ ((exactMachine readFire).run firstShotRun).1 secondShotRun = _
  rw [run_firstShot]
  rfl

/-- Both connections fire as `p` in the same moment. -/
theorem takeover_fires_twice :
    (fireShots (fireCalls (firstShotRun ++ secondShotRun))).map (fun p => (p.ownerId, p.spawnTime)) =
        [("p", 0), ("p", 0)] ∧
      ¬ Spaced (fireShots (fireCalls (firstShotRun ++ secondShotRun))) := by
  have htimes : shotTimes (fireCalls (firstShotRun ++ secondShotRun)) = [("p", 0), ("p", 0)] := by
    obtain ⟨hvacant, htime⟩ := vacant_remove lastShot_first.1
    rw [takeover_calls, shotTimes_join hvacant, htime, lastShot_first.2, shotTimes_quiet fun _ => rfl,
      shotTimes_first]
    rfl
  refine ⟨htimes, fun hspaced => ?_⟩
  obtain ⟨p, ps, hshots, hp, hps⟩ := List.map_eq_cons_iff.1 htimes
  obtain ⟨q, qs, rfl, hq, -⟩ := List.map_eq_cons_iff.1 hps
  rw [hshots] at hspaced
  have hapart := (List.pairwise_cons.1 hspaced).1 q List.mem_cons_self
    ((congrArg Prod.fst hp).trans (congrArg Prod.fst hq).symm)
  rw [show p.spawnTime = 0 from congrArg Prod.snd hp, show q.spawnTime = 0 from congrArg Prod.snd hq] at hapart
  norm_num at hapart

end

end ConnectionServer

end Portfolio.Arena
