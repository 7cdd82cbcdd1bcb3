import Portfolio.Arena.GameSession

/-!
# The combat invariant

`CombatInv` ties the copies of a player's health, the death queue, the projectiles and the shot
counters of a `GameSession` together. The outer loop of a tick is followed projectile by projectile
(`Loop`); what a step does to the lives is kept apart in `Progress`, which composes.
-/

namespace Portfolio.Arena
open Std

/-! ### Traces -/

/-- What a run of a session shows: upserts, logged events and consumed deaths. -/
inductive SessionTrace where
  | upsert (id : String)
  | event (e : CombatEvent)
  | consumed (events : List CombatEvent)

def CombatEvent.IsHitOn (id : String) (e : CombatEvent) : Prop := e.type = .hit ∧ e.targetId = id

def CombatEvent.IsDeathOf (id : String) (e : CombatEvent) : Prop := e.type = .death ∧ e.targetId = id

instance (id : String) (e : CombatEvent) : Decidable (e.IsHitOn id) := inferInstanceAs (Decidable (_ ∧ _))

instance (id : String) (e : CombatEvent) : Decidable (e.IsDeathOf id) := inferInstanceAs (Decidable (_ ∧ _))

/-- The hits that player `id` has taken since its last upsert. -/
def hitsSince (id : String) (trace : List SessionTrace) : Nat :=
  trace.foldl (fun n t => match t with
    | .upsert j => if j = id then 0 else n
    | .event e => if e.IsHitOn id then n + 1 else n
    | .consumed _ => n) 0

/-- The deaths that were queued. -/
def deathsIn (trace : List SessionTrace) : List CombatEvent :=
  trace.filterMap fun
    | .event e => if e.type = .death then some e else none
    | _ => none

/-- The deaths that were handed out. -/
def consumedIn (trace : List SessionTrace) : List CombatEvent :=
  trace.flatMap fun
    | .consumed events => events
    | _ => []

theorem hitsSince_events (id : String) (trace : List SessionTrace) (events : List CombatEvent) :
    hitsSince id (trace ++ events.map .event) = hitsSince id trace + events.countP (·.IsHitOn id) := by
  induction events using List.reverseRecOn with
  | nil => simp
  | append_singleton events e ih =>
    unfold hitsSince at ih ⊢
    rw [List.map_append, ← List.append_assoc, List.foldl_append, ih, List.countP_append]
    simp only [List.map_cons, List.map_nil, List.foldl_cons, List.foldl_nil, List.countP_singleton]
    by_cases h : e.IsHitOn id
    · simp [h, Nat.add_assoc]
    · simp [h]

theorem deathsIn_events (events : List CombatEvent) :
    deathsIn (events.map .event) = events.filter (·.type = .death) := by
  induction events with
  | nil => rfl
  | cons e events ih =>
    unfold deathsIn at ih ⊢
    rw [List.map_cons, List.filterMap_cons, ih, List.filter_cons]
    by_cases h : e.type = .death
    · simp [h]
    · simp [h]

theorem consumedIn_events (events : List CombatEvent) : consumedIn (events.map .event) = [] := by
  simp [consumedIn, List.flatMap_map]

theorem deathsIn_append (trace trace' : List SessionTrace) :
    deathsIn (trace ++ trace') = deathsIn trace ++ deathsIn trace' :=
  List.filterMap_append

theorem consumedIn_append (trace trace' : List SessionTrace) :
    consumedIn (trace ++ trace') = consumedIn trace ++ consumedIn trace' :=
  List.flatMap_append

section
variable {α : Type}

/-! ### The invariant -/

/-- The record of player `id` after `hits` hits since its last upsert. -/
structure PlayerOk (id : String) (hits : Nat) (r : PlayerRuntimeState α) : Prop where
  named : id ≠ "" ∧ r.state.playerId = id
  max : r.health.max = 100
  current : r.health.current = 100 - 20 * hits
  hits : hits ≤ 5
  health : r.state.health = r.health.current
  alive : r.state.isAlive = r.health.isAlive
  announced : r.deathAnnounced = !r.state.isAlive
  counters : r.state.shotsFired = r.shotsFired ∧ r.state.hitsLanded = r.hitsLanded ∧
    r.state.deaths = r.deaths

/-- The active projectiles of player `id` among `ps`. -/
def inFlight (id : String) (ps : List (Projectile α)) : Nat :=
  ps.countP fun p => p.active && p.ownerId = id

/-- The session inside a tick, with `ps` in place of its projectiles. -/
structure Loop (trace : List SessionTrace) (s : GameSession α) (ps : List (Projectile α)) : Prop where
  player : ∀ id r, s.players[id]? = some r → PlayerOk id (hitsSince id trace) r
  owner : ∀ p ∈ ps, p.active = true → ∃ r, s.players[p.ownerId]? = some r
  budget : ∀ id r, s.players[id]? = some r → r.hitsLanded + inFlight id ps ≤ r.shotsFired
  ids : (ps.map (·.id)).Nodup
  named : ∀ p ∈ ps, ∃ k, k ≤ s.projectileCounter ∧ p.id = "projectile-" ++ toString k
  queue : consumedIn trace ++ s.pendingDeaths = deathsIn trace
  total : s.playersDeadTotal = (deathsIn trace).length

/-- Whether a registered player lives, and how often it has died. -/
def status (s : GameSession α) (id : String) : Option (Bool × Nat) :=
  (s.players[id]?).map fun r => (r.state.isAlive, r.state.deaths)

/-- From `s` to `s'`, logging `events`: a player stays as it is, or dies with one death event. -/
def Progress (s s' : GameSession α) (events : List CombatEvent) : Prop :=
  ∀ id, (status s' id = status s id ∧ events.countP (·.IsDeathOf id) = 0) ∨
    ∃ deaths, status s id = some (true, deaths) ∧ status s' id = some (false, deaths + 1) ∧
      events.countP (·.IsDeathOf id) = 1

theorem Progress.trans {s s' s'' : GameSession α} {events events' : List CombatEvent}
    (h : Progress s s' events) (h' : Progress s' s'' events') : Progress s s'' (events ++ events') := by
  intro id
  rw [List.countP_append]
  rcases h id with ⟨h1, h2⟩ | ⟨d, h1, h2, h3⟩ <;> rcases h' id with ⟨h1', h2'⟩ | ⟨d', h1', h2', h3'⟩
  · exact .inl ⟨h1'.trans h1, by omega⟩
  · exact .inr ⟨d', h1 ▸ h1', h2', by omega⟩
  · exact .inr ⟨d, h1, h1'.trans h2, by omega⟩
  · rw [h2] at h1'
    cases h1'

theorem Loop.congr {trace : List SessionTrace} {s s' : GameSession α} {ps : List (Projectile α)}
    (h : Loop trace s ps) (hp : s'.players = s.players) (hc : s.projectileCounter ≤ s'.projectileCounter)
    (hq : s'.pendingDeaths = s.pendingDeaths) (ht : s'.playersDeadTotal = s.playersDeadTotal) :
    Loop trace s' ps := by
  refine ⟨hp ▸ h.player, hp ▸ h.owner, hp ▸ h.budget, h.ids, ?_, hq ▸ h.queue, ht ▸ h.total⟩
  intro p hps
  obtain ⟨k, hk, hid⟩ := h.named p hps
  exact ⟨k, hk.trans hc, hid⟩

/-- `f` moves projectiles, or switches them off. -/
theorem Loop.map {trace : List SessionTrace} {s : GameSession α} {ps : List (Projectile α)}
    (h : Loop trace s ps) {f : Projectile α → Projectile α}
    (hf : ∀ p, (f p).id = p.id ∧ (f p).ownerId = p.ownerId ∧ ((f p).active = true → p.active = true)) :
    Loop trace s (ps.map f) := by
  have hflight : ∀ id, inFlight id (ps.map f) ≤ inFlight id ps := by
    intro id
    unfold inFlight
    rw [List.countP_map]
    refine List.countP_mono_left fun p _ hp => ?_
    simp only [Function.comp_apply, Bool.and_eq_true, decide_eq_true_eq] at hp ⊢
    exact ⟨(hf p).2.2 hp.1, (hf p).2.1 ▸ hp.2⟩
  refine ⟨h.player, ?_, ?_, ?_, ?_, h.queue, h.total⟩
  · intro q hq hqa
    obtain ⟨p, hp, rfl⟩ := List.mem_map.1 hq
    rw [(hf p).2.1]
    exact h.owner p hp ((hf p).2.2 hqa)
  · intro id r hr
    exact (Nat.add_le_add_left (hflight id) _).trans (h.budget id r hr)
  · rw [List.map_map, show (fun p : Projectile α => p.id) ∘ f = (·.id) from funext fun p => (hf p).1]
    exact h.ids
  · intro q hq
    obtain ⟨p, hp, rfl⟩ := List.mem_map.1 hq
    rw [(hf p).1]
    exact h.named p hp

theorem Loop.sublist {trace : List SessionTrace} {s : GameSession α} {ps ps' : List (Projectile α)}
    (h : Loop trace s ps) (hsub : ps'.Sublist ps) : Loop trace s ps' := by
  refine ⟨h.player, fun p hp => h.owner p (hsub.subset hp), ?_, h.ids.sublist (hsub.map _),
    fun p hp => h.named p (hsub.subset hp), h.queue, h.total⟩
  intro id r hr
  exact (Nat.add_le_add_left (hsub.countP_le) _).trans (h.budget id r hr)

/-- Nothing is logged and the players stay. -/
theorem Progress.of_players {s s' : GameSession α} (h : s'.players = s.players) : Progress s s' [] := by
  intro id
  unfold status
  rw [h]
  exact .inl ⟨rfl, rfl⟩

/-! ### One hit -/

theorem getElem?_updatePlayer (players : TreeMap String (PlayerRuntimeState α)) (id j : String)
    (f : PlayerRuntimeState α → PlayerRuntimeState α) :
    (updatePlayer players id f)[j]? = if id = j then (players[j]?).map f else players[j]? := by
  unfold updatePlayer
  cases h : players[id]? with
  | none =>
    by_cases hj : id = j
    · subst hj
      simp [h]
    · simp [hj]
  | some r =>
    simp only [TreeMap.getElem?_insert, Std.compare_eq_iff_eq]
    by_cases hj : id = j
    · subst hj
      simp [h]
    · simp [hj]

open GameSession

/-- The hit on `r` is its last one. -/
def fatal (r : PlayerRuntimeState α) : Bool :=
  (r.health.applyDamage kDamagePerHit).2 && !r.deathAnnounced

/-- The target after a hit. -/
def struck (r : PlayerRuntimeState α) : PlayerRuntimeState α :=
  if fatal r then announceDeath (damaged r) else damaged r

theorem applyHit_players (s : GameSession α) (p : Projectile α) {id : String}
    (r : PlayerRuntimeState α) (tick : Nat) (hne : p.ownerId ≠ id) (j : String) :
    (s.applyHit p id r tick).1.players[j]? =
      if id = j then some (struck r)
      else if p.ownerId = j then (s.players[j]?).map creditHit else s.players[j]? := by
  unfold applyHit struck
  dsimp only
  rw [← fatal]
  cases fatal r <;>
    simp only [Bool.false_eq_true, ↓reduceIte, getElem?_updatePlayer, TreeMap.getElem?_insert,
      Std.compare_eq_iff_eq]
  · by_cases hj : id = j
    · subst hj
      simp [hne]
    · simp [hj]
  · by_cases hj : id = j
    · subst hj
      simp [hne]
    · simp [hj]

theorem applyHit_events (s : GameSession α) (p : Projectile α) (id : String)
    (r : PlayerRuntimeState α) (tick : Nat) :
    (s.applyHit p id r tick).2 =
      hitEvent p r tick :: if fatal r then [deathEvent p r tick] else [] := by
  unfold applyHit
  dsimp only
  rw [← fatal]
  cases fatal r <;> rfl

/-- A living player takes a hit; the fifth one is fatal. -/
theorem PlayerOk.struck {id : String} {n : Nat} {r : PlayerRuntimeState α} (h : PlayerOk id n r)
    (ha : r.state.isAlive = true) :
    PlayerOk id (n + 1) (struck r) ∧ (fatal r = true ↔ n = 4) ∧
      (Arena.struck r).state.isAlive = !fatal r := by
  have hpos : 0 < r.health.current := by
    have := h.alive.symm.trans ha
    simpa [HealthComponent.isAlive] using this
  have hann : r.deathAnnounced = false := by rw [h.announced, ha]; rfl
  have hn : n < 5 := by
    have := h.current
    omega
  -- the damage: 20 points, none of them lost to the lower bound
  have hdmg : r.health.applyDamage kDamagePerHit =
      ({ r.health with current := 100 - 20 * ((n + 1 : Nat) : Int) }, decide (n = 4)) := by
    have hmax : Max.max 0 (r.health.current - kDamagePerHit) = 100 - 20 * ((n + 1 : Nat) : Int) := by
      rw [h.current, kDamagePerHit]
      omega
    have hzero : (100 - 20 * ((n + 1 : Nat) : Int) = 0) ↔ n = 4 := by omega
    unfold HealthComponent.applyDamage
    rw [if_neg (by decide), if_neg (by simp [HealthComponent.isAlive, hpos])]
    dsimp only
    rw [hmax, decide_eq_decide.2 hzero]
  have hfatal : fatal r = decide (n = 4) := by
    rw [fatal, hdmg, hann]
    simp
  obtain ⟨h1, h2, h3⟩ := h.counters
  unfold Arena.struck
  rw [hfatal]
  by_cases h4 : n = 4
  · subst h4
    simp only [decide_true, ↓reduceIte, announceDeath, damaged, hdmg, Bool.not_true,
      HealthComponent.isAlive]
    exact ⟨⟨h.named, h.max, rfl, by decide, rfl, rfl, rfl, h1, h2, rfl⟩, trivial, rfl⟩
  · simp only [h4, decide_false, Bool.false_eq_true, ↓reduceIte, damaged, hdmg, Bool.not_false,
      HealthComponent.isAlive]
    have hleft : 0 < 100 - 20 * ((n + 1 : Nat) : Int) := by omega
    refine ⟨⟨h.named, h.max, rfl, by omega, rfl, rfl, ?_, h1, h2, h3⟩, trivial, decide_eq_true hleft⟩
    rw [hann, decide_eq_true hleft]
    rfl

theorem struck_counters (r : PlayerRuntimeState α) :
    (struck r).hitsLanded = r.hitsLanded ∧ (struck r).shotsFired = r.shotsFired := by
  unfold struck
  split <;> exact ⟨rfl, rfl⟩

theorem struck_deaths (r : PlayerRuntimeState α) (h : r.state.deaths = r.deaths) :
    (struck r).state.deaths = r.state.deaths + if fatal r then 1 else 0 := by
  unfold struck
  split
  · rw [h]
    rfl
  · rfl

theorem PlayerOk.creditHit {id : String} {n : Nat} {r : PlayerRuntimeState α} (h : PlayerOk id n r) :
    PlayerOk id n (creditHit r) :=
  ⟨h.named, h.max, h.current, h.hits, h.health, h.alive, h.announced, h.counters.1, rfl, h.counters.2.2⟩

theorem inFlight_split (id : String) (done todo : List (Projectile α)) (p : Projectile α) :
    inFlight id (done ++ p :: todo) = inFlight id done + inFlight id todo +
      if p.active ∧ p.ownerId = id then 1 else 0 := by
  unfold inFlight
  rw [List.countP_append, List.countP_cons]
  simp only [Bool.and_eq_true, decide_eq_true_eq]
  omega

theorem applyHit_queue (s : GameSession α) (p : Projectile α) (id : String)
    (r : PlayerRuntimeState α) (tick : Nat) :
    (s.applyHit p id r tick).1.pendingDeaths =
        s.pendingDeaths ++ (s.applyHit p id r tick).2.filter (·.type = .death) ∧
      (s.applyHit p id r tick).1.playersDeadTotal =
        s.playersDeadTotal + ((s.applyHit p id r tick).2.filter (·.type = .death)).length ∧
      (s.applyHit p id r tick).1.projectileCounter = s.projectileCounter := by
  rw [applyHit_events]
  unfold applyHit
  dsimp only
  rw [← fatal]
  cases fatal r
  · exact ⟨(List.append_nil _).symm, rfl, rfl⟩
  · exact ⟨rfl, rfl, rfl⟩

theorem applyHit_hits (s : GameSession α) (p : Projectile α) (id : String)
    (r : PlayerRuntimeState α) (tick : Nat) (j : String) :
    (s.applyHit p id r tick).2.countP (·.IsHitOn j) = if r.state.playerId = j then 1 else 0 := by
  rw [applyHit_events]
  cases fatal r <;> simp [CombatEvent.IsHitOn, hitEvent, deathEvent, List.countP_cons]

theorem applyHit_deaths (s : GameSession α) (p : Projectile α) (id : String)
    (r : PlayerRuntimeState α) (tick : Nat) (j : String) :
    (s.applyHit p id r tick).2.countP (·.IsDeathOf j) =
      if fatal r ∧ r.state.playerId = j then 1 else 0 := by
  rw [applyHit_events]
  cases fatal r <;> simp [CombatEvent.IsDeathOf, hitEvent, deathEvent, List.countP_cons]

theorem mem_deactivate {done todo : List (Projectile α)} {p q : Projectile α}
    (h : q ∈ done ++ p.deactivate :: todo) : q = p.deactivate ∨ q ∈ done ++ p :: todo := by
  simp only [List.mem_append, List.mem_cons] at h ⊢
  rcases h with h | rfl | h
  · exact .inr (.inl h)
  · exact .inl rfl
  · exact .inr (.inr (.inr h))

/-- The hit uses up a shot of its shooter. -/
theorem Loop.hit_budget {trace : List SessionTrace} {s : GameSession α} {done todo : List (Projectile α)}
    {p : Projectile α} (h : Loop trace s (done ++ p :: todo)) (hact : p.active = true) {id : String}
    {r : PlayerRuntimeState α} (hr : s.players[id]? = some r) (hne : p.ownerId ≠ id) (tick : Nat)
    {j : String} {rj : PlayerRuntimeState α} (hj : (s.applyHit p id r tick).1.players[j]? = some rj) :
    rj.hitsLanded + inFlight j (done ++ p.deactivate :: todo) ≤ rj.shotsFired := by
  have hsplit : inFlight j (done ++ p.deactivate :: todo) = inFlight j done + inFlight j todo := by
    rw [inFlight_split]
    simp [Projectile.deactivate]
  rw [hsplit]
  rw [applyHit_players s p r tick hne] at hj
  split at hj
  · next hij =>
    subst hij
    cases hj
    have := h.budget _ r hr
    rw [inFlight_split] at this
    rw [(struck_counters r).1, (struck_counters r).2]
    omega
  · split at hj
    · next hij =>
      obtain ⟨rj', hj', rfl⟩ := Option.map_eq_some_iff.1 hj
      have := h.budget j rj' hj'
      rw [inFlight_split, if_pos ⟨hact, hij⟩] at this
      show rj'.hitsLanded + 1 + _ ≤ rj'.shotsFired
      omega
    · have := h.budget j rj hj
      rw [inFlight_split] at this
      omega

/-- The projectile `p` hits the living player `id`. -/
theorem Loop.hit {trace : List SessionTrace} {s : GameSession α} {done todo : List (Projectile α)}
    {p : Projectile α} (h : Loop trace s (done ++ p :: todo)) (hact : p.active = true) {id : String}
    {r : PlayerRuntimeState α} (hr : s.players[id]? = some r) (ha : r.state.isAlive = true)
    (hne : r.state.playerId ≠ p.ownerId) (tick : Nat) :
    Loop (trace ++ (s.applyHit p id r tick).2.map .event) (s.applyHit p id r tick).1
      (done ++ p.deactivate :: todo) := by
  have hok := h.player id r hr
  obtain ⟨hstruck, -, -⟩ := hok.struck ha
  have hid : r.state.playerId = id := hok.named.2
  have hhits := applyHit_hits s p id r tick
  rw [hid] at hne hhits
  have hplayers := applyHit_players s p r tick hne.symm
  obtain ⟨hpending, htotal, hcounter⟩ := applyHit_queue s p id r tick
  refine ⟨?_, ?_, ?_, ?_, ?_, ?_, ?_⟩
  · intro j rj hj
    rw [hplayers] at hj
    rw [hitsSince_events, hhits]
    split at hj
    · next hij =>
      subst hij
      cases hj
      simpa using hstruck
    · next hij =>
      rw [if_neg hij, Nat.add_zero]
      split at hj
      · obtain ⟨rj', hj', rfl⟩ := Option.map_eq_some_iff.1 hj
        exact (h.player j rj' hj').creditHit
      · exact h.player j rj hj
  · intro q hq hqa
    have hq' : q ∈ done ++ p :: todo := by
      rcases mem_deactivate hq with rfl | hq
      · cases hqa
      · exact hq
    obtain ⟨rq, hrq⟩ := h.owner q hq' hqa
    rw [hplayers]
    by_cases hj : id = q.ownerId
    · exact ⟨_, if_pos hj⟩
    · rw [if_neg hj, hrq]
      split
      · exact ⟨_, rfl⟩
      · exact ⟨_, rfl⟩
  · intro j rj hj
    exact h.hit_budget hact hr hne.symm tick hj
  · have := h.ids
    simpa [Projectile.deactivate] using this
  · intro q hq
    rw [hcounter]
    rcases mem_deactivate hq with rfl | hq
    · exact h.named p (by simp)
    · exact h.named q hq
  · rw [consumedIn_append, consumedIn_events, List.append_nil, hpending, ← List.append_assoc, h.queue,
      deathsIn_append, deathsIn_events]
  · rw [htotal, h.total, deathsIn_append, deathsIn_events, List.length_append]

/-- A hit changes the life of its target only. -/
theorem Progress.hit {s : GameSession α} {p : Projectile α} {id : String} {n : Nat}
    {r : PlayerRuntimeState α} (hr : s.players[id]? = some r) (hok : PlayerOk id n r)
    (ha : r.state.isAlive = true) (hne : r.state.playerId ≠ p.ownerId) (tick : Nat) :
    Progress s (s.applyHit p id r tick).1 (s.applyHit p id r tick).2 := by
  obtain ⟨-, -, halive⟩ := hok.struck ha
  have hdeaths := applyHit_deaths s p id r tick
  rw [hok.named.2] at hne hdeaths
  have hplayers := applyHit_players s p r tick hne.symm
  intro j
  rw [hdeaths]
  unfold status
  rw [hplayers]
  by_cases hij : id = j
  · subst hij
    simp only [↓reduceIte, Option.map_some, hr, halive, struck_deaths r hok.counters.2.2, ha, and_true]
    cases fatal r
    · exact .inl ⟨rfl, rfl⟩
    · exact .inr ⟨_, rfl, rfl, rfl⟩
  · refine .inl ⟨?_, if_neg (by simp [hij])⟩
    rw [if_neg hij]
    split
    · cases s.players[j]? <;> rfl
    · rfl

end

/-! ### The outer loop -/

section
variable {α : Type} [Scalar α]
open GameSession

/-- The inner loop stops at a living player that does not own the projectile. -/
theorem scan_some {players : TreeMap String (PlayerRuntimeState α)} {p : Projectile α}
    {order : List String} {id : String} (h : (scan players p order).2 = some id) :
    ∃ r, players[id]? = some r ∧ r.state.isAlive = true ∧ r.state.playerId ≠ p.ownerId := by
  induction order with
  | nil => cases h
  | cons j order ih =>
    unfold scan at h
    cases hj : players[j]? with
    | none =>
      rw [hj] at h
      exact ih h
    | some r =>
      rw [hj] at h
      dsimp only at h
      split at h
      · exact ih h
      · next hskip =>
        split at h
        · cases h
          simp only [Bool.or_eq_true, Bool.not_eq_true', decide_eq_true_eq, not_or,
            Bool.not_eq_false] at hskip
          exact ⟨r, hj, hskip⟩
        · exact ih h

/-- One projectile of the outer loop: no hit, or a hit on a living player. -/
theorem stepProjectile_cases (s : GameSession α) (order : List String) (tick : Nat)
    (p : Projectile α) :
    (∃ n, s.stepProjectile order tick p = ({ s with collisionsCheckedTotal := n }, p, [])) ∨
    ∃ n id r, p.active = true ∧ s.players[id]? = some r ∧ r.state.isAlive = true ∧
      r.state.playerId ≠ p.ownerId ∧ s.stepProjectile order tick p =
        (({ s with collisionsCheckedTotal := n }.applyHit p id r tick).1, p.deactivate,
          ({ s with collisionsCheckedTotal := n }.applyHit p id r tick).2) := by
  unfold GameSession.stepProjectile
  split
  · exact .inl ⟨s.collisionsCheckedTotal, rfl⟩
  · next hact =>
    dsimp only
    cases hscan : (scan s.players p order).2 with
    | none => exact .inl ⟨_, rfl⟩
    | some id =>
      obtain ⟨r, hr, ha, hne⟩ := scan_some hscan
      refine .inr ⟨s.collisionsCheckedTotal + (scan s.players p order).1, id, r, by simpa using hact,
        hr, ha, hne, ?_⟩
      rw [Option.bind_some, hr]
      rfl

/-- The rule of the outer loop: counting comparisons and single hits are all that it does to a session. -/
theorem resolveHits_rule {P : GameSession α → Prop}
    (hcount : ∀ s n, P s → P { s with collisionsCheckedTotal := n })
    (hhit : ∀ s p id r tick, s.players[id]? = some r → P s → P (s.applyHit p id r tick).1)
    {s : GameSession α} (h : P s) (order : List String) (tick : Nat) (ps : List (Projectile α)) :
    P (s.resolveHits order tick ps).1 := by
  induction ps generalizing s with
  | nil => exact h
  | cons p ps ih =>
    refine ih ?_
    rcases stepProjectile_cases s order tick p with ⟨n, heq⟩ | ⟨n, id, r, -, hr, -, -, heq⟩
    · rw [heq]
      exact hcount s n h
    · rw [heq]
      exact hhit _ p id r tick hr (hcount s n h)

theorem Loop.stepProjectile {trace : List SessionTrace} {s : GameSession α}
    {done todo : List (Projectile α)} {p : Projectile α} (h : Loop trace s (done ++ p :: todo))
    (order : List String) (tick : Nat) :
    Loop (trace ++ (s.stepProjectile order tick p).2.2.map .event) (s.stepProjectile order tick p).1
        (done ++ (s.stepProjectile order tick p).2.1 :: todo) ∧
      Progress s (s.stepProjectile order tick p).1 (s.stepProjectile order tick p).2.2 := by
  rcases stepProjectile_cases s order tick p with ⟨n, heq⟩ | ⟨n, id, r, hact, hr, ha, hne, heq⟩
  · rw [heq, List.map_nil, List.append_nil]
    exact ⟨h.congr rfl (Nat.le_refl _) rfl rfl, .of_players rfl⟩
  · rw [heq]
    have h' : Loop trace { s with collisionsCheckedTotal := n } (done ++ p :: todo) :=
      h.congr rfl (Nat.le_refl _) rfl rfl
    have hp : Progress s { s with collisionsCheckedTotal := n } [] := .of_players rfl
    have hr' : { s with collisionsCheckedTotal := n }.players[id]? = some r := hr
    exact ⟨h'.hit hact hr ha hne tick, hp.trans (.hit hr' (h.player id r hr) ha hne tick)⟩

/-- The projectiles `todo` are resolved one by one; the ones before them are `done`. -/
theorem Loop.resolveHits {trace : List SessionTrace} {s : GameSession α}
    {done todo : List (Projectile α)} (h : Loop trace s (done ++ todo)) (order : List String)
    (tick : Nat) :
    Loop (trace ++ (s.resolveHits order tick todo).2.2.map .event) (s.resolveHits order tick todo).1
        (done ++ (s.resolveHits order tick todo).2.1) ∧
      Progress s (s.resolveHits order tick todo).1 (s.resolveHits order tick todo).2.2 := by
  induction todo generalizing trace s done with
  | nil =>
    unfold GameSession.resolveHits
    rw [List.map_nil, List.append_nil]
    exact ⟨h, .of_players rfl⟩
  | cons p todo ih =>
    obtain ⟨h1, hp1⟩ := h.stepProjectile order tick
    rw [List.append_cons] at h1
    obtain ⟨h2, hp2⟩ := ih h1
    unfold GameSession.resolveHits
    dsimp only
    refine ⟨?_, hp1.trans hp2⟩
    rw [List.map_append, ← List.append_assoc]
    simpa using h2

theorem moveProjectile_spec (now dt : α) (p : Projectile α) :
    (moveProjectile now dt p).id = p.id ∧ (moveProjectile now dt p).ownerId = p.ownerId ∧
      ((moveProjectile now dt p).active = true → p.active = true) := by
  have hadv : (p.advance dt).id = p.id ∧ (p.advance dt).ownerId = p.ownerId ∧
      (p.advance dt).active = p.active := by
    unfold Projectile.advance
    split <;> exact ⟨rfl, rfl, rfl⟩
  unfold moveProjectile
  dsimp only
  split
  · exact ⟨hadv.1, hadv.2.1, fun h => nomatch h⟩
  · exact ⟨hadv.1, hadv.2.1, fun h => hadv.2.2 ▸ h⟩

/-! ### Between the operations -/

/-- The session between two operations: the stored projectiles are all active. -/
structure Settled (trace : List SessionTrace) (s : GameSession α) : Prop where
  loop : Loop trace s s.projectiles
  active : ∀ p ∈ s.projectiles, p.active = true

theorem Settled.tick {trace : List SessionTrace} {s : GameSession α} (h : Settled trace s)
    (order : List String) (tick : Nat) (dt : α) :
    Settled (trace ++ (s.tick order tick dt).2.map .event) (s.tick order tick dt).1 ∧
      Progress s (s.tick order tick dt).1 (s.tick order tick dt).2 := by
  have h0 : Loop trace { s with elapsedTime := s.elapsedTime + dt }
      ([] ++ s.projectiles.map (moveProjectile (s.elapsedTime + dt) dt)) :=
    (h.loop.map (moveProjectile_spec _ dt)).congr rfl (Nat.le_refl _) rfl rfl
  obtain ⟨h1, hp⟩ := h0.resolveHits order tick
  unfold GameSession.tick
  refine ⟨⟨(h1.sublist List.filter_sublist).congr rfl (Nat.le_refl _) rfl rfl, ?_⟩, hp⟩
  intro p hp
  exact (List.mem_filter.1 hp).2

end

end Portfolio.Arena
