import Portfolio.Arena.FireRate

/-!
# The flight of a projectile

A projectile starts 0.3 m in front of its shooter, goes half a metre in every tick of a sixtieth of
a second, and is compared with the players after each of these steps. Between two comparisons it
cannot pass a player that stands still. What is never compared is the first half metre: a player
beside or behind the muzzle is hit only if it is still near enough after the first step.
-/

namespace Portfolio.Arena
open Std GameSession
open ConnectionServer (frameDelta)

/-! ### Samples of a straight line -/

theorem length2_le_iff {x y c : ℝ} (hc : 0 ≤ c) : length2 x y ≤ c ↔ x ^ 2 + y ^ 2 ≤ c ^ 2 := by
  rw [length2, Real.sqrt_le_left hc]

/-- The square of the distance between `w` and the point at `t` of the line through the origin with
the unit vector `(u, v)` as its direction. -/
theorem sq_distance_line {u v : ℝ} (h : u ^ 2 + v ^ 2 = 1) (wx wy t : ℝ) :
    (wx - u * t) ^ 2 + (wy - v * t) ^ 2 =
      (wx * v - wy * u) ^ 2 + (t - (wx * u + wy * v)) ^ 2 := by
  calc (wx - u * t) ^ 2 + (wy - v * t) ^ 2
      = (wx ^ 2 + wy ^ 2) * 1 - 2 * t * (wx * u + wy * v) + (u ^ 2 + v ^ 2) * t ^ 2 := by ring
    _ = (wx ^ 2 + wy ^ 2) * (u ^ 2 + v ^ 2) - 2 * t * (wx * u + wy * v) + t ^ 2 := by rw [h, one_mul]
    _ = (wx * v - wy * u) ^ 2 + (t - (wx * u + wy * v)) ^ 2 := by ring

/-- A line that comes within 0.6 m has a sample within 0.7 m, among those at every half metre up to
44.5 m, if and only if the foot of the perpendicular is not behind the first quarter of a metre or the
first sample is near enough. -/
theorem exists_sample_iff {q a t : ℝ} (hlast : t ≤ 89 / 2) (hnear : q + (t - a) ^ 2 ≤ 0.6 ^ 2) :
    (∃ k : ℕ, 1 ≤ k ∧ k ≤ 89 ∧ q + ((k : ℝ) / 2 - a) ^ 2 ≤ 0.7 ^ 2) ↔
      1 / 4 ≤ a ∨ q + (1 / 2 - a) ^ 2 ≤ 0.7 ^ 2 := by
  constructor
  · rintro ⟨k, h1, -, hk⟩
    by_cases hfront : 1 / 4 ≤ a
    · exact .inl hfront
    · -- the first sample is the nearest one
      have h1 : (1 : ℝ) ≤ k := by exact_mod_cast h1
      have hfront := lt_of_not_ge hfront
      have hfirst : (1 / 2 - a) ^ 2 ≤ ((k : ℝ) / 2 - a) ^ 2 := sq_le_sq' (by linarith) (by linarith)
      exact .inr (by linarith)
  · rintro (hfront | hfirst)
    · by_cases hend : 89 / 2 ≤ a
      · -- the foot is behind the last sample
        refine ⟨89, by norm_num, Nat.le_refl 89, ?_⟩
        have hcloser : (((89 : ℕ) : ℝ) / 2 - a) ^ 2 ≤ (t - a) ^ 2 := by
          have hflip : (t - a) ^ 2 = (a - t) ^ 2 := by ring
          push_cast
          rw [hflip]
          exact sq_le_sq' (by linarith) (by linarith)
        linarith
      · have hend : a < 89 / 2 := lt_of_not_ge hend
        -- the sample nearest to the foot
        have hfloor := Nat.floor_le (show 0 ≤ 2 * a + 1 / 2 by linarith)
        have hsucc := Nat.lt_floor_add_one (2 * a + 1 / 2)
        have hge : 1 ≤ ⌊2 * a + 1 / 2⌋₊ := Nat.le_floor (by push_cast; linarith)
        have hle : ⌊2 * a + 1 / 2⌋₊ ≤ 89 := by
          have hlt : ((⌊2 * a + 1 / 2⌋₊ : ℕ) : ℝ) < 90 := by linarith
          have hlt : ⌊2 * a + 1 / 2⌋₊ < 90 := by exact_mod_cast hlt
          omega
        refine ⟨⌊2 * a + 1 / 2⌋₊, hge, hle, ?_⟩
        have hquarter : (((⌊2 * a + 1 / 2⌋₊ : ℕ) : ℝ) / 2 - a) ^ 2 ≤ (1 / 4) ^ 2 :=
          sq_le_sq' (by linarith) (by linarith)
        have hperp : q ≤ 0.6 ^ 2 := by nlinarith [sq_nonneg (t - a)]
        linarith
    · exact ⟨1, Nat.le_refl 1, by norm_num, by simpa using hfirst⟩

/-! ### One tick -/

section
variable {α : Type} [Scalar α]

/-- The inner loop finds nobody: no living player other than the owner is within reach. -/
theorem scan_none {players : TreeMap String (PlayerRuntimeState α)} {p : Projectile α}
    {order : List String} (h : (scan players p order).2 = none) {id : String} (hid : id ∈ order)
    {r : PlayerRuntimeState α} (hr : players[id]? = some r) (ha : r.state.isAlive = true)
    (hne : r.state.playerId ≠ p.ownerId) : collides p r.state = false := by
  induction order with
  | nil => cases hid
  | cons j order ih =>
    unfold scan at h
    rcases List.mem_cons.1 hid with rfl | hid
    · rw [hr] at h
      dsimp only at h
      rw [if_neg (by simp [ha, hne])] at h
      split at h
      · cases h
      · next hfar => exact Bool.eq_false_iff.2 hfar
    · cases hj : players[j]? with
      | none =>
        rw [hj] at h
        exact ih h hid
      | some rj =>
        rw [hj] at h
        dsimp only at h
        split at h
        · exact ih h hid
        · split at h
          · cases h
          · exact ih h hid

theorem collides_congr (p : Projectile α) {st st' : PlayerState α} (hx : st'.x = st.x) (hy : st'.y = st.y) :
    collides p st' = collides p st := by
  unfold collides
  rw [hx, hy]

/-- A hit of `p`, on whomever. -/
def IsHitOf (p : Projectile α) (e : CombatEvent) : Prop :=
  e.type = .hit ∧ e.projectileId = p.id ∧ e.shooterId = p.ownerId

/-- One active projectile of the outer loop: it hits somebody, or it is not within reach of anybody. -/
theorem stepProjectile_sample (s : GameSession α) (order : List String) (tick : Nat) {p : Projectile α}
    (hact : p.active = true) :
    (∃ e ∈ (s.stepProjectile order tick p).2.2, IsHitOf p e) ∨
      ((s.stepProjectile order tick p).2.1 = p ∧
        (s.stepProjectile order tick p).1.players = s.players ∧
        ∀ id ∈ order, ∀ r, s.players[id]? = some r → r.state.isAlive = true →
          r.state.playerId ≠ p.ownerId → collides p r.state = false) := by
  unfold stepProjectile
  rw [if_neg (by simp [hact])]
  dsimp only
  cases hscan : (scan s.players p order).2 with
  | none => exact .inr ⟨rfl, rfl, fun id hid r hr ha hne => scan_none hscan hid hr ha hne⟩
  | some id =>
    obtain ⟨r, hr, -, -⟩ := scan_some hscan
    rw [Option.bind_some, hr]
    refine .inl ⟨hitEvent p r tick, ?_, rfl, rfl, rfl⟩
    show _ ∈ (applyHit _ p id r tick).2
    rw [applyHit_events]
    exact List.mem_cons_self

/-- An active projectile hits somebody in the outer loop, or it stays and is not within reach of
anybody who lives after the loop. -/
theorem resolveHits_sample {trace : List SessionTrace} {s : GameSession α} {done todo : List (Projectile α)}
    (h : Loop trace s (done ++ todo)) (order : List String) (tick : Nat) {p : Projectile α}
    (hp : p ∈ todo) (hact : p.active = true) :
    (∃ e ∈ (s.resolveHits order tick todo).2.2, IsHitOf p e) ∨
      (p ∈ (s.resolveHits order tick todo).2.1 ∧
        ∀ id ∈ order, id ≠ p.ownerId → ∀ r, (s.resolveHits order tick todo).1.players[id]? = some r →
          r.state.isAlive = true → collides p r.state = false) := by
  induction todo generalizing trace s done with
  | nil => cases hp
  | cons q todo ih =>
    obtain ⟨hstep, -⟩ := h.stepProjectile order tick
    rw [List.append_cons] at hstep
    unfold resolveHits
    dsimp only
    rcases List.mem_cons.1 hp with rfl | hp
    · rcases stepProjectile_sample s order tick hact with ⟨e, he, hhit⟩ | ⟨hkeep, hplayers, hfar⟩
      · exact .inl ⟨e, List.mem_append_left _ he, hhit⟩
      · refine .inr ⟨by rw [hkeep]; exact List.mem_cons_self, fun id hid hne r hr ha => ?_⟩
        -- who lives after the loop lived when the projectile was compared, at the same place
        obtain ⟨-, hprogress⟩ := hstep.resolveHits order tick
        have hground := sameGround_resolveHits (s.stepProjectile order tick p).1 order tick todo
        have hbody := hground.body id
        unfold GameSession.body? at hbody
        rw [hr, Option.map_some, hplayers] at hbody
        obtain ⟨r₀, hr₀, hsame⟩ := Option.map_eq_some_iff.1 hbody.symm
        have halive : r₀.state.isAlive = true := by
          rcases hprogress id with ⟨hstatus, -⟩ | ⟨d, -, hdead, -⟩
          · unfold status at hstatus
            rw [hr, hplayers, hr₀, Option.map_some, Option.map_some, Option.some.injEq,
              Prod.mk.injEq] at hstatus
            exact hstatus.1.symm.trans ha
          · unfold status at hdead
            rw [hr, Option.map_some, Option.some.injEq, Prod.mk.injEq, ha] at hdead
            cases hdead.1
        have hname : r₀.state.playerId = id := (h.player id r₀ hr₀).named.2
        have hclear := hfar id hid r₀ hr₀ halive (hname.symm ▸ hne)
        rw [← hclear]
        unfold PlayerRuntimeState.body at hsame
        exact collides_congr p (congrArg (·.1) hsame).symm (congrArg (·.2.1) hsame).symm
    · rcases ih hstep hp with ⟨e, he, hhit⟩ | ⟨hmem, hfar⟩
      · exact .inl ⟨e, List.mem_append_right _ he, hhit⟩
      · exact .inr ⟨List.mem_cons_of_mem _ hmem, hfar⟩

end

/-! ### Half a metre a tick -/

noncomputable section

/-- The projectile `k` ticks later. -/
def Projectile.later (p : Projectile ℝ) (k : ℕ) : Projectile ℝ :=
  { p with x := p.x + p.dirX * (k / 2), y := p.y + p.dirY * (k / 2) }

/-- The projectile has been under way for `k` ticks. -/
def UnderWay (p : Projectile ℝ) (k : ℕ) (s : GameSession ℝ) : Prop :=
  p.later k ∈ s.projectiles ∧ s.elapsedTime = p.spawnTime + k * frameDelta

theorem moveProjectile_later {p : Projectile ℝ} (hact : p.active = true) {k : ℕ} (hk : k < 89) :
    moveProjectile (p.spawnTime + k * frameDelta + frameDelta) frameDelta (p.later k) = p.later (k + 1) := by
  have hadvance : (p.later k).advance frameDelta = p.later (k + 1) := by
    have hspeed : (Projectile.kSpeed : ℝ) = 30 := by
      rw [Projectile.kSpeed, Scalar.lit_real]
      norm_num
    unfold Projectile.advance
    rw [if_neg (by simp [Projectile.later, hact]), hspeed]
    unfold Projectile.later frameDelta
    refine congrArg₂ (fun x y => { p with x := x, y := y }) ?_ ?_
    · push_cast
      ring
    · push_cast
      ring
  have hfresh : (p.later (k + 1)).isExpired (p.spawnTime + k * frameDelta + frameDelta) = false := by
    have hlife : (Projectile.kLifetime : ℝ) = 3 / 2 := by
      rw [Projectile.kLifetime, Scalar.lit_real]
      norm_num
    have hk : (k : ℝ) < 89 := by exact_mod_cast hk
    unfold Projectile.isExpired
    rw [if_neg (by simp [Projectile.later, hact]), hlife]
    have hframe : frameDelta = 1 / 60 := rfl
    have hyoung : p.spawnTime + k * frameDelta + frameDelta - p.spawnTime < 3 / 2 := by
      rw [hframe]
      linarith
    exact decide_eq_false hyoung.not_ge
  unfold moveProjectile
  dsimp only
  rw [hadvance, hfresh]
  rfl

theorem radiusSum_real : (Projectile.kRadius : ℝ) + kPlayerRadius = 0.7 := by
  rw [Projectile.kRadius, kPlayerRadius, Scalar.lit_real, Scalar.lit_real]
  norm_num

theorem not_collides_of_far {p : Projectile ℝ} {st : PlayerState ℝ} (h : 0.7 < p.x - st.x) :
    collides p st = false := by
  unfold collides
  dsimp only
  rw [radiusSum_real, if_pos (.inl (h.trans_le (le_abs_self _)))]

/-- Within the sum of the radii there is a hit. -/
theorem collides_of_near {p : Projectile ℝ} {st : PlayerState ℝ}
    (h : (st.x - p.x) ^ 2 + (st.y - p.y) ^ 2 ≤ 0.7 ^ 2) : collides p st = true := by
  have hx : |p.x - st.x| ≤ 0.7 := by
    refine abs_le_of_sq_le_sq ?_ (by norm_num)
    nlinarith [sq_nonneg (st.y - p.y)]
  have hy : |p.y - st.y| ≤ 0.7 := by
    refine abs_le_of_sq_le_sq ?_ (by norm_num)
    nlinarith [sq_nonneg (st.x - p.x)]
  unfold collides
  dsimp only
  rw [radiusSum_real, if_neg]
  · refine decide_eq_true ?_
    nlinarith
  · rintro (hfar | hfar)
    · exact hfar.not_ge hx
    · exact hfar.not_ge hy

/-- A tick of a sixtieth of a second: a hit, or another half metre without one. -/
theorem tick_underWay {trace : List SessionTrace} {s : GameSession ℝ} (h : Settled trace s)
    {p : Projectile ℝ} (hact : p.active = true) {k : ℕ} (hk : k < 89) (hp : UnderWay p k s)
    {order : List String} (n : ℕ) {target : String} (hmem : target ∈ order) (hne : target ≠ p.ownerId) :
    (∃ e ∈ (s.tick order n frameDelta).2, IsHitOf p e) ∨
      (UnderWay p (k + 1) (s.tick order n frameDelta).1 ∧
        ∀ r, (s.tick order n frameDelta).1.players[target]? = some r → r.state.isAlive = true →
          collides (p.later (k + 1)) r.state = false) := by
  have hloop : Loop trace { s with elapsedTime := s.elapsedTime + frameDelta }
      ([] ++ s.projectiles.map (moveProjectile (s.elapsedTime + frameDelta) frameDelta)) :=
    (h.loop.map (moveProjectile_spec _ frameDelta)).congr rfl (Nat.le_refl _) rfl rfl
  have hmoved : p.later (k + 1) ∈ s.projectiles.map (moveProjectile (s.elapsedTime + frameDelta) frameDelta) := by
    refine List.mem_map.2 ⟨p.later k, hp.1, ?_⟩
    rw [hp.2]
    exact moveProjectile_later hact hk
  have helapsed : (s.tick order n frameDelta).1.elapsedTime = s.elapsedTime + frameDelta :=
    (sameGround_resolveHits { s with elapsedTime := s.elapsedTime + frameDelta } order n _).elapsed
  rcases resolveHits_sample hloop order n hmoved hact with hhit | ⟨hkeep, hfar⟩
  · exact .inl hhit
  · refine .inr ⟨⟨List.mem_filter.2 ⟨hkeep, hact⟩, ?_⟩, fun r hr ha => hfar target hmem hne r hr ha⟩
    rw [helapsed, hp.2]
    push_cast
    ring

/-- What may happen while the projectile is under way: ticks of a sixtieth of a second that visit the
target, and anything else that does not take the shooter out of the session. -/
def SessionOp.DuringFlight (shooter target : String) : SessionOp ℝ → Prop
  | .tick order _ dt => dt = frameDelta ∧ target ∈ order
  | .removePlayer id => id ≠ shooter
  | op => op.Named

def SessionOp.isTick {α : Type} : SessionOp α → Bool
  | .tick _ _ _ => true
  | _ => false

theorem SessionOp.DuringFlight.named {shooter target : String} {op : SessionOp ℝ}
    (h : op.DuringFlight shooter target) : op.Named := by
  cases op with
  | tick => trivial
  | removePlayer id => trivial
  | upsertPlayer id => exact h
  | applyInput => trivial
  | consumeDeathEvents => trivial

/-- Between the ticks a projectile stays where it is. -/
theorem UnderWay.exec {p : Projectile ℝ} {k : ℕ} {s : GameSession ℝ} (h : UnderWay p k s) {target : String}
    {op : SessionOp ℝ} (hop : op.DuringFlight p.ownerId target) (htick : op.isTick = false) :
    UnderWay p k (op.exec s).1 := by
  cases op with
  | tick order n dt => cases htick
  | upsertPlayer id => exact h
  | consumeDeathEvents => exact h
  | removePlayer id => exact ⟨List.mem_filter.2 ⟨h.1, decide_eq_true (Ne.symm hop)⟩, h.2⟩
  | applyInput id input dt =>
    refine ⟨?_, (applyInput_ground s id input dt).2.trans h.2⟩
    rcases applyInput_cases s id input dt with heq | ⟨r, -, hstep⟩
    · show p.later k ∈ (s.applyInput id input dt).1.projectiles
      rw [heq]
      exact h.1
    · show p.later k ∈ (s.applyInput id input dt).1.projectiles
      generalize (s.applyInput id input dt).1 = s' at hstep
      cases hstep with
      | quiet => exact h.1
      | shot => exact List.mem_append_left _ h.1

/-! ### A shot and its flight -/

/-- A player stands here, alive. -/
def StandsAt (s : GameSession ℝ) (id : String) (place : ℝ × ℝ) : Prop :=
  ∃ r, s.players[id]? = some r ∧ r.state.isAlive = true ∧ (r.state.x, r.state.y) = place

/-- A shot: what happened before, the input that fires it and the operations while the projectile is
under way. `target` is another player, `centre` its place. -/
structure Shooting where
  before : List (SessionOp ℝ)
  shooter : String
  input : MovementInput ℝ
  dt : ℝ
  during : List (SessionOp ℝ)
  target : String
  centre : ℝ × ℝ

namespace Shooting
variable (h : Shooting)

def atShot : GameSession ℝ := ((sessionMachine ℝ).run h.before).1

def fired : GameSession ℝ × Except String Bool := h.atShot.applyInput h.shooter h.input h.dt

/-- The session after some operations of the flight, and what it has shown since the shot. -/
def flight (ops : List (SessionOp ℝ)) : GameSession ℝ × List SessionTrace :=
  ((sessionMachine ℝ).startAt h.fired.1).run ops

def projectileId : String := "projectile-" ++ toString (h.atShot.projectileCounter + 1)

/-- Where the shooter stands after the input. -/
def place : ℝ × ℝ :=
  match h.fired.1.players[h.shooter]? with
  | none => (0, 0)
  | some r => (r.state.x, r.state.y)

def muzzle : ℝ × ℝ := (h.place.1 + h.input.mouseX * 0.3, h.place.2 + h.input.mouseY * 0.3)

/-- The distance of the target from the point of the line of flight at `t` metres. -/
def distance (t : ℝ) : ℝ :=
  length2 (h.centre.1 - h.muzzle.1 - h.input.mouseX * t) (h.centre.2 - h.muzzle.2 - h.input.mouseY * t)

/-- The projectile has hit this player. -/
def HitOn (id : String) (trace : List SessionTrace) : Prop :=
  ∃ e, .event e ∈ trace ∧ e.type = .hit ∧ e.projectileId = h.projectileId ∧ e.shooterId = h.shooter ∧
    e.targetId = id

/-- The shot is fired along a unit vector, the flight has at least the 89 ticks before the expiry,
the target stands still and lives until it is hit, and nobody else is hit. -/
structure Fair : Prop where
  named : ∀ op ∈ h.before, op.Named
  unit : h.input.mouseX ^ 2 + h.input.mouseY ^ 2 = 1
  fires : h.fired.2 = .ok true
  other : h.target ≠ h.shooter
  during : ∀ op ∈ h.during, op.DuringFlight h.shooter h.target
  whole : 89 ≤ h.during.countP SessionOp.isTick
  still : ∀ ops, ops <+: h.during →
    h.HitOn h.target (h.flight ops).2 ∨ StandsAt (h.flight ops).1 h.target h.centre
  alone : ∀ id, id ≠ h.target → ¬ h.HitOn id (h.flight h.during).2

/-- The target is within 0.6 m of the line of flight up to the last tick before the expiry. -/
def Near : Prop := ∃ t, 0 ≤ t ∧ t ≤ 89 / 2 ∧ h.distance t ≤ 0.6

/-- The foot of the perpendicular from the target lies at least a quarter of a metre in front of the
muzzle, or the target is within 0.7 m of where the first tick takes the projectile. -/
def InFront : Prop :=
  1 / 4 ≤ (h.centre.1 - h.muzzle.1) * h.input.mouseX + (h.centre.2 - h.muzzle.2) * h.input.mouseY ∨
    h.distance (1 / 2) ≤ 0.7

/-- The projectile of the shot. -/
def projectile : Projectile ℝ where
  id := h.projectileId
  ownerId := h.shooter
  x := h.muzzle.1
  y := h.muzzle.2
  dirX := h.input.mouseX
  dirY := h.input.mouseY
  spawnTime := h.atShot.elapsedTime

end Shooting

/-- A shot along a unit vector: the shooter stays where it is, and the projectile is in front of it. -/
theorem trySpawnProjectile_shot {s : GameSession ℝ} {id : String} {r : PlayerRuntimeState ℝ}
    {input : MovementInput ℝ} (hunit : input.mouseX ^ 2 + input.mouseY ^ 2 = 1)
    (h : (s.trySpawnProjectile id r input).2 = .ok true) :
    (∃ r', (s.trySpawnProjectile id r input).1.players[id]? = some r' ∧ r'.state.x = r.state.x ∧
        r'.state.y = r.state.y) ∧
      (s.trySpawnProjectile id r input).1.elapsedTime = s.elapsedTime ∧
      { id := "projectile-" ++ toString (s.projectileCounter + 1), ownerId := r.state.playerId
        x := r.state.x + input.mouseX * 0.3, y := r.state.y + input.mouseY * 0.3
        dirX := input.mouseX, dirY := input.mouseY, spawnTime := s.elapsedTime } ∈
        (s.trySpawnProjectile id r input).1.projectiles := by
  have haim : Scalar.sqrt (input.mouseX * input.mouseX + input.mouseY * input.mouseY) = 1 := by
    rw [← sq, ← sq, hunit, Scalar.sqrt_real, Real.sqrt_one]
  have hoffset : (kSpawnOffset : ℝ) = 0.3 := by
    rw [kSpawnOffset, Scalar.lit_real]
    norm_num
  have heps : ¬ (1 : ℝ) < Projectile.kEpsilon := by
    norm_num [Projectile.kEpsilon]
  have hlong : ¬ (1 : ℝ) < Scalar.lit (1 / 10 ^ 6) := by norm_num
  unfold trySpawnProjectile Projectile.make at h ⊢
  simp only [haim, if_neg hlong, div_one, if_neg heps, hoffset] at h ⊢
  split at h
  · cases h
  · next hready =>
    rw [if_neg hready]
    split at h
    · cases h
    · next hcool =>
      rw [if_neg hcool]
      refine ⟨⟨_, TreeMap.getElem?_insert_self, rfl, rfl⟩, rfl, ?_⟩
      exact List.mem_append_right _ (List.mem_singleton_self _)

namespace Shooting
variable {h : Shooting}

theorem settled_fired (hnamed : ∀ op ∈ h.before, op.Named) :
    Settled ((sessionMachine ℝ).run h.before).2 h.fired.1 :=
  ((settled_run h.before hnamed).1.input h.shooter h.input h.dt).1

/-- The shot puts its projectile at the muzzle. -/
theorem underWay_zero (hnamed : ∀ op ∈ h.before, op.Named)
    (hunit : h.input.mouseX ^ 2 + h.input.mouseY ^ 2 = 1) (hfires : h.fired.2 = .ok true) :
    UnderWay h.projectile 0 h.fired.1 := by
  have hlater : h.projectile.later 0 = h.projectile := by
    simp [Projectile.later]
  unfold UnderWay
  rw [hlater, Nat.cast_zero, zero_mul, add_zero]
  cases hr : h.atShot.players[h.shooter]? with
  | none =>
    rw [fired, applyInput_of_none hr] at hfires
    cases hfires
  | some r =>
    have hname : r.state.playerId = h.shooter :=
      ((settled_run h.before hnamed).1.loop.player h.shooter r hr).named.2
    have hfired : h.fired = h.atShot.applyInput h.shooter h.input h.dt := rfl
    unfold applyInput at hfired
    rw [hr] at hfired
    dsimp only at hfired
    split at hfired
    · rw [hfired] at hfires
      cases hfires
    · have hmoved : (if r.state.isAlive then
          h.atShot.movePlayer { r.state with lastSequence := h.input.sequence } h.input h.dt
        else { r.state with lastSequence := h.input.sequence }).playerId = h.shooter := by
        rw [← hname]
        split <;> rfl
      rw [hfired] at hfires
      obtain ⟨⟨r', hr', hx, hy⟩, helapsed, hmem⟩ := trySpawnProjectile_shot hunit hfires
      rw [← hfired] at hr' helapsed hmem
      refine ⟨?_, helapsed⟩
      unfold projectile muzzle place
      rw [hr']
      dsimp only
      rw [hx, hy, ← hmoved]
      exact hmem

theorem hitOn_mono {id : String} {trace trace' : List SessionTrace} (hsub : ∀ t ∈ trace, t ∈ trace')
    (hhit : h.HitOn id trace) : h.HitOn id trace' := by
  obtain ⟨e, he, hrest⟩ := hhit
  exact ⟨e, hsub _ he, hrest⟩

theorem flight_concat (ops : List (SessionOp ℝ)) (op : SessionOp ℝ) : h.flight (ops ++ [op]) =
    ((op.exec (h.flight ops).1).1, (h.flight ops).2 ++ (op.exec (h.flight ops).1).2) :=
  Machine.run_concat _ ops op

/-- The projectile is under way, if it has not expired, and none of its places so far was within reach of
the target. -/
structure Missing (h : Shooting) (ops : List (SessionOp ℝ)) : Prop where
  settled : ∃ trace, Settled trace (h.flight ops).1
  underWay : ops.countP SessionOp.isTick ≤ 89 →
    UnderWay h.projectile (ops.countP SessionOp.isTick) (h.flight ops).1
  far : ∀ k : ℕ, 1 ≤ k → k ≤ ops.countP SessionOp.isTick → k ≤ 89 → 0.7 < h.distance (k / 2)

theorem Missing.settled_concat {ops : List (SessionOp ℝ)} (hm : h.Missing ops) {op : SessionOp ℝ}
    (hnamed : op.Named) : ∃ trace, Settled trace (h.flight (ops ++ [op])).1 := by
  obtain ⟨trace, hset⟩ := hm.settled
  rw [flight_concat]
  exact ⟨_, hset.step hnamed⟩

theorem Missing.pause {ops : List (SessionOp ℝ)} (hm : h.Missing ops) {op : SessionOp ℝ}
    (hop : op.DuringFlight h.shooter h.target) (htick : op.isTick = false) : h.Missing (ops ++ [op]) := by
  have hcount : (ops ++ [op]).countP SessionOp.isTick = ops.countP SessionOp.isTick := by
    simp [List.countP_append, htick]
  refine ⟨hm.settled_concat hop.named, fun hle => ?_, ?_⟩
  · rw [hcount] at hle ⊢
    rw [flight_concat]
    exact (hm.underWay hle).exec hop htick
  · rw [hcount]
    exact hm.far

/-- A place of the projectile that collides with no living player is out of reach of the target. -/
theorem far_of_clear {s : GameSession ℝ} {k : ℕ} (hstands : StandsAt s h.target h.centre)
    (hclear : ∀ r, s.players[h.target]? = some r → r.state.isAlive →
      collides (h.projectile.later k) r.state = false) : 0.7 < h.distance (k / 2) := by
  obtain ⟨r, hr, ha, hplace⟩ := hstands
  by_contra hnear
  have hreach := (length2_le_iff (by norm_num)).1 (le_of_not_gt hnear)
  have hcollides : collides (h.projectile.later k) r.state = true := by
    refine collides_of_near ?_
    rw [← hplace, sub_sub, sub_sub] at hreach
    exact hreach
  rw [hclear r hr ha] at hcollides
  cases hcollides

/-- A tick hits the target, or it misses it by more than its reach. -/
theorem Missing.tick (hf : h.Fair) {ops : List (SessionOp ℝ)} (hm : h.Missing ops) {order : List String}
    (n : Nat) (hmem : h.target ∈ order) (hops : ops ++ [.tick order n frameDelta] <+: h.during) :
    h.HitOn h.target (h.flight (ops ++ [.tick order n frameDelta])).2 ∨
      h.Missing (ops ++ [.tick order n frameDelta]) := by
  have hcount : (ops ++ [SessionOp.tick order n frameDelta]).countP SessionOp.isTick =
      ops.countP SessionOp.isTick + 1 := by
    simp [List.countP_append, SessionOp.isTick]
  have hop := hf.during (.tick order n frameDelta) (hops.subset (by simp))
  have hset' := hm.settled_concat hop.named
  by_cases hlast : 89 ≤ ops.countP SessionOp.isTick
  · refine .inr ⟨hset', fun hle => absurd hle (by omega), fun k h1 _ h89 => ?_⟩
    exact hm.far k h1 (h89.trans hlast) h89
  · have hlt : ops.countP SessionOp.isTick < 89 := by omega
    obtain ⟨trace, hset⟩ := hm.settled
    rcases tick_underWay hset rfl hlt (hm.underWay hlt.le) n hmem hf.other with
      ⟨e, he, htype, hid, hshooter⟩ | ⟨hunder, hclear⟩
    · -- a hit of this projectile is one on the target
      have hshown : .event e ∈ (h.flight (ops ++ [.tick order n frameDelta])).2 := by
        rw [flight_concat]
        exact List.mem_append_right _ (List.mem_map_of_mem he)
      have hall := (Machine.run_snd_prefix _ hops).subset hshown
      have htarget : e.targetId = h.target := by
        by_contra hne
        exact hf.alone e.targetId hne ⟨e, hall, htype, hid, hshooter, rfl⟩
      exact .inl ⟨e, hshown, htype, hid, hshooter, htarget⟩
    · rcases hf.still _ hops with hhit | hstands
      · exact .inl hhit
      · refine .inr ⟨hset', fun _ => ?_, fun k h1 hk h89 => ?_⟩
        · rw [hcount, flight_concat]
          exact hunder
        · rw [hcount] at hk
          rcases Nat.lt_or_ge k (ops.countP SessionOp.isTick + 1) with hbefore | hge
          · exact hm.far k h1 (Nat.le_of_lt_succ hbefore) h89
          · obtain rfl : k = ops.countP SessionOp.isTick + 1 := Nat.le_antisymm hk hge
            rw [flight_concat] at hstands
            exact far_of_clear hstands hclear

/-- After some operations of the flight the target has been hit, or it has been missed so far. -/
theorem Fair.run (hf : h.Fair) (ops : List (SessionOp ℝ)) (hops : ops <+: h.during) :
    h.HitOn h.target (h.flight ops).2 ∨ h.Missing ops := by
  induction ops using List.reverseRecOn with
  | nil =>
    have hzero := underWay_zero hf.named hf.unit hf.fires
    exact .inr ⟨⟨_, settled_fired hf.named⟩, fun _ => hzero, fun k h1 h0 => absurd h1 (by simpa using h0)⟩
  | append_singleton ops op ih =>
    have hop := hf.during op (hops.subset (by simp))
    rcases ih ((List.prefix_append ops [op]).trans hops) with hhit | hm
    · refine .inl (hitOn_mono (fun t ht => ?_) hhit)
      rw [flight_concat]
      exact List.mem_append_left _ ht
    · cases op with
      | tick order n dt =>
        obtain ⟨rfl, hmem⟩ := hop
        exact hm.tick hf n hmem hops
      | upsertPlayer => exact .inr (hm.pause hop rfl)
      | removePlayer => exact .inr (hm.pause hop rfl)
      | applyInput => exact .inr (hm.pause hop rfl)
      | consumeDeathEvents => exact .inr (hm.pause hop rfl)

theorem distance_le_iff (h : Shooting) (hf : h.Fair) {c : ℝ} (hc : 0 ≤ c) (t : ℝ) :
    h.distance t ≤ c ↔
      ((h.centre.1 - h.muzzle.1) * h.input.mouseY - (h.centre.2 - h.muzzle.2) * h.input.mouseX) ^ 2 +
        (t - ((h.centre.1 - h.muzzle.1) * h.input.mouseX + (h.centre.2 - h.muzzle.2) * h.input.mouseY)) ^ 2 ≤
          c ^ 2 := by
  rw [distance, length2_le_iff hc, sq_distance_line hf.unit]

/-- A target that stands still near the line of flight is hit, unless it is beside or behind the muzzle
and out of reach after the first step. -/
theorem still_target_hit (h : Shooting) (hf : h.Fair) (hnear : h.Near) (hfront : h.InFront) :
    h.HitOn h.target (h.flight h.during).2 := by
  obtain ⟨t, -, hlast, hclose⟩ := hnear
  rw [distance_le_iff h hf (by norm_num)] at hclose
  unfold InFront at hfront
  rw [distance_le_iff h hf (by norm_num)] at hfront
  obtain ⟨k, h1, h89, hk⟩ := (exists_sample_iff hlast hclose).2 hfront
  rcases hf.run h.during (List.prefix_refl _) with hhit | hm
  · exact hhit
  · have hmiss := hm.far k h1 (h89.trans hf.whole) h89
    exact absurd ((distance_le_iff h hf (by norm_num) _).2 hk) hmiss.not_ge

end Shooting

/-! ### Point-blank -/

/-- A tick with one projectile that is not within reach of anybody. -/
theorem tick_of_clear {s : GameSession ℝ} {p : Projectile ℝ} (hact : p.active = true) {k : ℕ} (hk : k < 89)
    (hps : s.projectiles = [p.later k]) (htime : s.elapsedTime = p.spawnTime + k * frameDelta)
    (hclear : ∀ (id : String) (r : PlayerRuntimeState ℝ), s.players[id]? = some r →
      r.state.playerId ≠ p.ownerId → collides (p.later (k + 1)) r.state = false) (order : List String) (n : ℕ) :
    (s.tick order n frameDelta).2 = [] ∧ (s.tick order n frameDelta).1.players = s.players ∧
      (s.tick order n frameDelta).1.projectiles = [p.later (k + 1)] ∧
      (s.tick order n frameDelta).1.elapsedTime = p.spawnTime + (k + 1 : ℕ) * frameDelta := by
  have hscan := scan_eq_none (p := p.later (k + 1)) hclear order
  have hmove := moveProjectile_later hact hk
  rw [← htime] at hmove
  have hlater : (p.later (k + 1)).active = true := hact
  unfold GameSession.tick
  rw [hps]
  simp only [List.map_cons, List.map_nil, hmove, resolveHits, stepProjectile, hlater, hscan, Bool.not_true,
    Bool.false_eq_true, if_false, Option.bind_none, List.append_nil]
  refine ⟨trivial, trivial, List.filter_cons_of_pos hlater, ?_⟩
  rw [htime]
  push_cast
  ring

theorem tick_of_empty {s : GameSession ℝ} (hps : s.projectiles = []) (order : List String) (n : ℕ) (dt : ℝ) :
    (s.tick order n dt).2 = [] ∧ (s.tick order n dt).1.projectiles = [] := by
  unfold GameSession.tick
  rw [hps]
  exact ⟨rfl, rfl⟩

/-- The ticks of the flights below. -/
def duelTicks (k : ℕ) : List (SessionOp ℝ) := List.replicate k (.tick ["b", "a"] 0 frameDelta)

/-- `b` has gone `d` metres to the right, `a` stands at the origin and shoots to the right. -/
def duel (d : ℝ) : Shooting where
  before := [.upsertPlayer "a", .upsertPlayer "b",
    .applyInput "b" { sequence := 1, right := true, mouseX := 1, mouseY := 0 } (d / 5)]
  shooter := "a"
  input := ConnectionServer.fireFrame 1
  dt := frameDelta
  during := duelTicks 89
  target := "b"
  centre := (d, 0)

theorem duel_named (d : ℝ) : ∀ op ∈ (duel d).before, op.Named := by
  intro op hop
  simp only [duel, List.mem_cons, List.not_mem_nil, or_false] at hop
  rcases hop with rfl | rfl | rfl
  · exact (by decide : "a" ≠ "")
  · exact (by decide : "b" ≠ "")
  · trivial

theorem duel_unit (d : ℝ) : (duel d).input.mouseX ^ 2 + (duel d).input.mouseY ^ 2 = 1 := by
  simp [duel, ConnectionServer.fireFrame]

theorem newRuntime_origin :
    (newRuntime : PlayerRuntimeState ℝ).state.x = 0 ∧ (newRuntime : PlayerRuntimeState ℝ).state.y = 0 := by
  unfold newRuntime
  simp

/-- The players before the shot: `a` as it has joined, and `b` at `(d, 0)`. -/
theorem duel_atShot (d : ℝ) :
    ∃ rb, (rb.state.x = d ∧ rb.state.y = 0) ∧ SameLife (revive (initRuntime "b" newRuntime)) rb ∧
      ∀ id : String, (duel d).atShot.players[id]? =
        if "b" = id then some rb
        else if "a" = id then some (revive (initRuntime "a" newRuntime)) else none := by
  let s : GameSession ℝ := (GameSession.new.upsertPlayer "a").upsertPlayer "b"
  have hempty : ∀ id : String, (GameSession.new : GameSession ℝ).players[id]? = none := fun _ =>
    TreeMap.getElem?_emptyc
  have hget : ∀ id : String, s.players[id]? =
      if "b" = id then some (revive (initRuntime "b" newRuntime))
      else if "a" = id then some (revive (initRuntime "a" newRuntime)) else none := by
    intro id
    rw [getElem?_upsertPlayer, getElem?_upsertPlayer, getElem?_upsertPlayer, hempty, hempty,
      if_neg (by decide : ¬ "a" = "b"), hempty]
    rfl
  have hb := hget "b"
  rw [if_pos rfl] at hb
  let input : MovementInput ℝ := { sequence := 1, right := true, mouseX := 1, mouseY := 0 }
  let r : PlayerRuntimeState ℝ := revive (initRuntime "b" newRuntime)
  let rb : PlayerRuntimeState ℝ :=
    { r with state := s.movePlayer { r.state with lastSequence := 1 } input (d / 5) }
  have hshot : (duel d).atShot = { s with players := s.players.insert "b" rb } := by
    show (s.applyInput "b" input (d / 5)).1 = _
    unfold applyInput
    rw [hb]
    rfl
  obtain ⟨hx, hy⟩ := movePlayer_eq s { r.state with lastSequence := 1 } input (d / 5) rfl rfl rfl
  have hspeed : s.speedPerSecond = 5 := by
    show (kPlayerSpeed : ℝ) = 5
    rw [kPlayerSpeed, Scalar.lit_real]
    norm_num
  have hpullx : pull input.left input.right = 1 := by
    show pull false true = 1
    norm_num [pull]
  have hpully : pull input.up input.down = 0 := sub_self _
  have hlength : √((1 : ℝ) * 1 + 0 * 0) = 1 := by norm_num
  rw [hpullx, hpully, hlength, hspeed] at hx hy
  refine ⟨rb, ⟨?_, ?_⟩, ⟨rfl, rfl, rfl, rfl, rfl, rfl, rfl, rfl, rfl⟩, fun id => ?_⟩
  · refine hx.trans ?_
    show (newRuntime : PlayerRuntimeState ℝ).state.x + _ = d
    rw [newRuntime_origin.1, if_pos one_pos]
    ring
  · refine hy.trans ?_
    show (newRuntime : PlayerRuntimeState ℝ).state.y + _ = 0
    rw [newRuntime_origin.2, if_pos one_pos]
    ring
  · rw [hshot]
    simp only [TreeMap.getElem?_insert, Std.compare_eq_iff_eq]
    rw [hget]
    split <;> rfl

/-- After the shot: its projectile at the muzzle, and `b` at `(d, 0)` as the only other player. -/
theorem duel_fired (d : ℝ) :
    (duel d).fired.2 = .ok true ∧ (duel d).fired.1.projectiles = [(duel d).projectile] ∧
      (duel d).place = (0, 0) ∧
      ∃ rb, (rb.state.x = d ∧ rb.state.y = 0) ∧ SameLife (revive (initRuntime "b" newRuntime)) rb ∧
        (duel d).fired.1.players["b"]? = some rb ∧
        ∀ (id : String) (r : PlayerRuntimeState ℝ), (duel d).fired.1.players[id]? = some r →
          r.state.playerId ≠ "a" → r = rb := by
  obtain ⟨rb, hplace, hlife, hget⟩ := duel_atShot d
  have ha := hget "a"
  rw [if_neg (by decide), if_pos rfl] at ha
  obtain ⟨hfires, ⟨p, hps, -, -⟩, -⟩ :=
    ConnectionServer.applyInput_fireFrame ha rfl rfl rfl (Nat.zero_le 1) (duel d).dt
  obtain ⟨ra, hplayers, hbody⟩ := applyInput_of_some ha (duel d).input (duel d).dt
  have hfired : ∀ id : String, (duel d).fired.1.players[id]? =
      if "a" = id then some ra else (duel d).atShot.players[id]? := hplayers
  have horigin : ra.state.x = 0 ∧ ra.state.y = 0 := by
    rcases hbody.place with ⟨hx, hy⟩ | ⟨-, -, hx, hy⟩
    · exact ⟨hx.trans newRuntime_origin.1, hy.trans newRuntime_origin.2⟩
    · -- no key is pressed
      obtain ⟨hmx, hmy⟩ := movePlayer_eq (duel d).atShot
        (revive (initRuntime "a" (newRuntime : PlayerRuntimeState ℝ))).state (duel d).input (duel d).dt
        rfl rfl rfl
      have hpull : pull false false = 0 := sub_self _
      have hkeys : pull (duel d).input.left (duel d).input.right = 0 ∧
          pull (duel d).input.up (duel d).input.down = 0 := ⟨hpull, hpull⟩
      rw [hkeys.1, hkeys.2, zero_div, ite_self, zero_mul, add_zero] at hmx hmy
      exact ⟨(hx.trans hmx).trans newRuntime_origin.1, (hy.trans hmy).trans newRuntime_origin.2⟩
  have hmine : (duel d).projectile ∈ (duel d).fired.1.projectiles := by
    have hzero := (Shooting.underWay_zero (duel_named d) (duel_unit d) hfires).1
    simpa [Projectile.later] using hzero
  refine ⟨hfires, ?_, ?_, rb, hplace, hlife, ?_, fun id r hr hne => ?_⟩
  · have hone : (duel d).fired.1.projectiles = [p] := hps
    rw [hone, List.mem_singleton] at hmine
    rw [hone, hmine]
  · unfold Shooting.place
    rw [show (duel d).shooter = "a" from rfl, hfired, if_pos rfl]
    exact Prod.ext horigin.1 horigin.2
  · rw [hfired, if_neg (by decide), hget, if_pos rfl]
  · rw [hfired] at hr
    split at hr
    · next heq =>
      cases hr
      have hra : (duel d).fired.1.players["a"]? = some ra := by rw [hfired, if_pos rfl]
      exact absurd ((Shooting.settled_fired (duel_named d)).loop.player "a" ra hra).named.2 hne
    · rw [hget] at hr
      split at hr
      · cases hr
        rfl
      · cases hr

theorem duel_flight_succ (d : ℝ) (k : ℕ) :
    (duel d).flight (duelTicks (k + 1)) =
      (((duel d).flight (duelTicks k)).1.tick ["b", "a"] 0 frameDelta |>.1,
        ((duel d).flight (duelTicks k)).2 ++
          (((duel d).flight (duelTicks k)).1.tick ["b", "a"] 0 frameDelta).2.map .event) := by
  rw [duelTicks, List.replicate_succ']
  exact Machine.run_concat _ _ _

/-- The projectile flies away from a player that is not in front of the shooter. -/
theorem duel_flight_clear {d : ℝ} (hd : d ≤ 0) {k : ℕ} (hk : k ≤ 89) :
    ((duel d).flight (duelTicks k)).2 = [] ∧
      ((duel d).flight (duelTicks k)).1.players = (duel d).fired.1.players ∧
      ((duel d).flight (duelTicks k)).1.projectiles = [(duel d).projectile.later k] ∧
      ((duel d).flight (duelTicks k)).1.elapsedTime = (duel d).projectile.spawnTime + k * frameDelta := by
  obtain ⟨-, hps, hplace, rb, ⟨hx, -⟩, -, -, hothers⟩ := duel_fired d
  induction k with
  | zero =>
    have hlater : (duel d).projectile.later 0 = (duel d).projectile := by
      simp [Projectile.later]
    refine ⟨rfl, rfl, hps.trans (by rw [hlater]), ?_⟩
    rw [Nat.cast_zero, zero_mul, add_zero]
    exact (applyInput_ground ..).2
  | succ k ih =>
    obtain ⟨htrace, hplayers, hprojectiles, htime⟩ := ih (Nat.le_of_succ_le hk)
    have hclear : ∀ (id : String) (r : PlayerRuntimeState ℝ),
        ((duel d).flight (duelTicks k)).1.players[id]? = some r →
        r.state.playerId ≠ (duel d).projectile.ownerId →
        collides ((duel d).projectile.later (k + 1)) r.state = false := by
      intro id r hr hne
      rw [hplayers] at hr
      obtain rfl := hothers id r hr hne
      have hahead : ((duel d).projectile.later (k + 1)).x = 0.3 + ((k + 1 : ℕ) : ℝ) / 2 := by
        show (duel d).place.1 + (1 : ℝ) * 0.3 + (1 : ℝ) * (((k + 1 : ℕ) : ℝ) / 2) = _
        rw [hplace]
        ring
      refine not_collides_of_far ?_
      rw [hahead, hx]
      push_cast
      have hk : (0 : ℝ) ≤ k := Nat.cast_nonneg k
      linarith
    obtain ⟨htrace', hplayers', hprojectiles', htime'⟩ :=
      tick_of_clear rfl (Nat.lt_of_succ_le hk) hprojectiles htime hclear ["b", "a"] 0
    rw [duel_flight_succ, htrace, htrace']
    exact ⟨rfl, hplayers'.trans hplayers, hprojectiles', htime'⟩

/-- The first tick hits a player half a metre in front of the shooter. -/
theorem duel_first_tick :
    ((duel (1 / 2)).fired.1.tick ["b", "a"] 0 frameDelta).1.projectiles = [] ∧
      ∃ rb : PlayerRuntimeState ℝ, rb.state.playerId = "b" ∧
        ((duel (1 / 2)).fired.1.tick ["b", "a"] 0 frameDelta).2 =
          [hitEvent ((duel (1 / 2)).projectile.later 1) rb 0] := by
  obtain ⟨-, hps, hplace, rb, ⟨hx, hy⟩, hlife, hb, -⟩ := duel_fired (1 / 2)
  have halive : rb.state.isAlive = true := hlife.state.2.2.1
  have hname : rb.state.playerId = "b" := hlife.state.1
  have hfatal : fatal rb = false := by
    unfold fatal
    rw [hlife.health, hlife.announced]
    rfl
  have htime : (duel (1 / 2)).fired.1.elapsedTime = (duel (1 / 2)).projectile.spawnTime :=
    (applyInput_ground ..).2
  have hmove : moveProjectile ((duel (1 / 2)).fired.1.elapsedTime + frameDelta) frameDelta (duel (1 / 2)).projectile =
      (duel (1 / 2)).projectile.later 1 := by
    have hlater := moveProjectile_later (p := (duel (1 / 2)).projectile) rfl (by norm_num : 0 < 89)
    have hstart : (duel (1 / 2)).projectile.later 0 = (duel (1 / 2)).projectile := by
      simp [Projectile.later]
    rwa [hstart, Nat.cast_zero, zero_mul, add_zero, ← htime] at hlater
  have hnear : collides ((duel (1 / 2)).projectile.later 1) rb.state = true := by
    have hat : ((duel (1 / 2)).projectile.later 1).x = 0.8 ∧ ((duel (1 / 2)).projectile.later 1).y = 0 := by
      constructor
      · show (duel (1 / 2)).place.1 + (1 : ℝ) * 0.3 + (1 : ℝ) * (((1 : ℕ) : ℝ) / 2) = _
        rw [hplace]
        norm_num
      · show (duel (1 / 2)).place.2 + (0 : ℝ) * 0.3 + (0 : ℝ) * (((1 : ℕ) : ℝ) / 2) = _
        rw [hplace]
        norm_num
    refine collides_of_near ?_
    rw [hx, hy, hat.1, hat.2]
    norm_num
  have hact : ((duel (1 / 2)).projectile.later 1).active = true := rfl
  have howner : ((duel (1 / 2)).projectile.later 1).ownerId = "a" := rfl
  have hscan : (scan (duel (1 / 2)).fired.1.players ((duel (1 / 2)).projectile.later 1) ["b", "a"]).2 =
      some "b" := by
    unfold scan
    rw [hb]
    dsimp only
    rw [halive, hname, howner, hnear]
    rfl
  unfold GameSession.tick
  rw [hps]
  simp only [List.map_cons, List.map_nil, hmove, resolveHits, stepProjectile, hact, hscan, hb,
    Bool.not_true, Bool.false_eq_true, if_false, Option.bind_some, Option.map_some, List.append_nil]
  refine ⟨rfl, rb, hname, ?_⟩
  rw [applyHit_events, hfatal]
  rfl

theorem duel_flight_hit (k : ℕ) :
    ∃ rb : PlayerRuntimeState ℝ, rb.state.playerId = "b" ∧
      ((duel (1 / 2)).flight (duelTicks (k + 1))).2 =
        [.event (hitEvent ((duel (1 / 2)).projectile.later 1) rb 0)] ∧
      ((duel (1 / 2)).flight (duelTicks (k + 1))).1.projectiles = [] := by
  induction k with
  | zero =>
    obtain ⟨hempty, rb, hname, hevents⟩ := duel_first_tick
    have hstart : (duel (1 / 2)).flight (duelTicks 0) = ((duel (1 / 2)).fired.1, []) := rfl
    rw [duel_flight_succ, hstart, hevents]
    exact ⟨rb, hname, rfl, hempty⟩
  | succ k ih =>
    obtain ⟨rb, hname, htrace, hempty⟩ := ih
    obtain ⟨hquiet, hempty'⟩ := tick_of_empty hempty ["b", "a"] 0 frameDelta
    rw [duel_flight_succ, htrace, hquiet]
    exact ⟨rb, hname, rfl, hempty'⟩

/-- The parts of `Fair` that do not depend on the course of the flight. -/
theorem duel_fair {d : ℝ}
    (hstill : ∀ ops, ops <+: (duel d).during →
      (duel d).HitOn "b" ((duel d).flight ops).2 ∨ StandsAt ((duel d).flight ops).1 "b" (d, 0))
    (halone : ∀ id, id ≠ "b" → ¬ (duel d).HitOn id ((duel d).flight (duel d).during).2) : (duel d).Fair := by
  have hother : "b" ≠ "a" := by decide
  refine ⟨duel_named d, duel_unit d, (duel_fired d).1, hother, fun op hop => ?_, ?_, hstill, halone⟩
  · obtain rfl := List.eq_of_mem_replicate hop
    exact ⟨rfl, List.mem_cons_self⟩
  · show 89 ≤ (duelTicks 89).countP _
    rw [duelTicks, List.countP_replicate]
    exact Nat.le_refl 89

theorem duel_stands (d : ℝ) : StandsAt (duel d).fired.1 "b" (d, 0) := by
  obtain ⟨-, -, -, rb, ⟨hx, hy⟩, hlife, hb, -⟩ := duel_fired d
  exact ⟨rb, hb, hlife.state.2.2.1, Prod.ext hx hy⟩

/-- A player on whom the shooter stands is 0.3 m from the muzzle and is never hit. -/
theorem point_blank_missed :
    (duel 0).Fair ∧ (duel 0).Near ∧ ¬ (duel 0).HitOn "b" ((duel 0).flight (duel 0).during).2 := by
  have hnone : ∀ id, ¬ (duel 0).HitOn id ((duel 0).flight (duel 0).during).2 := by
    rintro id ⟨e, he, -⟩
    have htrace : ((duel 0).flight (duel 0).during).2 = [] :=
      (duel_flight_clear (Std.le_refl 0) (Nat.le_refl 89)).1
    rw [htrace] at he
    cases he
  have hnear : (duel 0).distance 0 ≤ 0.6 := by
    unfold Shooting.distance Shooting.muzzle
    rw [(duel_fired 0).2.2.1, length2_le_iff (by norm_num)]
    norm_num [duel, ConnectionServer.fireFrame]
  refine ⟨duel_fair (fun ops hops => .inr ?_) fun id _ => hnone id, ⟨0, by norm_num, by norm_num, hnear⟩,
    hnone "b"⟩
  obtain ⟨hle, hops⟩ := List.prefix_replicate_iff.1 hops
  obtain ⟨r, hr, hrest⟩ := duel_stands 0
  refine ⟨r, ?_, hrest⟩
  rw [hops, ← hr, ← (duel_flight_clear (Std.le_refl 0) hle).2.1]
  rfl

theorem still_target_hit_duel :
    (duel (1 / 2)).HitOn "b" ((duel (1 / 2)).flight (duel (1 / 2)).during).2 := by
  have hhit : ∀ k, (duel (1 / 2)).HitOn "b" ((duel (1 / 2)).flight (duelTicks (k + 1))).2 := by
    intro k
    obtain ⟨rb, hname, htrace, -⟩ := duel_flight_hit k
    exact ⟨_, by rw [htrace]; exact List.mem_singleton_self _, rfl, rfl, rfl, hname⟩
  have hfair : (duel (1 / 2)).Fair := by
    refine duel_fair (fun ops hops => ?_) fun id hne hother => ?_
    · obtain ⟨-, hops⟩ := List.prefix_replicate_iff.1 hops
      rw [hops]
      cases ops.length with
      | zero => exact .inr (duel_stands (1 / 2))
      | succ k => exact .inl (hhit k)
    · obtain ⟨rb, hname, htrace, -⟩ := duel_flight_hit 88
      obtain ⟨e, he, -, -, -, htarget⟩ := hother
      have he : SessionTrace.event e ∈ ((duel (1 / 2)).flight (duelTicks 89)).2 := he
      rw [htrace, List.mem_singleton] at he
      cases he
      exact hne (htarget.symm.trans hname)
  have hat : ∀ t, (duel (1 / 2)).distance t = length2 (1 / 5 - t) 0 := by
    intro t
    unfold Shooting.distance Shooting.muzzle
    rw [(duel_fired (1 / 2)).2.2.1]
    refine congrArg₂ length2 ?_ ?_
    · show 1 / 2 - (0 + (1 : ℝ) * 0.3) - (1 : ℝ) * t = _
      ring
    · show 0 - (0 + (0 : ℝ) * 0.3) - (0 : ℝ) * t = _
      ring
  have hnear : (duel (1 / 2)).Near := by
    refine ⟨1 / 5, by norm_num, by norm_num, ?_⟩
    rw [hat, length2_le_iff (by norm_num)]
    norm_num
  have hfront : (duel (1 / 2)).InFront := by
    refine .inr ?_
    rw [hat, length2_le_iff (by norm_num)]
    norm_num
  exact Shooting.still_target_hit (duel (1 / 2)) hfair hnear hfront

end

end Portfolio.Arena
