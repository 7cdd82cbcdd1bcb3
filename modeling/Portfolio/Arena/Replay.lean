import Mathlib.Analysis.SpecialFunctions.Complex.Arg
import Portfolio.Arena.SessionCalls
import Portfolio.Lib.RealScalar

/-!
# Replayed inputs

`ApplyInput` drops an input whose sequence number is smaller than `last_sequence`, which is the largest
number that was applied since the player was inserted (`marked_run`). An input that repeats the largest
number is not smaller, so it moves, turns and fires again; the design document compares with `<=`.
`GameSession` leaves the facing angle out, `FacingSession` carries it along.
-/

namespace Portfolio.Arena
open Std GameSession

section
variable {α : Type}

/-- A session together with the `facing_radians` of its players. -/
structure FacingSession (α : Type) where
  session : GameSession α
  facing : TreeMap String α := ∅

/-- What one operation adds to the sequence numbers `seen` of player `id`. A player without a name is
filled in anew by every `UpsertPlayer`. -/
def hear (id : String) (seen : Option (List Nat)) : SessionOp α → Option (List Nat)
  | .upsertPlayer j => if j = id ∧ (seen = none ∨ id = "") then some [] else seen
  | .removePlayer j => if j = id then none else seen
  | .applyInput j input _ => if j = id then seen.map (· ++ [input.sequence]) else seen
  | .tick _ _ _ | .consumeDeathEvents => seen

/-- The sequence numbers that were applied to player `id` since its insertion, oldest first; `none`
while it is not registered. -/
def history (id : String) (ops : List (SessionOp α)) : Option (List Nat) := ops.foldl (hear id) none

/-- The largest number, `0` when there is none. -/
def newest (seqs : List Nat) : Nat := seqs.foldl max 0

theorem newest_concat (seqs : List Nat) (n : Nat) : newest (seqs ++ [n]) = max (newest seqs) n := by
  rw [newest, List.foldl_append]
  rfl

theorem le_newest {seqs : List Nat} {q : Nat} (h : q ∈ seqs) : q ≤ newest seqs := by
  induction seqs using List.reverseRecOn with
  | nil => cases h
  | append_singleton seqs n ih =>
    rw [newest_concat]
    rcases List.mem_append.1 h with h | h
    · exact (ih h).trans (Nat.le_max_left ..)
    · rw [List.mem_singleton.1 h]
      exact Nat.le_max_right ..

/-! ### Name and last number of a player -/

def PlayerRuntimeState.mark (r : PlayerRuntimeState α) : String × Nat :=
  (r.state.playerId, r.state.lastSequence)

def GameSession.mark? (s : GameSession α) (id : String) : Option (String × Nat) :=
  (s.players[id]?).map PlayerRuntimeState.mark

theorem hitProof_mark : HitProof (PlayerRuntimeState.mark : PlayerRuntimeState α → _) :=
  ⟨fun _ => rfl, fun _ => rfl, fun _ => rfl⟩

variable [Scalar α]

theorem mark?_upsertPlayer (s : GameSession α) {id j : String}
    (hnamed : ∀ m, s.mark? id = some m → m.1 = id) :
    (s.upsertPlayer j).mark? id =
      if j = id ∧ (s.mark? id = none ∨ id = "") then some (id, 0) else s.mark? id := by
  unfold mark? at *
  rw [getElem?_upsertPlayer]
  by_cases hj : j = id
  · subst hj
    rw [if_pos rfl]
    cases hr : s.players[j]? with
    | none => exact (if_pos ⟨rfl, .inl rfl⟩).symm
    | some r =>
      have hname : r.state.playerId = j := hnamed _ (by rw [hr]; rfl)
      by_cases hempty : j = ""
      · rw [if_pos ⟨rfl, .inr hempty⟩, Option.map_some, Option.getD_some, initRuntime, if_pos (hname.trans hempty)]
        rfl
      · rw [if_neg (fun h => h.2.elim (by simp) hempty), Option.getD_some,
          initRuntime_of_named (by rw [hname]; exact hempty)]
        rfl
  · rw [if_neg hj, if_neg (fun h => hj h.1)]

omit [Scalar α] in
theorem mark?_removePlayer (s : GameSession α) (id j : String) :
    (s.removePlayer j).mark? id = if j = id then none else s.mark? id := by
  unfold mark? removePlayer
  simp only [TreeMap.getElem?_erase, Std.compare_eq_iff_eq]
  split <;> rfl

/-- The shot writes back a record with the same name and number. -/
theorem trySpawnProjectile_mark (s : GameSession α) (id : String) (r : PlayerRuntimeState α)
    (input : MovementInput α) :
    ∃ r', (s.trySpawnProjectile id r input).1.players = s.players.insert id r' ∧ r'.mark = r.mark := by
  unfold trySpawnProjectile
  dsimp only
  split
  · exact ⟨r, rfl, rfl⟩
  · split
    · exact ⟨r, rfl, rfl⟩
    · split
      · exact ⟨r, rfl, rfl⟩
      · split <;> exact ⟨_, rfl, rfl⟩

theorem applyInput_of_lt {s : GameSession α} {id : String} {m : String × Nat} (h : s.mark? id = some m)
    {input : MovementInput α} (hlt : input.sequence < m.2) (dt : α) :
    (s.applyInput id input dt).1 = s := by
  obtain ⟨r, hr, rfl⟩ := Option.map_eq_some_iff.1 h
  have hlt : input.sequence < r.state.lastSequence := hlt
  unfold applyInput
  rw [hr]
  dsimp only
  rw [if_pos hlt]

theorem mark?_applyInput (s : GameSession α) (id j : String) (input : MovementInput α) (dt : α) :
    (s.applyInput j input dt).1.mark? id =
      if j = id then (s.mark? id).map (fun m => (m.1, max m.2 input.sequence)) else s.mark? id := by
  cases hr : s.players[j]? with
  | none =>
    rw [applyInput_of_none hr]
    split
    · rename_i hj
      subst hj
      unfold mark?
      rw [hr]
      rfl
    · rfl
  | some r =>
    by_cases hlt : input.sequence < r.state.lastSequence
    · have hmark : s.mark? j = some r.mark := by
        unfold mark?
        rw [hr]
        rfl
      rw [applyInput_of_lt hmark hlt]
      split
      · rename_i hj
        subst hj
        rw [hmark, Option.map_some, Nat.max_eq_left (Nat.le_of_lt hlt : input.sequence ≤ r.mark.2)]
      · rfl
    · obtain ⟨r', hplayers, hmark⟩ := trySpawnProjectile_mark s j
        { r with state := if r.state.isAlive then
            s.movePlayer { r.state with lastSequence := input.sequence } input dt
          else { r.state with lastSequence := input.sequence } } input
      have hnew : r'.mark = (r.mark.1, input.sequence) := by
        rw [hmark]
        unfold PlayerRuntimeState.mark
        dsimp only
        split <;> rfl
      unfold applyInput mark?
      rw [hr]
      dsimp only
      rw [if_neg hlt, hplayers]
      simp only [TreeMap.getElem?_insert, Std.compare_eq_iff_eq]
      split
      · rename_i hj
        subst hj
        rw [hr, Option.map_some, Option.map_some, Option.map_some, hnew,
          Nat.max_eq_right (Nat.le_of_not_lt hlt : r.mark.2 ≤ input.sequence)]
      · rfl

theorem mark?_tick (s : GameSession α) (order : List String) (n : Nat) (dt : α) (id : String) :
    (s.tick order n dt).1.mark? id = s.mark? id :=
  map_resolveHits hitProof_mark { s with elapsedTime := s.elapsedTime + dt } order n
    (s.projectiles.map (moveProjectile (s.elapsedTime + dt) dt)) id

/-- A registered player bears its name and the largest number that was applied to it. -/
def Marked (id : String) (seen : Option (List Nat)) (s : GameSession α) : Prop :=
  s.mark? id = seen.map fun seqs => (id, newest seqs)

theorem Marked.exec {id : String} {seen : Option (List Nat)} {s : GameSession α} (h : Marked id seen s)
    (op : SessionOp α) : Marked id (hear id seen op) (op.exec s).1 := by
  unfold Marked at *
  cases op with
  | upsertPlayer j =>
    have hnamed : ∀ m, s.mark? id = some m → m.1 = id := by
      intro m hm
      rw [h] at hm
      obtain ⟨seqs, -, rfl⟩ := Option.map_eq_some_iff.1 hm
      rfl
    show (s.upsertPlayer j).mark? id = _
    simp only [mark?_upsertPlayer s hnamed, hear, h, Option.map_eq_none_iff]
    split <;> rfl
  | removePlayer j =>
    show (s.removePlayer j).mark? id = _
    rw [mark?_removePlayer, hear, h]
    split <;> rfl
  | applyInput j input dt =>
    show (s.applyInput j input dt).1.mark? id = _
    rw [mark?_applyInput, hear, h]
    split
    · cases seen with
      | none => rfl
      | some seqs =>
        show some (id, max (newest seqs) input.sequence) = some (id, newest (seqs ++ [input.sequence]))
        rw [newest_concat]
    · rfl
  | tick order n dt => exact (mark?_tick s order n dt id).trans h
  | consumeDeathEvents => exact h

theorem marked_run (id : String) (ops : List (SessionOp α)) :
    Marked id (history id ops) ((sessionMachine α).run ops).1 := by
  induction ops using List.reverseRecOn with
  | nil =>
    show Option.map _ (∅ : TreeMap String (PlayerRuntimeState α))[id]? = _
    rw [TreeMap.getElem?_emptyc]
    rfl
  | append_singleton ops op ih =>
    rw [Machine.run_concat, history, List.foldl_append]
    exact ih.exec op

/-! ### The whole state -/

namespace FacingSession

/-- What an operation does to the facing angles: a record that is filled in looks along the first
axis, and an input that is applied turns its player. -/
def turn (atan2 : α → α → α) (s : FacingSession α) : SessionOp α → TreeMap String α
  | .upsertPlayer id =>
    let runtime := (s.session.players[id]?).getD newRuntime
    if runtime.state.playerId = "" then s.facing.insert id (Scalar.lit 0) else s.facing
  | .removePlayer id => s.facing.erase id
  | .applyInput id input _ => match s.session.players[id]? with
    | none => s.facing
    | some runtime =>
      if input.sequence < runtime.state.lastSequence then s.facing
      else s.facing.insert id (atan2 input.mouseY input.mouseX)
  | .tick _ _ _ | .consumeDeathEvents => s.facing

def exec (atan2 : α → α → α) (s : FacingSession α) (op : SessionOp α) :
    FacingSession α × List SessionTrace :=
  (⟨(op.exec s.session).1, s.turn atan2 op⟩, (op.exec s.session).2)

end FacingSession

/-- `sessionMachine` with the facing angles. -/
def facingMachine (atan2 : α → α → α) : Machine (FacingSession α) (SessionOp α) SessionTrace where
  init := ⟨.new, ∅⟩
  step := FacingSession.exec atan2

theorem facing_run_session (atan2 : α → α → α) (ops : List (SessionOp α)) :
    ((facingMachine atan2).run ops).1.session = ((sessionMachine α).run ops).1 := by
  induction ops using List.reverseRecOn with
  | nil => rfl
  | append_singleton ops op ih =>
    rw [Machine.run_concat, Machine.run_concat, ← ih]
    rfl

theorem FacingSession.applyInput_of_lt (atan2 : α → α → α) {s : FacingSession α} {id : String}
    {m : String × Nat} (h : s.session.mark? id = some m) {input : MovementInput α}
    (hlt : input.sequence < m.2) (dt : α) : (s.exec atan2 (.applyInput id input dt)).1 = s := by
  have hsession : (s.session.applyInput id input dt).1 = s.session := Arena.applyInput_of_lt h hlt dt
  obtain ⟨r, hr, rfl⟩ := Option.map_eq_some_iff.1 h
  have hlt : input.sequence < r.state.lastSequence := hlt
  have hfacing : s.turn atan2 (.applyInput id input dt) = s.facing := by
    unfold turn
    dsimp only
    rw [hr]
    exact if_pos hlt
  show FacingSession.mk (s.session.applyInput id input dt).1 (s.turn atan2 (.applyInput id input dt)) = s
  rw [hsession, hfacing]

/-- An input that is applied turns its player. -/
theorem FacingSession.facing_applyInput (atan2 : α → α → α) {s : FacingSession α} {id : String}
    {m : String × Nat} (h : s.session.mark? id = some m) {input : MovementInput α}
    (hle : m.2 ≤ input.sequence) (dt : α) :
    (s.exec atan2 (.applyInput id input dt)).1.facing[id]? = some (atan2 input.mouseY input.mouseX) := by
  obtain ⟨r, hr, rfl⟩ := Option.map_eq_some_iff.1 h
  have hle : r.state.lastSequence ≤ input.sequence := hle
  show (s.turn atan2 (.applyInput id input dt))[id]? = _
  unfold turn
  dsimp only
  rw [hr]
  dsimp only
  rw [if_neg hle.not_gt, TreeMap.getElem?_insert_self]

/-- After any operations, inputs with a number that is not larger than one already applied since the
insertion leave the whole state alone exactly when the number is not the largest of these. -/
theorem replay_ignored_iff {atan2 : α → α → α} (hturns : ∃ y x y' x', atan2 y x ≠ atan2 y' x')
    (ops : List (SessionOp α)) (id : String) {seqs : List Nat} (hseqs : history id ops = some seqs)
    {n q : Nat} (hq : q ∈ seqs) (hn : n ≤ q) :
    (∀ (input : MovementInput α) (dt : α), input.sequence = n →
      ((facingMachine atan2).run (ops ++ [.applyInput id input dt])).1 =
        ((facingMachine atan2).run ops).1) ↔ n ≠ newest seqs := by
  have hmark : ((facingMachine atan2).run ops).1.session.mark? id = some (id, newest seqs) := by
    rw [facing_run_session, marked_run id ops, hseqs]
    rfl
  have hrun : ∀ (input : MovementInput α) (dt : α),
      ((facingMachine atan2).run (ops ++ [.applyInput id input dt])).1 =
        (((facingMachine atan2).run ops).1.exec atan2 (.applyInput id input dt)).1 := by
    intro input dt
    rw [Machine.run_concat]
    rfl
  constructor
  · rintro hsame rfl
    obtain ⟨y, x, y', x', hne⟩ := hturns
    -- two inputs that look in different directions cannot both leave the angle alone
    have hangle : ∀ y x : α, ((facingMachine atan2).run ops).1.facing[id]? = some (atan2 y x) := by
      intro y x
      have hinput := hsame { sequence := newest seqs, mouseX := x, mouseY := y } (Scalar.lit 0) rfl
      rw [hrun] at hinput
      rw [← hinput]
      exact FacingSession.facing_applyInput atan2 hmark (Nat.le_refl _) _
    have heq := (hangle y x).symm.trans (hangle y' x')
    exact hne (Option.some.inj heq)
  · intro hne input dt hinput
    have hlt : input.sequence < newest seqs := by
      have hle := hn.trans (le_newest hq)
      omega
    rw [hrun]
    exact FacingSession.applyInput_of_lt atan2 hmark hlt dt

end

/-- Player `a` holds the key to go up in the inputs 2 and 5. -/
def climb (α : Type) [Scalar α] : List (SessionOp α) :=
  let press (n : Nat) : SessionOp α :=
    .applyInput "a" { sequence := n, up := true, mouseX := Scalar.lit 1, mouseY := Scalar.lit 0 } (Scalar.lit 1)
  [.upsertPlayer "a", press 2, press 5]

theorem replay_ignored_iff_climb :
    let stale : MovementInput ℝ := { sequence := 4, right := true, mouseX := 0, mouseY := 1 }
    ((facingMachine fun y x => Complex.arg ⟨x, y⟩).run (climb ℝ ++ [.applyInput "a" stale 1])).1 =
      ((facingMachine fun y x => Complex.arg ⟨x, y⟩).run (climb ℝ)).1 := by
  have hturns : ∃ y x y' x' : ℝ, Complex.arg ⟨x, y⟩ ≠ Complex.arg ⟨x', y'⟩ := by
    refine ⟨0, 1, 1, 0, ?_⟩
    show Complex.arg 1 ≠ Complex.arg Complex.I
    rw [Complex.arg_one, Complex.arg_I]
    exact (div_pos Real.pi_pos two_pos).ne
  have hseqs : history "a" (climb ℝ) = some [2, 5] := rfl
  have hignored :=
    (replay_ignored_iff hturns (climb ℝ) "a" hseqs (n := 4) (q := 5) (by decide) (by decide)).2 (by decide)
  exact hignored _ 1 rfl

/-- Input 5 comes twice and takes player `a` up twice. -/
theorem repeated_input_moves :
    let again : SessionOp ℚ := .applyInput "a" { sequence := 5, up := true, mouseX := 1, mouseY := 0 } 1
    let height (ops : List (SessionOp ℚ)) :=
      (((facingMachine fun _ _ => 0).run ops).1.session.players["a"]?).map (·.state.y)
    history "a" (climb ℚ) = some [2, 5] ∧ height (climb ℚ) = some (-10) ∧
      height (climb ℚ ++ [again]) = some (-15) := by
  decide +kernel

end Portfolio.Arena
