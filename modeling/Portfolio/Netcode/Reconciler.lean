import Portfolio.Netcode.World

/-!
# `sync::Reconciler`

The history of predicted states that a client compares with the states of the server
(`netcode-core/sync/reconciliation.cpp`). `std::hypot` is a parameter: what is shown here holds for
any rounding of it.
-/

namespace Portfolio.Netcode

structure ReconciliationResult (α : Type) [Scalar α] where
  correctedTicks : Nat := 0
  positionError : α := Scalar.lit 0
  deriving DecidableEq

structure Reconciler (α : Type) [Scalar α] where
  historySize : Nat := 120
  epsilon : α := Scalar.lit (1 / 2)
  history : List (WorldState α) := []

section
variable {α : Type} [Scalar α]

/-- `while (history_.size() > history_size_) history_.pop_front();` -/
def trimHistory (historySize : Nat) : List (WorldState α) → List (WorldState α)
  | [] => []
  | front :: rest =>
    if historySize < (front :: rest).length then trimHistory historySize rest else front :: rest

omit [Scalar α] in
theorem trimHistory_eq_drop (historySize : Nat) (history : List (WorldState α)) :
    trimHistory historySize history = history.drop (history.length - historySize) := by
  induction history with
  | nil => rw [trimHistory, List.drop_nil]
  | cons front rest ih =>
    rw [trimHistory]
    split
    · next h =>
      rw [ih, List.length_cons, Nat.succ_sub (Nat.le_of_lt_succ h), List.drop_succ_cons]
    · next h => rw [Nat.sub_eq_zero_of_le (Nat.le_of_not_lt h), List.drop_zero]

/-- The largest of the distances of the ball and of the two paddles. -/
def positionError (hypot : α → α → α) (predicted authoritative : WorldState α) : α :=
  let ballError :=
    hypot (predicted.ballX - authoritative.ballX) (predicted.ballY - authoritative.ballY)
  let leftError := Scalar.abs (predicted.leftPaddleY - authoritative.leftPaddleY)
  let rightError := Scalar.abs (predicted.rightPaddleY - authoritative.rightPaddleY)
  Scalar.max (Scalar.max ballError leftError) rightError

namespace Reconciler

def recordPrediction (r : Reconciler α) (state : WorldState α) : Reconciler α :=
  { r with history := trimHistory r.historySize (r.history ++ [state]) }

/-- The first prediction of the tick, searched from the old end. -/
def findIndex (r : Reconciler α) (tick : Nat) : Option (Fin r.history.length) :=
  r.history.findFinIdx? (·.tick == tick)

def reconcile (hypot : α → α → α) (r : Reconciler α) (authoritative : WorldState α) :
    ReconciliationResult α × Reconciler α :=
  match r.findIndex authoritative.tick with
  | none =>
    ({}, { r with history := r.history.dropWhile fun front => front.tick < authoritative.tick })
  | some index =>
    let error := positionError hypot (r.history.get index) authoritative
    ({ correctedTicks := if r.epsilon < error then r.history.length - index else 0
       positionError := error },
     { r with history := r.history.drop (index + 1) })

end Reconciler

/-! ### What a call does to the history -/

section
variable {r : Reconciler α} {a s : WorldState α} {older newer : List (WorldState α)}

theorem Reconciler.recordPrediction_history (r : Reconciler α) (s : WorldState α) :
    (r.recordPrediction s).history =
      (r.history ++ [s]).drop (r.history.length + 1 - r.historySize) := by
  show trimHistory r.historySize (r.history ++ [s]) = _
  rw [trimHistory_eq_drop, List.length_append, List.length_singleton]

theorem Reconciler.findIndex_none (h : ∀ s ∈ r.history, s.tick ≠ a.tick) :
    r.findIndex a.tick = none := by
  refine List.findFinIdx?_eq_none_iff.2 fun s hs heq => ?_
  exact h s hs (beq_iff_eq.1 heq)

theorem Reconciler.length_older_lt (hh : r.history = older ++ s :: newer) : older.length < r.history.length := by
  rw [hh, List.length_append, List.length_cons]
  omega

theorem Reconciler.findIndex_some (hh : r.history = older ++ s :: newer)
    (hlt : ∀ s ∈ older, s.tick ≠ a.tick) (hs : s.tick = a.tick) :
    r.findIndex a.tick = some ⟨older.length, length_older_lt hh⟩ := by
  refine List.findFinIdx?_eq_some_iff.2 ⟨by simp [hh, hs], fun j hj => ?_⟩
  have hmem : r.history[j] ∈ older := by
    have hget : r.history[j] = older[j] := by simp [hh, List.getElem_append_left hj]
    rw [hget]
    exact List.getElem_mem hj
  simpa using hlt _ hmem

end
end
end Portfolio.Netcode
