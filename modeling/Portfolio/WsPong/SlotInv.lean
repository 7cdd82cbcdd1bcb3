import Portfolio.WsPong.PongServer

/-!
# Slots and sessions

The role is kept in the session and the session in the slot. `SlotsOk` says that the two match; a
hello breaks it when its session holds a slot already or is closed, or when the id that it gets is in
use on the other side.
-/

namespace Portfolio.WsPong
open Netcode (PlayerSide)

namespace PongServer

/-- Slots match live sessions. -/
structure SlotsOk (s : PongServer) : Prop where
  active : ∀ side, (s.slot side).status = .active →
    ∃ c x, (s.slot side).session = some c ∧ s.heap c = some x ∧ x.isOpen = true ∧ x.role = side
  single : ∀ side side', side ≠ side' → (s.slot side).status = .active → (s.slot side').status = .active →
    (s.slot side).session ≠ (s.slot side').session
  unique : ∀ side side', side ≠ side' → (s.slot side).status ≠ .empty → (s.slot side').status ≠ .empty →
    (s.slot side).playerId ≠ "" → (s.slot side).playerId ≠ (s.slot side').playerId
  closed : (∀ c x, s.heap c = some x → x.isOpen = false) → ∀ side, (s.slot side).status ≠ .active

/-- Some slot waits for the player. -/
def Waiting (s : PongServer) (playerId : String) : Prop := ∃ side, (s.slot side).waitsFor playerId = true

/-- Some slot is empty. -/
def Vacant (s : PongServer) : Prop := s.leftSlot.status = .empty ∨ s.rightSlot.status = .empty

/-- The id of a player who is not waited for. -/
def newPlayerId (s : PongServer) (playerId : String) : String :=
  if playerId = "" then "player_" ++ toString (s.counter + 1) else playerId

/-- A hello of the session `x`, number `c`: it holds no slot; when it takes one it is open; and when it
takes an empty one, its player id is not in use on the other side. -/
structure HelloOk (s : PongServer) (c : Nat) (x : Session) (playerId : String) : Prop where
  first : ∀ side, (s.slot side).status = .active → (s.slot side).session ≠ some c
  isOpen : s.Waiting playerId ∨ s.Vacant → x.isOpen = true
  unused : ¬ s.Waiting playerId → s.Vacant → ∀ side, (s.slot side).status ≠ .empty →
    (s.slot side).playerId ≠ s.newPlayerId playerId

/-- Every hello that is handled meets `HelloOk`. -/
def HellosOk (s : PongServer) : Event → Prop
  | .read c _ => ∀ x playerId, s.heap c = some x → x.read = .completed (some (.hello playerId)) →
    s.HelloOk c x (helloPlayerId playerId)
  | _ => True

variable {s t : PongServer} {c : Nat}

/-! ### Slots and sessions under changes -/

theorem slot_modifySlot (s : PongServer) (f : PlayerSlot → PlayerSlot) {side : PlayerSide}
    (hside : side ≠ .spectator) (side' : PlayerSide) :
    (s.modifySlot f side).slot side' = if side' = side then f (s.slot side) else s.slot side' := by
  cases side with
  | left => cases side' <;> rfl
  | right => cases side' <;> rfl
  | spectator => exact absurd rfl hside

theorem heap_modifySlot (s : PongServer) (f : PlayerSlot → PlayerSlot) (side : PlayerSide) :
    (s.modifySlot f side).heap = s.heap := by
  cases side <;> rfl

theorem slot_modifySession (s : PongServer) (c : Nat) (f : Session → Session) (side : PlayerSide) :
    (s.modifySession c f).slot side = s.slot side := by
  cases side <;> rfl

theorem heap_modifySession_self {f : Session → Session} {x : Session} (hx : s.heap c = some x) :
    (s.modifySession c f).heap c = some (f x) := by
  show Function.update _ _ _ _ = _
  rw [Function.update_self, hx]
  rfl

theorem heap_modifySession_of_ne {f : Session → Session} {d : Nat} (h : d ≠ c) :
    (s.modifySession c f).heap d = s.heap d := Function.update_of_ne h ..

/-- The parts of `SlotsOk` that the others follow from. -/
structure Matched (s : PongServer) : Prop where
  active : ∀ side, (s.slot side).status = .active →
    ∃ c x, (s.slot side).session = some c ∧ s.heap c = some x ∧ x.isOpen = true ∧ x.role = side
  unique : ∀ side side', side ≠ side' → (s.slot side).status ≠ .empty → (s.slot side').status ≠ .empty →
    (s.slot side).playerId ≠ "" → (s.slot side).playerId ≠ (s.slot side').playerId

theorem slotsOk_iff : s.SlotsOk ↔ Matched s := by
  constructor
  · exact fun h => ⟨h.active, h.unique⟩
  · intro h
    refine ⟨h.active, fun side side' hne ha ha' heq => ?_, h.unique, fun hclosed side ha => ?_⟩
    · obtain ⟨c, x, hc, hx, -, hrole⟩ := h.active side ha
      obtain ⟨c', x', hc', hx', -, hrole'⟩ := h.active side' ha'
      rw [heq, hc'] at hc
      cases hc
      rw [hx] at hx'
      cases hx'
      exact hne (hrole.symm.trans hrole')
    · obtain ⟨c, x, -, hx, ho, -⟩ := h.active side ha
      rw [hclosed c x hx] at ho
      cases ho

/-- Slots may get empty or be given up; the sessions of active slots stay open and keep their role. -/
theorem Matched.shrink (h : Matched s)
    (hslot : ∀ side, (t.slot side).status ≠ .empty →
      (s.slot side).status ≠ .empty ∧ (t.slot side).playerId = (s.slot side).playerId)
    (hactive : ∀ side, (t.slot side).status = .active → t.slot side = s.slot side)
    (hheap : ∀ side c x, (t.slot side).status = .active → (s.slot side).session = some c → s.heap c = some x →
      x.isOpen = true → x.role = side → ∃ y, t.heap c = some y ∧ y.isOpen = true ∧ y.role = side) :
    Matched t := by
  refine ⟨fun side ha => ?_, fun side side' hne hn hn' hp => ?_⟩
  · have heq := hactive side ha
    obtain ⟨c, x, hc, hx, ho, hrole⟩ := h.active side (heq ▸ ha)
    obtain ⟨y, hy, hyo, hyrole⟩ := hheap side c x ha hc hx ho hrole
    exact ⟨c, y, heq ▸ hc, hy, hyo, hyrole⟩
  · obtain ⟨hs, heq⟩ := hslot side hn
    obtain ⟨hs', heq'⟩ := hslot side' hn'
    rw [heq] at hp ⊢
    rw [heq']
    exact h.unique side side' hne hs hs' hp

/-- Only sessions change, and those of active slots stay open and keep their role. -/
theorem Matched.heap (h : Matched s) (hslot : ∀ side, t.slot side = s.slot side)
    (hheap : ∀ side c x, (s.slot side).status = .active → (s.slot side).session = some c → s.heap c = some x →
      x.isOpen = true → x.role = side → ∃ y, t.heap c = some y ∧ y.isOpen = true ∧ y.role = side) :
    Matched t := by
  refine h.shrink (fun side hn => ⟨hslot side ▸ hn, by rw [hslot]⟩) (fun side _ => hslot side) ?_
  intro side c x ha
  exact hheap side c x (hslot side ▸ ha)

theorem Matched.modifySession (h : Matched s) {f : Session → Session}
    (hf : ∀ x, s.heap c = some x → x.isOpen = true → (f x).isOpen = true ∧ (f x).role = x.role) :
    Matched (s.modifySession c f) := by
  refine h.heap (slot_modifySession s c f) fun side d x _ _ hx ho hrole => ?_
  by_cases hd : d = c
  · subst hd
    obtain ⟨ho', hrole'⟩ := hf x hx ho
    exact ⟨f x, heap_modifySession_self hx, ho', hrole'.trans hrole⟩
  · exact ⟨x, (heap_modifySession_of_ne hd).trans hx, ho, hrole⟩

/-! ### Taking a slot -/

/-- The session `c` takes the slot of `side` for the player `p`. -/
structure Takes (s t : PongServer) (c : Nat) (side : PlayerSide) (p : String) : Prop where
  isPlayer : side ≠ .spectator
  slots : ∀ side', t.slot side' =
    if side' = side then { s.slot side with playerId := p, session := some c, status := .active }
    else s.slot side'

theorem waitsFor_iff {slot : PlayerSlot} {playerId : String} :
    slot.waitsFor playerId = true ↔ playerId ≠ "" ∧ slot.status = .reconnecting ∧ slot.playerId = playerId := by
  simp [PlayerSlot.waitsFor, and_assoc]

theorem takes_reconnect (s : PongServer) (c : Nat) (side : PlayerSide) (h : side ≠ .spectator) :
    s.Takes (s.modifySlot (.reconnect c) side) c side (s.slot side).playerId :=
  ⟨h, fun side' => slot_modifySlot s _ h side'⟩

theorem takes_assign (s t : PongServer) (c : Nat) (p : String) (side : PlayerSide) (h : side ≠ .spectator)
    (ht : ∀ side, t.slot side = s.slot side) : s.Takes (t.modifySlot (.assign p c) side) c side p := by
  refine ⟨h, fun side' => ?_⟩
  rw [slot_modifySlot t _ h side', ht, ht]
  rfl

/-- `register_session` lets a player return to a slot that waits for him, else gives him an empty slot,
else makes him a spectator. -/
theorem registerSession_cases (s : PongServer) (c : Nat) (pid : String) :
    (∃ side, (s.slot side).waitsFor pid = true ∧ (s.registerSession c pid).role = side ∧
      s.Takes (s.registerSession c pid).server c side (s.slot side).playerId) ∨
    (¬ s.Waiting pid ∧ ∃ side, (s.slot side).status = .empty ∧ (s.registerSession c pid).role = side ∧
      s.Takes (s.registerSession c pid).server c side (s.newPlayerId pid)) ∨
    (¬ s.Waiting pid ∧ ¬ s.Vacant ∧ (s.registerSession c pid).role = .spectator ∧
      ∀ side, (s.registerSession c pid).server.slot side = s.slot side) := by
  have hid : (if pid = "" then s.generatePlayerId else (s, pid)).2 = s.newPlayerId pid := by
    unfold newPlayerId generatePlayerId
    split <;> rfl
  have hslot : ∀ side, (if pid = "" then s.generatePlayerId else (s, pid)).1.slot side = s.slot side := by
    intro side
    unfold generatePlayerId
    split <;> cases side <;> rfl
  unfold registerSession
  by_cases hl : s.leftSlot.waitsFor pid = true
  · rw [if_pos hl]
    exact .inl ⟨.left, hl, rfl, takes_reconnect s c .left (by simp)⟩
  rw [if_neg hl]
  by_cases hr : s.rightSlot.waitsFor pid = true
  · rw [if_pos hr]
    exact .inl ⟨.right, hr, rfl, takes_reconnect s c .right (by simp)⟩
  rw [if_neg hr]
  have hw : ¬ s.Waiting pid := by
    rintro ⟨side, hside⟩
    cases side with
    | left => exact hl hside
    | right => exact hr hside
    | spectator => exact absurd (waitsFor_iff.1 hside).2.1 (by simp [slot])
  dsimp only
  rw [hid]
  by_cases hl : s.leftSlot.status = .empty
  · rw [if_pos (by rw [← hl]; exact congrArg PlayerSlot.status (hslot .left))]
    exact .inr (.inl ⟨hw, .left, hl, rfl, takes_assign s _ c _ .left (by simp) hslot⟩)
  rw [if_neg (fun h => hl (by rw [← h]; exact (congrArg PlayerSlot.status (hslot .left)).symm))]
  by_cases hr : s.rightSlot.status = .empty
  · rw [if_pos (by rw [← hr]; exact congrArg PlayerSlot.status (hslot .right))]
    exact .inr (.inl ⟨hw, .right, hr, rfl, takes_assign s _ c _ .right (by simp) hslot⟩)
  rw [if_neg (fun h => hr (by rw [← h]; exact (congrArg PlayerSlot.status (hslot .right)).symm))]
  exact .inr (.inr ⟨hw, not_or.2 ⟨hl, hr⟩, rfl, hslot⟩)

theorem newPlayerId_ne_empty (s : PongServer) (pid : String) : s.newPlayerId pid ≠ "" := by
  unfold newPlayerId
  split
  · simp
  · assumption

theorem heap_registerSession (s : PongServer) (c : Nat) (pid : String) :
    (s.registerSession c pid).server.heap = s.heap := by
  unfold registerSession generatePlayerId
  dsimp only
  split_ifs <;> rfl

theorem nextConn_registerSession (s : PongServer) (c : Nat) (pid : String) :
    (s.registerSession c pid).server.nextConn = s.nextConn := by
  unfold registerSession generatePlayerId
  dsimp only
  split_ifs <;> rfl

theorem Matched.takes_iff {x : Session} {side : PlayerSide} {p : String} (h : Matched s)
    (ht : s.Takes t c side p) (hfree : (s.slot side).status ≠ .active)
    (hself : t.heap c = some { x with role := side }) (hheap : ∀ d, d ≠ c → t.heap d = s.heap d) :
    Matched t ↔ (∀ side', (s.slot side').status = .active → (s.slot side').session ≠ some c) ∧ x.isOpen = true ∧
      ∀ side', side' ≠ side → (s.slot side').status ≠ .empty → p ≠ "" → p ≠ (s.slot side').playerId := by
  have hside := ht.slots side
  rw [if_pos rfl] at hside
  have hother : ∀ side', side' ≠ side → t.slot side' = s.slot side' := fun side' hne =>
    (ht.slots side').trans (if_neg hne)
  constructor
  · intro hm
    refine ⟨fun side' ha hsess => ?_, ?_, fun side' hne hn hp => ?_⟩
    · have hne : side' ≠ side := fun heq => hfree (heq ▸ ha)
      obtain ⟨d, y, hd, hy, -, hrole⟩ := hm.active side' (by rw [hother side' hne]; exact ha)
      rw [hother side' hne, hsess] at hd
      cases hd
      rw [hself] at hy
      cases hy
      exact hne hrole.symm
    · obtain ⟨d, y, hd, hy, hopen, -⟩ := hm.active side (by rw [hside])
      rw [hside] at hd
      cases hd
      rw [hself] at hy
      cases hy
      exact hopen
    · have hu := hm.unique side side' hne.symm
      rw [hside, hother side' hne] at hu
      exact hu (by simp) hn hp
  · rintro ⟨hfirst, hopen, hunused⟩
    refine ⟨fun side' ha => ?_, fun a b hne ha hb hp => ?_⟩
    · by_cases hs : side' = side
      · subst hs
        exact ⟨c, _, by rw [hside], hself, hopen, rfl⟩
      · rw [hother side' hs] at ha ⊢
        obtain ⟨d, y, hd, hy, ho, hrole⟩ := h.active side' ha
        have hdc : d ≠ c := fun heq => hfirst side' ha (heq ▸ hd)
        exact ⟨d, y, hd, (hheap d hdc).trans hy, ho, hrole⟩
    · by_cases hsa : a = side
      · subst hsa
        rw [hother b hne.symm] at hb ⊢
        rw [hside] at hp ⊢
        exact hunused b hne.symm hb hp
      · rw [hother a hsa] at ha hp ⊢
        by_cases hsb : b = side
        · subst hsb
          rw [hside]
          intro heq
          exact hunused a hsa ha (fun h0 => hp (heq.trans h0)) heq.symm
        · rw [hother b hsb] at hb ⊢
          exact h.unique a b hne ha hb hp

theorem Matched.spectate_iff {x : Session} (h : Matched s) (hslot : ∀ side, t.slot side = s.slot side)
    (hself : t.heap c = some { x with role := .spectator }) (hheap : ∀ d, d ≠ c → t.heap d = s.heap d) :
    Matched t ↔ ∀ side, (s.slot side).status = .active → (s.slot side).session ≠ some c := by
  constructor
  · intro hm side ha hsess
    obtain ⟨d, y, hd, hy, -, hrole⟩ := hm.active side (by rw [hslot]; exact ha)
    rw [hslot, hsess] at hd
    cases hd
    rw [hself] at hy
    cases hy
    -- the slot of a spectator is never active
    rw [← hrole] at ha
    cases ha
  · intro hfirst
    refine h.heap hslot fun side d y ha hd hy ho hrole => ?_
    have hdc : d ≠ c := fun heq => hfirst side ha (heq ▸ hd)
    exact ⟨y, (hheap d hdc).trans hy, ho, hrole⟩

/-- A hello keeps slots and sessions matched if and only if it meets `HelloOk`. -/
theorem Matched.hello_iff {x : Session} (h : Matched s) (hx : s.heap c = some x) (playerId : Option String) :
    Matched (s.handleHello c playerId) ↔ s.HelloOk c x (helloPlayerId playerId) := by
  have hreg := heap_registerSession s c (helloPlayerId playerId)
  have hself : (s.handleHello c playerId).heap c =
      some { x with role := (s.registerSession c (helloPlayerId playerId)).role } :=
    heap_modifySession_self (by rw [hreg, hx])
  have hheap : ∀ d, d ≠ c → (s.handleHello c playerId).heap d = s.heap d := fun d hd =>
    (heap_modifySession_of_ne hd).trans (by rw [hreg])
  have hslot : ∀ side, (s.handleHello c playerId).slot side =
      (s.registerSession c (helloPlayerId playerId)).server.slot side := slot_modifySession _ _ _
  generalize hpid : helloPlayerId playerId = pid at *
  rcases registerSession_cases s c pid with ⟨side, hwait, hrole, ht⟩ | ⟨hwait, side, hempty, hrole, ht⟩ |
    ⟨hwait, hvac, hrole, hsame⟩
  · obtain ⟨-, hrec, -⟩ := waitsFor_iff.1 hwait
    rw [hrole] at hself
    have ht' : s.Takes (s.handleHello c playerId) c side (s.slot side).playerId :=
      ⟨ht.isPlayer, fun side' => (hslot side').trans (ht.slots side')⟩
    rw [h.takes_iff ht' (by simp [hrec]) hself hheap]
    constructor
    · rintro ⟨hfirst, hopen, -⟩
      exact ⟨hfirst, fun _ => hopen, fun hw => absurd ⟨side, hwait⟩ hw⟩
    · intro hok
      refine ⟨hok.first, hok.isOpen (.inl ⟨side, hwait⟩), fun side' hne hn hp => ?_⟩
      exact h.unique side side' hne.symm (by simp [hrec]) hn hp
  · rw [hrole] at hself
    have ht' : s.Takes (s.handleHello c playerId) c side (s.newPlayerId pid) :=
      ⟨ht.isPlayer, fun side' => (hslot side').trans (ht.slots side')⟩
    have hvac : s.Vacant := by
      cases side with
      | left => exact .inl hempty
      | right => exact .inr hempty
      | spectator => exact absurd rfl ht.isPlayer
    rw [h.takes_iff ht' (by simp [hempty]) hself hheap]
    constructor
    · rintro ⟨hfirst, hopen, hunused⟩
      refine ⟨hfirst, fun _ => hopen, fun _ _ side' hn => ?_⟩
      have hne : side' ≠ side := fun heq => hn (heq ▸ hempty)
      exact (hunused side' hne hn (newPlayerId_ne_empty s pid)).symm
    · intro hok
      exact ⟨hok.first, hok.isOpen (.inr hvac), fun side' _ hn _ => (hok.unused hwait hvac side' hn).symm⟩
  · rw [hrole] at hself
    rw [h.spectate_iff (fun side => (hslot side).trans (hsame side)) hself hheap]
    constructor
    · intro hfirst
      exact ⟨hfirst, fun hor => absurd hor (not_or.2 ⟨hwait, hvac⟩), fun _ hv => absurd hv hvac⟩
    · exact fun hok => hok.first

/-! ### Every state of a run -/

/-- Numbers from `nextConn` on are free, and a slot with a session is active. -/
structure Wf (s : PongServer) : Prop where
  fresh : ∀ c, s.nextConn ≤ c → s.heap c = none
  held : ∀ side c, (s.slot side).session = some c → (s.slot side).status = .active

theorem Wf.modifySession (h : Wf s) (c : Nat) (f : Session → Session) : Wf (s.modifySession c f) := by
  refine ⟨fun d hd => ?_, fun side d => ?_⟩
  · by_cases hdc : d = c
    · subst hdc
      show Function.update _ _ _ _ = _
      rw [Function.update_self, h.fresh d hd]
      rfl
    · exact (heap_modifySession_of_ne hdc).trans (h.fresh d hd)
  · rw [slot_modifySession]
    exact h.held side d

theorem Wf.takes {side : PlayerSide} {p : String} (h : Wf s) (ht : s.Takes t c side p)
    (hheap : t.heap = s.heap) (hnext : t.nextConn = s.nextConn) : Wf t := by
  refine ⟨fun d hd => ?_, fun side' d => ?_⟩
  · rw [hheap]
    exact h.fresh d (hnext ▸ hd)
  · rw [ht.slots side']
    split
    · exact fun _ => rfl
    · exact h.held side' d

theorem Wf.registerSession (h : Wf s) (c : Nat) (pid : String) : Wf (s.registerSession c pid).server := by
  have hheap := heap_registerSession s c pid
  have hnext := nextConn_registerSession s c pid
  rcases registerSession_cases s c pid with ⟨_, _, _, ht⟩ | ⟨_, _, _, _, ht⟩ | ⟨_, _, _, hsame⟩
  · exact h.takes ht hheap hnext
  · exact h.takes ht hheap hnext
  · refine ⟨fun d hd => ?_, fun side d => ?_⟩
    · rw [hheap]
      exact h.fresh d (hnext ▸ hd)
    · rw [hsame]
      exact h.held side d

theorem slot_unregisterSession (s : PongServer) (c : Nat) (role : PlayerSide) (now : Int) (side : PlayerSide) :
    (s.unregisterSession c role now).slot side =
      if side = role then (s.slot side).release c now else s.slot side := by
  cases role with
  | left => cases side <;> rfl
  | right => cases side <;> rfl
  | spectator => cases side <;> rfl

theorem nextConn_modifySlot (s : PongServer) (f : PlayerSlot → PlayerSlot) (side : PlayerSide) :
    (s.modifySlot f side).nextConn = s.nextConn := by
  cases side <;> rfl

theorem slot_cleanup (s : PongServer) (now : Int) (side : PlayerSide) :
    (s.cleanupReconnectTimeouts now).slot side = (s.slot side).expire now := by
  cases side <;> rfl

/-- Steps other than a hello. -/
inductive Calm : PongServer → PongServer → Prop where
  | refl (s : PongServer) : Calm s s
  | trans {s t u : PongServer} (h : Calm s t) (h' : Calm t u) : Calm s u
  | touch (s : PongServer) (c : Nat) (f : Session → Session)
      (hf : ∀ x, x.isOpen = true → (f x).isOpen = true ∧ (f x).role = x.role) : Calm s (s.modifySession c f)
  | connect (s : PongServer) : Calm s s.connect
  | close (s : PongServer) (c : Nat) (x : Session) (now : Int) (hx : s.heap c = some x) :
      Calm s ((s.modifySession c fun x => { x with isOpen := false }).unregisterSession c x.role now)
  | cleanup (s : PongServer) (now : Int) : Calm s (s.cleanupReconnectTimeouts now)

theorem calm_read (s : PongServer) (c : Nat) (read : ReadState Message) :
    Calm s (s.modifySession c fun x => { x with read := read }) :=
  .touch s c _ fun _ h => ⟨h, rfl⟩

theorem calm_onClose (s : PongServer) (c : Nat) (now : Int) : Calm s (s.onClose c now) := by
  unfold onClose
  split
  · exact .refl s
  · rename_i x hx
    split
    · exact .refl s
    · exact .close s c x now hx

theorem calm_onAccept (s : PongServer) (c : Nat) (ok : Bool) : Calm s (s.onAccept c ok) := by
  unfold onAccept
  split
  · exact .refl s
  · split_ifs
    · exact .refl s
    · exact calm_read s c .idle
    · refine .trans (t := s.modifySession c fun x => { x with isOpen := true }) ?_ (calm_read _ c .reading)
      exact .touch s c _ fun _ _ => ⟨rfl, rfl⟩

theorem calm_arrive (s : PongServer) (c : Nat) (result : Option Message) : Calm s (s.arrive c result) := by
  refine .touch s c _ fun x h => ?_
  split
  · exact ⟨h, rfl⟩
  · exact ⟨h, rfl⟩

/-- A step handles a hello, or it is calm and the condition on hellos says nothing. -/
theorem exec_cases (s : PongServer) (event : Event) :
    (∃ c x playerId, (s.HellosOk event ↔ s.HelloOk c x (helloPlayerId playerId)) ∧ s.heap c = some x ∧
      s.exec event = (s.handleHello c playerId).doRead c) ∨
    (s.HellosOk event ∧ Calm s (s.exec event)) := by
  cases event with
  | connect => exact .inr ⟨trivial, .connect s⟩
  | accepted c ok => exact .inr ⟨trivial, calm_onAccept s c ok⟩
  | arrive c result => exact .inr ⟨trivial, calm_arrive s c result⟩
  | writeFailed c now => exact .inr ⟨trivial, calm_onClose s c now⟩
  | cleanup now => exact .inr ⟨trivial, .cleanup s now⟩
  | read c now =>
    show _ ∨ _ ∧ Calm s (s.onRead c now)
    cases hx : s.heap c with
    | none => exact .inr ⟨fun x _ h => by simp [hx] at h, by simp only [onRead, hx]; exact .refl s⟩
    | some x =>
      by_cases hhello : ∃ playerId, x.read = .completed (some (.hello playerId))
      · obtain ⟨playerId, hread⟩ := hhello
        refine .inl ⟨c, x, playerId, ⟨fun h => h x playerId hx hread, fun h y pid hy hpid => ?_⟩, hx, ?_⟩
        · rw [hx] at hy
          cases hy
          rw [hread] at hpid
          cases hpid
          exact h
        · simp only [exec, onRead, hx, hread]
          rfl
      · refine .inr ⟨fun y pid hy hpid => ?_, ?_⟩
        · rw [hx] at hy
          cases hy
          exact absurd ⟨pid, hpid⟩ hhello
        · simp only [onRead, hx]
          split
          · exact (calm_onClose s c now).trans (calm_read _ c .idle)
          · rename_i message hread
            cases message with
            | hello playerId => exact absurd ⟨playerId, hread⟩ hhello
            | other => exact calm_read s c .reading
          · exact .refl s

theorem slot_connect (s : PongServer) (side : PlayerSide) : s.connect.slot side = s.slot side := by
  cases side <;> rfl

theorem Wf.close (h : Wf s) (c : Nat) (x : Session) (now : Int) :
    Wf ((s.modifySession c fun x => { x with isOpen := false }).unregisterSession c x.role now) := by
  have h' := h.modifySession c fun x => { x with isOpen := false }
  refine ⟨fun d hd => ?_, fun side d => ?_⟩
  · rw [unregisterSession, nextConn_modifySlot] at hd
    rw [unregisterSession, heap_modifySlot]
    exact h'.fresh d hd
  · rw [slot_unregisterSession]
    split
    · unfold PlayerSlot.release
      split
      · exact fun hs => by cases hs
      · exact h'.held side d
    · exact h'.held side d

theorem Wf.cleanup (h : Wf s) (now : Int) : Wf (s.cleanupReconnectTimeouts now) := by
  refine ⟨h.fresh, fun side d => ?_⟩
  rw [slot_cleanup]
  unfold PlayerSlot.expire
  split
  · rename_i hrec
    intro hs
    -- a slot that waits has no session
    have ha := h.held side d hs
    rw [ha] at hrec
    cases hrec.1
  · exact h.held side d

theorem Wf.calm (hcalm : Calm s t) (h : Wf s) : Wf t := by
  induction hcalm with
  | refl s => exact h
  | trans _ _ ih ih' => exact ih' (ih h)
  | touch s c f _ => exact h.modifySession c f
  | connect s =>
    refine ⟨fun d hd => ?_, fun side d => ?_⟩
    · have hlt : s.nextConn + 1 ≤ d := hd
      show Function.update _ _ _ _ = _
      rw [Function.update_of_ne (by omega)]
      exact h.fresh d (by omega)
    · rw [slot_connect]
      exact h.held side d
  | close s c x now _ => exact h.close c x now
  | cleanup s now => exact h.cleanup now

theorem Wf.exec (h : Wf s) (event : Event) : Wf (s.exec event) := by
  rcases exec_cases s event with ⟨c, x, playerId, -, -, heq⟩ | ⟨-, hcalm⟩
  · rw [heq]
    exact ((h.registerSession c _).modifySession c _).modifySession c _
  · exact h.calm hcalm

theorem wf_run (events : List Event) : Wf (slotMachine.run events).1 := by
  refine slotMachine.run_inv (P := fun _ _ s => Wf s) ⟨fun _ _ => rfl, fun side c h => ?_⟩
    (fun _ _ _ event h => h.exec event) events
  cases side <;> cases h

theorem Matched.close {x : Session} (hwf : Wf s) (h : Matched s) (hx : s.heap c = some x) (now : Int) :
    Matched ((s.modifySession c fun x => { x with isOpen := false }).unregisterSession c x.role now) := by
  have hslot : ∀ side, ((s.modifySession c fun x => { x with isOpen := false }).unregisterSession c x.role now).slot
      side = if side = x.role then (s.slot side).release c now else s.slot side := by
    intro side
    rw [slot_unregisterSession, slot_modifySession]
  refine h.shrink (fun side => ?_) (fun side => ?_) fun side d y ha hd hy ho hrole => ?_
  · rw [hslot]
    unfold PlayerSlot.release
    split_ifs with hside hsess
    · exact fun _ => ⟨by simp [hwf.held side c hsess], rfl⟩
    · exact fun hn => ⟨hn, rfl⟩
    · exact fun hn => ⟨hn, rfl⟩
  · rw [hslot]
    unfold PlayerSlot.release
    split_ifs with hside hsess
    · exact fun ha => by cases ha
    · exact fun _ => rfl
    · exact fun _ => rfl
  · by_cases hdc : d = c
    · -- the slot of the closed session has been released
      subst hdc
      rw [hx] at hy
      cases hy
      rw [hslot, if_pos hrole.symm, PlayerSlot.release, if_pos hd] at ha
      cases ha
    · rw [unregisterSession, heap_modifySlot, heap_modifySession_of_ne hdc]
      exact ⟨y, hy, ho, hrole⟩

theorem Matched.cleanup (h : Matched s) (now : Int) : Matched (s.cleanupReconnectTimeouts now) := by
  refine h.shrink (fun side => ?_) (fun side => ?_) fun side d y _ _ hy ho hrole => ⟨y, hy, ho, hrole⟩
  · rw [slot_cleanup, PlayerSlot.expire]
    split
    · exact fun hn => absurd rfl hn
    · exact fun hn => ⟨hn, rfl⟩
  · rw [slot_cleanup, PlayerSlot.expire]
    split
    · exact fun ha => by cases ha
    · exact fun _ => rfl

theorem Matched.calm (hcalm : Calm s t) (hwf : Wf s) (h : Matched s) : Matched t := by
  induction hcalm with
  | refl s => exact h
  | trans hst _ ih ih' => exact ih' (hwf.calm hst) (ih hwf h)
  | touch s c f hf => exact h.modifySession fun x _ ho => hf x ho
  | connect s =>
    refine h.heap (slot_connect s) fun side c x _ _ hx ho hrole => ⟨x, ?_, ho, hrole⟩
    have hne : c ≠ s.nextConn := by
      intro heq
      rw [heq, hwf.fresh s.nextConn (Nat.le_refl _)] at hx
      cases hx
    exact (Function.update_of_ne hne ..).trans hx
  | close s c x now hx => exact h.close hwf hx now
  | cleanup s now => exact h.cleanup now

/-- The next read changes nothing that `Matched` reads. -/
theorem matched_doRead : Matched (s.doRead c) ↔ Matched s := by
  constructor
  · intro h
    refine h.heap (fun side => (slot_modifySession s c _ side).symm) fun side d x _ _ hx ho hrole => ?_
    by_cases hdc : d = c
    · subst hdc
      cases hd : s.heap d with
      | none => simp [doRead, PongServer.modifySession, hd] at hx
      | some y =>
        rw [doRead, heap_modifySession_self hd] at hx
        cases hx
        exact ⟨y, rfl, ho, hrole⟩
    · exact ⟨x, (heap_modifySession_of_ne hdc).symm.trans hx, ho, hrole⟩
  · exact fun h => h.modifySession fun _ _ ho => ⟨ho, rfl⟩

theorem Matched.exec_iff (hwf : Wf s) (h : Matched s) (event : Event) :
    Matched (s.exec event) ↔ s.HellosOk event := by
  rcases exec_cases s event with ⟨c, x, playerId, hok, hx, heq⟩ | ⟨hok, hcalm⟩
  · rw [heq, matched_doRead, h.hello_iff hx, hok]
  · exact ⟨fun _ => hok, fun _ => h.calm hcalm hwf⟩

end PongServer

open PongServer

theorem matched_run {events : List Event} (h : slotMachine.Along HellosOk events) :
    Matched (slotMachine.run events).1 := by
  refine (slotMachine.run_inv_along (P := fun _ _ s => Wf s ∧ Matched s) ?_ ?_ events h).2
  · refine ⟨wf_run [], fun side ha => ?_, fun side _ _ hn => ?_⟩
    · cases side <;> cases ha
    · cases side <;> exact absurd rfl hn
  · rintro _ _ s event ⟨hwf, hm⟩ hok
    exact ⟨hwf.exec event, (hm.exec_iff hwf event).2 hok⟩

/-- Slots match live sessions in every state of a run if and only if every hello comes from a session
that holds no slot, is open when it takes one, and takes no empty slot for a player of the other. -/
theorem slots_ok_iff (events : List Event) :
    (∀ pre, pre <+: events → SlotsOk (slotMachine.run pre).1) ↔ slotMachine.Along HellosOk events := by
  refine slotMachine.always_iff_along (P := fun r => SlotsOk r.1) (fun _ _ h => slotsOk_iff.2 (matched_run h))
    fun pre event _ h hok => ?_
  rw [Machine.run_concat] at hok
  exact ((matched_run h).exec_iff (wf_run pre) event).1 (slotsOk_iff.1 hok)

/-- One connection sends hello twice. -/
def secondHelloRun : List Event :=
  [.connect, .accepted 0 true, .arrive 0 (some (.hello none)), .read 0 0, .arrive 0 (some (.hello none)),
    .read 0 0]

/-- It then holds both slots. -/
theorem second_hello_takes_both : ¬ SlotsOk (slotMachine.run secondHelloRun).1 := by
  intro h
  exact h.single .left .right (by decide) (by decide +kernel) (by decide +kernel) (by decide +kernel)

end Portfolio.WsPong
