import Portfolio.Netcode.ReceiveWindow

/-!
# At-most-once delivery

`update_receive_state` clears the acknowledgement bits when the newest number jumps by 32 or more.
A jump of exactly 32 leaves the previous newest number inside the window with its bit cleared, so
a second copy of it is taken for new. `at_most_once_iff` shows that this is the only way in which
the handler sees a number twice.
-/

namespace Portfolio.Netcode

/-- `m` is the largest number of `ns`. -/
def Largest (m : Nat) (ns : List Nat) : Prop := m ∈ ns ∧ ∀ x ∈ ns, x ≤ m

/-- Every number arrives within `2 ^ 15 - 1` of the largest one before it. -/
def InWindow (ns : List Nat) : Prop :=
  ∀ pre n post m, ns = pre ++ n :: post → Largest m pre → Near n m

/-- The largest number of `ns` is `m + 32` and it arrived when the largest was `m`. -/
def Leapt (ns : List Nat) (m : Nat) : Prop :=
  ∃ pre mid, ns = pre ++ (m + 32) :: mid ∧ Largest m pre ∧ ∀ x ∈ mid, x ≤ m + 32

/-- Some `m` arrives again while the largest number is `m + 32`, reached directly from `m`. -/
def Replayed (ns : List Nat) : Prop := ∃ pre m post, ns = pre ++ m :: post ∧ Leapt pre m

section
variable {ns : List Nat} {n m x : Nat}

theorem Largest.unique (h : Largest m ns) (h' : Largest x ns) : x = m :=
  le_antisymm (h.2 x h'.1) (h'.2 m h.1)

theorem largest_singleton : Largest n [n] := by simp [Largest]

theorem Largest.concat_lt (h : Largest m ns) (hlt : m < n) : Largest n (ns ++ [n]) := by
  refine ⟨by simp, fun x hx => ?_⟩
  rcases List.mem_append.1 hx with hx | hx
  · exact (h.2 x hx).trans hlt.le
  · exact (List.mem_singleton.1 hx).le

theorem Largest.concat_le (h : Largest m ns) (hle : n ≤ m) : Largest m (ns ++ [n]) := by
  refine ⟨List.mem_append_left _ h.1, fun x hx => ?_⟩
  rcases List.mem_append.1 hx with hx | hx
  · exact h.2 x hx
  · exact (List.mem_singleton.1 hx).le.trans hle

theorem inWindow_concat :
    InWindow (ns ++ [n]) ↔ InWindow ns ∧ ∀ m, Largest m ns → Near n m := by
  constructor
  · intro h
    exact ⟨fun pre x post m hs => h pre x (post ++ [n]) m (by simp [hs]), fun m => h ns n [] m rfl⟩
  · rintro ⟨h, hn⟩ pre x post m hs hm
    rcases concat_eq_append_cons.1 hs with ⟨rfl, rfl, rfl⟩ | ⟨post', rfl, hs'⟩
    · exact hn m hm
    · exact h pre x post' m hs' hm

theorem InWindow.append_left {ns' : List Nat} (h : InWindow (ns ++ ns')) : InWindow ns :=
  fun pre n post m hs => h pre n (post ++ ns') m (by simp [hs])

theorem leapt_concat :
    Leapt (ns ++ [n]) m ↔ (n = m + 32 ∧ Largest m ns) ∨ (n ≤ m + 32 ∧ Leapt ns m) := by
  constructor
  · rintro ⟨pre, mid, hs, hm, hmid⟩
    rcases concat_eq_append_cons.1 hs with ⟨rfl, rfl, rfl⟩ | ⟨mid', rfl, hs'⟩
    · exact .inl ⟨rfl, hm⟩
    · exact .inr ⟨hmid n (by simp), pre, mid', hs', hm, fun x hx => hmid x (by simp [hx])⟩
  · rintro (⟨rfl, hm⟩ | ⟨hle, pre, mid, rfl, hm, hmid⟩)
    · exact ⟨ns, [], rfl, hm, by simp⟩
    · refine ⟨pre, mid ++ [n], by simp, hm, fun x hx => ?_⟩
      rcases List.mem_append.1 hx with hx | hx
      · exact hmid x hx
      · exact (List.mem_singleton.1 hx).le.trans hle

theorem Leapt.largest (h : Leapt ns m) : Largest (m + 32) ns := by
  obtain ⟨pre, mid, rfl, hm, hmid⟩ := h
  refine ⟨by simp, fun x hx => ?_⟩
  rcases List.mem_append.1 hx with hx | hx
  · exact (hm.2 x hx).trans (by omega)
  · rcases List.mem_cons.1 hx with rfl | hx
    · exact le_rfl
    · exact hmid x hx

theorem not_leapt_nil : ¬ Leapt [] m := by
  rintro ⟨pre, mid, hs, -⟩
  simp at hs

theorem not_replayed_nil : ¬ Replayed [] := by
  rintro ⟨pre, m, post, hs, -⟩
  simp at hs

theorem replayed_concat : Replayed (ns ++ [n]) ↔ Replayed ns ∨ Leapt ns n := by
  constructor
  · rintro ⟨pre, m, post, hs, hl⟩
    rcases concat_eq_append_cons.1 hs with ⟨rfl, rfl, rfl⟩ | ⟨post', rfl, hs'⟩
    · exact .inr hl
    · exact .inl ⟨pre, m, post', hs', hl⟩
  · rintro (⟨pre, m, post, rfl, hl⟩ | hl)
    · exact ⟨pre, m, post ++ [n], by simp, hl⟩
    · exact ⟨ns, n, [], rfl, hl⟩

end

/-- Arrivals, deliveries and the receive state as long as nothing was replayed: the marks are the
delivered numbers, except the one that a jump of exactly 32 has just unmarked. -/
structure Tracks (m : Nat) (ns del : List Nat) (rs : ReceiveState) : Prop where
  largest : Largest m ns
  newest : Largest m del
  leapt : ∀ x, Leapt ns x → x ∈ del
  window : Window m (fun x => x < m ∧ x ∈ del ∧ ¬ Leapt ns x) rs
  nodup : del.Nodup
  fresh : ¬ Replayed ns

namespace Tracks
variable {m n : Nat} {ns del : List Nat} {rs : ReceiveState}

theorem first : Tracks n [n] [n] (updateReceiveState {} (.ofNat 16 n)) where
  largest := largest_singleton
  newest := largest_singleton
  leapt x h := by
    have h' : Leapt ([] ++ [n]) x := h
    rcases leapt_concat.1 h' with ⟨-, hm⟩ | ⟨-, h⟩
    · simp [Largest] at hm
    · exact absurd h not_leapt_nil
  window := by
    refine (window_first n).congr (fun x hx => hx.1) fun x hlt _ => ?_
    simp only [List.mem_singleton, iff_false, not_and]
    omega
  nodup := by simp
  fresh h := by
    have h' : Replayed ([] ++ [n]) := h
    rcases replayed_concat.1 h' with h | h
    · exact not_replayed_nil h
    · exact not_leapt_nil h

/-- A dropped packet changes neither the state nor the deliveries. -/
theorem dropped (h : Tracks m ns del rs) (hle : n ≤ m) (hn : ¬ Leapt ns n) :
    Tracks m (ns ++ [n]) del rs := by
  have hleapt : ∀ x, Leapt (ns ++ [n]) x ↔ Leapt ns x := by
    intro x
    rw [leapt_concat]
    constructor
    · rintro (⟨rfl, hx⟩ | ⟨-, hx⟩)
      · rw [h.largest.unique hx] at hle
        omega
      · exact hx
    · intro hx
      have := h.largest.unique hx.largest
      exact .inr ⟨by omega, hx⟩
  refine ⟨h.largest.concat_le hle, h.newest, fun x hx => h.leapt x ((hleapt x).1 hx), ?_, h.nodup, ?_⟩
  · exact h.window.congr (fun x hx => hx.1) fun x _ _ => by rw [hleapt]
  · rw [replayed_concat]
    rintro (hr | hr)
    exacts [h.fresh hr, hn hr]

theorem newer (h : Tracks m ns del rs) (hlt : m < n) (hnear : Near n m) :
    Tracks n (ns ++ [n]) (del ++ [n]) (updateReceiveState rs (.ofNat 16 n)) := by
  have hleapt : ∀ x, Leapt (ns ++ [n]) x ↔ x = m ∧ n = m + 32 := by
    intro x
    rw [leapt_concat]
    constructor
    · rintro (⟨rfl, hx⟩ | ⟨hle, hx⟩)
      · obtain rfl := h.largest.unique hx
        exact ⟨rfl, rfl⟩
      · have := h.largest.unique hx.largest
        omega
    · rintro ⟨rfl, hn⟩
      exact .inl ⟨hn, h.largest⟩
  have hnew : n ∉ del := fun hn => by have := h.newest.2 n hn; omega
  refine ⟨h.largest.concat_lt hlt, h.newest.concat_lt hlt, fun x hx => ?_, ?_, ?_, ?_⟩
  · rw [((hleapt x).1 hx).1]
    exact List.mem_append_left _ h.newest.1
  · refine (h.window.newer hlt hnear).congr (fun x hx => hx.1) fun x hxn hxw => ?_
    simp only [hleapt, List.mem_append, List.mem_singleton]
    constructor
    · rintro ⟨-, hx | hx, hl⟩
      · have hxm := h.newest.2 x hx
        refine ⟨by omega, ?_⟩
        rcases hxm.eq_or_lt with rfl | hxm
        · exact .inl rfl
        · refine .inr ⟨hxm, hx, fun hl' => ?_⟩
          have := h.largest.unique hl'.largest
          omega
      · omega
    · rintro ⟨hj, rfl | ⟨hxm, hx, -⟩⟩
      · exact ⟨hlt, .inl h.newest.1, by omega⟩
      · exact ⟨hxn, .inl hx, by omega⟩
  · rw [List.nodup_append]
    exact ⟨h.nodup, List.nodup_singleton n, fun x hx y hy hxy => by
      rw [hxy, List.mem_singleton.1 hy] at hx; exact hnew hx⟩
  · rw [replayed_concat]
    rintro (hr | hr)
    · exact h.fresh hr
    · have := h.largest.unique hr.largest
      omega

/-- A late packet that is let through: it is new, or the one unmarked number comes again. -/
theorem late (h : Tracks m ns del rs) (hlt : n < m) (hw : m ≤ n + 32)
    (hg : ¬ (n < m ∧ n ∈ del ∧ ¬ Leapt ns n)) :
    (Leapt ns n ∧ ¬ (del ++ [n]).Nodup) ∨
      Tracks m (ns ++ [n]) (del ++ [n]) (updateReceiveState rs (.ofNat 16 n)) := by
  by_cases hl : Leapt ns n
  · refine .inl ⟨hl, fun hnd => ?_⟩
    exact (List.nodup_append.1 hnd).2.2 n (h.leapt n hl) n (by simp) rfl
  · have hnew : n ∉ del := fun hn => hg ⟨hlt, hn, hl⟩
    have hdrop := h.dropped hlt.le hl
    refine .inr ⟨hdrop.largest, h.newest.concat_le hlt.le, fun x hx => ?_, ?_, ?_, hdrop.fresh⟩
    · exact List.mem_append_left _ (hdrop.leapt x hx)
    · have hnl : ¬ Leapt (ns ++ [n]) n := fun hx => hnew (hdrop.leapt n hx)
      refine (hdrop.window.older hlt (by omega)).congr (fun x hx => hx.1) fun x hxm _ => ?_
      simp only [List.mem_append, List.mem_singleton]
      constructor
      · rintro ⟨h1, h2 | rfl, h3⟩
        · exact .inl ⟨h1, h2, h3⟩
        · exact .inr rfl
      · rintro (⟨h1, h2, h3⟩ | rfl)
        · exact ⟨h1, .inl h2, h3⟩
        · exact ⟨hxm, .inr rfl, hnl⟩
    · rw [List.nodup_append]
      exact ⟨h.nodup, List.nodup_singleton n, fun x hx y hy hxy => by
        rw [hxy, List.mem_singleton.1 hy] at hx; exact hnew hx⟩

end Tracks

/-- What holds after the arrivals `ns`: nothing yet, a clean window, or a number was replayed and
the handler has seen it twice. -/
def Delivery (ns del : List Nat) (rs : ReceiveState) : Prop :=
  (ns = [] ∧ del = [] ∧ rs = {}) ∨ (∃ m, Tracks m ns del rs) ∨ (Replayed ns ∧ ¬ del.Nodup)

theorem delivery_step {ns del : List Nat} {rs : ReceiveState} {n : Nat}
    (hw : ∀ m, Largest m ns → Near n m) (h : Delivery ns del rs) :
    Delivery (ns ++ [n]) (del ++ (windowMachine.step rs n).2) (windowMachine.step rs n).1 := by
  simp only [windowMachine]
  rcases h with ⟨rfl, rfl, rfl⟩ | ⟨m, h⟩ | ⟨hr, hnd⟩
  · exact .inr (.inl ⟨n, Tracks.first⟩)
  · have hnear := hw m h.largest
    rcases Nat.lt_trichotomy m n with hlt | rfl | hlt
    · rw [if_pos (h.window.dropReason_newer hnear hlt)]
      exact .inr (.inl ⟨n, h.newer hlt hnear⟩)
    · rw [if_neg (by rw [h.window.dropReason_same]; simp)]
      have hl : ¬ Leapt ns m := fun hl => by have := h.largest.unique hl.largest; omega
      exact .inr (.inl ⟨m, by simpa using h.dropped le_rfl hl⟩)
    · by_cases hfar : n + 32 < m
      · rw [if_neg (by rw [h.window.dropReason_far hnear hfar]; simp)]
        have hl : ¬ Leapt ns n := fun hl => by have := h.largest.unique hl.largest; omega
        exact .inr (.inl ⟨m, by simpa using h.dropped hlt.le hl⟩)
      by_cases hg : n < m ∧ n ∈ del ∧ ¬ Leapt ns n
      · rw [if_neg (by rw [h.window.dropReason_marked hlt (by omega) hg]; simp)]
        exact .inr (.inl ⟨m, by simpa using h.dropped hlt.le hg.2.2⟩)
      · rw [if_pos (h.window.dropReason_unmarked hlt (by omega) hg)]
        rcases h.late hlt (by omega) hg with ⟨hl, hnd⟩ | h'
        · exact .inr (.inr ⟨replayed_concat.2 (.inr hl), hnd⟩)
        · exact .inr (.inl ⟨m, h'⟩)
  · exact .inr (.inr ⟨replayed_concat.2 (.inl hr), fun hnd' => hnd (List.nodup_append.1 hnd').1⟩)

theorem delivery_run (ns : List Nat) (h : InWindow ns) :
    Delivery ns (windowMachine.run ns).2 (windowMachine.run ns).1 := by
  refine windowMachine.run_inv
    (P := fun ns del rs => InWindow ns → Delivery ns del rs) (fun _ => .inl ⟨rfl, rfl, rfl⟩) ?_ ns h
  intro ns del rs n ih hw
  obtain ⟨hns, hn⟩ := inWindow_concat.1 hw
  exact delivery_step hn (ih hns)

section
variable {P : Type}

/-- The handler sees every number of an endpoint at most once exactly when no number comes back
while the largest one lies 32 above it, reached in one jump. -/
theorem at_most_once_iff (ops : List (TransportOp P)) (key : String)
    (h : InWindow (arrivals key ops)) :
    (delivered key ((transportMachine P).run ops).2).Nodup ↔ ¬ Replayed (arrivals key ops) := by
  have hrun := (run_eq_windowMachine key ops).2
  have hd := delivery_run (arrivals key ops) h
  rw [hrun] at hd
  dsimp only at hd
  rcases hd with ⟨h1, h2, -⟩ | ⟨m, hm⟩ | ⟨hr, hnd⟩
  · rw [h1, h2]
    exact ⟨fun _ => not_replayed_nil, fun _ => List.nodup_nil⟩
  · exact ⟨fun _ => hm.fresh, fun _ => hm.nodup⟩
  · exact ⟨fun h => absurd h hnd, fun h => absurd hr h⟩

end

/-! ### Three packets -/

theorem inWindow_of_lt {ns : List Nat} (h : ∀ x ∈ ns, x < 2 ^ 15) : InWindow ns := by
  rintro pre n post m rfl hm
  have hn := h n (by simp)
  have hm' := h m (by simp [hm.1])
  exact ⟨by omega, by omega⟩

def peerEndpoint : Endpoint := ⟨some "10.0.0.2", 40001⟩

/-- Packets from one endpoint with the given numbers and no acknowledgements. -/
def packetsFrom (endpoint : Endpoint) (ns : List Nat) : List (TransportOp Unit) :=
  ns.map fun n => .packet endpoint n 0 0 () 0

/-- Number 1, a jump of exactly 32 to number 33, and number 1 again: the handler gets it twice. -/
theorem replay_after_leap_delivered_twice :
    InWindow (arrivals (endpointKey peerEndpoint) (packetsFrom peerEndpoint [1, 33, 1])) ∧
    delivered (endpointKey peerEndpoint)
      ((transportMachine Unit).run (packetsFrom peerEndpoint [1, 33, 1])).2 = [1, 33, 1] := by
  have harr : arrivals (endpointKey peerEndpoint) (packetsFrom peerEndpoint [1, 33, 1]) = [1, 33, 1] := by
    simp [packetsFrom, arrivals]
  refine ⟨?_, by decide +kernel⟩
  rw [harr]
  exact inWindow_of_lt (by decide)

/-- A jump of 31 is harmless. -/
theorem at_most_once_short_leap :
    InWindow (arrivals (endpointKey peerEndpoint) (packetsFrom peerEndpoint [1, 32, 1])) ∧
    ((delivered (endpointKey peerEndpoint)
        ((transportMachine Unit).run (packetsFrom peerEndpoint [1, 32, 1])).2).Nodup ↔
      ¬ Replayed (arrivals (endpointKey peerEndpoint) (packetsFrom peerEndpoint [1, 32, 1]))) := by
  have harr : arrivals (endpointKey peerEndpoint) (packetsFrom peerEndpoint [1, 32, 1]) = [1, 32, 1] := by
    simp [packetsFrom, arrivals]
  have hw : InWindow (arrivals (endpointKey peerEndpoint) (packetsFrom peerEndpoint [1, 32, 1])) := by
    rw [harr]
    exact inWindow_of_lt (by decide)
  exact ⟨hw, at_most_once_iff _ _ hw⟩

end Portfolio.Netcode
