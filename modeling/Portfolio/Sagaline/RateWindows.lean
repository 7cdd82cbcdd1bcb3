import Portfolio.Sagaline.RateLimit

/-!
# Windows of the rate limiter

A counter lives for at least `duration` from its creation, and the next one is created after it has
gone: an interval of that length meets two windows at most, each with at most `maxRequests` answers
`true`. For how long clients are rejected depends on the `EXPIRE`: if it fails, or if the `INCR`
that has created the counter seems to have failed, the counter stays for good, and if it comes late
the counter stays that much longer.
-/

namespace Portfolio.Sagaline

theorem rateLimitKey_ne {key key' : String} (h : key ≠ key') :
    rateLimitKey key ≠ rateLimitKey key' :=
  fun heq => h ((String.append_right_inj _).1 heq)

/-! ### One interval -/

/-- The counter of a key in relation to the interval from `start`: `pending` calls are about to set
its deadline, `allowed` answers were in the interval. They are all of the present window, or of one
earlier window and the present one, which has begun inside the interval, or the interval is over. -/
structure Interval (M D start now : Nat) (c : Counter) (pending allowed : Nat) : Prop where
  count : 0 < c.count
  born : c.born ≤ now
  unarmed : c.deadline = none → pending = 1
  armed : ∀ d, c.deadline = some d → pending = 0 ∧ c.born + D ≤ d ∧ (0 < allowed → start ≤ d)
  begun : 0 < allowed → start ≤ now
  bound : allowed + min pending M ≤ min c.count M ∨
    (allowed + min pending M ≤ M + min c.count M ∧ start < c.born) ∨
    (allowed ≤ 2 * M ∧ start + D < now)

namespace Interval
variable {M D start now : Nat} {c : Counter} {pending allowed : Nat}

theorem le (h : Interval M D start now c pending allowed) : allowed ≤ 2 * M := by
  have := h.bound
  omega

theorem wait (h : Interval M D start now c pending allowed) (ms : Nat) :
    Interval M D start (now + ms) c pending allowed where
  count := h.count
  born := by
    have := h.born
    omega
  unarmed := h.unarmed
  armed := h.armed
  begun hpos := by
    have := h.begun hpos
    omega
  bound := by
    have := h.bound
    omega

/-- The first `INCR` after the counter has gone. -/
theorem create (h : Interval M D start now c pending allowed) {d : Nat} (hd : c.deadline = some d)
    (hgone : d < now) : Interval M D start now { count := 1, born := now } 1 allowed := by
  obtain ⟨hpending, hlong, hlate⟩ := h.armed d hd
  refine ⟨Nat.one_pos, Nat.le_refl _, fun _ => rfl, fun _ => nofun, h.begun, ?_⟩
  have := h.bound
  simp only
  by_cases hpos : 0 < allowed
  · have := hlate hpos
    omega
  · omega

/-- `INCR` on the counter, and the answer at once. -/
theorem incr (h : Interval M D start now c pending allowed) (hlive : c.isLive now = true)
    {hit : Nat} (hhit : hit = if c.count + 1 ≤ M ∧ start ≤ now ∧ now ≤ start + D then 1 else 0) :
    Interval M D start now { c with count := c.count + 1 } pending (allowed + hit) where
  count := Nat.succ_pos _
  born := h.born
  unarmed := h.unarmed
  armed d hd := by
    obtain ⟨hpending, hlong, hlate⟩ := h.armed d hd
    refine ⟨hpending, hlong, fun hpos => ?_⟩
    have hle : now ≤ d := by
      have hd' : c.deadline = some d := hd
      simpa [Counter.isLive, hd'] using hlive
    by_cases hold : 0 < allowed
    · exact hlate hold
    · split at hhit <;> omega
  begun hpos := by
    have := h.begun
    split at hhit <;> omega
  bound := by
    have := h.bound
    simp only
    split at hhit <;> omega

/-- `EXPIRE` of the call that has created the counter, and its answer. -/
theorem arm (h : Interval M D start now c pending allowed) (hunarmed : c.deadline = none)
    {hit : Nat} (hhit : hit = if 1 ≤ M ∧ start ≤ now ∧ now ≤ start + D then 1 else 0) :
    Interval M D start now { c with deadline := some (now + D) } 0 (allowed + hit) where
  count := h.count
  born := h.born
  unarmed hnone := by cases hnone
  armed d hd := by
    obtain rfl := Option.some.inj hd
    have hborn := h.born
    have hbegun := h.begun
    refine ⟨rfl, by simp only; omega, fun hpos => ?_⟩
    split at hhit <;> omega
  begun hpos := by
    have := h.begun
    split at hhit <;> omega
  bound := by
    have hpending := h.unarmed hunarmed
    have := h.bound
    simp only
    split at hhit <;> omega

end Interval

/-! ### Calls for other keys -/

def RateCall.isExpiring (key : String) : RateCall → Nat
  | .expiring key' _ => if key' = key then 1 else 0
  | _ => 0

def RateCall.key : RateCall → Option String
  | .counting key | .expiring key _ => some key
  | .returned => none

theorem RateState.incr_of_ne (s : RateState) {k k' : String} (h : k' ≠ k) :
    (s.incr k).1.counters k' = s.counters k' :=
  s.store_of_ne k _ h

theorem RateState.expire_of_ne (s : RateState) (duration : Nat) {k k' : String} (h : k' ≠ k) :
    (s.expire k duration).counters k' = s.counters k' := by
  unfold expire
  split
  · rfl
  · exact s.store_of_ne k _ h

theorem RateState.expire_answers (s : RateState) (duration : Nat) (k : String) :
    (s.expire k duration).answers = s.answers := by
  unfold expire
  split <;> rfl

theorem RateState.expire_now (s : RateState) (duration : Nat) (k : String) :
    (s.expire k duration).now = s.now := by
  unfold expire
  split <;> rfl

section Frame
variable (maxRequests : Int) (duration : Nat)

theorem rateNext_wait (ms : Nat) (outcome : Outcome) (s : RateState) (call : RateCall) :
    rateNext maxRequests duration (ms, outcome) s call =
      rateNext maxRequests duration (0, outcome) { s with now := s.now + ms } call := rfl

theorem rateNext_now (outcome : Outcome) (s : RateState) (call : RateCall) :
    (rateNext maxRequests duration (0, outcome) s call).1.now = s.now := by
  cases call with
  | counting key =>
    cases outcome with
    | done =>
      simp only [rateNext]
      split <;> rfl
    | _ => rfl
  | expiring key window =>
    cases outcome with
    | lost => rfl
    | _ => exact RateState.expire_now ..
  | returned => rfl

/-- A call for another key leaves the counter as it is and answers for its own key. -/
theorem rateNext_of_ne (outcome : Outcome) (s : RateState) {call : RateCall} {key : String}
    (h : call.key ≠ some key) :
    (rateNext maxRequests duration (0, outcome) s call).1.counters (rateLimitKey key) =
        s.counters (rateLimitKey key) ∧
      ((rateNext maxRequests duration (0, outcome) s call).1.answers = s.answers ∨
        ∃ a : Answer, a.key ≠ key ∧
          (rateNext maxRequests duration (0, outcome) s call).1.answers = s.answers ++ [a]) ∧
      call.isExpiring key = 0 ∧
      (rateNext maxRequests duration (0, outcome) s call).2.isExpiring key = 0 := by
  cases call with
  | counting key' =>
    have hne : key' ≠ key := fun heq => h (congrArg some heq)
    have hkey := rateLimitKey_ne hne.symm
    have hincr := RateState.incr_of_ne s hkey
    cases outcome with
    | done =>
      simp only [rateNext, Nat.add_zero]
      split
      · exact ⟨hincr, .inl rfl, rfl, if_neg hne⟩
      · exact ⟨hincr, .inr ⟨_, hne, rfl⟩, rfl, rfl⟩
    | lost => exact ⟨rfl, .inr ⟨_, hne, rfl⟩, rfl, rfl⟩
    | unanswered => exact ⟨hincr, .inr ⟨_, hne, rfl⟩, rfl, rfl⟩
  | expiring key' window =>
    have hne : key' ≠ key := fun heq => h (congrArg some heq)
    have hexpire := RateState.expire_of_ne s duration (rateLimitKey_ne hne.symm)
    have hanswers := RateState.expire_answers s duration (rateLimitKey key')
    cases outcome with
    | lost => exact ⟨rfl, .inr ⟨_, hne, rfl⟩, if_neg hne, rfl⟩
    | unanswered => exact ⟨hexpire, .inr ⟨_, hne, congrArg (· ++ [_]) hanswers⟩, if_neg hne, rfl⟩
    | done => exact ⟨hexpire, .inr ⟨_, hne, congrArg (· ++ [_]) hanswers⟩, if_neg hne, rfl⟩
  | returned => exact ⟨rfl, .inl rfl, rfl, rfl⟩

end Frame

/-! ### Runs without errors -/

section Bound
variable (maxRequests : Int) (duration : Nat) (key : String) (start : Nat)

/-- `Interval` for the counter of `key`, if there ever was one. -/
def IntervalInv (s : Threads RateState RateCall) : Prop :=
  match s.shared.counters (rateLimitKey key) with
  | none => (s.calls.map (RateCall.isExpiring key)).sum = 0 ∧
      allowedIn key start duration s.shared.answers = 0
  | some c => Interval maxRequests.toNat duration start s.shared.now c
      (s.calls.map (RateCall.isExpiring key)).sum
      (allowedIn key start duration s.shared.answers)

variable {maxRequests duration key start}

theorem allowedIn_concat (answers : List Answer) (a : Answer) :
    allowedIn key start duration (answers ++ [a]) = allowedIn key start duration answers +
      if a.key = key ∧ a.allowed = true ∧ start ≤ a.time ∧
        a.time ≤ start + duration then 1 else 0 := by
  simp only [allowedIn, List.countP_append, List.countP_singleton, Bool.and_eq_true,
    decide_eq_true_eq, and_assoc]

theorem allowedIn_concat_of_ne {answers : List Answer} {a : Answer} (h : a.key ≠ key) :
    allowedIn key start duration (answers ++ [a]) = allowedIn key start duration answers := by
  simp [allowedIn_concat, h]

/-- A state that differs in the time only. -/
theorem IntervalInv.wait {s : Threads RateState RateCall}
    (h : IntervalInv maxRequests duration key start s) (ms : Nat) :
    IntervalInv maxRequests duration key start
      ⟨{ s.shared with now := s.shared.now + ms }, s.calls⟩ := by
  unfold IntervalInv at h ⊢
  dsimp only
  cases hc : s.shared.counters (rateLimitKey key) with
  | none =>
    rw [hc] at h
    exact h
  | some c =>
    rw [hc] at h
    exact h.wait ms

/-- Calls for other keys do not matter. -/
theorem IntervalInv.congr {s s' : Threads RateState RateCall}
    (h : IntervalInv maxRequests duration key start s) (hnow : s'.shared.now = s.shared.now)
    (hcounter : s'.shared.counters (rateLimitKey key) = s.shared.counters (rateLimitKey key))
    (hanswers : allowedIn key start duration s'.shared.answers =
      allowedIn key start duration s.shared.answers)
    (hcalls : (s'.calls.map (RateCall.isExpiring key)).sum =
      (s.calls.map (RateCall.isExpiring key)).sum) :
    IntervalInv maxRequests duration key start s' := by
  unfold IntervalInv at h ⊢
  rw [hcounter, hanswers, hcalls, hnow]
  exact h

theorem find_of_unarmed {s : RateState} {k : String} {c : Counter} (h : s.counters k = some c)
    (hunarmed : c.deadline = none) : s.find k = some c := by
  simp [RateState.find, h, Counter.isLive, hunarmed]

theorem natCast_le_iff {n : Nat} (hn : 0 < n) (m : Int) : (n : Int) ≤ m ↔ n ≤ m.toNat := by
  omega

theorem IntervalInv.counting {s : Threads RateState RateCall} {i : Nat}
    (h : IntervalInv maxRequests duration key start s) (hi : s.calls[i]? = some (.counting key)) :
    IntervalInv maxRequests duration key start
      ⟨(rateNext maxRequests duration (0, .done) s.shared (.counting key)).1,
        s.calls.set i (rateNext maxRequests duration (0, .done) s.shared (.counting key)).2⟩ := by
  have hsum : ∀ call', ((s.calls.set i call').map (RateCall.isExpiring key)).sum =
      (s.calls.map (RateCall.isExpiring key)).sum + call'.isExpiring key :=
    fun call' => sum_map_set (RateCall.isExpiring key) hi call'
  -- the window that begins when the key is not there
  have hcreate : s.shared.find (rateLimitKey key) = none →
      rateNext maxRequests duration (0, .done) s.shared (.counting key) =
        (s.shared.store (rateLimitKey key) (some { count := 1, born := s.shared.now }),
          .expiring key s.shared.now) := by
    intro hfind
    simp only [rateNext, Nat.add_zero, RateState.incr, hfind, if_true]
  unfold IntervalInv at h
  cases hc : s.shared.counters (rateLimitKey key) with
  | none =>
    rw [hc] at h
    rw [hcreate (by simp [RateState.find, hc])]
    unfold IntervalInv
    simp only [RateState.store_self, RateState.store_now, RateState.store_answers, hsum, h.1, h.2,
      RateCall.isExpiring, if_true]
    exact ⟨Nat.one_pos, Nat.le_refl _, fun _ => rfl, fun _ => nofun,
      fun h => absurd h (Nat.lt_irrefl 0),
      .inl (by simp only; omega)⟩
  | some c =>
    rw [hc] at h
    cases hlive : c.isLive s.shared.now with
    | false =>
      obtain ⟨d, hd, hgone⟩ : ∃ d, c.deadline = some d ∧ d < s.shared.now := by
        unfold Counter.isLive at hlive
        cases hdeadline : c.deadline with
        | none => simp [hdeadline] at hlive
        | some d => exact ⟨d, rfl, by simpa [hdeadline] using hlive⟩
      rw [hcreate (by simp [RateState.find, hc, hlive])]
      unfold IntervalInv
      simp only [RateState.store_self, RateState.store_now, RateState.store_answers, hsum,
        RateCall.isExpiring, if_true, (h.armed d hd).1]
      exact h.create hd hgone
    | true =>
      have hcount := h.count
      have hne : ¬ c.count + 1 = 1 := by omega
      have hnext : rateNext maxRequests duration (0, .done) s.shared (.counting key) =
          (s.shared.store (rateLimitKey key) (some { c with count := c.count + 1 })).answer key
            ((c.count + 1 : Nat) ≤ maxRequests) c.born := by
        simp only [rateNext, Nat.add_zero, RateState.incr, RateState.find, hc, Option.filter_some,
          hlive, if_true, hne, if_false]
      rw [hnext]
      unfold IntervalInv
      simp only [RateState.answer, RateState.store_self, RateState.store_now,
        RateState.store_answers, hsum, RateCall.isExpiring, Nat.add_zero, allowedIn_concat,
        decide_eq_true_eq, natCast_le_iff (Nat.succ_pos c.count), true_and]
      exact h.incr hlive rfl

theorem IntervalInv.expiring {s : Threads RateState RateCall} {i window : Nat} (hD : 0 < duration)
    (h : IntervalInv maxRequests duration key start s)
    (hi : s.calls[i]? = some (.expiring key window)) :
    IntervalInv maxRequests duration key start
      ⟨(rateNext maxRequests duration (0, .done) s.shared (.expiring key window)).1,
        s.calls.set i (rateNext maxRequests duration (0, .done) s.shared
          (.expiring key window)).2⟩ := by
  have hpos := le_sum_map (RateCall.isExpiring key) hi
  have hsum := sum_map_set (RateCall.isExpiring key) hi .returned
  simp only [RateCall.isExpiring, if_true, Nat.add_zero] at hpos hsum
  unfold IntervalInv at h
  cases hc : s.shared.counters (rateLimitKey key) with
  | none =>
    rw [hc] at h
    omega
  | some c =>
    rw [hc] at h
    have hunarmed : c.deadline = none := by
      cases hdeadline : c.deadline with
      | none => rfl
      | some d =>
        have := (h.armed d hdeadline).1
        omega
    have hone := h.unarmed hunarmed
    have hzero : ((s.calls.set i .returned).map (RateCall.isExpiring key)).sum = 0 := by omega
    have hnext : rateNext maxRequests duration (0, .done) s.shared (.expiring key window) =
        (s.shared.store (rateLimitKey key)
          (some { c with deadline := some (s.shared.now + duration) })).answer key
          (1 ≤ maxRequests) window := by
      simp only [rateNext, Nat.add_zero, RateState.expire, find_of_unarmed hc hunarmed,
        Nat.pos_iff_ne_zero.1 hD, if_false]
    rw [hnext]
    unfold IntervalInv
    simp only [RateState.answer, RateState.store_self, RateState.store_now, RateState.store_answers,
      hzero, allowedIn_concat, decide_eq_true_eq, true_and]
    refine h.arm hunarmed ?_
    have : (1 : Int) ≤ maxRequests ↔ 1 ≤ maxRequests.toNat := by omega
    simp only [this]

theorem IntervalInv.step {s : Threads RateState RateCall} {i ms : Nat} {call : RateCall}
    (hD : 0 < duration) (h : IntervalInv maxRequests duration key start s)
    (hi : s.calls[i]? = some call) :
    IntervalInv maxRequests duration key start
      ⟨(rateNext maxRequests duration (ms, .done) s.shared call).1,
        s.calls.set i (rateNext maxRequests duration (ms, .done) s.shared call).2⟩ := by
  have h := h.wait ms
  rw [rateNext_wait]
  generalize { s.shared with now := s.shared.now + ms } = shared at h ⊢
  by_cases hkey : call.key = some key
  · cases call with
    | counting key' =>
      obtain rfl := Option.some.inj hkey
      exact h.counting hi
    | expiring key' window =>
      obtain rfl := Option.some.inj hkey
      exact h.expiring hD hi
    | returned => cases hkey
  · obtain ⟨hcounter, hanswers, hcall, hcall'⟩ :=
      rateNext_of_ne maxRequests duration .done shared hkey
    refine h.congr (rateNext_now ..) hcounter ?_ ?_
    · rcases hanswers with heq | ⟨a, ha, heq⟩
      · rw [heq]
      · rw [heq, allowedIn_concat_of_ne ha]
    · have := sum_map_set (RateCall.isExpiring key) hi
        (rateNext maxRequests duration (0, .done) shared call).2
      simp only
      omega

end Bound

/-! ### Runs with errors -/

/-- What one key looks like when no deadline is lost: a counter without one was created by the only
call that is about to set it, and no call was rejected late. -/
structure ArmedInv (duration : Nat) (key : String) (s : Threads RateState RateCall) : Prop where
  pending : (s.calls.map (RateCall.isExpiring key)).sum ≤ 1
  count : ∀ c, s.shared.counters (rateLimitKey key) = some c → 0 < c.count
  unarmed : ∀ c, s.shared.counters (rateLimitKey key) = some c → c.deadline = none →
    .expiring key c.born ∈ s.calls
  expiring : ∀ window, .expiring key window ∈ s.calls →
    ∃ c, s.shared.counters (rateLimitKey key) = some c ∧ c.deadline = none ∧ c.born = window
  answers : ∀ a ∈ s.shared.answers, a.key = key → a.allowed = false → a.time ≤ a.window + duration

namespace ArmedInv
variable {maxRequests : Int} {duration : Nat} {key : String} {s : Threads RateState RateCall}
    {i : Nat}

theorem wait (h : ArmedInv duration key s) (ms : Nat) :
    ArmedInv duration key ⟨{ s.shared with now := s.shared.now + ms }, s.calls⟩ :=
  ⟨h.pending, h.count, h.unarmed, h.expiring, h.answers⟩

/-- The call that waits to set the deadline is in its place or elsewhere. -/
theorem expiring_mem_set {call call' : RateCall} (hi : s.calls[i]? = some call)
    (hcall : call.isExpiring key = 0) {window : Nat} (h : .expiring key window ∈ s.calls) :
    .expiring key window ∈ s.calls.set i call' := by
  refine mem_set_of_ne hi h ?_
  rintro rfl
  simp [RateCall.isExpiring] at hcall

/-- A call that neither had nor has a deadline to set, and that has not answered with a late
rejection; the counter may have been counted up. -/
theorem answered (h : ArmedInv duration key s) {call call' : RateCall}
    (hi : s.calls[i]? = some call)
    (hcall : call.isExpiring key = 0) (hcall' : call'.isExpiring key = 0) {s' : RateState}
    (hcounter : s'.counters (rateLimitKey key) = s.shared.counters (rateLimitKey key) ∨
      ∃ c, s.shared.counters (rateLimitKey key) = some c ∧
        s'.counters (rateLimitKey key) = some { c with count := c.count + 1 })
    (hanswers : s'.answers = s.shared.answers ∨
      ∃ a : Answer, (a.key = key → a.allowed = false → a.time ≤ a.window + duration) ∧
        s'.answers = s.shared.answers ++ [a]) :
    ArmedInv duration key ⟨s', s.calls.set i call'⟩ := by
  have hold : ∀ c', s'.counters (rateLimitKey key) = some c' → 0 < c'.count ∧
      ∃ c, s.shared.counters (rateLimitKey key) = some c ∧ c'.deadline = c.deadline ∧
        c'.born = c.born := by
    intro c' hc'
    rcases hcounter with heq | ⟨c, hc, heq⟩
    · rw [heq] at hc'
      exact ⟨h.count c' hc', c', hc', rfl, rfl⟩
    · obtain rfl := Option.some.inj (heq.symm.trans hc')
      exact ⟨Nat.succ_pos _, c, hc, rfl, rfl⟩
  refine ⟨?_, fun c hc => (hold c hc).1, fun c' hc' hnone => ?_, fun window hmem => ?_,
    fun a ha hkey hrejected => ?_⟩
  · have := sum_map_set (RateCall.isExpiring key) hi call'
    have := h.pending
    simp only
    omega
  · obtain ⟨-, c, hc, hdeadline, hborn⟩ := hold c' hc'
    rw [hborn]
    exact expiring_mem_set hi hcall (h.unarmed c hc (hdeadline ▸ hnone))
  · obtain ⟨c, hc, hdeadline, hborn⟩ := h.expiring window (by
      rcases exists_of_mem_set hmem with rfl | ⟨j, -, hj⟩
      · simp [RateCall.isExpiring] at hcall'
      · exact List.mem_of_getElem? hj)
    rcases hcounter with heq | ⟨c', hc', heq⟩
    · exact ⟨c, heq.trans hc, hdeadline, hborn⟩
    · obtain rfl := Option.some.inj (hc.symm.trans hc')
      exact ⟨_, heq, hdeadline, hborn⟩
  · rcases hanswers with heq | ⟨b, hb, heq⟩
    · rw [heq] at ha
      exact h.answers a ha hkey hrejected
    · rw [heq, List.mem_append, List.mem_singleton] at ha
      rcases ha with hmem | rfl
      · exact h.answers a hmem hkey hrejected
      · exact hb hkey hrejected

/-- No deadline is due if the counter is not there. -/
theorem expiring_not_mem (h : ArmedInv duration key s)
    (hfind : s.shared.find (rateLimitKey key) = none) (window : Nat) :
    .expiring key window ∉ s.calls := by
  intro hmem
  obtain ⟨c, hc, hdeadline, -⟩ := h.expiring window hmem
  rw [find_of_unarmed hc hdeadline] at hfind
  cases hfind

/-- The first `INCR` after the counter has gone. -/
theorem created (h : ArmedInv duration key s) (hi : s.calls[i]? = some (.counting key))
    (hfind : s.shared.find (rateLimitKey key) = none) :
    ArmedInv duration key
      ⟨s.shared.store (rateLimitKey key) (some { count := 1, born := s.shared.now }),
        s.calls.set i (.expiring key s.shared.now)⟩ := by
  have hnone := h.expiring_not_mem hfind
  have hzero : (s.calls.map (RateCall.isExpiring key)).sum = 0 := by
    refine sum_map_eq_zero _ fun call hcall => ?_
    cases call with
    | expiring key' window =>
      refine if_neg ?_
      rintro rfl
      exact hnone window hcall
    | _ => rfl
  have hlt : i < s.calls.length := (List.getElem?_eq_some_iff.1 hi).1
  refine ⟨?_, fun c hc => ?_, fun c hc _ => ?_, fun window hmem => ?_, h.answers⟩
  · have := sum_map_set (RateCall.isExpiring key) hi (.expiring key s.shared.now)
    simp only [RateCall.isExpiring, if_true] at this ⊢
    omega
  all_goals try obtain rfl := Option.some.inj ((RateState.store_self ..).symm.trans hc)
  · exact Nat.one_pos
  · exact List.mem_set hlt _
  · refine ⟨_, RateState.store_self .., rfl, ?_⟩
    rcases exists_of_mem_set hmem with heq | ⟨j, -, hj⟩
    · exact (RateCall.expiring.inj heq).2.symm
    · exact absurd (List.mem_of_getElem? hj) (hnone window)

theorem counting (h : ArmedInv duration key s) {outcome : Outcome}
    (hi : s.calls[i]? = some (.counting key))
    (hanswered : outcome = .unanswered → (s.shared.find (rateLimitKey key)).isSome = true)
    (htimely : outcome = .done → Timely maxRequests duration s.shared (.counting key)) :
    ArmedInv duration key
      ⟨(rateNext maxRequests duration (0, outcome) s.shared (.counting key)).1,
        s.calls.set i (rateNext maxRequests duration (0, outcome) s.shared (.counting key)).2⟩ := by
  have hincr : ∀ c, s.shared.find (rateLimitKey key) = some c → s.shared.incr (rateLimitKey key) =
      (s.shared.store (rateLimitKey key) (some { c with count := c.count + 1 }),
        { c with count := c.count + 1 }) := by
    intro c hfind
    simp only [RateState.incr, hfind]
  cases outcome with
  | lost =>
    refine h.answered hi rfl rfl (.inl rfl) (.inr ⟨_, fun _ hrejected => ?_, rfl⟩)
    cases hrejected
  | unanswered =>
    obtain ⟨c, hfind⟩ := Option.isSome_iff_exists.1 (hanswered rfl)
    obtain ⟨hc, -⟩ := Option.filter_eq_some_iff.1 hfind
    simp only [rateNext, Nat.add_zero, hincr c hfind]
    refine h.answered hi rfl rfl (.inr ⟨c, hc, RateState.store_self ..⟩)
      (.inr ⟨_, fun _ hrejected => ?_, rfl⟩)
    cases hrejected
  | done =>
    cases hfind : s.shared.find (rateLimitKey key) with
    | none =>
      simp only [rateNext, Nat.add_zero, RateState.incr, hfind, if_true]
      exact h.created hi hfind
    | some c =>
      obtain ⟨hc, -⟩ := Option.filter_eq_some_iff.1 hfind
      have hne : ¬ c.count + 1 = 1 := by
        have := h.count c hc
        omega
      simp only [rateNext, Nat.add_zero, hincr c hfind, hne, if_false]
      refine h.answered hi rfl rfl (.inr ⟨c, hc, RateState.store_self ..⟩)
        (.inr ⟨_, fun _ hrejected => ?_, rfl⟩)
      rcases htimely rfl c hfind with hroom | hyoung
      · have hfull := of_decide_eq_false hrejected
        omega
      · exact hyoung

/-- A call that has set the deadline was the only one to set it. -/
theorem expiring_not_mem_set (h : ArmedInv duration key s) {window : Nat}
    (hi : s.calls[i]? = some (.expiring key window)) (window' : Nat) :
    .expiring key window' ∉ s.calls.set i .returned := by
  intro hmem
  rcases exists_of_mem_set hmem with heq | ⟨j, hj, hother⟩
  · cases heq
  · exact hj (eq_of_sum_map_le_one _ h.pending hother hi (by simp [RateCall.isExpiring])
      (by simp [RateCall.isExpiring]))

theorem expired (h : ArmedInv duration key s) (hD : 0 < duration) {outcome : Outcome} {window : Nat}
    (hi : s.calls[i]? = some (.expiring key window)) (hcarried : outcome ≠ .lost)
    (htimely : outcome = .done → Timely maxRequests duration s.shared (.expiring key window)) :
    ArmedInv duration key
      ⟨(rateNext maxRequests duration (0, outcome) s.shared (.expiring key window)).1,
        s.calls.set i
          (rateNext maxRequests duration (0, outcome) s.shared (.expiring key window)).2⟩ := by
  obtain ⟨c, hc, hdeadline, rfl⟩ := h.expiring window (List.mem_of_getElem? hi)
  obtain ⟨allowed, hnext, hallowed⟩ : ∃ allowed,
      rateNext maxRequests duration (0, outcome) s.shared (.expiring key c.born) =
        (s.shared.store (rateLimitKey key)
          (some { c with deadline := some (s.shared.now + duration) })).answer key allowed
            c.born ∧ (allowed = false → s.shared.now ≤ c.born + duration) := by
    have hexpire : s.shared.expire (rateLimitKey key) duration = s.shared.store (rateLimitKey key)
        (some { c with deadline := some (s.shared.now + duration) }) := by
      simp only [RateState.expire, find_of_unarmed hc hdeadline, Nat.pos_iff_ne_zero.1 hD, if_false]
    cases outcome with
    | lost => exact absurd rfl hcarried
    | unanswered =>
      exact ⟨true, congrArg (fun r => RateState.answer r key true c.born) hexpire, fun hfalse => by cases hfalse⟩
    | done =>
      refine ⟨decide (1 ≤ maxRequests),
        congrArg (fun r => RateState.answer r key (1 ≤ maxRequests) c.born) hexpire, fun hfalse => ?_⟩
      exact (htimely rfl).resolve_left (of_decide_eq_false hfalse)
  rw [hnext]
  refine ⟨?_, fun c' hc' => ?_, fun c' hc' hnone => ?_,
    fun window hmem => absurd hmem (h.expiring_not_mem_set hi window), fun a ha hkey hrejected => ?_⟩
  · have := sum_map_set (RateCall.isExpiring key) hi .returned
    have := h.pending
    simp only [RateCall.isExpiring, RateState.answer] at *
    omega
  · obtain rfl := Option.some.inj ((RateState.store_self ..).symm.trans hc')
    exact h.count c hc
  · obtain rfl := Option.some.inj ((RateState.store_self ..).symm.trans hc')
    cases hnone
  · rcases List.mem_append.1 ha with hmem | hnew
    · exact h.answers a hmem hkey hrejected
    · obtain rfl := List.mem_singleton.1 hnew
      exact hallowed hrejected

theorem step (h : ArmedInv duration key s) (hD : 0 < duration) {call : RateCall}
    {choice : Nat × Outcome} (hi : s.calls[i]? = some call)
    (harmed : Armed maxRequests duration s call choice) :
    ArmedInv duration key
      ⟨(rateNext maxRequests duration choice s.shared call).1,
        s.calls.set i (rateNext maxRequests duration choice s.shared call).2⟩ := by
  obtain ⟨ms, outcome⟩ := choice
  obtain ⟨hcarried, htimely⟩ := harmed
  have h := h.wait ms
  rw [rateNext_wait]
  by_cases hkey : call.key = some key
  · cases call with
    | counting key' =>
      obtain rfl := Option.some.inj hkey
      exact h.counting hi hcarried htimely
    | expiring key' window =>
      obtain rfl := Option.some.inj hkey
      exact h.expired hD hi hcarried htimely
    | returned => cases hkey
  · obtain ⟨hcounter, hanswers, hcall, hcall'⟩ := rateNext_of_ne maxRequests duration outcome
      { s.shared with now := s.shared.now + ms } hkey
    refine h.answered hi hcall hcall' (.inl hcounter) ?_
    rcases hanswers with heq | ⟨a, ha, heq⟩
    · exact .inl heq
    · exact .inr ⟨a, fun hsame => absurd hsame ha, heq⟩

/-- An `INCR` after which nothing is wrong: nobody would set the deadline of a counter whose creator
has got an error, and a call that finds a full counter is refused. -/
theorem armed_counting (h : ArmedInv duration key s) {outcome : Outcome}
    (hreleased : Released duration
      ⟨(rateNext maxRequests duration (0, outcome) s.shared (.counting key)).1,
        s.calls.set i (rateNext maxRequests duration (0, outcome) s.shared (.counting key)).2⟩) :
    Carried s.shared outcome (.counting key) ∧
      (outcome = .done → Timely maxRequests duration s.shared (.counting key)) := by
  obtain ⟨hlate, hkept⟩ := hreleased
  refine ⟨fun hunanswered => ?_, fun hdone c hfind => ?_⟩
  · obtain rfl : outcome = .unanswered := hunanswered
    cases hfind : s.shared.find (rateLimitKey key) with
    | some c => rfl
    | none =>
      have hnew : (s.shared.incr (rateLimitKey key)).1 =
          s.shared.store (rateLimitKey key) (some { count := 1, born := s.shared.now }) := by
        simp only [RateState.incr, hfind]
      have hmem := hkept key { count := 1, born := s.shared.now } (by
        simp only [rateNext, Nat.add_zero, hnew]
        exact RateState.store_self ..) rfl
      rcases exists_of_mem_set hmem with heq | ⟨j, -, hj⟩
      · cases heq
      · exact absurd (List.mem_of_getElem? hj) (h.expiring_not_mem hfind _)
  · obtain rfl : outcome = .done := hdone
    obtain ⟨hc, -⟩ := Option.filter_eq_some_iff.1 hfind
    have hne : ¬ c.count + 1 = 1 := by
      have := h.count c hc
      omega
    have hanswer : ⟨key, s.shared.now, decide ((c.count + 1 : Nat) ≤ maxRequests), c.born⟩ ∈
        (rateNext maxRequests duration (0, .done) s.shared (.counting key)).1.answers := by
      simp only [rateNext, Nat.add_zero, RateState.incr, Option.mem_def.1 hfind, hne, if_false]
      exact List.mem_append_right _ (List.mem_singleton.2 rfl)
    by_cases hroom : c.count < maxRequests
    · exact .inl hroom
    · exact .inr (hlate _ hanswer (decide_eq_false (by omega)))

/-- An `EXPIRE` after which nothing is wrong. -/
theorem armed_expiring (h : ArmedInv duration key s) {outcome : Outcome} {window : Nat}
    (hi : s.calls[i]? = some (.expiring key window))
    (hreleased : Released duration
      ⟨(rateNext maxRequests duration (0, outcome) s.shared (.expiring key window)).1,
        s.calls.set i (rateNext maxRequests duration (0, outcome) s.shared (.expiring key window)).2⟩) :
    Carried s.shared outcome (.expiring key window) ∧
      (outcome = .done → Timely maxRequests duration s.shared (.expiring key window)) := by
  obtain ⟨hlate, hkept⟩ := hreleased
  refine ⟨?_, fun hdone => ?_⟩
  · rintro rfl
    obtain ⟨c, hc, hdeadline, rfl⟩ := h.expiring window (List.mem_of_getElem? hi)
    exact h.expiring_not_mem_set hi c.born (hkept key c hc hdeadline)
  · obtain rfl : outcome = .done := hdone
    have hnow : (s.shared.expire (rateLimitKey key) duration).now = s.shared.now := by
      unfold RateState.expire
      split <;> rfl
    have hanswer : ⟨key, s.shared.now, decide (1 ≤ maxRequests), window⟩ ∈
        (rateNext maxRequests duration (0, .done) s.shared (.expiring key window)).1.answers := by
      rw [← hnow]
      exact List.mem_append_right _ (List.mem_singleton.2 rfl)
    by_cases hroom : 1 ≤ maxRequests
    · exact .inl hroom
    · exact .inr (hlate _ hanswer (decide_eq_false hroom))

/-- A step after which nothing is wrong was `Armed`. -/
theorem armed_of_released (h : ∀ key, ArmedInv duration key s) {call : RateCall} {choice : Nat × Outcome}
    (hi : s.calls[i]? = some call)
    (hreleased : Released duration ⟨(rateNext maxRequests duration choice s.shared call).1,
      s.calls.set i (rateNext maxRequests duration choice s.shared call).2⟩) :
    Armed maxRequests duration s call choice := by
  obtain ⟨ms, outcome⟩ := choice
  rw [rateNext_wait] at hreleased
  cases call with
  | counting key => exact ((h key).wait ms).armed_counting hreleased
  | expiring key window => exact ((h key).wait ms).armed_expiring hi hreleased
  | returned => exact ⟨trivial, fun _ => trivial⟩

end ArmedInv

/-! ### Whole runs -/

theorem allowedIn_le (maxRequests : Int) {duration : Nat} (hD : 0 < duration)
    (acts : List (Sched String (Nat × Outcome)))
    (h : (rateMachine maxRequests duration).Along (OfCall NoError) acts) (key : String)
      (start : Nat) :
    allowedIn key start duration ((rateMachine maxRequests duration).run acts).1.shared.answers ≤
      2 * maxRequests.toNat := by
  have hinv : IntervalInv maxRequests duration key start
      ((rateMachine maxRequests duration).run acts).1 := by
    refine (rateLimits maxRequests duration).machine_inv (G := NoError) ⟨rfl, rfl⟩
      (fun s key' hs => ?_) (fun s i call choice hs hi hdone => ?_) acts h
    · refine hs.congr rfl rfl rfl ?_
      rw [sum_map_concat]
      rfl
    · obtain ⟨ms, outcome⟩ := choice
      obtain rfl : outcome = .done := hdone
      exact hs.step hD hi
  unfold IntervalInv at hinv
  split at hinv
  · omega
  · exact hinv.le

theorem armedInv_run (maxRequests : Int) {duration : Nat} (hD : 0 < duration)
    (acts : List (Sched String (Nat × Outcome)))
    (h : (rateMachine maxRequests duration).Along (OfCall (Armed maxRequests duration)) acts) (key : String) :
    ArmedInv duration key ((rateMachine maxRequests duration).run acts).1 := by
  refine (rateLimits maxRequests duration).machine_inv (G := Armed maxRequests duration) ?_ (fun s key' hs => ?_)
    (fun s i call choice hs hi harmed => hs.step hD hi harmed) acts h
  · exact ⟨Nat.zero_le _, fun _ => nofun, fun _ => nofun,
      fun _ hmem => absurd hmem List.not_mem_nil, fun _ hmem => absurd hmem List.not_mem_nil⟩
  · refine ⟨?_, hs.count, fun c hc hnone => ?_, fun window hmem => ?_, hs.answers⟩
    · have := hs.pending
      rw [sum_map_concat]
      exact this
    · exact List.mem_append_left _ (hs.unarmed c hc hnone)
    · rcases List.mem_append.1 hmem with hold | hnew
      · exact hs.expiring window hold
      · cases List.mem_singleton.1 hnew

/-- Nobody is kept out all through a run if and only if every step is `Armed`. -/
theorem released_iff_armed (maxRequests : Int) {duration : Nat} (hD : 0 < duration)
    (acts : List (Sched String (Nat × Outcome))) :
    (∀ pre, pre <+: acts → Released duration ((rateMachine maxRequests duration).run pre).1) ↔
      (rateMachine maxRequests duration).Along (OfCall (Armed maxRequests duration)) acts := by
  refine (rateMachine maxRequests duration).always_iff_along (P := fun r => Released duration r.1)
    (fun pre _ harmed => ?_) (fun pre act _ harmed hreleased => ?_)
  · have hinv := armedInv_run maxRequests hD pre harmed
    exact ⟨fun a ha hrejected => (hinv a.key).answers a ha rfl hrejected,
      fun key c hc hnone => (hinv key).unarmed c hc hnone⟩
  · have hinv := armedInv_run maxRequests hD pre harmed
    cases act with
    | call key => trivial
    | step i choice =>
      intro call hi
      rw [Machine.run_concat] at hreleased
      have hnext := (rateLimits maxRequests duration).exec_step hi choice
      exact ArmedInv.armed_of_released hinv hi (hnext ▸ hreleased)

/-- Without errors at most `2 * maxRequests` calls for a key are let through in any `duration`, and
nobody is kept out for longer exactly in the runs in which no deadline is lost and none that is set
late matters. -/
theorem rate_limit_bounds_and_releases (maxRequests : Int) {duration : Nat} (hD : 0 < duration)
    (acts : List (Sched String (Nat × Outcome))) :
    ((rateMachine maxRequests duration).Along (OfCall NoError) acts →
      ∀ key start, allowedIn key start duration
        ((rateMachine maxRequests duration).run acts).1.shared.answers ≤ 2 * maxRequests.toNat) ∧
    ((∀ pre, pre <+: acts → Released duration ((rateMachine maxRequests duration).run pre).1) ↔
      (rateMachine maxRequests duration).Along (OfCall (Armed maxRequests duration)) acts) :=
  ⟨allowedIn_le maxRequests hD acts, released_iff_armed maxRequests hD acts⟩

/-- Two calls in a window for one, whose deadline is set five milliseconds late, and a third one
after it. -/
def threeCalls : List (Sched String (Nat × Outcome)) :=
  [.call "ip", .step 0 (0, .done), .step 0 (5, .done), .call "ip", .step 1 (30000, .done),
   .call "ip", .step 2 (30001, .done), .step 2 (0, .done)]

theorem threeCalls_bounded_and_released :
    (rateMachine 1 60000).Along (OfCall NoError) threeCalls ∧
      (rateMachine 1 60000).Along (OfCall (Armed 1 60000)) threeCalls ∧
      (∀ key start, allowedIn key start 60000
        ((rateMachine 1 60000).run threeCalls).1.shared.answers ≤ 2) ∧
      ∀ pre, pre <+: threeCalls → Released 60000 ((rateMachine 1 60000).run pre).1 := by
  have hdone : (rateMachine 1 60000).Along (OfCall NoError) threeCalls := by
    rw [Machine.along_iff_forall_lt]
    decide +kernel
  have harmed : (rateMachine 1 60000).Along (OfCall (Armed 1 60000)) threeCalls := by
    rw [Machine.along_iff_forall_lt]
    decide +kernel
  have h := rate_limit_bounds_and_releases 1 (show 0 < 60000 by decide) threeCalls
  exact ⟨hdone, harmed, h.1 hdone, h.2.2 harmed⟩

/-- The `EXPIRE` of the first call is lost, and an hour later there is another call. -/
def expireLost : List (Sched String (Nat × Outcome)) :=
  [.call "ip", .step 0 (0, .done), .step 0 (0, .lost), .call "ip", .step 1 (3600000, .done)]

theorem client_kept_out :
    ¬ ∀ (maxRequests : Int) (duration : Nat), 0 < duration →
      ∀ acts : List (Sched String (Nat × Outcome)),
        ((rateMachine maxRequests duration).Along (OfCall NoError) acts →
          ∀ key start, allowedIn key start duration
            ((rateMachine maxRequests duration).run acts).1.shared.answers ≤
              2 * maxRequests.toNat) ∧
        Released duration ((rateMachine maxRequests duration).run acts).1 := by
  intro h
  have hlate := (h 1 60000 (by decide) expireLost).2.1
  revert hlate
  decide +kernel

end Portfolio.Sagaline
