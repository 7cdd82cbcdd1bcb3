import Mathlib.Algebra.Order.BigOperators.Group.List
import Mathlib.Algebra.Order.Group.Nat
import Portfolio.VideoEditor.FramePool

/-!
# Frames of the pool

Every frame that was counted is in the pool, held by a call, or lost: freed by a call that has failed
with it. The last are the steps that do not meet `KeepsFrame`, counted over the run.
-/

namespace Portfolio.VideoEditor

namespace Extraction

/-- The call owns a frame of the pool. -/
def holds : Extraction → Nat
  | decoding _ | converting _ | releasing _ => 1
  | _ => 0

/-- The call is in progress. -/
def active : Extraction → Nat
  | threw _ | returned => 0
  | _ => 1

/-- If the call owns a frame, its next step does not throw. -/
def Keeps (media : Media) : Extraction → Prop
  | decoding _ => foundFrame media.packets = true
  | converting _ => media.convertFailure = none
  | releasing _ => media.stored = true
  | _ => True

instance (media : Media) : ∀ k : Extraction, Decidable (k.Keeps media)
  | decoding _ => inferInstanceAs (Decidable (foundFrame media.packets = true))
  | converting _ => inferInstanceAs (Decidable (media.convertFailure = none))
  | releasing _ => inferInstanceAs (Decidable (media.stored = true))
  | opening _ | seeking | acquiring | failing _ | succeeding | threw _ | returned => isTrue trivial

theorem holds_le_active (k : Extraction) : k.holds ≤ k.active := by
  cases k <;> simp [holds, active]

end Extraction

/-- No step loses the frame of its call. -/
def KeepsFrame (_ : Threads ThumbnailExtractor Extraction) (k : Extraction) (media : Media) : Prop :=
  k.Keeps media

instance (s : Threads ThumbnailExtractor Extraction) (k : Extraction) (media : Media) :
    Decidable (KeepsFrame s k media) :=
  inferInstanceAs (Decidable (k.Keeps media))

/-! ### One step -/

/-- A step of a call on its frame and the pool: the counts of the pool and of the call before and
after it, and of the frames lost in it. -/
structure Accounted (pool pool' : AVFramePool) (held held' lost : Nat) : Prop where
  total : pool'.totalAllocated + pool.availableFrames.length + held =
    pool.totalAllocated + pool'.availableFrames.length + held' + lost
  grown : pool'.totalAllocated ≤ pool.totalAllocated ∨ pool'.availableFrames = []

theorem Accounted.same (pool : AVFramePool) (held : Nat) : Accounted pool pool held held 0 :=
  ⟨rfl, .inl (Nat.le_refl _)⟩

theorem accounted_acquire (pool : AVFramePool) (alloc : Option AVFrame) :
    Accounted pool (pool.acquire alloc).1 0 (if (pool.acquire alloc).2.isSome then 1 else 0) 0 := by
  unfold AVFramePool.acquire
  split
  · next hlast =>
    rw [List.getLast?_eq_none_iff] at hlast
    cases alloc with
    | none => exact .same pool 0
    | some frame => exact ⟨by simp [hlast], .inr hlast⟩
  · next frame hlast =>
    have hne : pool.availableFrames ≠ [] := by
      intro h
      rw [h] at hlast
      cases hlast
    have hpos := List.length_pos_iff.2 hne
    refine ⟨?_, .inl (Nat.le_refl _)⟩
    simp only [List.length_dropLast, Option.isSome_some, if_true]
    omega

theorem next_accounted (media : Media) (x : ThumbnailExtractor) (k : Extraction) :
    Accounted x.framePool (k.next media x).1.framePool k.holds (k.next media x).2.holds
      (if k.Keeps media then 0 else 1) := by
  cases k with
  | opening videoPath =>
    dsimp only [Extraction.next]
    cases media.openFailure <;> exact .same _ 0
  | seeking =>
    dsimp only [Extraction.next]
    split
    · exact .same _ 0
    · split <;> exact .same _ 0
  | acquiring =>
    have h := accounted_acquire x.framePool media.alloc
    dsimp only [Extraction.next]
    cases hr : (x.framePool.acquire media.alloc).2 with
    | none =>
      rw [hr] at h
      exact h
    | some frame =>
      rw [hr] at h
      exact h
  | decoding frame =>
    dsimp only [Extraction.next]
    by_cases hfound : foundFrame media.packets = true
    · rw [if_pos hfound, if_pos (show Extraction.Keeps media (.decoding frame) from hfound)]
      exact .same _ 1
    · rw [if_neg hfound, if_neg (show ¬ Extraction.Keeps media (.decoding frame) from hfound)]
      exact ⟨rfl, .inl (Nat.le_refl _)⟩
  | converting frame =>
    dsimp only [Extraction.next]
    cases hfailure : media.convertFailure with
    | none =>
      rw [if_pos (show Extraction.Keeps media (.converting frame) from hfailure)]
      exact .same _ 1
    | some failure =>
      rw [if_neg (show ¬ Extraction.Keeps media (.converting frame) by simp [Extraction.Keeps, hfailure])]
      exact ⟨rfl, .inl (Nat.le_refl _)⟩
  | releasing frame =>
    dsimp only [Extraction.next]
    by_cases hstored : media.stored = true
    · rw [if_pos hstored, if_pos (show Extraction.Keeps media (.releasing frame) from hstored)]
      refine ⟨?_, .inl (Nat.le_refl _)⟩
      simp only [AVFramePool.release, Extraction.holds, List.length_append, List.length_singleton]
      omega
    · rw [if_neg hstored, if_neg (show ¬ Extraction.Keeps media (.releasing frame) from hstored)]
      exact ⟨rfl, .inl (Nat.le_refl _)⟩
  | failing what => exact .same _ 0
  | succeeding => exact .same _ 0
  | threw what => exact .same _ 0
  | returned => exact .same _ 0

/-! ### Runs -/

/-- The extractions in progress. -/
def active (s : Threads ThumbnailExtractor Extraction) : Nat := (s.calls.map Extraction.active).sum

/-- The frames of the pool that calls own. -/
def held (s : Threads ThumbnailExtractor Extraction) : Nat := (s.calls.map Extraction.holds).sum

theorem held_le_active (s : Threads ThumbnailExtractor Extraction) : held s ≤ active s :=
  List.sum_le_sum fun k _ => k.holds_le_active

section
variable (alloc : Nat → Option AVFrame)

/-- The frames that have been lost in a run. -/
def lost (acts : List (Sched String Media)) : Nat :=
  (extractorMachine alloc).countSteps (fun s a => ¬ OfCall KeepsFrame s a) acts

theorem lost_eq_zero_iff {acts : List (Sched String Media)} :
    lost alloc acts = 0 ↔ (extractorMachine alloc).Along (OfCall KeepsFrame) acts := by
  rw [lost, Machine.countSteps_eq_zero_iff]
  simp only [Decidable.not_not]

omit alloc in
theorem preallocate_accounted {pool : AVFramePool} (h : pool.totalAllocated = pool.availableFrames.length)
    (frame : Option AVFrame) :
    (pool.preallocate frame).totalAllocated = (pool.preallocate frame).availableFrames.length ∧
      (pool.preallocate frame).totalAllocated ≤ pool.totalAllocated + 1 := by
  cases frame with
  | none => exact ⟨h, Nat.le_succ _⟩
  | some frame =>
    refine ⟨?_, Nat.le_refl _⟩
    simp only [AVFramePool.preallocate, List.length_append, List.length_singleton, h]

theorem new_accounted (initialSize : Nat) :
    (AVFramePool.new initialSize alloc).totalAllocated =
        (AVFramePool.new initialSize alloc).availableFrames.length ∧
      (AVFramePool.new initialSize alloc).totalAllocated ≤ initialSize := by
  unfold AVFramePool.new
  induction initialSize with
  | zero => exact ⟨rfl, Nat.le_refl _⟩
  | succ n ih =>
    rw [List.range_succ, List.foldl_append]
    obtain ⟨htotal, hle⟩ := preallocate_accounted ih.1 (alloc n)
    exact ⟨htotal, hle.trans (Nat.succ_le_succ ih.2)⟩

/-- One step of a schedule. -/
theorem exec_accounted (s : Threads ThumbnailExtractor Extraction) (a : Sched String Media) :
    Accounted s.shared.framePool (extractions.exec s a).shared.framePool (held s)
      (held (extractions.exec s a)) (if ¬ OfCall KeepsFrame s a then 1 else 0) := by
  cases a with
  | call videoPath =>
    have hheld : held (extractions.exec s (.call videoPath)) = held s := sum_map_concat ..
    have hkeeps : OfCall KeepsFrame s (.call (ε := Media) videoPath) := trivial
    rw [hheld, if_neg (not_not.2 hkeeps)]
    exact .same _ _
  | step i media =>
    cases hk : s.calls[i]? with
    | none =>
      have hexec : extractions.exec s (.step i media) = s := by
        simp only [Protocol.exec, hk]
      have hkeeps : OfCall KeepsFrame s (.step (ρ := String) i media) := by
        simp [OfCall, hk]
      rw [hexec, if_neg (not_not.2 hkeeps)]
      exact .same _ _
    | some k =>
      have hkeeps : OfCall KeepsFrame s (.step (ρ := String) i media) ↔ k.Keeps media := by
        simp [OfCall, hk, KeepsFrame]
      have h := next_accounted media s.shared k
      have hset := sum_map_set Extraction.holds hk (k.next media s.shared).2
      have hle := le_sum_map Extraction.holds hk
      rw [extractions.exec_step hk]
      refine ⟨?_, h.grown⟩
      have htotal := h.total
      simp only [hkeeps, ite_not]
      simp only [held, extractions] at htotal hset hle ⊢
      omega

/-- Every frame is in the pool, held or lost. -/
theorem total_run (acts : List (Sched String Media)) :
    ((extractorMachine alloc).run acts).1.shared.framePool.totalAllocated =
      ((extractorMachine alloc).run acts).1.shared.framePool.availableFrames.length +
        held ((extractorMachine alloc).run acts).1 + lost alloc acts := by
  induction acts using List.reverseRecOn with
  | nil => exact (new_accounted alloc 10).1
  | append_singleton acts a ih =>
    have h := (exec_accounted ((extractorMachine alloc).run acts).1 a).total
    rw [Machine.run_concat, lost, Machine.countSteps_concat]
    show (extractions.exec _ a).shared.framePool.totalAllocated =
      (extractions.exec _ a).shared.framePool.availableFrames.length + held (extractions.exec _ a) +
        (lost alloc acts + _)
    omega

/-- Without losses the pool grows only when every frame is held. -/
theorem total_le_of_kept {acts : List (Sched String Media)} (hlost : lost alloc acts = 0) {n : Nat}
    (hn : ∀ pre, pre <+: acts → active ((extractorMachine alloc).run pre).1 ≤ n) :
    ((extractorMachine alloc).run acts).1.shared.framePool.totalAllocated ≤ max 10 n := by
  induction acts using List.reverseRecOn with
  | nil => exact (new_accounted alloc 10).2.trans (le_max_left 10 n)
  | append_singleton acts a ih =>
    have hsum := total_run alloc (acts ++ [a])
    have hrun : ((extractorMachine alloc).run (acts ++ [a])).1 =
        extractions.exec ((extractorMachine alloc).run acts).1 a := by
      rw [Machine.run_concat]
      rfl
    have hgrown := (exec_accounted ((extractorMachine alloc).run acts).1 a).grown
    have hkept : lost alloc acts = 0 := by
      rw [lost, Machine.countSteps_concat] at hlost
      exact Nat.eq_zero_of_add_eq_zero_right hlost
    have hle := ih hkept fun pre hpre => hn pre (hpre.trans (List.prefix_append ..))
    have hactive := hn _ (List.prefix_refl _)
    have hheld := held_le_active ((extractorMachine alloc).run (acts ++ [a])).1
    rw [← hrun] at hgrown
    rcases hgrown with hgrown | hempty
    · exact hgrown.trans hle
    · -- the pool is empty after the step, so that all its frames are held
      rw [hempty, hlost, List.length_nil] at hsum
      omega

/-! ### The statistics -/

/-- The statistics when no extraction is in progress, and the size of the pool at any time. -/
structure NoLeak (acts : List (Sched String Media)) : Prop where
  idle : active ((extractorMachine alloc).run acts).1 = 0 →
    ((extractorMachine alloc).run acts).1.shared.framePool.getStats.inUse = 0 ∧
      ((extractorMachine alloc).run acts).1.shared.framePool.getStats.available =
        ((extractorMachine alloc).run acts).1.shared.framePool.getStats.totalAllocated
  bounded : ∀ n, (∀ pre, pre <+: acts → active ((extractorMachine alloc).run pre).1 ≤ n) →
    ((extractorMachine alloc).run acts).1.shared.framePool.getStats.totalAllocated ≤ max 10 n

/-- In a run in which no extraction throws while it owns a frame of the pool, nothing leaks at any
time; and when no extraction is in progress, nothing has leaked only if the run was such a run. -/
theorem no_leak_iff_kept (acts : List (Sched String Media)) :
    ((extractorMachine alloc).Along (OfCall KeepsFrame) acts →
      ∀ pre, pre <+: acts → NoLeak alloc pre) ∧
    (active ((extractorMachine alloc).run acts).1 = 0 →
      (NoLeak alloc acts ↔ (extractorMachine alloc).Along (OfCall KeepsFrame) acts)) := by
  have hgood : ∀ pre, (extractorMachine alloc).Along (OfCall KeepsFrame) pre → NoLeak alloc pre := by
    intro pre hpre
    have hlost := (lost_eq_zero_iff alloc).2 hpre
    refine ⟨fun hidle => ?_, fun n hn => total_le_of_kept alloc hlost hn⟩
    have htotal := total_run alloc pre
    have hheld := held_le_active ((extractorMachine alloc).run pre).1
    simp only [AVFramePool.getStats]
    omega
  refine ⟨fun h pre hpre => ?_, fun hidle => ⟨fun h => ?_, hgood acts⟩⟩
  · obtain ⟨post, rfl⟩ := hpre
    exact hgood pre h.append_left
  · have htotal := total_run alloc acts
    have hheld := held_le_active ((extractorMachine alloc).run acts).1
    have havailable := (h.idle hidle).2
    simp only [AVFramePool.getStats] at havailable
    exact (lost_eq_zero_iff alloc).1 (by omega)

end

/-- One extraction of a file without a frame at the timestamp. -/
def failedDecode : List (Sched String Media) :=
  [.call "clip.mp4", .step 0 {}, .step 0 {}, .step 0 {}, .step 0 { packets := [] }, .step 0 {}]

/-- After it nothing is in progress and one frame counts as in use. -/
theorem frame_leaks_on_failed_decode :
    active ((extractorMachine some).run failedDecode).1 = 0 ∧
      ((extractorMachine some).run failedDecode).1.shared.framePool.getStats = ⟨10, 9, 1⟩ ∧
      ¬ NoLeak some failedDecode := by
  refine ⟨by decide, by decide, fun h => ?_⟩
  have hidle := (h.idle (by decide)).1
  revert hidle
  decide

/-- Two extractions one after the other, of which the first fails before it has a frame. -/
def failedSeek : List (Sched String Media) :=
  [.call "clip.mp4", .step 0 {}, .step 0 { sought := false }, .step 0 {}, .call "clip.mp4", .step 1 {},
    .step 1 {}, .step 1 {}, .step 1 {}, .step 1 {}, .step 1 {}, .step 1 {}]

theorem no_leak_iff_kept_failedSeek :
    ((extractorMachine some).run failedSeek).1.calls = [.threw "Failed to seek to timestamp", .returned] ∧
      (NoLeak some failedSeek ↔ (extractorMachine some).Along (OfCall KeepsFrame) failedSeek) :=
  ⟨by decide, (no_leak_iff_kept some failedSeek).2 (by decide)⟩

end Portfolio.VideoEditor
