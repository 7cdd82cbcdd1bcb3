import Mathlib.Algebra.Order.Group.Abs
import Mathlib.Tactic.Abel
import Portfolio.Lib.Machine

/-!
# Pacing

A loop that is to beat once every `d` keeps the time at which its next beat is due. A beat begins when it
is due or later. It moves the due time on by `d` at least, and by `d` exactly when it ends less than `late`
after it was due; the due time is never moved further than `slack` behind the beat. `Paced` is the record
of such a loop over any linearly ordered time. What follows is that the loop never beats much faster than
it should, whatever delayed it before (`Paced.window`), and that it does not drift while its beats end in
time (`Paced.on_time`).
-/

namespace Portfolio

structure Beat (τ : Type) where
  start : τ
  finish : τ
  deriving DecidableEq, Repr

variable {τ : Type} [AddCommGroup τ] [LinearOrder τ] [IsOrderedAddMonoid τ]

/-- The beats of a loop whose first beat was due at `due₀` and whose next one is due at `due`. -/
inductive Paced (d slack late due₀ : τ) : List (Beat τ) → τ → Prop
  | nil : Paced d slack late due₀ [] due₀
  | concat {beats : List (Beat τ)} {due due' : τ} {b : Beat τ} (h : Paced d slack late due₀ beats due)
    (hdue : due ≤ b.start) (hnext : due + d ≤ due') (hslack : b.start ≤ due' + slack)
    (hsteady : b.finish < due + late → due' = due + d) : Paced d slack late due₀ (beats ++ [b]) due'

namespace Paced
variable {d slack late due₀ due : τ} {beats : List (Beat τ)}

/-- The due time is moved by `d` at least with every beat. -/
theorem length_le (h : Paced d slack late due₀ beats due) : due₀ + beats.length • d ≤ due := by
  induction h with
  | nil => simp
  | @concat beats due due' b h hdue hnext hslack hsteady ih =>
    calc due₀ + (beats ++ [b]).length • d = (due₀ + beats.length • d) + d := by
          rw [List.length_append, List.length_singleton, succ_nsmul, add_assoc]
      _ ≤ due + d := by gcongr
      _ ≤ due' := hnext

omit [IsOrderedAddMonoid τ] in
/-- A record, cut at one of its beats. -/
theorem split {pre post : List (Beat τ)} {b : Beat τ} (h : Paced d slack late due₀ (pre ++ b :: post) due) :
    ∃ due₁ due₂, Paced d slack late due₀ pre due₁ ∧ due₁ ≤ b.start ∧ b.start ≤ due₂ + slack ∧
      Paced d slack late due₂ post due := by
  generalize hbeats : pre ++ b :: post = beats at h
  induction h generalizing post with
  | nil => simp at hbeats
  | @concat beats due due' c h hdue hnext hslack hsteady ih =>
    rcases concat_eq_append_cons.1 hbeats.symm with ⟨rfl, rfl, rfl⟩ | ⟨post, rfl, hrest⟩
    · exact ⟨due, due', h, hdue, hslack, .nil⟩
    · obtain ⟨due₁, due₂, h₁, hle, hle', h₂⟩ := ih hrest.symm
      exact ⟨due₁, due₂, h₁, hle, hle', h₂.concat hdue hnext hslack hsteady⟩

/-- Between two beats there is time for those in between, up to `slack`. -/
theorem window {pre mid post : List (Beat τ)} {b c : Beat τ}
    (h : Paced d slack late due₀ (pre ++ b :: (mid ++ c :: post)) due) :
    b.start + mid.length • d ≤ c.start + slack := by
  obtain ⟨-, due₂, -, -, hb, hrest⟩ := h.split
  obtain ⟨due₃, -, hmid, hc, -, -⟩ := hrest.split
  calc b.start + mid.length • d ≤ (due₂ + slack) + mid.length • d := by gcongr
    _ = (due₂ + mid.length • d) + slack := by abel
    _ ≤ due₃ + slack := by
      gcongr
      exact hmid.length_le
    _ ≤ c.start + slack := by gcongr

/-- Every beat ends less than `late` after the time at which it is due without drift. -/
def InTime (d late due₀ : τ) (beats : List (Beat τ)) : Prop :=
  ∀ pre b post, beats = pre ++ b :: post → b.finish < due₀ + pre.length • d + late

omit [IsOrderedAddMonoid τ] in
theorem due_eq (h : Paced d slack late due₀ beats due) (hin : InTime d late due₀ beats) :
    due = due₀ + beats.length • d := by
  induction h with
  | nil => simp
  | @concat beats due due' b h hdue hnext hslack hsteady ih =>
    have hpre : InTime d late due₀ beats := fun pre c post hs => hin pre c (post ++ [b]) (by simp [hs])
    have hlast := hin beats b [] rfl
    rw [← ih hpre] at hlast
    rw [hsteady hlast, ih hpre, List.length_append, List.length_singleton, succ_nsmul, add_assoc]

omit [IsOrderedAddMonoid τ] in
/-- A loop in time does not drift: no beat comes before its time either. -/
theorem on_time {pre post : List (Beat τ)} {b : Beat τ} (h : Paced d slack late due₀ (pre ++ b :: post) due)
    (hin : InTime d late due₀ (pre ++ b :: post)) : due₀ + pre.length • d ≤ b.start := by
  obtain ⟨due₁, -, hpre, hb, -, -⟩ := h.split
  have hin' : InTime d late due₀ pre := fun pre' c post' hs => hin pre' c (post' ++ b :: post) (by simp [hs])
  rw [← hpre.due_eq hin']
  exact hb

end Paced

end Portfolio
