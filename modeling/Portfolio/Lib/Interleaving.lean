import Mathlib.Algebra.GroupWithZero.Nat
import Portfolio.Lib.Machine

/-!
# Interleaved calls

Any number of calls over one shared state. A `Protocol` says how a call begins and what its next
atomic step does to the shared state and to the call; `machine` runs the steps of all calls in any
order. Counts over the calls move by what one call gains or loses (`sum_map_set`).
-/

namespace Portfolio

/-! ### Sums over a list with one entry replaced -/

section Sums
variable {α : Type} (f : α → Nat)

theorem sum_map_concat (l : List α) (a : α) : ((l ++ [a]).map f).sum = (l.map f).sum + f a := by
  simp

theorem sum_map_set {l : List α} {i : Nat} {a : α} (h : l[i]? = some a) (b : α) :
    ((l.set i b).map f).sum + f a = (l.map f).sum + f b := by
  induction l generalizing i with
  | nil => simp at h
  | cons c l ih =>
    cases i with
    | zero =>
      obtain rfl : c = a := by simpa using h
      simp only [List.set_cons_zero, List.map_cons, List.sum_cons]
      omega
    | succ i =>
      have := ih (i := i) (by simpa using h)
      simp only [List.set_cons_succ, List.map_cons, List.sum_cons]
      omega

theorem le_sum_map {l : List α} {i : Nat} {a : α} (h : l[i]? = some a) : f a ≤ (l.map f).sum := by
  induction l generalizing i with
  | nil => simp at h
  | cons c l ih =>
    rw [List.map_cons, List.sum_cons]
    cases i with
    | zero =>
      obtain rfl : c = a := by simpa using h
      omega
    | succ i =>
      have := ih (i := i) (by simpa using h)
      omega

theorem sum_map_eq_zero {l : List α} (h : ∀ a ∈ l, f a = 0) : (l.map f).sum = 0 := by
  rw [List.sum_eq_zero_iff_forall_eq_nat]
  intro n hn
  obtain ⟨a, ha, rfl⟩ := List.mem_map.1 hn
  exact h a ha

/-- A sum of at most one has at most one entry that counts. -/
theorem eq_of_sum_map_le_one {l : List α} (hl : (l.map f).sum ≤ 1) {i j : Nat} {a b : α}
    (hi : l[i]? = some a) (hj : l[j]? = some b) (ha : 0 < f a) (hb : 0 < f b) : i = j := by
  induction l generalizing i j with
  | nil => simp at hi
  | cons c l ih =>
    rw [List.map_cons, List.sum_cons] at hl
    cases i with
    | zero =>
      obtain rfl : c = a := by simpa using hi
      cases j with
      | zero => rfl
      | succ j =>
        have := le_sum_map f (l := l) (i := j) (by simpa using hj)
        omega
    | succ i =>
      have hi' : l[i]? = some a := by simpa using hi
      have := le_sum_map f hi'
      cases j with
      | zero =>
        obtain rfl : c = b := by simpa using hj
        omega
      | succ j => rw [ih (by omega) hi' (by simpa using hj)]

end Sums

/-- At most one entry has `P` after one was replaced, if the new one takes it over from the old one
or from nobody. -/
theorem sum_map_set_le_one {α : Type} {P : α → Prop} [DecidablePred P] {l : List α} {i : Nat}
    {a b : α}
    (hi : l[i]? = some a) (hle : (l.map fun x => if P x then 1 else 0).sum ≤ 1)
    (hb : P b → P a ∨ ∀ x ∈ l, ¬ P x) :
    ((l.set i b).map fun x => if P x then 1 else 0).sum ≤ 1 := by
  have hsum := sum_map_set (fun x => if P x then 1 else 0) hi b
  by_cases hnew : P b
  · rcases hb hnew with hold | hnone
    · simp only [hnew, hold, if_true] at hsum
      omega
    · have hzero : (l.map fun x => if P x then 1 else 0).sum = 0 :=
        sum_map_eq_zero _ fun x hx => if_neg (hnone x hx)
      simp only [hnew, if_true] at hsum
      omega
  · simp only [hnew, if_false] at hsum
    omega

/-- An entry other than the one replaced is still there. -/
theorem mem_set_of_ne {α : Type} {l : List α} {i : Nat} {a b x : α} (hi : l[i]? = some a)
    (hx : x ∈ l) (hne : x ≠ a) :
    x ∈ l.set i b := by
  obtain ⟨j, hj⟩ := List.mem_iff_getElem?.1 hx
  refine List.mem_iff_getElem?.2 ⟨j, ?_⟩
  rw [List.getElem?_set_ne ?_, hj]
  rintro rfl
  exact hne (Option.some.inj (hj.symm.trans hi))

/-- An entry after one was replaced is the new one or stood at another place. -/
theorem exists_of_mem_set {α : Type} {l : List α} {i : Nat} {b x : α} (h : x ∈ l.set i b) :
    x = b ∨ ∃ j, j ≠ i ∧ l[j]? = some x := by
  obtain ⟨j, hj⟩ := List.mem_iff_getElem?.1 h
  by_cases hij : i = j
  · subst hij
    rw [List.getElem?_set_self' ] at hj
    obtain ⟨_, _, rfl⟩ := Option.map_eq_some_iff.1 hj
    exact .inl rfl
  · rw [List.getElem?_set_ne hij] at hj
    exact .inr ⟨j, Ne.symm hij, hj⟩

/-- What a partial function gets from a list in which one entry was replaced. -/
theorem filterMap_set_perm {α β : Type} (f : α → Option β) {l : List α} {i : Nat} {a : α} (h : l[i]? = some a)
    (b : α) :
    ((f a).toList ++ (l.set i b).filterMap f).Perm ((f b).toList ++ l.filterMap f) := by
  have hcons : ∀ (x : α) (l : List α), (x :: l).filterMap f = (f x).toList ++ l.filterMap f := by
    intro x l
    cases hx : f x with
    | none => simp [hx]
    | some y => simp [hx]
  induction l generalizing i with
  | nil => simp at h
  | cons c l ih =>
    cases i with
    | zero =>
      obtain rfl : c = a := by simpa using h
      rw [List.set_cons_zero, hcons, hcons]
      exact List.perm_append_comm_assoc _ _ _
    | succ i =>
      have h' := ih (i := i) (by simpa using h)
      rw [List.set_cons_succ, hcons, hcons]
      exact (List.perm_append_comm_assoc _ _ _).trans
        ((h'.append_left _).trans (List.perm_append_comm_assoc _ _ _))

/-! ### Calls -/

/-- The shared state and the calls so far, in the order in which they were made. -/
structure Threads (σ κ : Type) where
  shared : σ
  calls : List κ := []

/-- A new call, or the next step of the `i`-th call with what its surroundings decide. -/
inductive Sched (ρ ε : Type) where
  | call (request : ρ)
  | step (i : Nat) (choice : ε)
  deriving DecidableEq

def Sched.isStepOf {ρ ε : Type} (i : Nat) : Sched ρ ε → Bool
  | .call _ => false
  | .step j _ => j = i

/-- A condition on the steps of calls, as one on schedules. -/
def OfCall {σ ρ κ ε : Type} (G : Threads σ κ → κ → ε → Prop) (s : Threads σ κ) : Sched ρ ε → Prop
  | .call _ => True
  | .step i choice => ∀ k ∈ s.calls[i]?, G s k choice

instance {σ ρ κ ε : Type} (G : Threads σ κ → κ → ε → Prop) [∀ s k choice, Decidable (G s k choice)]
    (s : Threads σ κ) : ∀ a : Sched ρ ε, Decidable (OfCall G s a)
  | .call _ => isTrue trivial
  | .step i choice => inferInstanceAs (Decidable (∀ k ∈ s.calls[i]?, G s k choice))

structure Protocol (σ ρ κ ε : Type) where
  start : ρ → κ
  next : ε → σ → κ → σ × κ

namespace Protocol
variable {σ ρ κ ε : Type} (P : Protocol σ ρ κ ε)

def exec (s : Threads σ κ) : Sched ρ ε → Threads σ κ
  | .call request => { s with calls := s.calls ++ [P.start request] }
  | .step i choice => match s.calls[i]? with
    | none => s
    | some k => ⟨(P.next choice s.shared k).1, s.calls.set i (P.next choice s.shared k).2⟩

def machine (init : σ) : Machine (Threads σ κ) (Sched ρ ε) Unit where
  init := ⟨init, []⟩
  step s a := (P.exec s a, [])

theorem exec_step {s : Threads σ κ} {i : Nat} {k : κ} (h : s.calls[i]? = some k) (choice : ε) :
    P.exec s (.step i choice) =
      ⟨(P.next choice s.shared k).1, s.calls.set i (P.next choice s.shared k).2⟩ := by
  simp only [exec, h]

/-- A step of the last call. -/
theorem exec_last (shared : σ) (calls : List κ) (k : κ) (choice : ε) :
    P.exec ⟨shared, calls ++ [k]⟩ (.step calls.length choice) =
      ⟨(P.next choice shared k).1, calls ++ [(P.next choice shared k).2]⟩ := by
  have hk : (calls ++ [k])[calls.length]? = some k := by
    rw [List.getElem?_append_right (Nat.le_refl _), Nat.sub_self]
    rfl
  rw [P.exec_step hk, List.set_append_right _ _ (Nat.le_refl _), Nat.sub_self]
  rfl

/-- The invariant rule: new calls, and one step of one call under a guard. -/
theorem machine_inv {init : σ} {G : Threads σ κ → κ → ε → Prop} {I : Threads σ κ → Prop}
    (h0 : I ⟨init, []⟩) (hcall : ∀ s r, I s → I ⟨s.shared, s.calls ++ [P.start r]⟩)
    (hstep : ∀ s i k choice, I s → s.calls[i]? = some k → G s k choice →
      I ⟨(P.next choice s.shared k).1, s.calls.set i (P.next choice s.shared k).2⟩)
    (acts : List (Sched ρ ε)) (hG : (P.machine init).Along (OfCall G) acts) :
    I ((P.machine init).run acts).1 := by
  refine (P.machine init).run_inv_along (P := fun _ _ s => I s) h0 (fun _ _ s a hs ha => ?_) acts hG
  cases a with
  | call r => exact hcall s r hs
  | step i choice =>
    show I (P.exec s (.step i choice))
    cases hk : s.calls[i]? with
    | none =>
      simp only [exec, hk]
      exact hs
    | some k =>
      rw [P.exec_step hk]
      exact hstep s i k choice hs hk (ha k hk)

/-- The rule without a guard. -/
theorem machine_always {init : σ} {I : Threads σ κ → Prop} (h0 : I ⟨init, []⟩)
    (hcall : ∀ s r, I s → I ⟨s.shared, s.calls ++ [P.start r]⟩)
    (hstep : ∀ s i k choice, I s → s.calls[i]? = some k →
      I ⟨(P.next choice s.shared k).1, s.calls.set i (P.next choice s.shared k).2⟩)
    (acts : List (Sched ρ ε)) : I ((P.machine init).run acts).1 := by
  refine P.machine_inv (G := fun _ _ _ => True) h0 hcall
    (fun s i k choice hs hk _ => hstep s i k choice hs hk) acts fun pre a _ _ => ?_
  cases a with
  | call r => trivial
  | step i choice => exact fun _ _ => trivial

/-! ### Progress -/

/-- The steps that the `i`-th call has been given. -/
def stepsOf (init : σ) (i : Nat) (acts : List (Sched ρ ε)) : Nat :=
  (P.machine init).countSteps (fun s a => a.isStepOf i = true ∧ i < s.calls.length) acts

theorem stepsOf_concat (init : σ) (i : Nat) (acts : List (Sched ρ ε)) (a : Sched ρ ε) :
    P.stepsOf init i (acts ++ [a]) = P.stepsOf init i acts +
      if a.isStepOf i = true ∧ i < ((P.machine init).run acts).1.calls.length then 1 else 0 :=
  (P.machine init).countSteps_concat _ acts a

theorem stepsOf_of_length_le {init : σ} {i : Nat} {acts : List (Sched ρ ε)}
    (h : ((P.machine init).run acts).1.calls.length ≤ i) : P.stepsOf init i acts = 0 := by
  induction acts using List.reverseRecOn with
  | nil => rfl
  | append_singleton acts a ih =>
    rw [Machine.run_concat] at h
    have hle : ((P.machine init).run acts).1.calls.length ≤ i := by
      refine Nat.le_trans ?_ h
      show _ ≤ (P.exec _ a).calls.length
      cases a with
      | call r => simp [exec]
      | step j choice =>
        simp only [exec]
        split <;> simp
    rw [stepsOf_concat, ih hle, if_neg (by omega)]

/-- If each step of a call brings it one nearer to its end, a call is at its end after as many steps
as it began with. -/
theorem rank_stepsOf {init : σ} {G : Threads σ κ → κ → ε → Prop} {I : Threads σ κ → Prop}
    {rank : κ → Nat} {n : Nat}
    (hI : ∀ acts, (P.machine init).Along (OfCall G) acts → I ((P.machine init).run acts).1)
    (hstart : ∀ r, rank (P.start r) ≤ n)
    (hstep : ∀ (s : Threads σ κ) (i : Nat) k choice, I s → s.calls[i]? = some k → G s k choice →
      rank (P.next choice s.shared k).2 = rank k - 1)
    (acts : List (Sched ρ ε)) (hG : (P.machine init).Along (OfCall G) acts) (i : Nat) :
    ∀ k, ((P.machine init).run acts).1.calls[i]? = some k →
      rank k = 0 ∨ rank k + P.stepsOf init i acts ≤ n := by
  induction acts using List.reverseRecOn with
  | nil =>
    intro k h
    simp [machine] at h
  | append_singleton acts a ih =>
    obtain ⟨hpre, ha⟩ := (P.machine init).along_concat.1 hG
    intro k hk
    rw [Machine.run_concat] at hk
    rw [stepsOf_concat]
    have hinv := hI acts hpre
    have hnone : ((P.machine init).run acts).1.calls.length ≤ i → P.stepsOf init i acts = 0 :=
      P.stepsOf_of_length_le
    generalize ((P.machine init).run acts).1 = s at ha hk hinv hnone ih ⊢
    cases a with
    | call r =>
      replace hk : (s.calls ++ [P.start r])[i]? = some k := hk
      simp only [Sched.isStepOf, Bool.false_eq_true, false_and, if_false, Nat.add_zero]
      by_cases hi : i < s.calls.length
      · rw [List.getElem?_append_left hi] at hk
        exact ih hpre k hk
      · rw [List.getElem?_append_right (by omega)] at hk
        obtain rfl : k = P.start r := List.mem_singleton.1 (List.mem_of_getElem? hk)
        rw [hnone (by omega)]
        exact .inr (hstart r)
    | step j choice =>
      replace hk : (P.exec s (.step j choice)).calls[i]? = some k := hk
      cases hj : s.calls[j]? with
      | none =>
        simp only [exec, hj] at hk
        have hlen : ¬ (j = i ∧ i < s.calls.length) := by
          rintro ⟨rfl, hlt⟩
          simp [hlt] at hj
        simp only [Sched.isStepOf, decide_eq_true_eq, if_neg hlen, Nat.add_zero]
        exact ih hpre k hk
      | some kj =>
        rw [P.exec_step hj] at hk
        by_cases hij : j = i
        · subst hij
          have hlt : j < s.calls.length := (List.getElem?_eq_some_iff.1 hj).1
          rw [List.getElem?_set_self hlt] at hk
          obtain rfl := Option.some.inj hk
          have hrank := hstep s j kj choice hinv hj (ha kj hj)
          simp only [Sched.isStepOf, hlt, decide_true, and_self, if_true]
          have := ih hpre kj hj
          omega
        · rw [List.getElem?_set_ne hij] at hk
          simp only [Sched.isStepOf, hij, decide_false, Bool.false_eq_true, false_and, if_false,
            Nat.add_zero]
          exact ih hpre k hk

end Protocol
end Portfolio
