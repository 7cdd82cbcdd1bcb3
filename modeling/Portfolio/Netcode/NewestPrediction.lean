import Mathlib.Data.List.TakeWhile
import Portfolio.Lib.Machine
import Portfolio.Netcode.Reconciler

/-!
# Which prediction a reconciliation looks at

`Predictions` says what the history of a `Reconciler` is for: the recorded predictions with their
serial numbers, without those that a reconciliation has settled. `Window` is the simulation relation
between the two: they have the same newest prediction of every tick. It is kept by every
`record_prediction`, and by a `reconcile` that finds the history in order (`InOrder`). A client that
simulates again after a mismatch records a tick twice, and then the search from the old end finds the
prediction that has been replaced.
-/

namespace Portfolio.Netcode

/-! ### Numbered lists -/

section
variable {β : Type}

theorem filter_zipIdx_le (l : List β) (k m : Nat) :
    (l.zipIdx k).filter (fun e => m ≤ e.2) = (l.drop (m - k)).zipIdx (k + (m - k)) := by
  induction l generalizing k with
  | nil => simp
  | cons b l ih =>
    rw [List.zipIdx_cons]
    by_cases h : m ≤ k
    · have htail : (l.zipIdx (k + 1)).filter (fun e => m ≤ e.2) = l.zipIdx (k + 1) := by
        rw [ih, Nat.sub_eq_zero_of_le (by omega), List.drop_zero, Nat.add_zero]
      rw [List.filter_cons_of_pos (by simpa using h), htail, Nat.sub_eq_zero_of_le h]
      rfl
    · have hsub : m - k = (m - (k + 1)) + 1 := by omega
      have hstart : k + 1 + (m - (k + 1)) = k + (m - k) := by omega
      rw [List.filter_cons_of_neg (by simpa using h), ih, hsub, List.drop_succ_cons, ← hsub, hstart]

theorem filter_zipIdx_fst_nil (p : β → Bool) {l : List β} (k : Nat) :
    (∀ b ∈ l, p b = false) → (l.zipIdx k).filter (fun e => p e.1) = [] := by
  intro h
  refine List.filter_eq_nil_iff.2 fun e he => ?_
  rw [h e.1 (List.fst_mem_of_mem_zipIdx he)]
  exact Bool.false_ne_true

/-- The last element that meets an upward closed condition is the last one, if that meets it. -/
theorem getLast?_filter_of_pairwise (q : β → Bool) {l : List β}
    (h : l.Pairwise fun x y => q x = true → q y = true) : (l.filter q).getLast? = l.getLast?.filter q := by
  rcases List.eq_nil_or_concat l with rfl | ⟨l, x, rfl⟩
  · rfl
  · rw [List.concat_eq_append] at h ⊢
    rw [List.filter_append, List.getLast?_concat]
    cases hx : q x with
    | true => rw [List.filter_cons_of_pos hx, List.filter_nil, List.getLast?_concat, Option.filter_some_pos hx]
    | false =>
      have hnil : l.filter q = [] := by
        refine List.filter_eq_nil_iff.2 fun y hy hq => ?_
        rw [(List.pairwise_append.1 h).2.2 y hy x (List.mem_singleton_self x) hq] at hx
        cases hx
      rw [hnil, List.filter_cons_of_neg (by simp [hx]), Option.filter_some_neg (by simp [hx])]
      rfl

end

variable {α : Type} [Scalar α]

/-! ### What the history is for -/

/-- The predictions recorded so far: how many there were, and those that no reconciliation has
settled, each with its serial number. -/
structure Predictions (α : Type) where
  total : Nat := 0
  unsettled : List (WorldState α × Nat) := []

namespace Predictions

def record (p : Predictions α) (state : WorldState α) : Predictions α :=
  { total := p.total + 1, unsettled := p.unsettled ++ [(state, p.total)] }

/-- The server has decided every tick up to that of `authoritative`. -/
def settle (p : Predictions α) (authoritative : WorldState α) : Predictions α :=
  { p with unsettled := p.unsettled.filter fun e => authoritative.tick < e.1.tick }

/-- Those among the last `historySize` recorded. -/
def recent (p : Predictions α) (historySize : Nat) : List (WorldState α × Nat) :=
  p.unsettled.filter fun e => p.total ≤ e.2 + historySize

/-- The most recently recorded of them that predicts this tick. -/
def newest (p : Predictions α) (historySize tick : Nat) : Option (WorldState α × Nat) :=
  ((p.recent historySize).filter fun e => e.1.tick == tick).getLast?

end Predictions

inductive ReconcilerCall (α : Type) where
  | recordPrediction (state : WorldState α)
  | reconcile (authoritative : WorldState α)

namespace Predictions

def call (p : Predictions α) : ReconcilerCall α → Predictions α
  | .recordPrediction state => p.record state
  | .reconcile authoritative => p.settle authoritative

/-- The predictions after a list of calls. -/
def after (calls : List (ReconcilerCall α)) : Predictions α := calls.foldl call {}

end Predictions

namespace Reconciler

/-- The calls of a client, in any order. -/
def session (hypot : α → α → α) (historySize : Nat) (epsilon : α) :
    Machine (Reconciler α) (ReconcilerCall α) (ReconciliationResult α) where
  init := { historySize := historySize, epsilon := epsilon }
  step r
    | .recordPrediction state => (r.recordPrediction state, [])
    | .reconcile authoritative =>
      ((r.reconcile hypot authoritative).2, [(r.reconcile hypot authoritative).1])

/-- The prediction that `reconcile` compares, with its serial number: the history ends with the last
one of the `total` recorded. -/
def compared (r : Reconciler α) (total tick : Nat) : Option (WorldState α × Nat) :=
  (r.findIndex tick).map fun index =>
    (r.history.get index, total - r.history.length + index)

/-- What `reconcile` of `authoritative` has to do when `p` was recorded. -/
structure UsesNewest (hypot : α → α → α) (p : Predictions α) (r : Reconciler α)
    (authoritative : WorldState α) : Prop where
  compared : r.compared p.total authoritative.tick = p.newest r.historySize authoritative.tick
  positionError : (r.reconcile hypot authoritative).1.positionError =
    ((p.newest r.historySize authoritative.tick).map fun e =>
      Netcode.positionError hypot e.1 authoritative).getD (Scalar.lit 0)
  cleared : ∀ s ∈ (r.reconcile hypot authoritative).2.history, authoritative.tick < s.tick

/-- Behind the first prediction of `tick` are only newer ticks, and a newer tick before it is also behind it.
Without a prediction of `tick` there are older ticks and then newer ones. -/
def InOrder (r : Reconciler α) (tick : Nat) : Prop :=
  match r.history.dropWhile fun s => s.tick ≠ tick with
  | [] => ∀ s ∈ r.history.dropWhile fun s => s.tick < tick, tick < s.tick
  | _ :: behind => (∀ s ∈ behind, tick < s.tick) ∧
    ∀ s ∈ r.history.takeWhile fun s => s.tick ≠ tick, tick < s.tick → ∃ t ∈ behind, t.tick = s.tick

instance (r : Reconciler α) (tick : Nat) : Decidable (r.InOrder tick) :=
  match h : r.history.dropWhile fun s => s.tick ≠ tick with
  | [] => decidable_of_iff (∀ s ∈ r.history.dropWhile fun s : WorldState α => s.tick < tick, tick < s.tick)
      (by rw [InOrder, h])
  | _ :: behind => decidable_of_iff ((∀ s ∈ behind, tick < s.tick) ∧
      ∀ s ∈ r.history.takeWhile fun s : WorldState α => s.tick ≠ tick, tick < s.tick → ∃ t ∈ behind, t.tick = s.tick)
      (by rw [InOrder, h])

/-- The condition on the state before a call. -/
def Ready (r : Reconciler α) : ReconcilerCall α → Prop
  | .recordPrediction _ => True
  | .reconcile authoritative => r.InOrder authoritative.tick

instance (r : Reconciler α) (call : ReconcilerCall α) : Decidable (r.Ready call) :=
  match call with
  | .recordPrediction _ => isTrue trivial
  | .reconcile authoritative => inferInstanceAs (Decidable (r.InOrder authoritative.tick))

/-! ### Histories in order -/

/-- A history in order without a prediction of the tick, and one with it. -/
theorem InOrder.split {r : Reconciler α} {tick : Nat} (h : r.InOrder tick) :
    (∃ older newer, r.history = older ++ newer ∧ (∀ s ∈ older, s.tick < tick) ∧ ∀ s ∈ newer, tick < s.tick) ∨
    ∃ gone s newer, r.history = gone ++ s :: newer ∧ (∀ e ∈ gone, e.tick ≠ tick) ∧ s.tick = tick ∧
      (∀ s ∈ newer, tick < s.tick) ∧ ∀ e ∈ gone, tick < e.tick → ∃ t ∈ newer, t.tick = e.tick := by
  unfold InOrder at h
  split at h
  · refine .inl ⟨_, _, List.takeWhile_append_dropWhile.symm, fun s hs => ?_, h⟩
    simpa using List.mem_takeWhile_imp hs
  · next s newer hdrop =>
    have hsplit := (List.takeWhile_append_dropWhile (p := fun s => decide (s.tick ≠ tick)) (l := r.history)).symm
    rw [hdrop] at hsplit
    refine .inr ⟨_, s, newer, hsplit, fun e he => ?_, ?_, h.1, h.2⟩
    · simpa using List.mem_takeWhile_imp he
    · have hhead := List.head?_dropWhile_not (fun s => decide (s.tick ≠ tick)) r.history
      rw [hdrop] at hhead
      simpa using hhead

/-- Ticks that only grow are in order. -/
theorem inOrder_of_increasing {r : Reconciler α} (h : r.history.Pairwise fun s t => s.tick < t.tick)
    (tick : Nat) : r.InOrder tick := by
  unfold InOrder
  split
  · next hdrop =>
    have habsent : ∀ s ∈ r.history, s.tick ≠ tick := by simpa using List.dropWhile_eq_nil_iff.1 hdrop
    intro s hs
    obtain ⟨t, rest, hrest⟩ := List.exists_cons_of_ne_nil (List.ne_nil_of_mem hs)
    have hhead := List.head?_dropWhile_not (fun s => decide (s.tick < tick)) r.history
    have hpairs := h.sublist (List.dropWhile_sublist fun s => decide (s.tick < tick))
    have hne := habsent t ((List.dropWhile_sublist fun s => decide (s.tick < tick)).subset (hrest ▸ List.mem_cons_self))
    rw [hrest] at hs hhead hpairs
    have hle : tick ≤ t.tick := by simpa using hhead
    rcases List.mem_cons.1 hs with rfl | hs
    · omega
    · have hlt := (List.pairwise_cons.1 hpairs).1 s hs
      omega
  · next s behind hdrop =>
    have hhead := List.head?_dropWhile_not (fun s => decide (s.tick ≠ tick)) r.history
    rw [hdrop] at hhead
    have hs : s.tick = tick := by simpa using hhead
    have hsplit := (List.takeWhile_append_dropWhile (p := fun s => decide (s.tick ≠ tick)) (l := r.history)).symm
    rw [hdrop] at hsplit
    rw [hsplit] at h
    obtain ⟨-, hbehind, hbetween⟩ := List.pairwise_append.1 h
    refine ⟨fun t ht => hs ▸ (List.pairwise_cons.1 hbehind).1 t ht, fun e he hnewer => ?_⟩
    have hlt := hbetween e he s List.mem_cons_self
    omega

variable (hypot : α → α → α) {r : Reconciler α} {a : WorldState α} {older gone newer : List (WorldState α)}

/-- `reconcile` on a history in order without the tick. -/
theorem reconcile_of_absent (ho : ∀ s ∈ older, s.tick < a.tick) (hn : ∀ s ∈ newer, a.tick < s.tick)
    (hh : r.history = older ++ newer) :
    r.findIndex a.tick = none ∧ r.reconcile hypot a = ({}, { r with history := newer }) := by
  have hnone : r.findIndex a.tick = none := by
    refine findIndex_none fun s hs => ?_
    rw [hh] at hs
    rcases List.mem_append.1 hs with hs | hs
    · exact (ho s hs).ne
    · exact (hn s hs).ne'
  have hdrop : r.history.dropWhile (fun s => s.tick < a.tick) = newer := by
    rw [hh, List.dropWhile_append_of_pos (by simpa using ho)]
    cases newer with
    | nil => rfl
    | cons s newer =>
      have hs := hn s List.mem_cons_self
      exact List.dropWhile_cons_of_neg (by simpa using hs.le)
  refine ⟨hnone, ?_⟩
  unfold reconcile
  rw [hnone]
  exact congrArg (fun history => (_, { r with history := history })) hdrop

/-- `reconcile` on a history that has the tick. -/
theorem reconcile_of_found {s : WorldState α} (hg : ∀ e ∈ gone, e.tick ≠ a.tick)
    (hs : s.tick = a.tick) (hh : r.history = gone ++ s :: newer) :
    (r.findIndex a.tick).map (fun i => (r.history.get i, (i : Nat))) = some (s, gone.length) ∧
      (r.reconcile hypot a).1.positionError = Netcode.positionError hypot s a ∧
      (r.reconcile hypot a).2 = { r with history := newer } := by
  have hsome := findIndex_some hh hg hs
  have hget : r.history.get ⟨gone.length, by simp [hh]⟩ = s := by simp [hh]
  have hdrop : r.history.drop (gone.length + 1) = newer := by simp [hh]
  unfold reconcile
  rw [hsome]
  refine ⟨by rw [Option.map_some, hget], congrArg (Netcode.positionError hypot · a) hget, ?_⟩
  exact congrArg (fun history => { r with history := history }) hdrop

/-! ### The history is the window -/

/-- The predictions held with their serial numbers, the last one of the `total` at the end. -/
def numbered (r : Reconciler α) (total : Nat) : List (WorldState α × Nat) :=
  r.history.zipIdx (total - r.history.length)

/-- The history has the newest prediction of every tick. -/
structure Window (historySize : Nat) (p : Predictions α) (r : Reconciler α) : Prop where
  size : r.historySize = historySize
  length_le : r.history.length ≤ p.total
  sorted : p.unsettled.Pairwise fun e f => e.2 < f.2
  below : ∀ e ∈ p.unsettled, e.2 < p.total
  newest : ∀ tick, p.newest historySize tick = ((r.numbered p.total).filter fun e => e.1.tick == tick).getLast?

variable {n : Nat} {p : Predictions α}

omit [Scalar α] in
theorem sorted_zipIdx (l : List (WorldState α)) (k : Nat) : (l.zipIdx k).Pairwise fun e f => e.2 < f.2 := by
  refine List.Pairwise.of_map Prod.snd (S := (· < ·)) (fun _ _ h => h) ?_
  rw [List.zipIdx_map_snd]
  exact List.pairwise_lt_range'

omit [Scalar α] in
/-- The newest of its tick among those that are left of a sorted list with one more. -/
theorem newest_concat {l : List (WorldState α × Nat)} (hsorted : l.Pairwise fun e f => e.2 < f.2)
    {x : WorldState α × Nat} (hbelow : ∀ e ∈ l, e.2 < x.2) (m tick : Nat) :
    (((l ++ [x]).filter fun e => m ≤ e.2).filter fun e => e.1.tick == tick).getLast? =
      ((if x.1.tick = tick then some x else (l.filter fun e => e.1.tick == tick).getLast?).filter
        fun e => m ≤ e.2) := by
  have hall : (l ++ [x]).Pairwise fun e f => e.2 < f.2 := by
    refine List.pairwise_append.2 ⟨hsorted, List.pairwise_singleton _ _, fun e he f hf => ?_⟩
    rw [List.mem_singleton.1 hf]
    exact hbelow e he
  have hup : ((l ++ [x]).filter fun e => e.1.tick == tick).Pairwise
      fun e f => decide (m ≤ e.2) = true → decide (m ≤ f.2) = true := by
    refine (hall.filter _).imp fun {e f} hlt he => ?_
    simp only [decide_eq_true_eq] at he ⊢
    omega
  have hcomm : (((l ++ [x]).filter fun e => m ≤ e.2).filter fun e => e.1.tick == tick) =
      ((l ++ [x]).filter fun e => e.1.tick == tick).filter fun e => m ≤ e.2 := by
    rw [List.filter_filter, List.filter_filter]
    exact List.filter_congr fun e _ => Bool.and_comm _ _
  rw [hcomm, getLast?_filter_of_pairwise _ hup]
  refine congrArg (Option.filter _) ?_
  rw [List.filter_append]
  by_cases htick : x.1.tick = tick
  · rw [if_pos htick, List.filter_cons_of_pos (by simpa using htick)]
    exact List.getLast?_concat
  · rw [if_neg htick, List.filter_cons_of_neg (by simpa using htick)]
    exact congrArg _ (List.append_nil _)

theorem Window.record (h : Window n p r) (s : WorldState α) :
    Window n (p.record s) (r.recordPrediction s) := by
  have hrec := recordPrediction_history r s
  rw [h.size] at hrec
  have hlen : (r.recordPrediction s).history.length = r.history.length + 1 - (r.history.length + 1 - n) := by
    rw [hrec, List.length_drop, List.length_append, List.length_singleton]
  have hle := h.length_le
  refine ⟨h.size, ?_, ?_, fun e he => ?_, fun tick => ?_⟩
  · rw [hlen]
    show _ ≤ p.total + 1
    omega
  · refine List.pairwise_append.2 ⟨h.sorted, List.pairwise_singleton _ _, fun e he f hf => ?_⟩
    rw [List.mem_singleton.1 hf]
    exact h.below e he
  · rcases List.mem_append.1 he with hold | hnew
    · exact (h.below e hold).trans (Nat.lt_succ_self _)
    · rw [List.mem_singleton.1 hnew]
      exact Nat.lt_succ_self _
  · have hrecent : (p.record s).recent n =
        (p.recent n ++ [(s, p.total)]).filter fun e => p.total + 1 - n ≤ e.2 := by
      unfold Predictions.recent Predictions.record
      rw [List.filter_append, List.filter_append, List.filter_filter]
      refine congrArg₂ (· ++ ·) (List.filter_congr fun e _ => ?_) (List.filter_congr fun e _ => ?_)
      · rw [← Bool.decide_and]
        refine decide_eq_decide.2 (?_ : p.total + 1 ≤ e.2 + n ↔ _)
        omega
      · refine decide_eq_decide.2 (?_ : p.total + 1 ≤ e.2 + n ↔ _)
        omega
    have hnumbered : (r.recordPrediction s).numbered (p.total + 1) =
        (r.numbered p.total ++ [(s, p.total)]).filter fun e => p.total + 1 - n ≤ e.2 := by
      have hall : r.numbered p.total ++ [(s, p.total)] =
          (r.history ++ [s]).zipIdx (p.total - r.history.length) := by
        rw [numbered, List.zipIdx_append, Nat.sub_add_cancel hle]
        rfl
      have hdrop : p.total + 1 - n - (p.total - r.history.length) = r.history.length + 1 - n := by omega
      rw [hall, filter_zipIdx_le, hdrop, numbered, hrec]
      refine congrArg (fun k => List.zipIdx _ k) ?_
      rw [← hrec, hlen]
      omega
    have hrecentSorted : (p.recent n).Pairwise fun e f => e.2 < f.2 := h.sorted.filter _
    have hrecentBelow : ∀ e ∈ p.recent n, e.2 < p.total := fun e he => h.below e (List.mem_filter.1 he).1
    have hheldSorted : (r.numbered p.total).Pairwise fun e f => e.2 < f.2 := sorted_zipIdx _ _
    have hheldBelow : ∀ e ∈ r.numbered p.total, e.2 < p.total := by
      intro e he
      have hlt := List.snd_lt_of_mem_zipIdx he
      omega
    show (((p.record s).recent n).filter fun e => e.1.tick == tick).getLast? =
      (((r.recordPrediction s).numbered (p.total + 1)).filter fun e => e.1.tick == tick).getLast?
    rw [hrecent, hnumbered, newest_concat hrecentSorted hrecentBelow, newest_concat hheldSorted hheldBelow]
    exact congrArg (fun o => Option.filter _ (if s.tick = tick then _ else o)) (h.newest tick)

omit [Scalar α] in
/-- What stays behind has the newest prediction of every tick that is not settled. -/
theorem newest_kept {lost kept : List (WorldState α × Nat)} {tick : Nat}
    (hkept : ∀ e ∈ kept, tick < e.1.tick)
    (hlost : ∀ e ∈ lost, tick < e.1.tick → ∃ f ∈ kept, f.1.tick = e.1.tick) (later : Nat) :
    (kept.filter fun e => e.1.tick == later).getLast? =
      (((lost ++ kept).filter fun e => e.1.tick == later).getLast?).filter fun e => tick < e.1.tick := by
  rw [List.filter_append]
  rcases List.eq_nil_or_concat (kept.filter fun e => e.1.tick == later) with hnil | ⟨init, last, hlast⟩
  · -- then every lost prediction of that tick is settled
    rw [hnil, List.append_nil]
    refine (Option.filter_eq_none_iff.2 fun e he => ?_).symm
    obtain ⟨hmem, htick⟩ := List.mem_filter.1 (List.mem_of_getLast? he)
    have htick : e.1.tick = later := by simpa using htick
    intro hnewer
    obtain ⟨f, hf, hsame⟩ := hlost e hmem (by simpa using hnewer)
    have hin : f ∈ kept.filter fun e => e.1.tick == later := List.mem_filter.2 ⟨hf, by simpa using hsame.trans htick⟩
    rw [hnil] at hin
    cases hin
  · rw [List.concat_eq_append] at hlast
    have hmem : last ∈ kept := (List.mem_filter.1 (hlast ▸ List.mem_concat_self)).1
    rw [hlast, ← List.append_assoc, List.getLast?_concat, List.getLast?_concat,
      Option.filter_some_pos (by simpa using hkept last hmem)]

theorem Window.newest_settle (h : Window n p r) (a : WorldState α) (tick : Nat) :
    (p.settle a).newest n tick =
      (((r.numbered p.total).filter fun e => e.1.tick == tick).getLast?).filter fun e => a.tick < e.1.tick := by
  have hsettle : ((p.settle a).recent n).filter (fun e => e.1.tick == tick) =
      ((p.recent n).filter fun e => e.1.tick == tick).filter fun e => a.tick < e.1.tick := by
    unfold Predictions.recent Predictions.settle
    rw [List.filter_filter, List.filter_filter, List.filter_filter, List.filter_filter]
    refine List.filter_congr fun e _ => ?_
    cases decide (a.tick < e.1.tick) <;> simp
  have hup : ((p.recent n).filter fun e => e.1.tick == tick).Pairwise
      fun e f => decide (a.tick < e.1.tick) = true → decide (a.tick < f.1.tick) = true := by
    refine List.pairwise_of_forall_mem_list fun e he f hf => ?_
    have hetick : e.1.tick = tick := by simpa using (List.mem_filter.1 he).2
    have hftick : f.1.tick = tick := by simpa using (List.mem_filter.1 hf).2
    rw [hetick, hftick]
    exact id
  rw [Predictions.newest, hsettle, getLast?_filter_of_pairwise _ hup]
  exact congrArg (Option.filter _) (h.newest tick)

/-- What a `reconcile` that leaves the end of the history does to the window. -/
theorem Window.settle (h : Window n p r) {r' : Reconciler α} (hh : r.history = gone ++ newer)
    (hr' : r' = { r with history := newer }) (hn : ∀ s ∈ newer, a.tick < s.tick)
    (hg : ∀ e ∈ gone, a.tick < e.tick → ∃ t ∈ newer, t.tick = e.tick) : Window n (p.settle a) r' := by
  subst hr'
  have hle := h.length_le
  rw [hh, List.length_append] at hle
  refine ⟨h.size, (Nat.le_add_left ..).trans hle, h.sorted.filter _, fun e he => h.below e (List.mem_filter.1 he).1,
    fun tick => ?_⟩
  have hnumber : p.total - (gone.length + newer.length) + gone.length = p.total - newer.length := by omega
  have hsplit : r.numbered p.total =
      gone.zipIdx (p.total - (gone.length + newer.length)) ++ newer.zipIdx (p.total - newer.length) := by
    rw [numbered, hh, List.length_append, List.zipIdx_append, hnumber]
  rw [h.newest_settle, hsplit]
  refine (newest_kept (fun e he => hn e.1 (List.fst_mem_of_mem_zipIdx he)) (fun e he hnewer => ?_) tick).symm
  obtain ⟨t, ht, htick⟩ := hg e.1 (List.fst_mem_of_mem_zipIdx he) hnewer
  obtain ⟨f, hf, rfl⟩ : ∃ f ∈ newer.zipIdx (p.total - newer.length), f.1 = t := by
    have hmap : t ∈ (newer.zipIdx (p.total - newer.length)).map Prod.fst := by rwa [List.zipIdx_map_fst]
    exact List.mem_map.1 hmap
  exact ⟨f, hf, htick⟩

/-- A step in order: the prediction compared is the newest, and the history stays the window. -/
theorem Window.reconcile (h : Window n p r) (hord : r.InOrder a.tick) :
    r.UsesNewest hypot p a ∧ Window n (p.settle a) (r.reconcile hypot a).2 := by
  have hnewest := h.newest a.tick
  have hne : ∀ newer : List (WorldState α), (∀ s ∈ newer, s.tick ≠ a.tick) →
      ∀ k, (newer.zipIdx k).filter (fun e => e.1.tick == a.tick) = [] := fun newer hn k =>
    filter_zipIdx_fst_nil (fun s : WorldState α => s.tick == a.tick) k fun s hs => by simpa using hn s hs
  rcases hord.split with ⟨older, newer, hh, ho, hn⟩ | ⟨gone, s, newer, hh, hg, hs, hn, hagain⟩
  · obtain ⟨hnone, hrun⟩ := reconcile_of_absent hypot ho hn hh
    have hno : p.newest r.historySize a.tick = none := by
      rw [h.size, hnewest, numbered, hne _ fun s hs => ?_]
      · rfl
      · rw [hh] at hs
        rcases List.mem_append.1 hs with hs | hs
        · exact (ho s hs).ne
        · exact (hn s hs).ne'
    refine ⟨⟨?_, ?_, ?_⟩, h.settle hh (by rw [hrun]) hn fun e he hnewer => ?_⟩
    · rw [hno, compared, hnone]
      rfl
    · rw [hno, hrun]
      rfl
    · rw [hrun]
      exact hn
    · exact absurd hnewer (Nat.lt_asymm (ho e he))
  · obtain ⟨hfound, herror, hrun⟩ := reconcile_of_found hypot hg hs hh
    have hone : p.newest r.historySize a.tick =
        some (s, p.total - r.history.length + gone.length) := by
      rw [h.size, hnewest, numbered, hh, List.zipIdx_append, List.filter_append, hne gone hg, List.zipIdx_cons,
        List.filter_cons_of_pos (by simpa using hs), hne newer fun t ht => (hn t ht).ne']
      rfl
    refine ⟨⟨?_, ?_, ?_⟩, ?_⟩
    · have hmap := congrArg (Option.map fun e : WorldState α × Nat =>
        (e.1, p.total - r.history.length + e.2)) hfound
      rw [Option.map_map] at hmap
      rw [hone]
      exact hmap
    · rw [hone]
      exact herror
    · rw [hrun]
      exact hn
    · have hh' : r.history = (gone ++ [s]) ++ newer := by rw [hh, List.append_assoc]; rfl
      refine h.settle hh' hrun hn fun e he hnewer => ?_
      rcases List.mem_append.1 he with he | he
      · exact hagain e he hnewer
      · rw [List.mem_singleton.1 he, hs] at hnewer
        exact absurd hnewer (lt_irrefl _)

/-! ### Runs -/

variable (epsilon : α) {calls : List (ReconcilerCall α)}

theorem window_run (h : (session hypot n epsilon).Along Ready calls) :
    Window n (Predictions.after calls) ((session hypot n epsilon).run calls).1 := by
  refine (session hypot n epsilon).run_inv_along
    (P := fun is _ r => Window n (Predictions.after is) r) ?_ ?_ calls h
  · exact ⟨rfl, le_refl _, List.Pairwise.nil, fun e he => absurd he List.not_mem_nil, fun tick => rfl⟩
  intro is os r call hw hready
  have hafter : Predictions.after (is ++ [call]) = (Predictions.after is).call call := by
    rw [Predictions.after, List.foldl_append]
    rfl
  rw [hafter]
  cases call with
  | recordPrediction s => exact hw.record s
  | reconcile a => exact (hw.reconcile hypot hready).2

/-- In every run of calls that find the history in order, each `reconcile` compares the most recent
prediction of its tick and leaves no prediction of that tick or an older one. -/
theorem reconcile_newest (h : (session hypot n epsilon).Along Ready calls) :
    ∀ pre a post, calls = pre ++ .reconcile a :: post →
      ((session hypot n epsilon).run pre).1.UsesNewest hypot (Predictions.after pre) a := by
  rintro pre a post rfl
  have hw := window_run hypot epsilon h.append_left
  exact (hw.reconcile hypot (h pre (.reconcile a) post rfl)).1

/-! ### Sessions without re-simulation -/

/-- The predictions recorded by `calls`. -/
def recorded (calls : List (ReconcilerCall α)) : List (WorldState α) :=
  calls.filterMap fun
    | .recordPrediction s => some s
    | .reconcile _ => none

theorem reconcile_sublist (r : Reconciler α) (a : WorldState α) :
    (r.reconcile hypot a).2.history.Sublist r.history := by
  unfold reconcile
  split
  · exact List.dropWhile_sublist _
  · exact List.drop_sublist ..

theorem history_sublist_recorded (calls : List (ReconcilerCall α)) :
    ((session hypot n epsilon).run calls).1.history.Sublist (recorded calls) := by
  refine (session hypot n epsilon).run_inv
    (P := fun is _ r => r.history.Sublist (recorded is)) (List.Sublist.refl _) ?_ calls
  intro is os r call hsub
  cases call with
  | recordPrediction s =>
    have hlast : recorded (is ++ [.recordPrediction s]) = recorded is ++ [s] := by
      rw [recorded, List.filterMap_append]
      rfl
    rw [hlast]
    refine List.Sublist.trans ?_ (hsub.append_right [s])
    show (r.recordPrediction s).history.Sublist _
    rw [recordPrediction_history]
    exact List.drop_sublist ..
  | reconcile a =>
    have hlast : recorded (is ++ [.reconcile a]) = recorded is := by
      rw [recorded, List.filterMap_append]
      exact List.append_nil _
    rw [hlast]
    exact (reconcile_sublist hypot r a).trans hsub

/-- A client that never records a tick twice, nor one after a later one, always meets the condition. -/
theorem ready_of_increasing (h : (recorded calls).Pairwise fun s t => s.tick < t.tick) :
    (session hypot n epsilon).Along Ready calls := by
  rintro pre call post rfl
  cases call with
  | recordPrediction s => trivial
  | reconcile a =>
    have hpre : (recorded pre).Pairwise fun s t => s.tick < t.tick := by
      rw [recorded, List.filterMap_append] at h
      exact (List.pairwise_append.1 h).1
    exact inOrder_of_increasing (hpre.sublist (history_sublist_recorded hypot epsilon pre)) _

/-! ### Examples -/

/-- A state of this tick with the ball at `x`. -/
def ballAt (tick : Nat) (x : ℚ) : WorldState ℚ := { initialState ℚ with ballX := x, tick := tick }

def distance (x y : ℚ) : ℚ := Scalar.sqrt (x * x + y * y)

/-- Tick 3 is predicted before tick 2 and again behind it. -/
def recordedAgain : List (ReconcilerCall ℚ) :=
  [.recordPrediction (ballAt 1 400), .recordPrediction (ballAt 3 430), .recordPrediction (ballAt 2 410),
    .recordPrediction (ballAt 3 420), .reconcile (ballAt 2 410), .reconcile (ballAt 3 420)]

/-- The state of tick 3 is compared with the second prediction of it. -/
theorem reconcile_newest_recordedAgain :
    ((session distance 120 (1 / 2)).run (recordedAgain.take 5)).1.UsesNewest distance
        (Predictions.after (recordedAgain.take 5)) (ballAt 3 420) ∧
      (Predictions.after (recordedAgain.take 5)).newest 120 3 = some (ballAt 3 420, 3) := by
  have hready : (session distance 120 (1 / 2)).Along Ready recordedAgain :=
    (Machine.along_iff_forall_lt _).2 (by decide +kernel)
  exact ⟨reconcile_newest distance (1 / 2) hready _ _ [] rfl, rfl⟩

/-- The server moves the ball in tick 1, and the client predicts tick 2 again from there. -/
def resimulation : List (ReconcilerCall ℚ) :=
  [.recordPrediction (ballAt 1 400), .recordPrediction (ballAt 2 410), .reconcile (ballAt 1 300),
    .recordPrediction (ballAt 2 310)]

/-- The state of tick 2 is compared with the prediction that was replaced, and the new one stays. -/
theorem resimulation_compares_old :
    let r := ((session distance 120 (1 / 2)).run resimulation).1
    r.compared (Predictions.after resimulation).total 2 = some (ballAt 2 410, 1) ∧
      (Predictions.after resimulation).newest 120 2 = some (ballAt 2 310, 2) ∧
      (r.reconcile distance (ballAt 2 310)).2.history = [ballAt 2 310] ∧
      ¬ r.UsesNewest distance (Predictions.after resimulation) (ballAt 2 310) := by
  have hcleared : (((session distance 120 (1 / 2)).run resimulation).1.reconcile distance
      (ballAt 2 310)).2.history = [ballAt 2 310] := rfl
  refine ⟨rfl, rfl, hcleared, fun h => ?_⟩
  have hlater := h.cleared (ballAt 2 310) (by rw [hcleared]; exact List.mem_singleton_self _)
  exact lt_irrefl 2 hlater

end Reconciler
end Portfolio.Netcode
