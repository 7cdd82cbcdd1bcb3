import Mathlib.Data.List.Basic
import Mathlib.Logic.Function.Basic

/-!
# Partitioned logs

A `Topic` puts each message into the queue of its partition and gives it out from there. The order
of the log is kept within a partition (`Kept`); messages are handled in the order of the log if they
all have one partition (`Kept.filter_handled`), and if they have not, some order of consumption
mixes them (`not_filter_drain`).
-/

namespace Portfolio

/-- `log` has all messages in the order in which they were sent, `handled` those that were given
out. -/
structure Topic (π α : Type) where
  log : List α := []
  queues : π → List α := fun _ => []
  handled : List α := []

namespace Topic
variable {π α : Type} [DecidableEq π] (part : α → π)

def send (t : Topic π α) (a : α) : Topic π α where
  log := t.log ++ [a]
  queues := Function.update t.queues (part a) (t.queues (part a) ++ [a])
  handled := t.handled

/-- The next message of a partition is handled. -/
def consume (t : Topic π α) (p : π) : Topic π α :=
  match t.queues p with
  | [] => t
  | a :: rest =>
    { t with queues := Function.update t.queues p rest, handled := t.handled ++ [a] }

/-- The messages of a partition are those handled and those that wait. -/
def Kept (t : Topic π α) : Prop :=
  ∀ p, t.log.filter (part · = p) = t.handled.filter (part · = p) ++ t.queues p

theorem kept_empty : Kept part ({} : Topic π α) := fun _ => rfl

variable {part} {t : Topic π α}

theorem Kept.send (h : Kept part t) (a : α) : Kept part (t.send part a) := by
  intro p
  simp only [Topic.send, List.filter_append, h p, List.append_assoc]
  by_cases hp : part a = p
  · subst hp
    simp
  · simp [hp, Function.update_of_ne (Ne.symm hp)]

theorem Kept.part_of_waiting (h : Kept part t) {p : π} {a : α} (ha : a ∈ t.queues p) :
    part a = p := by
  have : a ∈ t.log.filter (part · = p) := by
    rw [h p]
    exact List.mem_append_right _ ha
  simpa using (List.mem_filter.1 this).2

theorem consume_log (t : Topic π α) (p : π) : (t.consume p).log = t.log := by
  unfold consume
  split <;> rfl

theorem Kept.consume (h : Kept part t) (p : π) : Kept part (t.consume p) := by
  intro p'
  unfold Topic.consume
  split
  · exact h p'
  · rename_i a rest hq
    have ha : part a = p := h.part_of_waiting (by rw [hq]; exact List.mem_cons_self)
    simp only [h p', List.filter_append, List.append_assoc]
    by_cases hp : p = p'
    · subst hp
      simp [ha, hq]
    · simp [ha, hp, Function.update_of_ne (Ne.symm hp)]

theorem Kept.mem_log (h : Kept part t) {a : α} (ha : a ∈ t.handled) : a ∈ t.log := by
  have : a ∈ t.log.filter (part · = part a) := by
    rw [h (part a)]
    exact List.mem_append_left _ (List.mem_filter.2 ⟨ha, by simp⟩)
  exact (List.mem_filter.1 this).1

/-- Messages of one partition are handled in the order of the log. -/
theorem Kept.filter_handled (h : Kept part t) {q : α → Bool}
    (hq : ∀ a ∈ t.log, ∀ b ∈ t.log, q a = true → q b = true → part a = part b) :
    t.handled.filter q <+: t.log.filter q := by
  cases hlog : t.log.filter q with
  | nil =>
    have hnone : t.handled.filter q = [] :=
      List.filter_eq_nil_iff.2 fun a ha => List.filter_eq_nil_iff.1 hlog a (h.mem_log ha)
    simp [hnone]
  | cons a rest =>
    obtain ⟨ha, hqa⟩ := List.mem_filter.1 (hlog ▸ List.mem_cons_self : a ∈ t.log.filter q)
    have hsame : ∀ l : List α, (∀ b ∈ l, b ∈ t.log) →
        l.filter q = (l.filter (part · = part a)).filter q := by
      intro l hl
      rw [List.filter_filter]
      refine List.filter_congr fun b hb => ?_
      cases hqb : q b with
      | false => rfl
      | true => simp [hq b (hl b hb) a ha hqb hqa]
    rw [← hlog, hsame t.handled fun b hb => h.mem_log hb, hsame t.log fun b hb => hb, h (part a),
      List.filter_append]
    exact List.prefix_append ..

/-! ### One partition first -/

def drain (t : Topic π α) (p : π) : Topic π α :=
  (List.replicate (t.queues p).length p).foldl consume t

theorem foldl_consume_handled {l : List α} {p : π} (h : t.queues p = l) :
    ((List.replicate l.length p).foldl consume t).handled = t.handled ++ l := by
  induction l generalizing t with
  | nil => simp
  | cons a rest ih =>
    have hstep : t.consume p =
        { t with queues := Function.update t.queues p rest, handled := t.handled ++ [a] } := by
      simp only [consume, h]
    rw [List.length_cons, List.replicate_succ, List.foldl_cons, hstep]
    rw [ih (by simp), List.append_assoc, List.singleton_append]

/-- Of messages with different partitions a later one can be handled first. -/
theorem not_filter_drain (h : Kept part t) (hnone : t.handled = []) {q : α → Bool} {a b : α}
    (ha : a ∈ t.log) (hb : b ∈ t.log) (hqa : q a = true) (hqb : q b = true)
    (hne : part a ≠ part b) : ∃ p, ¬ (t.drain p).handled.filter q <+: t.log.filter q := by
  obtain ⟨first, rest, hlog⟩ := List.exists_cons_of_ne_nil
    (List.ne_nil_of_mem (List.mem_filter.2 ⟨ha, hqa⟩))
  -- one of the two has another partition than the first one
  obtain ⟨c, hc, hqc, hpart⟩ : ∃ c ∈ t.log, q c = true ∧ part c ≠ part first := by
    by_cases hfirst : part a = part first
    · exact ⟨b, hb, hqb, fun heq => hne (hfirst.trans heq.symm)⟩
    · exact ⟨a, ha, hqa, hfirst⟩
  refine ⟨part c, fun hle => ?_⟩
  have hdrain : (t.drain (part c)).handled = t.log.filter (part · = part c) := by
    rw [drain, foldl_consume_handled rfl, h (part c), hnone]
    rfl
  obtain ⟨d, rest', hd⟩ := List.exists_cons_of_ne_nil (List.ne_nil_of_mem
    (List.mem_filter.2 ⟨hdrain ▸ List.mem_filter.2 ⟨hc, by simp⟩, hqc⟩ :
      c ∈ (t.drain (part c)).handled.filter q))
  have hmem : d ∈ (t.drain (part c)).handled :=
    (List.mem_filter.1 (hd ▸ List.mem_cons_self : d ∈ (t.drain (part c)).handled.filter q)).1
  rw [hdrain, List.mem_filter] at hmem
  rw [hd, hlog] at hle
  obtain ⟨rfl, -⟩ := List.cons_prefix_cons.1 hle
  exact hpart (of_decide_eq_true hmem.2).symm

end Topic
end Portfolio
