import Mathlib.Algebra.BigOperators.Group.List.Basic
import Mathlib.Tactic.Common

/-!
# Ordered maps with a default

`lookupD` and `alterD` read and write a `TreeMap` whose missing entries have a default, as
`operator[]` of a C++ map does. A fold of such writes is followed one key at a time, and a sum over the
entries by what one write adds to it.
-/

namespace Portfolio
open Std

section
variable {κ β ι : Type} [Ord κ] {d : κ → β}

/-- The entry of `k`, or its default. -/
def lookupD (d : κ → β) (m : TreeMap κ β) (k : κ) : β := (m[k]?).getD (d k)

/-- Rewrites the entry of `k`, which is created if it is missing. -/
def alterD (d : κ → β) (m : TreeMap κ β) (k : κ) (f : β → β) : TreeMap κ β := m.insert k (f (lookupD d m k))

variable [TransOrd κ] [LawfulEqOrd κ] [DecidableEq κ]

theorem getElem?_alterD (m : TreeMap κ β) (k j : κ) (f : β → β) :
    (alterD d m k f)[j]? = if k = j then some (f (lookupD d m j)) else m[j]? := by
  unfold alterD
  rw [TreeMap.getElem?_insert]
  by_cases h : k = j
  · subst h
    simp
  · simp [h]

theorem lookupD_alterD (m : TreeMap κ β) (k j : κ) (f : β → β) :
    lookupD d (alterD d m k f) j = if k = j then f (lookupD d m j) else lookupD d m j := by
  rw [lookupD, getElem?_alterD]
  split
  · rfl
  · rfl

/-- Of a fold of writes, the entry of `k` sees those at `k`, in their order. -/
theorem lookupD_foldl (key : ι → κ) (f : ι → β → β) (l : List ι) (m : TreeMap κ β) (k : κ) :
    lookupD d (l.foldl (fun m x => alterD d m (key x) (f x)) m) k =
      (l.filter (key · = k)).foldl (fun b x => f x b) (lookupD d m k) := by
  induction l generalizing m with
  | nil => rfl
  | cons x l ih =>
    rw [List.foldl_cons, ih, lookupD_alterD, List.filter_cons]
    by_cases h : key x = k
    · simp [h]
    · simp [h]

omit [DecidableEq κ] in
theorem pairwise_toList (m : TreeMap κ β) : m.toList.Pairwise fun a b => a.1 ≠ b.1 := by
  refine TreeMap.distinct_keys_toList.imp ?_
  rintro a b hab heq
  exact hab (by rw [heq, Std.compare_self])

theorem filter_toList (m : TreeMap κ β) (k : κ) :
    m.toList.filter (·.1 = k) = (m[k]?).toList.map (k, ·) := by
  have hmem : ∀ x, x ∈ m.toList.filter (·.1 = k) ↔ x.1 = k ∧ m[k]? = some x.2 := by
    rintro ⟨j, v⟩
    simp only [List.mem_filter, TreeMap.mem_toList_iff_getElem?_eq_some, decide_eq_true_eq]
    constructor
    · rintro ⟨hv, rfl⟩
      exact ⟨rfl, hv⟩
    · rintro ⟨rfl, hv⟩
      exact ⟨hv, rfl⟩
  cases h : m[k]? with
  | none =>
    refine List.eq_nil_iff_forall_not_mem.2 fun x hx => ?_
    rw [hmem, h] at hx
    cases hx.2
  | some v =>
    have hnodup : (m.toList.filter (·.1 = k)).Nodup :=
      ((pairwise_toList m).imp fun hne heq => hne (congrArg Prod.fst heq)).filter _
    refine List.perm_singleton.1 ((List.perm_ext_iff_of_nodup hnodup (List.pairwise_singleton _ _)).2 ?_)
    rintro ⟨j, w⟩
    rw [hmem, h, List.mem_singleton, Option.some.injEq, Prod.mk.injEq]
    exact and_congr_right fun _ => eq_comm

section
variable {M : Type} [AddCancelCommMonoid M] {g : β → M}

/-- The sum of `g` over the entries. -/
def sumEntries (g : β → M) (m : TreeMap κ β) : M := (m.toList.map fun kv => g kv.2).sum

omit [TransOrd κ] [LawfulEqOrd κ] [DecidableEq κ] in
@[simp] theorem sumEntries_empty : sumEntries g (∅ : TreeMap κ β) = 0 := rfl

/-- A write that may create its entry, when `g` is zero on the defaults. -/
theorem sumEntries_alterD (hg : ∀ k, g (d k) = 0) (m : TreeMap κ β) (k : κ) (f : β → β) :
    sumEntries g (alterD d m k f) + g (lookupD d m k) = sumEntries g m + g (f (lookupD d m k)) := by
  let rest := (m.toList.filter (¬ k == ·.1)).map fun kv => g kv.2
  have hnew : sumEntries g (alterD d m k f) = g (f (lookupD d m k)) + rest.sum :=
    (TreeMap.toList_insert_perm.map fun kv : κ × β => g kv.2).sum_eq.trans List.sum_cons
  have hold : ((m.toList.filter (·.1 = k)).map fun kv => g kv.2).sum = g (lookupD d m k) := by
    rw [filter_toList, lookupD]
    cases m[k]? with
    | none => exact (hg k).symm
    | some v => simp
  have hsplit : sumEntries g m = g (lookupD d m k) + rest.sum := by
    rw [← hold, ← List.sum_append, ← List.map_append]
    have hperm := List.filter_append_perm (fun kv : κ × β => decide (kv.1 = k)) m.toList
    refine ((hperm.symm.trans ?_).map _).sum_eq
    refine .of_eq (congrArg _ (List.filter_congr fun kv _ => ?_))
    by_cases h : kv.1 = k
    · simp [h]
    · simp [h, Ne.symm h]
  rw [hnew, hsplit, add_assoc, add_comm, add_comm rest.sum]

theorem sumEntries_alterD_of_eq (hg : ∀ k, g (d k) = 0) (m : TreeMap κ β) (k : κ) {f : β → β}
    (hf : ∀ b, g (f b) = g b) : sumEntries g (alterD d m k f) = sumEntries g m := by
  have hsum := sumEntries_alterD hg m k f
  rw [hf] at hsum
  exact add_right_cancel hsum

end

end

end Portfolio
