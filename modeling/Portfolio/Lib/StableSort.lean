import Mathlib.Data.List.Sort

/-!
# Taking entries out before or after a sort

A stable sort of the entries of a map commutes with taking entries out: erasing a key filters the
list of entries, and filtering a list filters its insertion sort.
-/

namespace Portfolio
open Std

section
variable {α : Type} (r : α → α → Prop) [DecidableRel r] [IsTrans α r]

theorem orderedInsert_filter (p : α → Bool) (a : α) {l : List α} (h : l.Pairwise r) :
    (l.orderedInsert r a).filter p =
      if p a then (l.filter p).orderedInsert r a else l.filter p := by
  induction l with
  | nil => simp [List.filter_singleton]
  | cons b l ih =>
    obtain ⟨hb, hl⟩ := List.pairwise_cons.1 h
    by_cases hab : r a b
    · rw [List.orderedInsert_cons_of_le r l hab, List.filter_cons]
      split
      · -- everything in the list comes after `a`
        have hall : ∀ c ∈ (b :: l).filter p, r a c := by
          intro c hc
          rcases List.mem_cons.1 (List.mem_filter.1 hc).1 with rfl | hc
          · exact hab
          · exact IsTrans.trans a b c hab (hb c hc)
        cases hf : (b :: l).filter p with
        | nil => rfl
        | cons c cs =>
          have hac := hall c (by rw [hf]; exact List.mem_cons_self)
          rw [List.orderedInsert_cons_of_le r cs hac]
      · rfl
    · rw [List.orderedInsert_of_not_le r l hab, List.filter_cons, ih hl]
      by_cases hpa : p a = true
      · rw [if_pos hpa, if_pos hpa]
        by_cases hpb : p b = true
        · rw [if_pos hpb, List.filter_cons_of_pos hpb, List.orderedInsert_of_not_le r _ hab]
        · rw [if_neg hpb, List.filter_cons_of_neg hpb]
      · rw [if_neg hpa, if_neg hpa, List.filter_cons]

theorem insertionSort_filter [Std.Total r] (p : α → Bool) (l : List α) :
    (l.filter p).insertionSort r = (l.insertionSort r).filter p := by
  induction l with
  | nil => rfl
  | cons a l ih =>
    rw [List.insertionSort_cons, orderedInsert_filter r p a (List.pairwise_insertionSort r l), ← ih,
      List.filter_cons]
    split
    · rw [List.insertionSort_cons]
    · rfl

end

/-- The entries left after an `erase`. -/
theorem toList_erase {κ ν : Type} [Ord κ] [TransOrd κ] [LawfulEqOrd κ] [DecidableEq κ] (m : TreeMap κ ν)
    (k : κ) : (m.erase k).toList = m.toList.filter fun e => e.1 ≠ k := by
  have hkeys : ∀ m : TreeMap κ ν, m.toList.Nodup := fun m => by
    refine List.Pairwise.imp ?_ m.distinct_keys_toList
    rintro a _ hab rfl
    exact hab ReflCmp.compare_self
  have hanti : ∀ a b : κ × ν, a ∈ (m.erase k).toList → b ∈ m.toList.filter (fun e => e.1 ≠ k) →
      compare a.1 b.1 = .lt → compare b.1 a.1 = .lt → a = b := by
    intro a b _ _ hab hba
    have hswap : compare b.1 a.1 = (compare a.1 b.1).swap := OrientedCmp.eq_swap
    rw [hab, hba] at hswap
    cases hswap
  have hperm : (m.erase k).toList.Perm (m.toList.filter fun e => e.1 ≠ k) := by
    refine (List.perm_ext_iff_of_nodup (hkeys _) ((hkeys _).sublist List.filter_sublist)).2 fun e => ?_
    rw [List.mem_filter, TreeMap.mem_toList_iff_getElem?_eq_some, TreeMap.mem_toList_iff_getElem?_eq_some,
      TreeMap.getElem?_erase, decide_eq_true_eq]
    by_cases he : compare k e.1 = .eq
    · rw [if_pos he]
      obtain rfl := compare_eq_iff_eq.1 he
      exact iff_of_false (by simp) (by simp)
    · rw [if_neg he]
      exact ⟨fun h => ⟨h, fun heq => he (compare_eq_iff_eq.2 heq.symm)⟩, fun h => h.1⟩
  exact List.Perm.eq_of_pairwise hanti TreeMap.ordered_keys_toList
    (TreeMap.ordered_keys_toList.sublist List.filter_sublist) hperm

end Portfolio
