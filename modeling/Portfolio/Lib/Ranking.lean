import Mathlib.Data.List.Sort
import Mathlib.Data.String.Basic
import Mathlib.Tactic.Common

/-!
# Rankings

Items with a key and a score are ranked by descending score, equal scores by ascending key.
`rankSort` sorts a list so; among items with distinct keys it is the only ranked list
(`eq_rankSort`). A `GroupIndex` keeps the keys of each score together, highest score first; read
off group by group it is ranked (`pairwise_flatten`).
-/

namespace Portfolio

section
variable {α β κ σ : Type} [LinearOrder κ] [LinearOrder σ] (key : α → κ) (score : α → σ)

/-- `a` stands before `b` in a ranking. -/
def rankedBefore (a b : α) : Bool :=
  if score a ≠ score b then score b < score a else key a < key b

theorem rankedBefore_iff (a b : α) : rankedBefore key score a b = true ↔
    score b < score a ∨ (score a = score b ∧ key a < key b) := by
  unfold rankedBefore
  by_cases h : score a = score b
  · simp [h]
  · simp [h]

theorem not_rankedBefore_iff (a b : α) : rankedBefore key score b a = false ↔
    score b < score a ∨ (score a = score b ∧ key a ≤ key b) := by
  rw [← Bool.not_eq_true, rankedBefore_iff, not_or, not_and, not_lt, not_lt]
  constructor
  · rintro ⟨hle, hkey⟩
    rcases lt_or_eq_of_le hle with hlt | heq
    · exact .inl hlt
    · exact .inr ⟨heq.symm, hkey heq⟩
  · rintro (hlt | ⟨heq, hkey⟩)
    · exact ⟨hlt.le, fun h => absurd h hlt.ne⟩
    · exact ⟨heq.ge, fun _ => hkey⟩

theorem not_rankedBefore_self (a : α) : ¬ rankedBefore key score a a = true := by
  rw [rankedBefore_iff]
  rintro (hlt | ⟨-, hlt⟩)
  · exact lt_irrefl _ hlt
  · exact lt_irrefl _ hlt

instance : Std.Irrefl fun a b : α => rankedBefore key score a b = true where
  irrefl a := not_rankedBefore_self key score a

instance : Std.Antisymm fun a b : α => rankedBefore key score a b = true where
  antisymm a b hab hba := by
    simp only [rankedBefore_iff] at hab hba
    rcases hab with hab | ⟨heq, hab⟩ <;> rcases hba with hba | ⟨heq', hba⟩
    · exact absurd hab hba.not_gt
    · exact absurd heq' hab.ne
    · exact absurd heq hba.ne
    · exact absurd hab hba.not_gt

instance : Std.Total fun a b : α => rankedBefore key score b a = false where
  total a b := by
    simp only [not_rankedBefore_iff]
    rcases lt_trichotomy (score a) (score b) with hlt | heq | hlt
    · exact .inr (.inl hlt)
    · exact (le_total (key a) (key b)).imp (fun h => .inr ⟨heq, h⟩) fun h => .inr ⟨heq.symm, h⟩
    · exact .inl (.inl hlt)

instance : IsTrans α fun a b => rankedBefore key score b a = false where
  trans a b c hab hbc := by
    simp only [not_rankedBefore_iff] at hab hbc ⊢
    rcases hab with hab | ⟨heq, hab⟩ <;> rcases hbc with hbc | ⟨heq', hbc⟩
    · exact .inl (hbc.trans hab)
    · exact .inl (heq' ▸ hab)
    · exact .inl (heq.symm ▸ hbc)
    · exact .inr ⟨heq.trans heq', hab.trans hbc⟩

/-- The ranking of a list. -/
def rankSort (l : List α) : List α := l.insertionSort fun a b => rankedBefore key score b a = false

theorem perm_rankSort (l : List α) : (rankSort key score l).Perm l := List.perm_insertionSort _ l

theorem mem_rankSort {l : List α} {a : α} : a ∈ rankSort key score l ↔ a ∈ l :=
  (perm_rankSort key score l).mem_iff

theorem length_rankSort (l : List α) : (rankSort key score l).length = l.length :=
  (perm_rankSort key score l).length_eq

theorem pairwise_rankSort {l : List α} (h : l.Pairwise fun a b => key a ≠ key b) :
    (rankSort key score l).Pairwise fun a b => rankedBefore key score a b = true := by
  have hsorted := List.pairwise_insertionSort (fun a b => rankedBefore key score b a = false) l
  have hkeys : (rankSort key score l).Pairwise fun a b => key a ≠ key b :=
    (perm_rankSort key score l).symm.pairwise h fun hab => hab.symm
  refine (List.pairwise_and_iff.2 ⟨hsorted, hkeys⟩).imp ?_
  rintro a b ⟨hle, hne⟩
  rw [rankedBefore_iff]
  rcases (not_rankedBefore_iff key score a b).1 hle with hlt | ⟨heq, hle⟩
  · exact .inl hlt
  · exact .inr ⟨heq, lt_of_le_of_ne hle hne⟩

/-- A ranked list is the ranking of its members. -/
theorem eq_rankSort {l r : List α} (h : l.Pairwise fun a b => key a ≠ key b)
    (hr : r.Pairwise fun a b => rankedBefore key score a b = true) (hmem : ∀ a, a ∈ r ↔ a ∈ l) :
    r = rankSort key score l :=
  hr.eq_of_mem_iff (pairwise_rankSort key score h) fun a => (hmem a).trans (mem_rankSort key score).symm

theorem rankSort_map (f : β → α) {l : List β} (h : l.Pairwise fun a b => key (f a) ≠ key (f b)) :
    rankSort key score (l.map f) = (rankSort (fun b => key (f b)) (fun b => score (f b)) l).map f := by
  refine (eq_rankSort key score ?_ ?_ ?_).symm
  · exact List.pairwise_map.2 h
  · exact List.pairwise_map.2 (pairwise_rankSort (fun b => key (f b)) (fun b => score (f b)) h)
  · intro a
    simp only [List.mem_map, mem_rankSort]

theorem rankSort_filter (p : α → Bool) {l : List α} (h : l.Pairwise fun a b => key a ≠ key b) :
    rankSort key score (l.filter p) = (rankSort key score l).filter p := by
  refine (eq_rankSort key score (h.filter p) ((pairwise_rankSort key score h).filter p) ?_).symm
  intro a
  simp only [List.mem_filter, mem_rankSort]

/-- The items ranked before `b`. -/
def ahead (l : List α) (b : α) : Nat := l.countP (rankedBefore key score · b)

theorem ahead_eq_length {l front back : List α} {b : α} (h : l.Pairwise fun a b => key a ≠ key b)
    (hsplit : rankSort key score l = front ++ b :: back) : ahead key score l b = front.length := by
  have hsorted := pairwise_rankSort key score h
  rw [hsplit, List.pairwise_append] at hsorted
  obtain ⟨-, hback, hfront⟩ := hsorted
  have hzero : (b :: back).countP (rankedBefore key score · b) = 0 := by
    refine List.countP_eq_zero.2 fun a ha hab => ?_
    rcases List.mem_cons.1 ha with rfl | ha
    · exact not_rankedBefore_self key score a hab
    · have hba := (List.pairwise_cons.1 hback).1 a ha
      obtain rfl := antisymm_of (fun a b : α => rankedBefore key score a b = true) hab hba
      exact not_rankedBefore_self key score a hab
  rw [ahead, ← (perm_rankSort key score l).countP_eq, hsplit, List.countP_append, hzero,
    List.countP_eq_length.2 fun a ha => hfront a ha b List.mem_cons_self, Nat.add_zero]

/-- An item is among the first `n` of the ranking if fewer than `n` items are ahead of it. -/
theorem mem_take_rankSort {l : List α} (h : l.Pairwise fun a b => key a ≠ key b) {b : α} (hb : b ∈ l)
    (n : Nat) : b ∈ (rankSort key score l).take n ↔ ahead key score l b < n := by
  obtain ⟨front, back, hsplit⟩ := List.append_of_mem ((mem_rankSort key score).2 hb)
  have hnot : b ∉ front := by
    intro hmem
    have hsorted := pairwise_rankSort key score h
    rw [hsplit, List.pairwise_append] at hsorted
    exact not_rankedBefore_self key score b (hsorted.2.2 b hmem b List.mem_cons_self)
  rw [ahead_eq_length key score h hsplit, hsplit, List.take_append, List.mem_append]
  constructor
  · rintro (hmem | hmem)
    · exact absurd (List.mem_of_mem_take hmem) hnot
    · by_contra hle
      rw [Nat.sub_eq_zero_of_le (Nat.le_of_not_lt hle), List.take_zero] at hmem
      cases hmem
  · intro hlt
    obtain ⟨k, hk⟩ : ∃ k, n - front.length = k + 1 := ⟨n - front.length - 1, by omega⟩
    rw [hk, List.take_succ_cons]
    exact .inr List.mem_cons_self

end

/-- Taking the front of a list and of its filter agree exactly when the front passes the filter. -/
theorem take_filter_eq_take_iff {α : Type} (p : α → Bool) (l : List α) (n : Nat) :
    (l.filter p).take n = l.take n ↔ ∀ a ∈ l.take n, p a = true := by
  constructor
  · intro h a ha
    rw [← h] at ha
    exact (List.mem_filter.1 (List.mem_of_mem_take ha)).2
  · intro h
    induction l generalizing n with
    | nil => rfl
    | cons a l ih =>
      cases n with
      | zero => rfl
      | succ n =>
        rw [List.take_succ_cons] at h
        rw [List.filter_cons, if_pos (h a List.mem_cons_self), List.take_succ_cons, List.take_succ_cons,
          ih n fun b hb => h b (List.mem_cons_of_mem a hb)]

/-! ### Groups of keys -/

section
variable {κ σ : Type} [LinearOrder κ] [LinearOrder σ]

/-- The keys of each score, highest score first. -/
abbrev GroupIndex (κ σ : Type) [LinearOrder κ] [LinearOrder σ] : Type :=
  Std.TreeMap σ (Std.TreeSet κ) (fun a b => compare b a)

namespace GroupIndex

def groupAt (m : GroupIndex κ σ) (s : σ) : Std.TreeSet κ := (m[s]?).getD ∅

/-- The groups one after the other. -/
def flatten (m : GroupIndex κ σ) : List (κ × σ) := m.toList.flatMap fun g => g.2.toList.map (·, g.1)

theorem mem_flatten (m : GroupIndex κ σ) (k : κ) (s : σ) : (k, s) ∈ m.flatten ↔ k ∈ m.groupAt s := by
  simp only [flatten, List.mem_flatMap, List.mem_map, Std.TreeSet.mem_toList, Prod.mk.injEq]
  constructor
  · rintro ⟨⟨s', g⟩, hg, k', hk, rfl, rfl⟩
    rw [groupAt, Std.TreeMap.mem_toList_iff_getElem?_eq_some.1 hg]
    exact hk
  · intro hk
    cases hg : m[s]? with
    | none =>
      rw [groupAt, hg] at hk
      simp at hk
    | some g =>
      rw [groupAt, hg] at hk
      exact ⟨(s, g), Std.TreeMap.mem_toList_iff_getElem?_eq_some.2 hg, k, hk, rfl, rfl⟩

theorem pairwise_flatten (m : GroupIndex κ σ) :
    m.flatten.Pairwise fun a b => rankedBefore Prod.fst Prod.snd a b = true := by
  refine List.pairwise_flatMap.2 ⟨?_, ?_⟩
  · rintro ⟨s, g⟩ -
    refine List.pairwise_map.2 (Std.TreeSet.ordered_toList.imp fun hlt => ?_)
    rw [rankedBefore_iff]
    exact .inr ⟨rfl, compare_lt_iff_lt.1 hlt⟩
  · refine Std.TreeMap.ordered_keys_toList.imp ?_
    rintro ⟨s, g⟩ ⟨s', g'⟩ hlt a ha b hb
    obtain ⟨k, -, rfl⟩ := List.mem_map.1 ha
    obtain ⟨k', -, rfl⟩ := List.mem_map.1 hb
    rw [rankedBefore_iff]
    exact .inl (compare_lt_iff_lt.1 hlt)

end GroupIndex
end

end Portfolio
