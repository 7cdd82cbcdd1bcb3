import Mathlib.Algebra.Ring.Int.Defs
import Mathlib.Data.List.Nodup

/-!
# Rows with ids

A table is a list of rows in which no id comes twice. Updating or deleting rows by their ids moves
the sum of a column by what these rows have in it.
-/

namespace Portfolio

section Rows
variable {α : Type} {id : α → Nat} {rows : List α}

/-- No two rows have one id. -/
def UniqueIds (id : α → Nat) (rows : List α) : Prop := ∀ n, rows.countP (id · = n) ≤ 1

theorem UniqueIds.sublist {rows' : List α} (h : UniqueIds id rows) (hsub : rows'.Sublist rows) :
    UniqueIds id rows' :=
  fun n => Nat.le_trans hsub.countP_le (h n)

theorem UniqueIds.tail {row : α} (h : UniqueIds id (row :: rows)) : UniqueIds id rows :=
  h.sublist (List.sublist_cons_self ..)

/-- The rows after one have other ids. -/
theorem UniqueIds.ne_of_mem_tail {row row' : α} (h : UniqueIds id (row :: rows))
    (hmem : row' ∈ rows) :
    id row' ≠ id row := by
  intro heq
  have hcount := h (id row)
  rw [List.countP_cons_of_pos (by simp)] at hcount
  have hzero : rows.countP (id · = id row) = 0 := by omega
  exact List.countP_eq_zero.1 hzero row' hmem (by simpa using heq)

theorem UniqueIds.eq_of_id {row row' : α} (h : UniqueIds id rows) (hmem : row ∈ rows)
    (hmem' : row' ∈ rows) (hid : id row = id row') : row = row' := by
  induction rows with
  | nil => cases hmem
  | cons r rows ih =>
    rcases List.mem_cons.1 hmem with rfl | htail <;> rcases List.mem_cons.1 hmem' with rfl | htail'
    · rfl
    · exact absurd hid.symm (h.ne_of_mem_tail htail')
    · exact absurd hid (h.ne_of_mem_tail htail)
    · exact ih h.tail htail htail'

theorem UniqueIds.nodup (h : UniqueIds id rows) : (rows.map id).Nodup := by
  induction rows with
  | nil => exact List.nodup_nil
  | cons r rows ih =>
    rw [List.map_cons, List.nodup_cons]
    refine ⟨fun hmem => ?_, ih h.tail⟩
    obtain ⟨row, hrow, hid⟩ := List.mem_map.1 hmem
    exact h.ne_of_mem_tail hrow hid

variable (f : α → Int)

/-- The `UPDATE` of one row. -/
theorem sum_map_replace (h : UniqueIds id rows) {row : α} (row' : α) (hmem : row ∈ rows) :
    ((rows.map fun r => if id r = id row then row' else r).map f).sum + f row =
      (rows.map f).sum + f row' := by
  induction rows with
  | nil => cases hmem
  | cons r rows ih =>
    simp only [List.map_cons, List.sum_cons]
    rcases List.mem_cons.1 hmem with rfl | htail
    · have hrest : (rows.map fun r => if id r = id row then row' else r) = rows := by
        refine (List.map_congr_left fun r hr => ?_).trans (List.map_id _)
        exact if_neg (h.ne_of_mem_tail hr)
      rw [if_pos rfl, hrest]
      omega
    · have := ih h.tail htail
      rw [if_neg fun heq => h.ne_of_mem_tail htail heq.symm]
      omega

/-- The `DELETE` of one row. -/
theorem sum_map_filter_ne (h : UniqueIds id rows) {row : α} (hmem : row ∈ rows) :
    ((rows.filter (id · ≠ id row)).map f).sum + f row = (rows.map f).sum := by
  induction rows with
  | nil => cases hmem
  | cons r rows ih =>
    rcases List.mem_cons.1 hmem with rfl | htail
    · have hrest : rows.filter (id · ≠ id row) = rows := by
        rw [List.filter_eq_self]
        intro r hr
        simpa using h.ne_of_mem_tail hr
      rw [List.filter_cons_of_neg (by simp), hrest, List.map_cons, List.sum_cons]
      omega
    · have hne : id r ≠ id row := fun heq => h.ne_of_mem_tail htail heq.symm
      have := ih h.tail htail
      rw [List.filter_cons_of_pos (by simpa using hne), List.map_cons, List.map_cons, List.sum_cons,
        List.sum_cons]
      omega

/-- The `DELETE`s of several rows. -/
theorem sum_map_filter_not_mem (h : UniqueIds id rows) {deleted : List α}
    (hmem : ∀ row ∈ deleted, row ∈ rows) (hnodup : (deleted.map id).Nodup) :
    ((rows.filter (id · ∉ deleted.map id)).map f).sum + (deleted.map f).sum = (rows.map f).sum := by
  induction deleted generalizing rows with
  | nil => simp
  | cons row deleted ih =>
    rw [List.map_cons, List.nodup_cons] at hnodup
    have hone := sum_map_filter_ne f h (hmem row (List.mem_cons_self ..))
    have hrest := ih (h.sublist (List.filter_sublist (p := (id · ≠ id row)))) (fun r hr => ?_)
      hnodup.2
    · have hsplit : rows.filter (id · ∉ (row :: deleted).map id) =
          (rows.filter (id · ≠ id row)).filter (id · ∉ deleted.map id) := by
        rw [List.filter_filter]
        refine List.filter_congr fun r _ => ?_
        simp only [List.map_cons, List.mem_cons, not_or, ne_eq, Bool.decide_and, Bool.and_comm]
      rw [hsplit, List.map_cons, List.sum_cons]
      omega
    · refine List.mem_filter.2 ⟨hmem r (List.mem_cons_of_mem _ hr), ?_⟩
      rw [decide_eq_true_eq]
      exact fun heq => hnodup.1 (heq ▸ List.mem_map_of_mem hr)

end Rows
end Portfolio
