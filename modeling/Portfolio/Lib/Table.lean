import Mathlib.Data.List.Nodup

/-!
# Tables with keys

The statements on a table, a list of rows with a key each, and what a query for one key or with a
condition sees of them.
-/

namespace Portfolio

section
variable {α ι : Type} [DecidableEq ι] (key : α → ι)

def findRow (rows : List α) (k : ι) : Option α := rows.find? fun r => key r = k

def updateRow (rows : List α) (k : ι) (f : α → α) : List α := rows.map fun r => if key r = k then f r else r

def deleteRow (rows : List α) (k : ι) : List α := rows.filter fun r => key r ≠ k

variable {key} {rows : List α} {k k' : ι} {r : α}

theorem mem_of_findRow (h : findRow key rows k = some r) : r ∈ rows ∧ key r = k :=
  ⟨List.mem_of_find?_eq_some h, by simpa using List.find?_some h⟩

/-- A key that is found stands for one row. -/
theorem eq_of_findRow (hkeys : (rows.map key).Nodup) (h : findRow key rows k = some r) {r' : α}
    (hmem : r' ∈ rows) (hkey : key r' = k) : r' = r := by
  obtain ⟨hr, hk⟩ := mem_of_findRow h
  exact List.inj_on_of_nodup_map hkeys hmem hr (hkey.trans hk.symm)

/-! ### Inserting -/

theorem findRow_append (h : findRow key rows k = some r) (new : List α) :
    findRow key (rows ++ new) k = some r := by
  rw [findRow, List.find?_append, ← findRow, h, Option.some_or]

theorem filter_concat_of_not {p : α → Bool} (h : p r = false) : (rows ++ [r]).filter p = rows.filter p := by
  rw [List.filter_append, List.filter_singleton, h, cond_false, List.append_nil]

/-! ### Updating -/

section
variable {f : α → α} (hf : ∀ r, key (f r) = key r)
include hf

theorem map_key_updateRow : (updateRow key rows k f).map key = rows.map key := by
  rw [updateRow, List.map_map]
  refine List.map_congr_left fun r _ => ?_
  simp only [Function.comp]
  split
  · exact hf r
  · rfl

theorem findRow_updateRow_of_ne (hne : k' ≠ k) : findRow key (updateRow key rows k f) k' = findRow key rows k' := by
  induction rows with
  | nil => rfl
  | cons r rows ih =>
    rw [updateRow, List.map_cons, ← updateRow, findRow, findRow, List.find?_cons, List.find?_cons,
      ← findRow, ← findRow, ih]
    by_cases hr : key r = k
    · have hk : key r ≠ k' := fun h => hne (h.symm.trans hr)
      simp [hr, hf, hne.symm]
    · simp [hr]

theorem isSome_findRow_updateRow : (findRow key (updateRow key rows k f) k').isSome = (findRow key rows k').isSome := by
  rw [Bool.eq_iff_iff, findRow, findRow, List.find?_isSome, List.find?_isSome]
  have hmem : ∀ l : List α, (∃ r ∈ l, decide (key r = k') = true) ↔ k' ∈ l.map key := by
    simp [List.mem_map]
  rw [hmem, hmem, map_key_updateRow hf]

end

/-- A query that shows neither the old row nor the new one. -/
theorem filter_updateRow_of_not {f : α → α} {p : α → Bool} (h : ∀ r ∈ rows, key r = k → p r = false ∧ p (f r) = false) :
    (updateRow key rows k f).filter p = rows.filter p := by
  induction rows with
  | nil => rfl
  | cons r rows ih =>
    have htail := ih fun r hr => h r (List.mem_cons_of_mem _ hr)
    rw [updateRow, List.map_cons, ← updateRow, List.filter_cons, List.filter_cons, htail]
    by_cases hr : key r = k
    · obtain ⟨hold, hnew⟩ := h r List.mem_cons_self hr
      simp [hr, hold, hnew]
    · simp [hr]

/-- A query that does not look at what is updated. -/
theorem filter_updateRow {f : α → α} {p : α → Bool} (hp : ∀ r, p (f r) = p r) :
    (updateRow key rows k f).filter p = updateRow key (rows.filter p) k f := by
  rw [updateRow, updateRow, List.filter_map]
  congr 1
  refine List.filter_congr fun r _ => ?_
  simp only [Function.comp]
  split
  · exact hp r
  · rfl

/-! ### Deleting -/

theorem findRow_deleteRow_self : findRow key (deleteRow key rows k) k = none := by
  refine List.find?_eq_none.2 fun r hr => ?_
  have := (List.mem_filter.1 hr).2
  simpa using this

theorem findRow_deleteRow_of_ne (hne : k' ≠ k) : findRow key (deleteRow key rows k) k' = findRow key rows k' := by
  rw [findRow, findRow, deleteRow, List.find?_filter]
  congr 1
  funext r
  by_cases hr : key r = k'
  · simp [hr, hne]
  · simp [hr]

theorem filter_deleteRow_of_not {p : α → Bool} (h : ∀ r ∈ rows, key r = k → p r = false) :
    (deleteRow key rows k).filter p = rows.filter p := by
  rw [deleteRow, List.filter_filter]
  refine List.filter_congr fun r hr => ?_
  by_cases hk : key r = k
  · simp [hk, h r hr hk]
  · simp [hk]

end

/-! ### Assigned keys -/

/-- Keys that are assigned in order: no key comes twice and `next` is new. -/
structure Assigned {α : Type} (key : α → Int) (rows : List α) (next : Int) : Prop where
  nodup : (rows.map key).Nodup
  fresh : ∀ k ∈ rows.map key, k < next

namespace Assigned
variable {α : Type} {key : α → Int} {rows : List α} {next : Int}

theorem insert (h : Assigned key rows next) {r : α} (hr : key r = next) :
    Assigned key (rows ++ [r]) (next + 1) := by
  refine ⟨?_, fun k hk => ?_⟩
  · rw [List.map_append, List.map_singleton, hr]
    exact List.concat_eq_append ▸ h.nodup.concat fun hmem => Int.lt_irrefl next (h.fresh next hmem)
  · rw [List.map_append, List.map_singleton, hr] at hk
    rcases List.mem_append.1 hk with hk | hk
    · have := h.fresh k hk
      omega
    · obtain rfl := List.mem_singleton.1 hk
      omega

theorem update (h : Assigned key rows next) {f : α → α} (hf : ∀ r, key (f r) = key r) (k : Int) :
    Assigned key (updateRow key rows k f) next := by
  have hkeys : (updateRow key rows k f).map key = rows.map key := map_key_updateRow hf
  refine ⟨?_, ?_⟩
  · rw [hkeys]
    exact h.nodup
  · rw [hkeys]
    exact h.fresh

theorem delete (h : Assigned key rows next) (k : Int) : Assigned key (deleteRow key rows k) next := by
  have hsub : ((deleteRow key rows k).map key).Sublist (rows.map key) := List.filter_sublist.map key
  exact ⟨hsub.nodup h.nodup, fun n hn => h.fresh n (hsub.subset hn)⟩

end Assigned

end Portfolio
