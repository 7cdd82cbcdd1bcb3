import Mathlib.Data.List.Induction
import Mathlib.Data.List.Nodup

/-!
# Dictionaries of Python

A `dict` keeps the order in which its keys were first set, and setting a key again keeps its place.
`{**a, **b}` is `a.update b`. What is in the result of an operation is told by membership of items.
-/

namespace Portfolio

/-- `d[k] = v` on the items. -/
def setItems {κ β : Type} [DecidableEq κ] (k : κ) (v : β) : List (κ × β) → List (κ × β)
  | [] => [(k, v)]
  | e :: rest => if e.1 = k then (k, v) :: rest else e :: setItems k v rest

section
variable {κ β : Type} [DecidableEq κ]

theorem mem_keys_setItems {k j : κ} {v : β} {l : List (κ × β)} :
    j ∈ (setItems k v l).map Prod.fst ↔ j = k ∨ j ∈ l.map Prod.fst := by
  induction l with
  | nil => simp [setItems]
  | cons e l ih =>
    rw [setItems]
    split
    · next he => simp [he]
    · rw [List.map_cons, List.mem_cons, ih, List.map_cons, List.mem_cons]
      tauto

/-- A key that is new is set behind the others. -/
theorem setItems_of_notMem {k : κ} {v : β} {l : List (κ × β)} (h : k ∉ l.map Prod.fst) :
    setItems k v l = l ++ [(k, v)] := by
  induction l with
  | nil => rfl
  | cons e l ih =>
    rw [List.map_cons, List.mem_cons, not_or] at h
    rw [setItems, if_neg (Ne.symm h.1), ih h.2, List.cons_append]

theorem nodup_keys_setItems (k : κ) (v : β) {l : List (κ × β)} (h : (l.map Prod.fst).Nodup) :
    ((setItems k v l).map Prod.fst).Nodup := by
  induction l with
  | nil => simp [setItems]
  | cons e l ih =>
    obtain ⟨he, hl⟩ := List.nodup_cons.1 h
    rw [setItems]
    split
    · next hk => exact List.nodup_cons.2 ⟨hk ▸ he, hl⟩
    · next hk =>
      refine List.nodup_cons.2 ⟨fun hmem => ?_, ih hl⟩
      rcases mem_keys_setItems.1 hmem with heq | hmem
      · exact hk heq
      · exact he hmem

theorem mem_setItems {k j : κ} {v w : β} {l : List (κ × β)} (h : (l.map Prod.fst).Nodup) :
    (j, w) ∈ setItems k v l ↔ (j = k ∧ w = v) ∨ (j ≠ k ∧ (j, w) ∈ l) := by
  induction l with
  | nil => simp [setItems]
  | cons e l ih =>
    obtain ⟨he, hl⟩ := List.nodup_cons.1 h
    rw [setItems]
    split
    · next hk =>
      -- The key is nowhere else.
      have hrest : (j, w) ∈ l → j ≠ k := by
        rintro hmem rfl
        exact he (hk ▸ List.mem_map_of_mem hmem)
      rw [List.mem_cons, List.mem_cons, Prod.mk.injEq]
      constructor
      · rintro (heq | hmem)
        · exact .inl heq
        · exact .inr ⟨hrest hmem, .inr hmem⟩
      · rintro (heq | ⟨hne, heq | hmem⟩)
        · exact .inl heq
        · exact absurd ((congrArg Prod.fst heq).trans hk) hne
        · exact .inr hmem
    · next hk =>
      rw [List.mem_cons, ih hl, List.mem_cons]
      constructor
      · rintro (heq | heq | ⟨hne, hmem⟩)
        · exact .inr ⟨fun hj => hk ((congrArg Prod.fst heq).symm.trans hj), .inl heq⟩
        · exact .inl heq
        · exact .inr ⟨hne, .inr hmem⟩
      · rintro (heq | ⟨hne, heq | hmem⟩)
        · exact .inr (.inl heq)
        · exact .inl heq
        · exact .inr (.inr ⟨hne, hmem⟩)

end

structure Dict (κ β : Type) where
  items : List (κ × β)
  nodup : (items.map Prod.fst).Nodup

namespace Dict
variable {κ β : Type}

def empty : Dict κ β := ⟨[], List.nodup_nil⟩

/-- `{k: v for k, v in d.items() if p(k)}` -/
def filterKeys (d : Dict κ β) (p : κ → Bool) : Dict κ β :=
  ⟨d.items.filter fun e => p e.1, d.nodup.sublist (List.filter_sublist.map _)⟩

variable [DecidableEq κ]

/-- `d.get(k)` -/
def get? (d : Dict κ β) (k : κ) : Option β := d.items.lookup k

def set (d : Dict κ β) (k : κ) (v : β) : Dict κ β := ⟨setItems k v d.items, nodup_keys_setItems k v d.nodup⟩

/-- `{**d, **other}` -/
def update (d other : Dict κ β) : Dict κ β := other.items.foldl (fun d e => d.set e.1 e.2) d

/-- A dictionary display. -/
def ofItems (items : List (κ × β)) : Dict κ β := items.foldl (fun d e => d.set e.1 e.2) empty

variable {d other : Dict κ β} {k j : κ} {v w : β}

omit [DecidableEq κ] in
theorem eq_of_mem {e e' : κ × β} (he : e ∈ d.items) (he' : e' ∈ d.items) (hkey : e.1 = e'.1) : e = e' :=
  List.inj_on_of_nodup_map d.nodup he he' hkey

omit [DecidableEq κ] in
/-- One item is left if it passes and those that pass have its key. -/
theorem filter_items_eq_singleton_iff {p : κ × β → Bool} {e : κ × β} :
    d.items.filter p = [e] ↔ e ∈ d.items ∧ p e ∧ ∀ e' ∈ d.items, p e' → e'.1 = e.1 := by
  constructor
  · intro h
    have hmem : e ∈ d.items.filter p := h ▸ List.mem_singleton_self e
    obtain ⟨he, hp⟩ := List.mem_filter.1 hmem
    refine ⟨he, hp, fun e' he' hp' => ?_⟩
    have hmem' : e' ∈ d.items.filter p := List.mem_filter.2 ⟨he', hp'⟩
    rw [h, List.mem_singleton] at hmem'
    rw [hmem']
  · rintro ⟨he, hp, hall⟩
    have hsame : ∀ e' ∈ d.items.filter p, e' = e := by
      intro e' he'
      obtain ⟨he', hp'⟩ := List.mem_filter.1 he'
      exact eq_of_mem he' he (hall e' he' hp')
    have hmem : e ∈ d.items.filter p := List.mem_filter.2 ⟨he, hp⟩
    have hnodup : (d.items.filter p).Nodup := (List.Nodup.of_map _ d.nodup).filter p
    have hreplicate := List.eq_replicate_of_mem hsame
    rw [hreplicate, List.nodup_replicate] at hnodup
    have hpos := List.length_pos_of_mem hmem
    have hone : (d.items.filter p).length = 1 := by omega
    rw [hreplicate, hone]
    rfl

omit [DecidableEq κ] in
@[simp] theorem items_empty : (empty : Dict κ β).items = [] := rfl

omit [DecidableEq κ] in
@[simp] theorem mem_items_filterKeys {p : κ → Bool} {e : κ × β} :
    e ∈ (d.filterKeys p).items ↔ e ∈ d.items ∧ p e.1 := List.mem_filter

@[simp] theorem mem_items_set : (j, w) ∈ (d.set k v).items ↔ (j = k ∧ w = v) ∨ (j ≠ k ∧ (j, w) ∈ d.items) :=
  mem_setItems d.nodup

theorem get?_eq_some_iff : d.get? k = some v ↔ (k, v) ∈ d.items := by
  constructor
  · intro h
    obtain ⟨l₁, l₂, hl, -⟩ := List.lookup_eq_some_iff.1 h
    rw [hl]
    simp
  · intro h
    rw [get?, List.lookup_eq_some_iff]
    obtain ⟨l₁, l₂, hl⟩ := List.append_of_mem h
    refine ⟨l₁, l₂, hl, fun p hp => ?_⟩
    have hnodup := d.nodup
    rw [hl, List.map_append, List.map_cons, List.nodup_append] at hnodup
    simpa using (hnodup.2.2 p.1 (List.mem_map_of_mem hp) k List.mem_cons_self).symm

/-- An item of the result is one of the second dictionary, or one of the first that it has no key for. -/
@[simp] theorem mem_items_update : (j, w) ∈ (d.update other).items ↔
    (j, w) ∈ other.items ∨ ((∀ v, (j, v) ∉ other.items) ∧ (j, w) ∈ d.items) := by
  obtain ⟨items, hnodup⟩ := other
  unfold update
  induction items using List.reverseRecOn with
  | nil => simp
  | append_singleton items e ih =>
    obtain ⟨k, v⟩ := e
    have hfirst : (items.map Prod.fst).Nodup := hnodup.sublist ((List.sublist_append_left ..).map _)
    have hkey : ∀ v, (k, v) ∉ items := by
      intro v hmem
      rw [List.map_append, List.nodup_append] at hnodup
      exact hnodup.2.2 k (List.mem_map_of_mem hmem) k (by simp) rfl
    dsimp only at ih ⊢
    rw [List.foldl_concat, mem_items_set, ih hfirst]
    simp only [List.mem_append, List.mem_singleton, Prod.mk.injEq, not_or, not_and]
    by_cases hj : j = k
    · subst hj
      simp [hkey]
    · simp [hj]

end Dict

end Portfolio
