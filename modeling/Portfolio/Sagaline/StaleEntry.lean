import Portfolio.Sagaline.ProductCache

/-!
# The cached product is the stored one

A writer evicts the entry after its commit, so whatever the entry was, it does not outlive the writer.
Only a reader that puts what it read before a commit, when nobody is left to evict it, leaves a stale
entry behind. `PutsCurrent` says that a step is no such put, and is exactly what keeps the entry
`Tended`.
-/

namespace Portfolio.Sagaline.ProductCache

def ProductCall.isOver : ProductCall → Bool
  | .returned | .threw => true
  | _ => false

/-- There is no entry, or it is the DTO of the present row. -/
def ProductState.Current (s : ProductState) : Prop := ∀ dto ∈ s.productDetails, s.dto = some dto

instance (s : ProductState) : Decidable s.Current :=
  inferInstanceAs (Decidable (∀ dto ∈ s.productDetails, s.dto = some dto))

/-- Once all requests have finished, the entry is current. -/
def NotStale (s : Threads ProductState ProductCall) : Prop :=
  (∀ k ∈ s.calls, k.isOver) → s.shared.Current

/-- The entry is current, or a writer that has committed has yet to evict it. -/
def Tended (s : Threads ProductState ProductCall) : Prop := s.shared.Current ∨ .evicting ∈ s.calls

/-- A reader that puts has the DTO of the present row, or a writer has yet to evict. -/
def PutsCurrent (s : Threads ProductState ProductCall) : ProductCall → Bool → Prop
  | .putting dto, _ => s.shared.dto = some dto ∨ .evicting ∈ s.calls
  | _, _ => True

instance (s : Threads ProductState ProductCall) : ∀ k commits, Decidable (PutsCurrent s k commits)
  | .putting dto, _ => inferInstanceAs (Decidable (s.shared.dto = some dto ∨ .evicting ∈ s.calls))
  | .lookingUp, _ | .finding, _ | .loadingCategories _, _ | .updating _, _ | .deleting, _
  | .committing _ _ _, _ | .evicting, _ | .returned, _ | .threw, _ => isTrue trivial

/-- No transaction is committed while a reader has read and has yet to put. -/
def Undisturbed (s : Threads ProductState ProductCall) (k : ProductCall) (_ : Bool) : Prop :=
  ∀ read changed ids, k = .committing read changed ids →
    ∀ l ∈ s.calls, (∀ product, l ≠ .loadingCategories product) ∧ ∀ dto, l ≠ .putting dto

section
variable {category : List Category} {row : Option Product} {categories : List Category}

theorem current_of_none {s : ProductState} (h : s.productDetails = none) : s.Current := by
  intro dto hdto
  rw [h] at hdto
  cases hdto

theorem Tended.notStale {s : Threads ProductState ProductCall} (h : Tended s) : NotStale s := by
  intro hover
  rcases h with hcurrent | hevicting
  · exact hcurrent
  · exact absurd (hover _ hevicting) (by simp [ProductCall.isOver])

/-- A step commits, puts, evicts or leaves everything as it is. -/
theorem next_cases (category : List Category) (commits : Bool) (s : ProductState) (k : ProductCall) :
    (∃ read changed ids, k = .committing read changed ids ∧
      k.next category commits s = (s.commit category read changed ids, .evicting)) ∨
    (∃ dto, k = .putting dto ∧
      k.next category commits s = ({ s with productDetails := some dto }, .returned)) ∨
    (k = .evicting ∧ k.next category commits s = ({ s with productDetails := none }, .returned)) ∨
    (k ≠ .evicting ∧ (∀ dto, k ≠ .putting dto) ∧ (k.next category commits s).1 = s) := by
  cases k with
  | lookingUp =>
    refine .inr (.inr (.inr ⟨nofun, nofun, ?_⟩))
    simp only [ProductCall.next]
    split <;> rfl
  | finding =>
    refine .inr (.inr (.inr ⟨nofun, nofun, ?_⟩))
    simp only [ProductCall.next]
    split <;> rfl
  | loadingCategories product => exact .inr (.inr (.inr ⟨nofun, nofun, rfl⟩))
  | putting dto => exact .inr (.inl ⟨dto, rfl, rfl⟩)
  | updating request =>
    refine .inr (.inr (.inr ⟨nofun, nofun, ?_⟩))
    simp only [ProductCall.next]
    split <;> rfl
  | deleting =>
    refine .inr (.inr (.inr ⟨nofun, nofun, ?_⟩))
    simp only [ProductCall.next]
    split <;> rfl
  | committing read changed ids =>
    cases commits with
    | true => exact .inl ⟨read, changed, ids, rfl, rfl⟩
    | false => exact .inr (.inr (.inr ⟨nofun, nofun, rfl⟩))
  | evicting => exact .inr (.inr (.inl ⟨rfl, rfl⟩))
  | returned => exact .inr (.inr (.inr ⟨nofun, nofun, rfl⟩))
  | threw => exact .inr (.inr (.inr ⟨nofun, nofun, rfl⟩))

/-! ### Puts -/

theorem tended_step_iff {s : Threads ProductState ProductCall} {i : Nat} {k : ProductCall} {commits : Bool}
    (h : Tended s) (hk : s.calls[i]? = some k) :
    Tended ⟨(k.next category commits s.shared).1, s.calls.set i (k.next category commits s.shared).2⟩ ↔
      PutsCurrent s k commits := by
  obtain ⟨hlt, -⟩ := List.getElem?_eq_some_iff.1 hk
  rcases next_cases category commits s.shared k with
    ⟨read, changed, ids, rfl, hnext⟩ | ⟨dto, rfl, hnext⟩ | ⟨rfl, hnext⟩ | ⟨hevict, hput, hnext⟩
  · rw [hnext]
    refine iff_of_true (.inr ?_) trivial
    exact List.mem_set hlt _
  · rw [hnext]
    have hcurrent : ProductState.Current { s.shared with productDetails := some dto } ↔
        s.shared.dto = some dto := by
      constructor
      · exact fun hcurrent => hcurrent dto rfl
      · rintro hdto _ ⟨rfl⟩
        exact hdto
    have hevicting : ProductCall.evicting ∈ s.calls.set i .returned ↔ .evicting ∈ s.calls := by
      constructor
      · intro hmem
        rcases exists_of_mem_set hmem with heq | ⟨j, -, hj⟩
        · cases heq
        · exact List.mem_of_getElem? hj
      · exact fun hmem => mem_set_of_ne hk hmem nofun
    rw [Tended, hcurrent, hevicting]
    exact Iff.rfl
  · rw [hnext]
    exact iff_of_true (.inl (current_of_none rfl)) trivial
  · have hputs : PutsCurrent s k commits := by
      cases k with
      | putting dto => exact absurd rfl (hput dto)
      | _ => trivial
    refine iff_of_true ?_ hputs
    rw [hnext]
    rcases h with hcurrent | hevicting
    · exact .inl hcurrent
    · exact .inr (mem_set_of_ne hk hevicting (Ne.symm hevict))

/-- As long as readers put what is current, the cache is not stale once all requests have finished;
and the entry is current or about to be evicted all through a run exactly if they do. -/
theorem notStale_of_putsCurrent (category : List Category) (row : Option Product)
    (categories : List Category) (acts : List (Sched ProductRequest Bool)) :
    ((productMachine category row categories).Along (OfCall PutsCurrent) acts →
      ∀ pre, pre <+: acts → NotStale ((productMachine category row categories).run pre).1) ∧
    ((∀ pre, pre <+: acts → Tended ((productMachine category row categories).run pre).1) ↔
      (productMachine category row categories).Along (OfCall PutsCurrent) acts) := by
  have hgood : ∀ pre, (productMachine category row categories).Along (OfCall PutsCurrent) pre →
      Tended ((productMachine category row categories).run pre).1 := by
    intro pre hpre
    refine (productProtocol category).machine_inv (I := Tended) (.inl (current_of_none rfl)) ?_ ?_ pre hpre
    · rintro s r (hcurrent | hevicting)
      · exact .inl hcurrent
      · exact .inr (List.mem_append_left _ hevicting)
    · exact fun s i k commits h hk hputs => (tended_step_iff h hk).2 hputs
  refine ⟨?_, (productMachine category row categories).always_iff_along (P := fun s => Tended s.1)
    (fun pre _ hpre => hgood pre hpre) ?_⟩
  · rintro h pre ⟨post, rfl⟩
    exact (hgood pre h.append_left).notStale
  · intro pre a _ hpre htended
    cases a with
    | call r => trivial
    | step i commits =>
      intro k hk
      rw [Machine.run_concat] at htended
      have htended : Tended ((productProtocol category).exec
        ((productMachine category row categories).run pre).1 (.step i commits)) := htended
      rw [(productProtocol category).exec_step hk] at htended
      exact (tended_step_iff (hgood pre hpre) hk).1 htended

/-! ### Schedules -/

/-- What a reader carries is what the database has. -/
def ProductCall.Fresh (s : ProductState) : ProductCall → Prop
  | .loadingCategories product => s.row = some product
  | .putting dto => s.dto = some dto
  | _ => True

theorem ProductCall.Fresh.congr {s t : ProductState} {k : ProductCall} (h : k.Fresh s) (hrow : t.row = s.row)
    (hcategories : t.categories = s.categories) : k.Fresh t := by
  cases k with
  | loadingCategories product => exact hrow.trans h
  | putting dto =>
    have h : s.dto = some dto := h
    rw [Fresh, ProductState.dto, hrow, hcategories]
    exact h
  | _ => trivial

theorem fresh_next (commits : Bool) {s : ProductState} {k : ProductCall} (h : k.Fresh s) :
    (k.next category commits s).2.Fresh (k.next category commits s).1 := by
  cases k with
  | lookingUp =>
    simp only [ProductCall.next]
    split <;> trivial
  | finding =>
    simp only [ProductCall.next]
    split
    · trivial
    · assumption
  | loadingCategories product =>
    have h : s.row = some product := h
    simp [ProductCall.next, ProductCall.Fresh, ProductState.dto, h]
  | updating request =>
    simp only [ProductCall.next]
    split <;> trivial
  | deleting =>
    simp only [ProductCall.next]
    split <;> trivial
  | committing read changed ids => cases commits <;> trivial
  | putting dto => trivial
  | evicting => trivial
  | returned => trivial
  | threw => trivial

/-- Readers put what is current if no transaction is committed between their reads and their put. -/
theorem putsCurrent_of_undisturbed {acts : List (Sched ProductRequest Bool)}
    (h : (productMachine category row categories).Along (OfCall Undisturbed) acts) :
    (productMachine category row categories).Along (OfCall PutsCurrent) acts := by
  have hfresh : ∀ pre, (productMachine category row categories).Along (OfCall Undisturbed) pre →
      ∀ l ∈ ((productMachine category row categories).run pre).1.calls,
        l.Fresh ((productMachine category row categories).run pre).1.shared := by
    intro pre hpre
    refine (productProtocol category).machine_inv
      (I := fun s => ∀ l ∈ s.calls, l.Fresh s.shared) (by simp) ?_ ?_ pre hpre
    · intro s r hs l hl
      rcases List.mem_append.1 hl with hl | hl
      · exact hs l hl
      · obtain rfl := List.mem_singleton.1 hl
        cases r <;> trivial
    · intro s i k commits hs hk hund l hl
      rcases exists_of_mem_set hl with rfl | ⟨j, -, hj⟩
      · exact fresh_next commits (hs k (List.mem_of_getElem? hk))
      have hfresh := hs l (List.mem_of_getElem? hj)
      rcases next_cases category commits s.shared k with
        ⟨read, changed, ids, rfl, hnext⟩ | ⟨dto, rfl, hnext⟩ | ⟨rfl, hnext⟩ | ⟨-, -, hnext⟩
      · obtain ⟨hloading, hputting⟩ := hund read changed ids rfl l (List.mem_of_getElem? hj)
        cases l with
        | loadingCategories product => exact absurd rfl (hloading product)
        | putting dto => exact absurd rfl (hputting dto)
        | _ => trivial
      · have hnext : ((productProtocol category).next commits s.shared (.putting dto)).1 = _ :=
          congrArg Prod.fst hnext
        rw [hnext]
        exact hfresh.congr rfl rfl
      · have hnext : ((productProtocol category).next commits s.shared .evicting).1 = _ :=
          congrArg Prod.fst hnext
        rw [hnext]
        exact hfresh.congr rfl rfl
      · have hnext : ((productProtocol category).next commits s.shared k).1 = s.shared := hnext
        rw [hnext]
        exact hfresh
  intro pre a post hsplit
  cases a with
  | call r => trivial
  | step i commits =>
    intro k hk
    have hpre : (productMachine category row categories).Along (OfCall Undisturbed) pre := by
      subst hsplit
      exact h.append_left
    have hk := hfresh pre hpre k (List.mem_of_getElem? hk)
    cases k with
    | putting dto => exact .inl hk
    | _ => trivial

end

/-- A lamp, which a request reads while another one changes its price. The reader puts before the
writer evicts, or after. -/
def readDuringUpdate (putsFirst : Bool) : List (Sched ProductRequest Bool) :=
  [.call .getProductById, .step 0 true, .step 0 true, .step 0 true,
    .call (.updateProduct { name := "Lamp", price := 2500 }), .step 1 true, .step 1 true] ++
    if putsFirst then [.step 0 true, .step 1 true] else [.step 1 true, .step 0 true]

def lampMachine : Machine (Threads ProductState ProductCall) (Sched ProductRequest Bool) Unit :=
  productMachine [] (some { id := 7, name := "Lamp", price := 1900, createdAt := 0 }) []

theorem stale_price_served :
    let s := (lampMachine.run (readDuringUpdate false)).1
    s.calls = [.returned, .returned] ∧ s.shared.productDetails.map (·.price) = some 1900 ∧
      s.shared.row.map (·.price) = some 2500 ∧ ¬ NotStale s := by
  refine ⟨by decide, by decide, by decide, fun h => ?_⟩
  exact absurd (h (by decide)) (by decide)

theorem notStale_of_putsCurrent_evictedLast :
    (lampMachine.run (readDuringUpdate true)).1.calls = [.returned, .returned] ∧
      NotStale (lampMachine.run (readDuringUpdate true)).1 := by
  refine ⟨by decide, ?_⟩
  have hputs : lampMachine.Along (OfCall PutsCurrent) (readDuringUpdate true) :=
    lampMachine.along_iff_forall_lt.2 (by decide)
  exact (notStale_of_putsCurrent _ _ _ _).1 hputs _ (List.prefix_refl _)

end Portfolio.Sagaline.ProductCache
