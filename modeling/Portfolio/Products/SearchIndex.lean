import Portfolio.Products.ProductService

/-!
# The search index follows the database

A request that has written a product to the database has yet to write it to the index, and a reindex
has yet to write everything it has read. What they carry is what the database has (`Fresh`) as long
as no other request writes the same product, or any product during a reindex (`Apart`). Then every
entry of the index is right or a call still sees to it (`SeesTo`), whatever the order of the
remaining operations.
-/

namespace Portfolio.Products
variable {ν : Type}

namespace ProductCall

/-- What a reindex has read from the database, until it is over. -/
def snapshot : ProductCall ν → Option (List (ProductDocument ν))
  | .checkingIndex documents | .deletingIndex documents | .checkingAgain documents
  | .creatingIndex documents | .bulking documents => some documents
  | _ => none

/-- The product that the call has written to the database and has yet to write to the index. -/
def pending : ProductCall ν → Option Int
  | .indexing d => some d.id
  | .unindexing id => some id
  | _ => none

/-- The call is over and no operation on the index itself has failed. -/
def settled : ProductCall ν → Bool
  | .done | .failed .notFound | .failed .recordNotFound => true
  | _ => false

/-- A call that writes to the database next does so outside every reindex and every unfinished write
of its product. -/
def WritesApart (calls : List (ProductCall ν)) : ProductCall ν → Prop
  | .creating _ => ∀ l ∈ calls, l.snapshot.isNone
  | .writing id _ => ∀ l ∈ calls, l.snapshot.isNone ∧ l.pending ≠ some id
  | _ => True

instance (calls : List (ProductCall ν)) : ∀ k, Decidable (WritesApart calls k)
  | .creating _ => inferInstanceAs (Decidable (∀ l ∈ calls, l.snapshot.isNone))
  | .writing id _ => inferInstanceAs (Decidable (∀ l ∈ calls, l.snapshot.isNone ∧ l.pending ≠ some id))
  | .finding _ _ | .indexing _ | .unindexing _ | .readingAll | .checkingIndex _ | .deletingIndex _
  | .checkingAgain _ | .creatingIndex _ | .bulking _ | .done | .failed _ => isTrue trivial

end ProductCall

/-- No database write overlaps. -/
def Apart (s : Threads (ProductStore ν) (ProductCall ν)) (k : ProductCall ν) (_ : Nat) : Prop :=
  k.WritesApart s.calls

instance (s : Threads (ProductStore ν) (ProductCall ν)) (k : ProductCall ν) (now : Nat) :
    Decidable (Apart s k now) :=
  inferInstanceAs (Decidable (k.WritesApart s.calls))

/-- One document per product, with the values of the row, and no other. -/
def Synced (s : ProductStore ν) : Prop :=
  ∃ documents, s.index = some documents ∧
    ∀ id, documents.lookup id = (s.products.lookup id).map (document id)

/-! ### The invariant -/

namespace ProductCall

/-- What the call carries is what the database has. -/
def Fresh (s : ProductStore ν) : ProductCall ν → Prop
  | .indexing d => s.row d.id = some d
  | .unindexing id => id < s.nextId ∧ s.row id = none
  | .checkingIndex documents | .deletingIndex documents | .checkingAgain documents
  | .creatingIndex documents | .bulking documents => ∀ d, d ∈ documents ↔ s.row d.id = some d
  | _ => True

/-- The call has yet to put the entry right. Calls after a failure of the index count for every
entry. -/
def SeesTo (s : ProductStore ν) (id : Int) : ProductCall ν → Prop
  | .indexing d => d.id = id
  | .unindexing p => p = id
  | .checkingIndex _ | .deletingIndex _ | .failed .indexNotFound | .failed .indexExists => True
  | .checkingAgain _ | .creatingIndex _ | .bulking _ => s.row id ≠ none
  | _ => False

/-- The call makes sure that the index exists. -/
def Recreates : ProductCall ν → Prop
  | .checkingAgain _ | .creatingIndex _ | .failed .indexNotFound | .failed .indexExists => True
  | _ => False

theorem SeesTo.congr {s s' : ProductStore ν} {id : Int} {k : ProductCall ν} (h : k.SeesTo s id)
    (hrow : s'.row id = s.row id) : k.SeesTo s' id := by
  cases k with
  | checkingAgain | creatingIndex | bulking =>
    show s'.row id ≠ none
    rw [hrow]
    exact h
  | failed e => cases e <;> exact h
  | _ => exact h

/-- A database write leaves what the call carries if it is about another product and the call is no
reindex. -/
theorem Fresh.of_write {s s' : ProductStore ν} {k : ProductCall ν} (h : k.Fresh s) {p : Int}
    (hnext : s.nextId ≤ s'.nextId) (hrow : ∀ id, id ≠ p → s'.row id = s.row id)
    (hsnapshot : k.snapshot.isNone) (hpending : k.pending ≠ some p) : k.Fresh s' := by
  cases k with
  | indexing d =>
    have hne : d.id ≠ p := fun h => hpending (congrArg some h)
    exact (hrow d.id hne).trans h
  | unindexing id =>
    have hne : id ≠ p := fun h => hpending (congrArg some h)
    exact ⟨Int.lt_of_lt_of_le h.1 hnext, (hrow id hne).trans h.2⟩
  | checkingIndex | deletingIndex | checkingAgain | creatingIndex | bulking =>
    simp [snapshot] at hsnapshot
  | _ => trivial

/-- An operation on the index leaves it anyway. -/
theorem Fresh.congr {s s' : ProductStore ν} {k : ProductCall ν} (h : k.Fresh s)
    (hproducts : s'.products = s.products) (hnext : s'.nextId = s.nextId) : k.Fresh s' := by
  have hrow : ∀ id, s'.row id = s.row id := by
    intro id
    rw [ProductStore.row, ProductStore.row, hproducts]
  cases k with
  | indexing d => exact (hrow d.id).trans h
  | unindexing id => exact ⟨hnext ▸ h.1, (hrow id).trans h.2⟩
  | checkingIndex | deletingIndex | checkingAgain | creatingIndex | bulking =>
    intro d
    rw [hrow]
    exact h d
  | _ => trivial

end ProductCall

structure IndexInv (s : Threads (ProductStore ν) (ProductCall ν)) : Prop where
  ids : ∀ id, s.shared.nextId ≤ id → s.shared.row id = none
  fresh : ∀ k ∈ s.calls, k.Fresh s.shared
  entry : ∀ id, s.shared.indexed id = s.shared.row id ∨ ∃ k ∈ s.calls, k.SeesTo s.shared id
  isThere : s.shared.index.isSome ∨ ∃ k ∈ s.calls, k.Recreates

/-! ### Steps -/

/-- What one operation of the call does: to an entry that it leaves alone it did not see either. -/
structure Moves (s : ProductStore ν) (k : ProductCall ν) (s' : ProductStore ν)
    (k' : ProductCall ν) : Prop where
  own : k'.Fresh s'
  entry : ∀ id, s'.indexed id = s'.row id ∨ k'.SeesTo s' id ∨
    (s'.indexed id = s.indexed id ∧ s'.row id = s.row id ∧ ¬ k.SeesTo s id)
  isThere : s'.index.isSome ∨ k'.Recreates ∨ (s'.index = s.index ∧ ¬ k.Recreates)

/-- A call that did not see to anything and changes nothing. -/
theorem Moves.same {s : ProductStore ν} {k k' : ProductCall ν} (hown : k'.Fresh s)
    (hsees : ∀ id, ¬ k.SeesTo s id) (hrec : ¬ k.Recreates) : Moves s k s k' :=
  ⟨hown, fun id => .inr (.inr ⟨rfl, rfl, hsees id⟩), .inr (.inr ⟨rfl, hrec⟩)⟩

/-- A database write of the product `p`, which the call then sees to. -/
theorem Moves.write {s s' : ProductStore ν} {k k' : ProductCall ν} {p : Int} (hown : k'.Fresh s')
    (hindex : s'.index = s.index) (hrow : ∀ id, id ≠ p → s'.row id = s.row id) (hp : k'.SeesTo s' p)
    (hsees : ∀ id, ¬ k.SeesTo s id) (hrec : ¬ k.Recreates) : Moves s k s' k' := by
  refine ⟨hown, fun id => ?_, .inr (.inr ⟨hindex, hrec⟩)⟩
  by_cases hid : id = p
  · subst hid
    exact .inr (.inl hp)
  · refine .inr (.inr ⟨?_, hrow id hid, hsees id⟩)
    rw [ProductStore.indexed, ProductStore.indexed, hindex]

/-- What is left of a reindex once the index is there: without documents there is no product to see
to. -/
theorem moves_thenBulk {s s' : ProductStore ν} {k : ProductCall ν}
    {documents : List (ProductDocument ν)}
    (hfresh : ∀ d, d ∈ documents ↔ s.row d.id = some d) (hsees : ∀ id, k.SeesTo s id ↔ s.row id ≠ none)
    (hrow : ∀ id, s'.row id = s.row id) (hindexed : ∀ id, s'.indexed id = s.indexed id)
    (hindex : s'.index.isSome) : Moves s k s' (.thenBulk documents) := by
  unfold ProductCall.thenBulk
  split
  · rename_i hempty
    refine ⟨trivial, fun id => .inr (.inr ⟨hindexed id, hrow id, ?_⟩), .inl hindex⟩
    rw [hsees, not_not, Option.eq_none_iff_forall_not_mem]
    intro d hd
    have hmem : d ∈ documents := (hfresh d).2 (ProductStore.id_of_row hd ▸ hd)
    rw [List.isEmpty_iff.1 hempty] at hmem
    cases hmem
  · refine ⟨fun d => by rw [hrow]; exact hfresh d, fun id => ?_, .inl hindex⟩
    by_cases hid : s.row id = none
    · exact .inr (.inr ⟨hindexed id, hrow id, fun h => (hsees id).1 h hid⟩)
    · refine .inr (.inl ?_)
      show s'.row id ≠ none
      rw [hrow]
      exact hid

theorem moves_creating (now : Nat) (s : ProductStore ν) (dto : CreateProductDto ν) :
    Moves s (.creating dto) (ProductCall.next now s (.creating dto)).1
      (ProductCall.next now s (.creating dto)).2 := by
  refine .write (p := s.nextId) ?_ rfl (fun id hid => ?_) rfl (fun _ h => h) id
  · show (s.create (dto.toProduct now)).row s.nextId = _
    rw [ProductStore.row_create, if_pos rfl]
  · show (s.create (dto.toProduct now)).row id = _
    rw [ProductStore.row_create, if_neg hid]

theorem moves_writing (now : Nat) {s : ProductStore ν}
    (hids : ∀ id, s.nextId ≤ id → s.row id = none) (id : Int)
    (change : Change ν) :
    Moves s (.writing id change) (ProductCall.next now s (.writing id change)).1
      (ProductCall.next now s (.writing id change)).2 := by
  cases hrow : s.products.lookup id with
  | none =>
    simp only [ProductCall.next, hrow]
    exact .same trivial (fun _ h => h) (fun h => h)
  | some product =>
    cases change with
    | update dto =>
      simp only [ProductCall.next, hrow]
      refine .write (p := id) ?_ rfl (fun q hq => ?_) rfl (fun _ h => h) (fun h => h)
      · show (s.update id (dto.apply product)).row id = _
        rw [ProductStore.row_update, if_pos rfl]
      · rw [ProductStore.row_update, if_neg hq]
    | remove =>
      simp only [ProductCall.next, hrow]
      refine .write (p := id) ⟨?_, ?_⟩ rfl (fun q hq => ?_) rfl (fun _ h => h) (fun h => h)
      · show id < s.nextId
        by_contra hlt
        have := hids id (Int.not_lt.1 hlt)
        simp [ProductStore.row, hrow] at this
      · rw [ProductStore.row_delete, if_pos rfl]
      · rw [ProductStore.row_delete, if_neg hq]

theorem moves_indexing (now : Nat) {s : ProductStore ν} {d : ProductDocument ν}
    (h : s.row d.id = some d) :
    Moves s (.indexing d) (ProductCall.next now s (.indexing d)).1
      (ProductCall.next now s (.indexing d)).2 := by
  refine ⟨trivial, fun id => ?_, .inl rfl⟩
  show (s.indexDocument d).indexed id = (s.indexDocument d).row id ∨ _
  rw [ProductStore.indexed_indexDocument, ProductStore.row_indexDocument]
  by_cases hid : id = d.id
  · subst hid
    rw [if_pos rfl]
    exact .inl h.symm
  · refine .inr (.inr ⟨?_, rfl, fun hd => hid hd.symm⟩)
    exact (ProductStore.indexed_indexDocument s d).trans (if_neg hid)

theorem moves_unindexing (now : Nat) {s : ProductStore ν} {p : Int} (h : s.row p = none) :
    Moves s (.unindexing p) (ProductCall.next now s (.unindexing p)).1
      (ProductCall.next now s (.unindexing p)).2 := by
  refine ⟨trivial, fun id => ?_, ?_⟩
  · show (s.deleteDocument p).indexed id = (s.deleteDocument p).row id ∨ _
    rw [ProductStore.indexed_deleteDocument, ProductStore.row_deleteDocument]
    by_cases hid : id = p
    · subst hid
      rw [if_pos rfl]
      exact .inl h.symm
    · refine .inr (.inr ⟨?_, rfl, fun hp => hid hp.symm⟩)
      exact (ProductStore.indexed_deleteDocument s).trans (if_neg hid)
  · show (s.index.map _).isSome = true ∨ _ ∨ s.index.map _ = s.index ∧ _
    cases s.index with
    | none => exact .inr (.inr ⟨rfl, fun h => h⟩)
    | some documents => exact .inl rfl

/-- The index is not there: entries without a product are right. -/
theorem entry_of_no_index {s : ProductStore ν} (hindex : s.index = none) (id : Int) :
    s.indexed id = s.row id ∨ s.row id ≠ none := by
  by_cases hid : s.row id = none
  · refine .inl ?_
    rw [hid, ProductStore.indexed, hindex]
    rfl
  · exact .inr hid

theorem moves_reindexing (now : Nat) {s : ProductStore ν} {k : ProductCall ν}
    {documents : List (ProductDocument ν)}
    (hk : k.snapshot = some documents) (h : k.Fresh s) :
    Moves s k (k.next now s).1 (k.next now s).2 := by
  cases k with
  | checkingIndex ds =>
    simp only [ProductCall.next]
    cases hindex : s.index with
    | none =>
      refine ⟨h, fun id => ?_, .inr (.inl trivial)⟩
      rcases entry_of_no_index hindex id with hid | hid
      · exact .inl hid
      · exact .inr (.inl hid)
    | some docs => exact ⟨h, fun id => .inr (.inl trivial), .inl (by rw [hindex]; rfl)⟩
  | deletingIndex ds =>
    simp only [ProductCall.next]
    split
    · refine ⟨h, fun id => ?_, .inr (.inl trivial)⟩
      rcases entry_of_no_index (s := { s with index := none }) rfl id with hid | hid
      · exact .inl hid
      · exact .inr (.inl hid)
    · exact ⟨trivial, fun id => .inr (.inl trivial), .inr (.inl trivial)⟩
  | checkingAgain ds =>
    simp only [ProductCall.next]
    split
    · rename_i hindex
      exact moves_thenBulk h (fun _ => Iff.rfl) (fun _ => rfl) (fun _ => rfl) hindex
    · refine ⟨h, fun id => ?_, .inr (.inl trivial)⟩
      by_cases hid : s.row id = none
      · exact .inr (.inr ⟨rfl, rfl, fun hs => hs hid⟩)
      · exact .inr (.inl hid)
  | creatingIndex ds =>
    simp only [ProductCall.next]
    split
    · exact ⟨trivial, fun id => .inr (.inl trivial), .inr (.inl trivial)⟩
    · rename_i hindex
      refine moves_thenBulk h (fun _ => Iff.rfl) (fun _ => rfl) (fun id => ?_) rfl
      rw [ProductStore.indexed, ProductStore.indexed, Option.not_isSome_iff_eq_none.1 hindex]
      rfl
  | bulking ds =>
    have hrow : ∀ id, (s.bulk ds).row id = s.row id := fun id => by
      rw [ProductStore.row, ProductStore.row, (s.bulk_products ds).1]
    refine ⟨trivial, fun id => ?_, ?_⟩
    · show (s.bulk ds).indexed id = (s.bulk ds).row id ∨ _
      rw [hrow, s.indexed_bulk fun d hd => (h d).1 hd]
      by_cases hid : id ∈ ds.map (·.id)
      · rw [if_pos hid]
        exact .inl rfl
      · refine .inr (.inr ⟨?_, hrow id, fun hs => hid ?_⟩)
        · exact (s.indexed_bulk fun d hd => (h d).1 hd).trans (if_neg hid)
        · obtain ⟨d, hd⟩ := Option.ne_none_iff_exists'.1 hs
          obtain rfl := ProductStore.id_of_row hd
          exact List.mem_map.2 ⟨d, (h d).2 hd, rfl⟩
    · rcases s.bulk_index ds with hindex | hindex
      · exact .inl hindex
      · exact .inr (.inr ⟨hindex, fun h => h⟩)
  | _ => cases hk

theorem moves_next (now : Nat) {s : ProductStore ν} (hids : ∀ id, s.nextId ≤ id → s.row id = none)
    {k : ProductCall ν}
    (h : k.Fresh s) : Moves s k (k.next now s).1 (k.next now s).2 := by
  cases k with
  | creating dto => exact moves_creating now s dto
  | finding id change =>
    simp only [ProductCall.next]
    split
    · exact .same trivial (fun _ h => h) (fun h => h)
    · exact .same trivial (fun _ h => h) (fun h => h)
  | writing id change => exact moves_writing now hids id change
  | indexing d => exact moves_indexing now h
  | unindexing p => exact moves_unindexing now h.2
  | readingAll =>
    refine ⟨fun d => s.mem_allDocuments, fun _ => .inr (.inl trivial), .inr (.inr ⟨rfl, fun h => h⟩)⟩
  | done => exact .same trivial (fun _ h => h) (fun h => h)
  | failed e =>
    cases e with
    | notFound | recordNotFound => exact .same trivial (fun _ h => h) (fun h => h)
    | indexNotFound | indexExists => exact ⟨trivial, fun _ => .inr (.inl trivial), .inr (.inl trivial)⟩
  | _ => exact moves_reindexing now rfl h

/-- A step creates a product, writes one that is there, or leaves the table alone. -/
theorem next_table_cases (now : Nat) (s : ProductStore ν) (k : ProductCall ν) :
    (∃ dto, k = .creating dto) ∨
    (∃ id change, k = .writing id change ∧ s.row id ≠ none ∧ (k.next now s).1.nextId = s.nextId ∧
      ∀ q, q ≠ id → (k.next now s).1.row q = s.row q) ∨
    ((k.next now s).1.products = s.products ∧ (k.next now s).1.nextId = s.nextId) := by
  cases k with
  | creating dto => exact .inl ⟨dto, rfl⟩
  | writing id change =>
    cases hrow : s.products.lookup id with
    | none =>
      refine .inr (.inr ?_)
      simp only [ProductCall.next, hrow, and_self]
    | some product =>
      refine .inr (.inl ⟨id, change, rfl, by simp [ProductStore.row, hrow], ?_⟩)
      cases change with
      | update dto =>
        simp only [ProductCall.next, hrow]
        refine ⟨rfl, fun q hq => ?_⟩
        rw [ProductStore.row_update, if_neg hq]
      | remove =>
        simp only [ProductCall.next, hrow]
        refine ⟨rfl, fun q hq => ?_⟩
        rw [ProductStore.row_delete, if_neg hq]
  | finding id change =>
    simp only [ProductCall.next]
    split
    · exact .inr (.inr ⟨rfl, rfl⟩)
    · exact .inr (.inr ⟨rfl, rfl⟩)
  | deletingIndex ds | creatingIndex ds =>
    simp only [ProductCall.next]
    split
    · exact .inr (.inr ⟨rfl, rfl⟩)
    · exact .inr (.inr ⟨rfl, rfl⟩)
  | bulking ds => exact .inr (.inr (s.bulk_products ds))
  | _ => exact .inr (.inr ⟨rfl, rfl⟩)

/-- What another call carries stays what the database has. -/
theorem fresh_next (now : Nat) {s : ProductStore ν} (hids : ∀ id, s.nextId ≤ id → s.row id = none)
    {calls : List (ProductCall ν)} {k l : ProductCall ν} (hk : k.WritesApart calls) (hl : l ∈ calls)
    (h : l.Fresh s) : l.Fresh (k.next now s).1 := by
  rcases next_table_cases now s k with
    ⟨dto, rfl⟩ | ⟨id, change, rfl, -, hnext, hrow⟩ | ⟨hproducts, hnext⟩
  · have hnext : s.nextId ≤ s.nextId + 1 := by omega
    refine h.of_write (p := s.nextId) hnext (fun id hid => ?_) (hk l hl) fun hp => ?_
    · show (s.create (dto.toProduct now)).row id = _
      rw [ProductStore.row_create, if_neg hid]
    · -- A product that the call has written has an older id.
      cases l with
      | indexing d =>
        obtain hd : d.id = s.nextId := Option.some.inj hp
        have hrow := hids d.id (Int.le_of_eq hd.symm)
        rw [show s.row d.id = some d from h] at hrow
        cases hrow
      | unindexing id =>
        obtain rfl : id = s.nextId := Option.some.inj hp
        exact Int.lt_irrefl _ h.1
      | _ => cases hp
  · obtain ⟨hsnapshot, hpending⟩ := hk l hl
    exact h.of_write (Int.le_of_eq hnext.symm) hrow hsnapshot hpending
  · exact h.congr hproducts hnext

/-- Ids from `nextId` on stay without a product. -/
theorem ids_next (now : Nat) {s : ProductStore ν} (hids : ∀ id, s.nextId ≤ id → s.row id = none)
    (k : ProductCall ν) :
    ∀ id, (k.next now s).1.nextId ≤ id → (k.next now s).1.row id = none := by
  intro id hid
  rcases next_table_cases now s k with
    ⟨dto, rfl⟩ | ⟨p, change, rfl, hp, hnext, hrow⟩ | ⟨hproducts, hnext⟩
  · have hlt : s.nextId + 1 ≤ id := hid
    show (s.create (dto.toProduct now)).row id = none
    rw [ProductStore.row_create, if_neg (by omega)]
    exact hids id (by omega)
  · have hold := hids id (hnext ▸ hid)
    rw [hrow id fun heq => hp (heq ▸ hold)]
    exact hold
  · rw [ProductStore.row, hproducts]
    exact hids id (hnext ▸ hid)

/-! ### Runs -/

theorem IndexInv.step {s : Threads (ProductStore ν) (ProductCall ν)} (h : IndexInv s) {i : Nat}
    {k : ProductCall ν}
    (now : Nat) (hi : s.calls[i]? = some k) (hk : k.WritesApart s.calls) :
    IndexInv ⟨(k.next now s.shared).1, s.calls.set i (k.next now s.shared).2⟩ := by
  have hmoves := moves_next now h.ids (h.fresh k (List.mem_of_getElem? hi))
  have hself : (k.next now s.shared).2 ∈ s.calls.set i (k.next now s.shared).2 :=
    List.mem_set (List.getElem?_eq_some_iff.1 hi).1 _
  refine ⟨ids_next now h.ids k, fun l hl => ?_, fun id => ?_, ?_⟩
  · rcases List.mem_or_eq_of_mem_set hl with hl | rfl
    · exact fresh_next now h.ids hk hl (h.fresh l hl)
    · exact hmoves.own
  · rcases hmoves.entry id with hright | hsees | ⟨hindexed, hrow, hnot⟩
    · exact .inl hright
    · exact .inr ⟨_, hself, hsees⟩
    · rcases h.entry id with hright | ⟨l, hl, hsees⟩
      · exact .inl (hindexed.trans (hright.trans hrow.symm))
      · have hne : l ≠ k := by
          rintro rfl
          exact hnot hsees
        exact .inr ⟨l, mem_set_of_ne hi hl hne, hsees.congr hrow⟩
  · rcases hmoves.isThere with hindex | hrec | ⟨hindex, hnot⟩
    · exact .inl hindex
    · exact .inr ⟨_, hself, hrec⟩
    · rcases h.isThere with hsome | ⟨l, hl, hrec⟩
      · exact .inl (hindex ▸ hsome)
      · have hne : l ≠ k := by
          rintro rfl
          exact hnot hrec
        exact .inr ⟨l, mem_set_of_ne hi hl hne, hrec⟩

theorem indexInv_run (acts : List (Sched (ProductRequest ν) Nat))
    (hacts : (productMachine ν).Along (OfCall Apart) acts) :
    IndexInv ((productMachine ν).run acts).1 := by
  refine (productProtocol ν).machine_inv (I := IndexInv) ?_ (fun s r h => ?_)
    (fun s i k now h hk hG => h.step now hk hG) acts hacts
  · exact ⟨fun _ _ => rfl, fun _ hk => absurd hk List.not_mem_nil, fun _ => .inl rfl, .inl rfl⟩
  · refine ⟨h.ids, fun k hk => ?_, fun id => ?_, ?_⟩
    · rcases List.mem_append.1 hk with hk | hk
      · exact h.fresh k hk
      · obtain rfl := List.mem_singleton.1 hk
        cases r <;> trivial
    · exact (h.entry id).imp_right fun ⟨k, hk, hsees⟩ => ⟨k, List.mem_append_left _ hk, hsees⟩
    · exact h.isThere.imp_right fun ⟨k, hk, hrec⟩ => ⟨k, List.mem_append_left _ hk, hrec⟩

/-- When all requests are over the index has exactly one document per product, with its current
values: in runs in which no request writes to the database during a reindex, nor a product that
another request has written and has yet to index. -/
theorem index_converges (acts : List (Sched (ProductRequest ν) Nat))
    (hacts : (productMachine ν).Along (OfCall Apart) acts)
    (hover : ∀ k ∈ ((productMachine ν).run acts).1.calls, k.settled) :
    Synced ((productMachine ν).run acts).1.shared := by
  have hinv := indexInv_run acts hacts
  have hnone : ∀ k ∈ ((productMachine ν).run acts).1.calls, ∀ id,
      ¬ k.SeesTo ((productMachine ν).run acts).1.shared id ∧ ¬ k.Recreates := by
    intro k hk id
    have hk := hover k hk
    cases k with
    | done => exact ⟨fun h => h, fun h => h⟩
    | failed e => cases e <;> first | exact ⟨fun h => h, fun h => h⟩ | cases hk
    | _ => cases hk
  rcases hinv.isThere with hsome | ⟨k, hk, hrec⟩
  · obtain ⟨documents, hindex⟩ := Option.isSome_iff_exists.1 hsome
    refine ⟨documents, hindex, fun id => ?_⟩
    rcases hinv.entry id with hright | ⟨k, hk, hsees⟩
    · rw [ProductStore.indexed, hindex] at hright
      exact hright
    · exact absurd hsees (hnone k hk id).1
  · exact absurd hrec (hnone k hk 0).2

/-- A product and two requests that change its price, which have read it. -/
def twoUpdates : List (Sched (ProductRequest Int) Nat) :=
  [.call (.create { name := "keyboard", category := "input", brand := "acme", price := 10 }),
    .step 0 0, .step 0 0, .call (.update 1 { price := some 20 }), .call (.update 1 { price := some 30 }),
    .step 1 0, .step 2 0]

/-- One after the other, and a reindex with the second one's last operation inside. -/
def updatesAndReindex : List (Sched (ProductRequest Int) Nat) :=
  twoUpdates ++ [.step 1 0, .step 1 0, .step 2 0, .call .reindexProducts] ++
    List.replicate 3 (.step 3 0) ++ [.step 2 0] ++ List.replicate 2 (.step 3 0)

theorem index_converges_serial :
    (productMachine Int).Along (OfCall Apart) updatesAndReindex ∧
      Synced ((productMachine Int).run updatesAndReindex).1.shared := by
  have hacts : (productMachine Int).Along (OfCall Apart) updatesAndReindex :=
    (Machine.along_iff_forall_lt _).2 (by decide)
  exact ⟨hacts, index_converges _ hacts (by decide)⟩

/-- Both write to the database, then to the index in the opposite order: the index keeps the old
price. -/
def crossedUpdates : List (Sched (ProductRequest Int) Nat) :=
  twoUpdates ++ [.step 1 0, .step 2 0, .step 2 0, .step 1 0]

theorem stale_index_of_overlapping_updates :
    (∀ k ∈ ((productMachine Int).run crossedUpdates).1.calls, k = .done) ∧
      ¬ Synced ((productMachine Int).run crossedUpdates).1.shared := by
  refine ⟨by decide, ?_⟩
  rintro ⟨documents, hindex, hsynced⟩
  have hone := hsynced 1
  obtain rfl := Option.some.inj hindex
  revert hone
  decide

end Portfolio.Products
