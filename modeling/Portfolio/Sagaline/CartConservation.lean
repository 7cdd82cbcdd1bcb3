import Portfolio.Lib.Rows
import Portfolio.Sagaline.ConcurrentCart

/-!
# No quantity is lost or ordered twice

An `UPDATE` writes the quantity that was read plus what is added, and a `DELETE` removes the row
whatever is in it by then: both lose what another request has added to the row in the meantime. Two
orders of the same items do not go through, as the second one finds no row to delete.
`conserved_of_undisturbed` shows that quantities are conserved as long as no request writes a row
that has changed since it was read.
-/

namespace Portfolio.Sagaline

/-! ### What a request knows -/

/-- The id of the row has been given out, for the row's product and price. -/
def Known (key : Nat → Nat × Int) (nextItemId : Nat) (row : CartItem) : Prop :=
  row.id < nextItemId ∧ key row.id = (row.productId, row.price)

def CartCall.Holds (key : Nat → Nat × Int) (s : CartState) : CartCall → Prop
  | .adding _ quantity | .findingCart _ quantity _ | .creatingCart _ quantity _
  | .loadingItems _ quantity _ _ => validQuantity quantity = true
  | .writing productId quantity _ (.update row n) => Known key s.nextItemId row ∧
      row.productId = productId ∧ validQuantity row.quantity = true ∧
        validQuantity quantity = true ∧
      n = addInt row.quantity quantity
  | .writing productId quantity _ (.insert row) =>
      row.productId = productId ∧ row.quantity = quantity ∧ validQuantity quantity = true
  | .committing productId quantity _ (.update row n) => row ∈ s.items ∧ row.productId = productId ∧
      n = row.quantity + quantity ∧ validQuantity n = true
  | .committing productId quantity _ (.insert row) => Known key s.nextItemId row ∧
      row.productId = productId ∧ row.quantity = quantity ∧ validQuantity quantity = true
  | .deleting order deleted remaining =>
      (∀ row ∈ deleted, row ∈ s.items) ∧ (∀ row ∈ remaining, Known key s.nextItemId row) ∧
      ((deleted ++ remaining).map (·.id)).Nodup ∧
      order.items = (deleted ++ remaining).map (·.toOrderItem)
  | .ordering _ | .loadingOrder _ | .accepted | .rejected => True

/-- The item rows that a request has locked. -/
def CartCall.locks : CartCall → List Nat
  | .committing _ _ _ (.update row _) => [row.id]
  | .deleting _ deleted _ => deleted.map (·.id)
  | _ => []

def CartCall.inserts (n : Nat) : CartCall → Nat
  | .committing _ _ _ (.insert row) => if row.id = n then 1 else 0
  | _ => 0

def CartCall.locksRow (n : Nat) (call : CartCall) : Nat := if n ∈ call.locks then 1 else 0

structure CartInv (key : Nat → Nat × Int) (s : Threads CartState CartCall) : Prop where
  known : ∀ i ∈ s.shared.items, Known key s.shared.nextItemId i
  quantity : ∀ i ∈ s.shared.items, validQuantity i.quantity = true
  holds : ∀ call ∈ s.calls, call.Holds key s.shared
  unique : ∀ n, s.shared.items.countP (·.id = n) + (s.calls.map (CartCall.inserts n)).sum ≤ 1
  exclusive : ∀ n, (s.calls.map (CartCall.locksRow n)).sum ≤ 1
  locked : ∀ call ∈ s.calls, ∀ n ∈ call.locks, n ∈ s.shared.locked
  conserved : Conserved s.shared

/-- What a request knows rests on the rows that it has locked. -/
theorem CartCall.Holds.transfer {key key' : Nat → Nat × Int} {s s' : CartState} {call : CartCall}
    (h : call.Holds key s)
    (hkey : ∀ row, Known key s.nextItemId row → Known key' s'.nextItemId row)
    (hrows : ∀ row ∈ s.items, row.id ∈ call.locks → row ∈ s'.items) : call.Holds key' s' := by
  cases call with
  | writing productId quantity newCart write =>
    cases write with
    | update row n => exact ⟨hkey _ h.1, h.2⟩
    | insert row => exact h
  | committing productId quantity newCart write =>
    cases write with
    | update row n => exact ⟨hrows _ h.1 (List.mem_singleton_self _), h.2⟩
    | insert row => exact ⟨hkey _ h.1, h.2⟩
  | deleting order deleted remaining =>
    exact ⟨fun row hrow => hrows row (h.1 row hrow) (List.mem_map_of_mem hrow),
      fun row hrow => hkey row (h.2.1 row hrow), h.2.2⟩
  | adding _ _ => exact h
  | findingCart _ _ _ => exact h
  | creatingCart _ _ _ => exact h
  | loadingItems _ _ _ _ => exact h
  | _ => trivial

namespace CartInv
variable {key key' : Nat → Nat × Int} {s : Threads CartState CartCall} {i : Nat}
  {call call' : CartCall} {s' : CartState}

theorem uniqueIds (h : CartInv key s) : UniqueIds (fun i : CartItem => i.id) s.shared.items :=
  fun n => Nat.le_trans (Nat.le_add_right ..) (h.unique n)

/-- Two requests do not lock one row. -/
theorem not_mem_locks (h : CartInv key s) (hi : s.calls[i]? = some call) {j : Nat}
    {other : CartCall}
    (hj : s.calls[j]? = some other) (hne : j ≠ i) {n : Nat} (hn : n ∈ other.locks) :
    n ∉ call.locks := by
  intro hn'
  exact hne (eq_of_sum_map_le_one _ (h.exclusive n) hj hi (by simp [CartCall.locksRow, hn])
    (by simp [CartCall.locksRow, hn']))

/-- The rule for a step of one request. -/
theorem step (h : CartInv key s) (hi : s.calls[i]? = some call)
    (hkey : ∀ row, Known key s.shared.nextItemId row → Known key' s'.nextItemId row)
    (hrows : ∀ row ∈ s.shared.items, row.id ∉ call.locks → row ∈ s'.items)
    (hkeep : ∀ n ∈ s.shared.locked, n ∉ call.locks → n ∈ s'.locked)
    (hlocks : ∀ n ∈ call'.locks, (n ∈ call.locks ∨ n ∉ s.shared.locked) ∧ n ∈ s'.locked)
    (hholds : call'.Holds key' s') (hknown : ∀ row ∈ s'.items, Known key' s'.nextItemId row)
    (hquantity : ∀ row ∈ s'.items, validQuantity row.quantity = true)
    (hunique : ∀ n, s'.items.countP (·.id = n) + call'.inserts n ≤
        s.shared.items.countP (·.id = n) + call.inserts n ∨
      (s'.items.countP (·.id = n) + call'.inserts n ≤ 1 ∧
        (s.calls.map (CartCall.inserts n)).sum = 0))
    (hconserved : Conserved s') :
    CartInv key' ⟨s', s.calls.set i call'⟩ := by
  refine ⟨hknown, hquantity, ?_, ?_, ?_, ?_, hconserved⟩
  · intro c hc
    rcases exists_of_mem_set hc with rfl | ⟨j, hne, hj⟩
    · exact hholds
    · exact (h.holds c (List.mem_of_getElem? hj)).transfer hkey fun row hrow hlock =>
        hrows row hrow (h.not_mem_locks hi hj hne hlock)
  · intro n
    have hsum := sum_map_set (CartCall.inserts n) hi call'
    have hle := h.unique n
    rcases hunique n with hn | hn <;> simp only at hsum ⊢ <;> omega
  · intro n
    refine sum_map_set_le_one (P := fun c : CartCall => n ∈ c.locks) hi (h.exclusive n) fun hn => ?_
    exact (hlocks n hn).1.imp_right fun hfree c hc hlock => hfree (h.locked c hc n hlock)
  · intro c hc n hn
    rcases exists_of_mem_set hc with rfl | ⟨j, hne, hj⟩
    · exact (hlocks n hn).2
    · exact hkeep n (h.locked c (List.mem_of_getElem? hj) n hn) (h.not_mem_locks hi hj hne hn)

/-- A step that commits and inserts nothing. -/
theorem quiet (h : CartInv key s) (hi : s.calls[i]? = some call)
    (hitems : s'.items = s.shared.items)
    (horders : s'.orders = s.shared.orders) (haccepted : s'.accepted = s.shared.accepted)
    (hnext : s'.nextItemId = s.shared.nextItemId)
    (hkeep : ∀ n ∈ s.shared.locked, n ∉ call.locks → n ∈ s'.locked)
    (hlocks : ∀ n ∈ call'.locks, (n ∈ call.locks ∨ n ∉ s.shared.locked) ∧ n ∈ s'.locked)
    (hinserts : ∀ n, call'.inserts n = 0) (hholds : call'.Holds key s') :
    CartInv key ⟨s', s.calls.set i call'⟩ := by
  refine h.step hi (fun _ hk => hnext ▸ hk) (fun _ hrow _ => hitems ▸ hrow) hkeep hlocks hholds
    ?_ ?_ (fun n => .inl ?_) ?_
  · rw [hitems, hnext]
    exact h.known
  · rw [hitems]
    exact h.quantity
  · rw [hitems, hinserts]
    omega
  · unfold Conserved
    rw [hitems, horders, haccepted]
    exact h.conserved

/-- A step that holds no lock before or after. -/
theorem quiet_of_no_locks (h : CartInv key s) (hi : s.calls[i]? = some call)
    (hitems : s'.items = s.shared.items) (horders : s'.orders = s.shared.orders)
    (haccepted : s'.accepted = s.shared.accepted) (hnext : s'.nextItemId = s.shared.nextItemId)
    (hlocked : s'.locked = s.shared.locked) (hlocks : call'.locks = [])
    (hinserts : ∀ n, call'.inserts n = 0) (hholds : call'.Holds key s') :
    CartInv key ⟨s', s.calls.set i call'⟩ :=
  h.quiet hi hitems horders haccepted hnext (fun _ hn _ => hlocked ▸ hn)
    (fun n hn => by rw [hlocks] at hn; cases hn) hinserts hholds

/-- A statement that only reads. -/
theorem goto (h : CartInv key s) (hi : s.calls[i]? = some call) (hlocks : call'.locks = [])
    (hinserts : ∀ n, call'.inserts n = 0) (hholds : call'.Holds key s.shared) :
    CartInv key ⟨s.shared, s.calls.set i call'⟩ :=
  h.quiet_of_no_locks hi rfl rfl rfl rfl rfl hlocks hinserts hholds

theorem refuse (h : CartInv key s) (hi : s.calls[i]? = some call) :
    CartInv key ⟨s.shared, s.calls.set i .rejected⟩ :=
  h.goto hi rfl (fun _ => rfl) trivial

/-- A statement that waits. -/
theorem wait (h : CartInv key s) (hi : s.calls[i]? = some call) :
    CartInv key ⟨s.shared, s.calls.set i call⟩ := by
  have hself : s.calls.set i call = s.calls := by
    obtain ⟨hlt, rfl⟩ := List.getElem?_eq_some_iff.1 hi
    exact List.set_getElem_self hlt
  rw [hself]
  exact h

end CartInv

/-! ### Facts for the single statements -/

theorem addInt_of_pos {a b : Int} (ha : validQuantity a = true) (hb : validQuantity b = true)
    (h : 0 < addInt a b) : addInt a b = a + b ∧ validQuantity (addInt a b) = true := by
  simp only [validQuantity, Bool.and_eq_true, decide_eq_true_eq] at ha hb ⊢
  have hsum : addInt a b = a + b := by
    unfold addInt at h ⊢
    omega
  have hle : addInt a b ≤ 2147483647 := by
    unfold addInt
    omega
  omega

/-- The row that is there is the one that was read. -/
theorem Known.eq {key : Nat → Nat × Int} {n n' : Nat} {row row' : CartItem} (h : Known key n row)
    (h' : Known key n' row') (hid : row.id = row'.id) (hquantity : row.quantity = row'.quantity) :
    row = row' := by
  have hkey := h.2
  rw [hid, h'.2, Prod.mk.injEq] at hkey
  cases row
  cases row'
  simp_all

theorem totalAmount_eq (items : List CartItem) :
    totalAmount items = ((items.map (·.toOrderItem)).map (·.subtotal)).sum := by
  have hfold : ∀ acc : Int, items.foldl (fun total item => total + item.subtotal) acc =
      acc + ((items.map (·.toOrderItem)).map (·.subtotal)).sum := by
    induction items with
    | nil => simp
    | cons item items ih =>
      intro acc
      rw [List.foldl_cons, ih]
      simp only [List.map_cons, List.sum_cons, CartItem.toOrderItem]
      omega
  rw [totalAmount, hfold]
  omega

theorem orderQuantity_eq {order : Order} {items : List CartItem}
    (h : order.items = items.map (·.toOrderItem)) (productId : Nat) :
    orderQuantity productId order = cartQuantity productId items := by
  rw [orderQuantity, h, cartQuantity, List.map_map]
  rfl

namespace CartInv
variable {key : Nat → Nat × Int} {s : Threads CartState CartCall} {i : Nat}

theorem read_row (h : CartInv key s) {row : CartItem} {n : Nat} (hknown : Known key n row)
    (hthere : s.shared.items.all (·.id ≠ row.id) = false)
    (hguard : ∀ i ∈ s.shared.items, i.id = row.id → i.quantity = row.quantity) :
    row ∈ s.shared.items := by
  obtain ⟨row', hmem, hid⟩ := List.all_eq_false.1 hthere
  simp only [ne_eq, decide_not, Bool.not_eq_true', decide_eq_false_iff_not, not_not] at hid
  rw [← (h.known row' hmem).eq hknown hid (hguard row' hmem hid)]
  exact hmem

theorem loadingItems (h : CartInv key s) {productId : Nat} {quantity price : Int} {newCart : Bool}
    (hi : s.calls[i]? = some (.loadingItems productId quantity price newCart)) :
    CartInv key ⟨s.shared, s.calls.set i (.writing productId quantity newCart
      (chooseWrite (if newCart then [] else s.shared.items) productId quantity price))⟩ := by
  have hq : validQuantity quantity = true := h.holds _ (List.mem_of_getElem? hi)
  cases hfind : (if newCart then [] else s.shared.items).find? (·.productId = productId) with
  | none =>
    simp only [chooseWrite, hfind]
    exact h.goto hi rfl (fun _ => rfl) ⟨rfl, rfl, hq⟩
  | some row =>
    have hmem : row ∈ s.shared.items := by
      have := List.mem_of_find?_eq_some hfind
      split at this
      · cases this
      · exact this
    have hproduct : row.productId = productId := by simpa using List.find?_some hfind
    simp only [chooseWrite, hfind]
    exact h.goto hi rfl (fun _ => rfl)
      ⟨h.known row hmem, hproduct, h.quantity row hmem, hq, rfl⟩

theorem lockRow (h : CartInv key s) {productId : Nat} {quantity n : Int} {newCart : Bool}
    {row : CartItem} (hi : s.calls[i]? = some (.writing productId quantity newCart (.update row n)))
    (hfree : row.id ∉ s.shared.locked) (hpos : 0 < n)
    (hthere : s.shared.items.all (·.id ≠ row.id) = false)
    (hguard : ∀ i ∈ s.shared.items, i.id = row.id → i.quantity = row.quantity) :
    CartInv key ⟨{ s.shared with locked := s.shared.locked ++ [row.id] },
      s.calls.set i (.committing productId quantity newCart (.update row n))⟩ := by
  obtain ⟨hknown, hproduct, hold, hq, rfl⟩ := h.holds _ (List.mem_of_getElem? hi)
  obtain ⟨hsum, hvalid⟩ := addInt_of_pos hold hq hpos
  refine h.quiet hi rfl rfl rfl rfl (fun n hn _ => List.mem_append_left _ hn) (fun m hm => ?_)
    (fun _ => rfl) ⟨h.read_row hknown hthere hguard, hproduct, hsum, hvalid⟩
  obtain rfl := List.mem_singleton.1 hm
  exact ⟨.inr hfree, List.mem_append_right _ (List.mem_singleton_self _)⟩

theorem insertRow (h : CartInv key s) {productId : Nat} {quantity : Int} {newCart : Bool}
    {row : CartItem} (hi : s.calls[i]? = some (.writing productId quantity newCart (.insert row))) :
    CartInv (Function.update key s.shared.nextItemId (row.productId, row.price))
      ⟨{ s.shared with newProducts := s.shared.newProducts ++ [row.productId],
                       nextItemId := s.shared.nextItemId + 1 },
        s.calls.set i (.committing productId quantity newCart
          (.insert { row with id := s.shared.nextItemId }))⟩ := by
  obtain ⟨hproduct, hquantity, hq⟩ := h.holds _ (List.mem_of_getElem? hi)
  have hkey : ∀ r, Known key s.shared.nextItemId r →
      Known (Function.update key s.shared.nextItemId (row.productId, row.price))
        (s.shared.nextItemId + 1) r := by
    rintro r ⟨hlt, hk⟩
    exact ⟨by omega, by rw [Function.update_of_ne (by omega), hk]⟩
  refine h.step hi hkey (fun _ hrow _ => hrow) (fun _ hn _ => hn)
    (fun n hn => absurd hn List.not_mem_nil)
    ⟨⟨Nat.lt_succ_self _, Function.update_self ..⟩, hproduct, hquantity, hq⟩
    (fun r hr => hkey r (h.known r hr)) h.quantity (fun n => ?_) h.conserved
  by_cases hn : s.shared.nextItemId = n
  · subst hn
    refine .inr ⟨?_, ?_⟩
    · have hzero : s.shared.items.countP (·.id = s.shared.nextItemId) = 0 := by
        rw [List.countP_eq_zero]
        intro r hr
        have := (h.known r hr).1
        simp only [decide_eq_true_eq]
        omega
      simp only [hzero, CartCall.inserts, if_true]
      omega
    · refine sum_map_eq_zero _ fun c hc => ?_
      have hholds := h.holds c hc
      cases c with
      | committing _ _ _ write =>
        cases write with
        | update _ _ => rfl
        | insert r =>
          have := hholds.1.1
          exact if_neg (by omega)
      | _ => rfl
  · refine .inl ?_
    simp [CartCall.inserts, hn]

/-! ### Commits -/

theorem sum_concat_ite (productId : Nat) (accepted : List (Nat × Int)) (p : Nat) (q : Int) :
    acceptedQuantity productId (accepted ++ [(p, q)]) =
      acceptedQuantity productId accepted + if p = productId then q else 0 := by
  simp [acceptedQuantity]

theorem commitUpdate (h : CartInv key s) {productId : Nat} {quantity n : Int} {newCart : Bool}
    {row : CartItem} (hi : s.calls[i]? = some
      (.committing productId quantity newCart (.update row n))) :
    CartInv key ⟨s.shared.commitAdd productId quantity newCart (.update row n),
      s.calls.set i .accepted⟩ := by
  obtain ⟨hmem, rfl, rfl, hvalid⟩ := h.holds _ (List.mem_of_getElem? hi)
  -- a row after the commit is the new version of `row` or another row
  have hcases : ∀ r ∈ (s.shared.commitAdd row.productId quantity newCart
      (.update row (row.quantity + quantity))).items,
      r = { row with quantity := row.quantity + quantity } ∨ r ∈ s.shared.items := by
    intro r hr
    obtain ⟨old, hold, rfl⟩ := List.mem_map.1 hr
    split
    · exact .inl rfl
    · exact .inr hold
  refine h.step hi (fun _ hk => hk) (fun r hr hne => ?_) (fun m hm hne => ?_)
    (fun m hm => absurd hm List.not_mem_nil) trivial (fun r hr => ?_) (fun r hr => ?_)
    (fun m => .inl ?_) (fun p => ?_)
  · refine List.mem_map.2 ⟨r, hr, if_neg fun hid => hne ?_⟩
    rw [hid]
    exact List.mem_singleton_self _
  · refine List.mem_filter.2 ⟨hm, ?_⟩
    rw [decide_eq_true_eq]
    rintro rfl
    exact hne (List.mem_singleton_self _)
  · rcases hcases r hr with rfl | hr
    · exact h.known row hmem
    · exact h.known r hr
  · rcases hcases r hr with rfl | hr
    · exact hvalid
    · exact h.quantity r hr
  · refine Nat.add_le_add ?_ (Nat.zero_le _)
    simp only [CartState.commitAdd, List.countP_map]
    refine List.countP_mono_left fun r _ hr => ?_
    simp only [Function.comp] at hr
    split at hr
    · rename_i hid
      simpa [hid] using hr
    · exact hr
  · have hcons := h.conserved p
    have hsum := sum_map_replace (fun i : CartItem => if i.productId = p then i.quantity else 0)
      h.uniqueIds { row with quantity := row.quantity + quantity } hmem
    simp only [CartState.commitAdd, CartState.rollback, sum_concat_ite,
      cartQuantity] at hcons hsum ⊢
    by_cases hp : row.productId = p
    · simp only [hp, if_true] at hsum ⊢
      omega
    · simp only [hp, if_false] at hsum ⊢
      omega

theorem commitInsert (h : CartInv key s) {productId : Nat} {quantity : Int} {newCart : Bool}
    {row : CartItem} (hi : s.calls[i]? = some
      (.committing productId quantity newCart (.insert row))) :
    CartInv key ⟨s.shared.commitAdd productId quantity newCart (.insert row),
      s.calls.set i .accepted⟩ := by
  obtain ⟨hknown, rfl, rfl, hvalid⟩ := h.holds _ (List.mem_of_getElem? hi)
  refine h.step hi (fun _ hk => hk) (fun r hr _ => List.mem_append_left _ hr) (fun m hm _ => hm)
    (fun m hm => absurd hm List.not_mem_nil) trivial (fun r hr => ?_) (fun r hr => ?_)
    (fun m => .inl ?_) (fun p => ?_)
  · rcases List.mem_append.1 hr with hr | hr
    · exact h.known r hr
    · rw [List.mem_singleton.1 hr]
      exact hknown
  · rcases List.mem_append.1 hr with hr | hr
    · exact h.quantity r hr
    · rw [List.mem_singleton.1 hr]
      exact hvalid
  · simp only [CartState.commitAdd, List.countP_append, CartCall.inserts, List.countP_singleton,
      decide_eq_true_eq]
    omega
  · have hcons := h.conserved p
    simp only [CartState.commitAdd, CartState.rollback, sum_concat_ite, cartQuantity,
      List.map_append, List.map_cons, List.map_nil, List.sum_append, List.sum_cons,
      List.sum_nil] at hcons ⊢
    omega

theorem commitOrder (h : CartInv key s) {order : Order} {deleted : List CartItem}
    (hi : s.calls[i]? = some (.deleting order deleted [])) :
    CartInv key ⟨s.shared.commitOrder order deleted, s.calls.set i .accepted⟩ := by
  obtain ⟨hmem, -, hnodup, hitems⟩ := h.holds _ (List.mem_of_getElem? hi)
  rw [List.append_nil] at hnodup hitems
  have hsub : (s.shared.commitOrder order deleted).items.Sublist s.shared.items :=
    List.filter_sublist
  refine h.step hi (fun _ hk => hk) (fun r hr hne => ?_) (fun m hm hne => ?_)
    (fun m hm => absurd hm List.not_mem_nil) trivial (fun r hr => h.known r (hsub.subset hr))
    (fun r hr => h.quantity r (hsub.subset hr)) (fun m => .inl ?_) (fun p => ?_)
  · exact List.mem_filter.2 ⟨hr, decide_eq_true hne⟩
  · exact List.mem_filter.2 ⟨hm, decide_eq_true hne⟩
  · exact Nat.add_le_add hsub.countP_le (Nat.zero_le _)
  · have hcons := h.conserved p
    have hsum := sum_map_filter_not_mem
      (fun i : CartItem => if i.productId = p then i.quantity else 0)
      h.uniqueIds hmem hnodup
    have horder := orderQuantity_eq hitems p
    simp only [CartState.commitOrder, CartState.unlock, cartQuantity, List.map_append,
      List.map_cons, List.map_nil, List.sum_append, List.sum_cons,
      List.sum_nil] at hcons hsum horder ⊢
    omega

theorem loadingOrder (h : CartInv key s) {userId : Nat} {shipping : Shipping}
    (hi : s.calls[i]? = some (.loadingOrder shipping)) :
    CartInv key ⟨{ s.shared with nextOrderId := s.shared.nextOrderId + 1 }, s.calls.set i
      (.deleting (buildOrder s.shared.nextOrderId userId shipping s.shared.items) []
        s.shared.items)⟩ :=
  h.quiet_of_no_locks hi rfl rfl rfl rfl rfl rfl (fun _ => rfl)
    ⟨fun _ hr => absurd hr List.not_mem_nil, h.known, h.uniqueIds.nodup, rfl⟩

theorem deleteRow (h : CartInv key s) {order : Order} {deleted remaining : List CartItem}
    {row : CartItem} (hi : s.calls[i]? = some (.deleting order deleted (row :: remaining)))
    (hfree : row.id ∉ s.shared.locked) (hthere : s.shared.items.all (·.id ≠ row.id) = false)
    (hguard : ∀ i ∈ s.shared.items, i.id = row.id → i.quantity = row.quantity) :
    CartInv key ⟨{ s.shared with locked := s.shared.locked ++ [row.id] },
      s.calls.set i (.deleting order (deleted ++ [row]) remaining)⟩ := by
  obtain ⟨hmem, hknown, hnodup, hitems⟩ := h.holds _ (List.mem_of_getElem? hi)
  have hrow := h.read_row (hknown row (List.mem_cons_self ..)) hthere hguard
  refine h.quiet hi rfl rfl rfl rfl (fun n hn _ => List.mem_append_left _ hn) (fun n hn => ?_)
    (fun _ => rfl) ⟨fun r hr => ?_, fun r hr => hknown r (List.mem_cons_of_mem _ hr), ?_, ?_⟩
  · obtain ⟨r, hr, rfl⟩ := List.mem_map.1 hn
    rcases List.mem_append.1 hr with hr | hr
    · have hlock : r.id ∈ deleted.map (·.id) := List.mem_map_of_mem hr
      exact ⟨.inl hlock, List.mem_append_left _ (h.locked _ (List.mem_of_getElem? hi) _ hlock)⟩
    · rw [List.mem_singleton.1 hr]
      exact ⟨.inr hfree, List.mem_append_right _ (List.mem_singleton_self _)⟩
  · rcases List.mem_append.1 hr with hr | hr
    · exact hmem r hr
    · rw [List.mem_singleton.1 hr]
      exact hrow
  · simpa using hnodup
  · simpa using hitems

/-- Every statement that is not disturbed keeps the invariant. -/
theorem next (h : CartInv key s) {call : CartCall} (hi : s.calls[i]? = some call)
    {price : Option Int}
    (hguard : Undisturbed s call price) (userId : Nat) :
    ∃ key', CartInv key' ⟨(cartNext userId price s.shared call).1,
      s.calls.set i (cartNext userId price s.shared call).2⟩ := by
  have hholds := h.holds _ (List.mem_of_getElem? hi)
  match call, hi, hguard, hholds with
  | .adding productId quantity, hi, _, hholds =>
    refine ⟨key, ?_⟩
    cases price with
    | none => exact h.refuse hi
    | some price => exact h.goto hi rfl (fun _ => rfl) hholds
  | .findingCart productId quantity price, hi, _, hholds =>
    refine ⟨key, ?_⟩
    simp only [cartNext]
    split
    · exact h.goto hi rfl (fun _ => rfl) hholds
    · exact h.goto hi rfl (fun _ => rfl) hholds
  | .creatingCart productId quantity price, hi, _, hholds =>
    refine ⟨key, ?_⟩
    simp only [cartNext]
    split
    · exact h.refuse hi
    · split
      · exact h.wait hi
      · exact h.quiet_of_no_locks hi rfl rfl rfl rfl rfl rfl (fun _ => rfl) hholds
  | .loadingItems productId quantity price newCart, hi, _, _ => exact ⟨key, h.loadingItems hi⟩
  | .writing productId quantity newCart (.update row n), hi, hguard, _ =>
    refine ⟨key, ?_⟩
    simp only [cartNext]
    split
    · exact h.wait hi
    · rename_i hfree
      split
      · exact h.quiet_of_no_locks hi rfl rfl rfl rfl rfl rfl (fun _ => rfl) trivial
      · rename_i hok
        simp only [Bool.or_eq_true, decide_eq_true_eq, not_or, Bool.not_eq_true] at hok
        exact h.lockRow hi hfree (by omega) hok.2 hguard
  | .writing productId quantity newCart (.insert row), hi, _, _ =>
    simp only [cartNext]
    split
    · exact ⟨key, h.quiet_of_no_locks hi rfl rfl rfl rfl rfl rfl (fun _ => rfl) trivial⟩
    · split
      · exact ⟨key, h.wait hi⟩
      · exact ⟨_, h.insertRow hi⟩
  | .committing productId quantity newCart (.update row n), hi, _, _ =>
    exact ⟨key, h.commitUpdate hi⟩
  | .committing productId quantity newCart (.insert row), hi, _, _ => exact ⟨key, h.commitInsert hi⟩
  | .ordering shipping, hi, _, _ =>
    refine ⟨key, ?_⟩
    simp only [cartNext]
    split
    · exact h.goto hi rfl (fun _ => rfl) trivial
    · exact h.refuse hi
  | .loadingOrder shipping, hi, _, _ =>
    refine ⟨key, ?_⟩
    simp only [cartNext]
    split
    · exact h.refuse hi
    · split
      · exact h.loadingOrder hi
      · exact h.quiet_of_no_locks hi rfl rfl rfl rfl rfl rfl (fun _ => rfl) trivial
  | .deleting order deleted (row :: remaining), hi, hguard, _ =>
    refine ⟨key, ?_⟩
    simp only [cartNext]
    split
    · exact h.wait hi
    · rename_i hfree
      split
      · refine h.quiet hi rfl rfl rfl rfl (fun n hn hne => ?_)
          (fun n hn => absurd hn List.not_mem_nil)
          (fun _ => rfl) trivial
        exact List.mem_filter.2 ⟨hn, decide_eq_true hne⟩
      · rename_i hthere
        exact h.deleteRow hi hfree (by simpa using hthere) hguard
  | .deleting order deleted [], hi, _, _ => exact ⟨key, h.commitOrder hi⟩
  | .accepted, hi, _, _ => exact ⟨key, h.wait hi⟩
  | .rejected, hi, _, _ => exact ⟨key, h.wait hi⟩

end CartInv

/-! ### Runs -/

theorem cartInv_run (userId : Nat) (acts : List (Sched CartRequest (Option Int)))
    (h : (cartMachine userId).Along (OfCall Undisturbed) acts) :
    ∃ key, CartInv key ((cartMachine userId).run acts).1 := by
  refine (cartRequests userId).machine_inv (I := fun s => ∃ key, CartInv key s) ?_ ?_ ?_ acts h
  · refine ⟨fun _ => (0, 0), ?_, ?_, ?_, fun _ => Nat.zero_le _, fun _ => Nat.zero_le _, ?_, ?_⟩
    · exact fun _ hi => absurd hi List.not_mem_nil
    · exact fun _ hi => absurd hi List.not_mem_nil
    · exact fun _ hc => absurd hc List.not_mem_nil
    · exact fun _ hc => absurd hc List.not_mem_nil
    · exact fun _ => rfl
  · rintro s request ⟨key, hs⟩
    have hstart : ((cartRequests userId).start request).Holds key s.shared ∧
        ((cartRequests userId).start request).locks = [] ∧
        ∀ n, ((cartRequests userId).start request).inserts n = 0 := by
      cases request with
      | addToCart productId quantity =>
        simp only [cartRequests]
        split
        · rename_i hq
          exact ⟨hq, rfl, fun _ => rfl⟩
        · exact ⟨trivial, rfl, fun _ => rfl⟩
      | createOrder shipping => exact ⟨trivial, rfl, fun _ => rfl⟩
    refine ⟨key, hs.known, hs.quantity, fun c hc => ?_, fun n => ?_, fun n => ?_,
      fun c hc n hn => ?_,
      hs.conserved⟩
    · rcases List.mem_append.1 hc with hc | hc
      · exact hs.holds c hc
      · rw [List.mem_singleton.1 hc]
        exact hstart.1
    · rw [sum_map_concat, hstart.2.2]
      exact hs.unique n
    · rw [sum_map_concat, CartCall.locksRow, hstart.2.1]
      exact hs.exclusive n
    · rcases List.mem_append.1 hc with hc | hc
      · exact hs.locked c hc n hn
      · rw [List.mem_singleton.1 hc, hstart.2.1] at hn
        exact absurd hn List.not_mem_nil
  · rintro s i call price ⟨key, hs⟩ hi hguard
    exact hs.next hi hguard userId

/-- Orders are built with their totals, whatever happens meanwhile. -/
def CartCall.TotalAddsUp : CartCall → Prop
  | .deleting order _ _ => order.totalAmount = (order.items.map (·.subtotal)).sum
  | _ => True

theorem totalsAddUp_next {s : CartState} {call : CartCall} (hs : TotalsAddUp s)
    (hc : call.TotalAddsUp)
    (userId : Nat) (price : Option Int) :
    TotalsAddUp (cartNext userId price s call).1 ∧
      (cartNext userId price s call).2.TotalAddsUp := by
  unfold cartNext
  split
  · split <;> exact ⟨hs, trivial⟩
  · split <;> exact ⟨hs, trivial⟩
  · split
    · exact ⟨hs, trivial⟩
    · split <;> exact ⟨hs, trivial⟩
  · exact ⟨hs, trivial⟩
  · split
    · exact ⟨hs, trivial⟩
    · split <;> exact ⟨hs, trivial⟩
  · split
    · exact ⟨hs, trivial⟩
    · split <;> exact ⟨hs, trivial⟩
  · rename_i write
    cases write <;> exact ⟨hs, trivial⟩
  · split <;> exact ⟨hs, trivial⟩
  · dsimp only
    split
    · exact ⟨hs, trivial⟩
    · split
      · exact ⟨hs, totalAmount_eq _⟩
      · exact ⟨hs, trivial⟩
  · split
    · exact ⟨hs, hc⟩
    · split
      · exact ⟨hs, trivial⟩
      · exact ⟨hs, hc⟩
  · refine ⟨fun order horder => ?_, trivial⟩
    rcases List.mem_append.1 horder with horder | horder
    · exact hs order horder
    · rw [List.mem_singleton.1 horder]
      exact hc
  · exact ⟨hs, trivial⟩
  · exact ⟨hs, trivial⟩

theorem totalsAddUp_run (userId : Nat) (acts : List (Sched CartRequest (Option Int))) :
    TotalsAddUp ((cartMachine userId).run acts).1.shared := by
  refine ((cartRequests userId).machine_always
    (I := fun s => TotalsAddUp s.shared ∧ ∀ call ∈ s.calls, call.TotalAddsUp) ?_ ?_ ?_ acts).1
  · exact ⟨fun _ ho => absurd ho List.not_mem_nil, fun _ hc => absurd hc List.not_mem_nil⟩
  · rintro s request ⟨hs, hcalls⟩
    refine ⟨hs, fun c hc => ?_⟩
    rcases List.mem_append.1 hc with hc | hc
    · exact hcalls c hc
    · rw [List.mem_singleton.1 hc]
      cases request with
      | addToCart productId quantity =>
        simp only [cartRequests]
        split <;> trivial
      | createOrder shipping => trivial
  · rintro s i call price ⟨hs, hcalls⟩ hi
    have hnext := totalsAddUp_next hs (hcalls call (List.mem_of_getElem? hi)) userId price
    refine ⟨hnext.1, fun c hc => ?_⟩
    rcases List.mem_or_eq_of_mem_set hc with hc | rfl
    · exact hcalls c hc
    · exact hnext.2

/-- In every interleaving the totals of the orders add up, and as long as no request updates or
deletes a row that has changed since it read it, nothing that was added is lost or ordered twice. -/
theorem conserved_of_undisturbed (userId : Nat) (acts : List (Sched CartRequest (Option Int)))
    (h : (cartMachine userId).Along (OfCall Undisturbed) acts) :
    Conserved ((cartMachine userId).run acts).1.shared ∧
      TotalsAddUp ((cartMachine userId).run acts).1.shared := by
  obtain ⟨key, hinv⟩ := cartInv_run userId acts h
  exact ⟨hinv.conserved, totalsAddUp_run userId acts⟩

/-! ### Two requests -/

/-- A cart with one piece of product 5. -/
def firstPiece : List (Sched CartRequest (Option Int)) :=
  .call (.addToCart 5 1) :: List.replicate 6 (.step 0 (some 1000))

/-- Two more requests for it read the item before either of them writes. -/
def lostUpdate : List (Sched CartRequest (Option Int)) :=
  firstPiece ++ [.call (.addToCart 5 2), .call (.addToCart 5 3)] ++
    List.replicate 3 (.step 1 (some 1000)) ++ List.replicate 3 (.step 2 (some 1000)) ++
    List.replicate 2 (.step 1 none) ++ List.replicate 2 (.step 2 none)

theorem quantity_lost :
    ¬ ∀ (userId : Nat) (acts : List (Sched CartRequest (Option Int))),
      Conserved ((cartMachine userId).run acts).1.shared ∧
        TotalsAddUp ((cartMachine userId).run acts).1.shared := by
  intro h
  have := (h 1 lostUpdate).1 5
  revert this
  decide +kernel

/-- The piece is ordered, and then another one is put into the cart. -/
def orderThenAdd : List (Sched CartRequest (Option Int)) :=
  firstPiece ++ [.call (.createOrder { shippingAddress := "Seoul" })] ++
    List.replicate 4 (.step 1 none) ++ [.call (.addToCart 5 2)] ++
    List.replicate 5 (.step 2 (some 1200))

theorem conserved_orderThenAdd :
    (cartMachine 1).Along (OfCall Undisturbed) orderThenAdd ∧
      Conserved ((cartMachine 1).run orderThenAdd).1.shared ∧
      TotalsAddUp ((cartMachine 1).run orderThenAdd).1.shared := by
  have h : (cartMachine 1).Along (OfCall Undisturbed) orderThenAdd := by
    rw [Machine.along_iff_forall_lt]
    decide +kernel
  exact ⟨h, conserved_of_undisturbed 1 orderThenAdd h⟩

end Portfolio.Sagaline
