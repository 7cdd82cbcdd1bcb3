import Mathlib.Data.List.Perm.Subperm
import Mathlib.Algebra.BigOperators.Group.List.Basic
import Mathlib.Algebra.Ring.Int.Defs
import Portfolio.Orders.OrderService

/-!
# Which orders `createOrder` takes

`OrderService.createOrder` (`backend/node.js`) with exact amounts. It compares the number of products
that it finds with the number of items, so a cart that has a product twice is refused although each
of its products is there (`createOrder_exact_iff`).
-/

namespace Portfolio.Orders
open Products (Product)

/-! ### The products that are found -/

section Found
variable {ν : Type}

/-- The product exists and is active. -/
def Available (env : Env ν) (productId : Int) : Prop :=
  ∃ product, env.products.lookup productId = some product ∧ product.status = .active

variable {env : Env ν} {ids : List Int}

theorem mem_activeProducts {e : (_ : Int) × Product ν} :
    e ∈ activeProducts env ids ↔
      env.products.lookup e.1 = some e.2 ∧ e.1 ∈ ids ∧ e.2.status = .active := by
  rw [activeProducts, List.mem_filter, decide_eq_true_iff]
  exact and_congr_left fun _ => AList.mem_lookup_iff.symm

theorem mem_keys_activeProducts {id : Int} :
    id ∈ (activeProducts env ids).map Sigma.fst ↔ id ∈ ids ∧ Available env id := by
  rw [List.mem_map]
  constructor
  · rintro ⟨e, he, rfl⟩
    obtain ⟨hlookup, hmem, hactive⟩ := mem_activeProducts.1 he
    exact ⟨hmem, e.2, hlookup, hactive⟩
  · rintro ⟨hmem, product, hlookup, hactive⟩
    exact ⟨⟨id, product⟩, mem_activeProducts.2 ⟨hlookup, hmem, hactive⟩, rfl⟩

theorem nodup_keys_activeProducts : ((activeProducts env ids).map Sigma.fst).Nodup :=
  (List.filter_sublist.map Sigma.fst).nodup env.products.nodupKeys

/-- As many products as ids are found when there is no id twice and all are available. -/
theorem length_activeProducts_eq_iff :
    (activeProducts env ids).length = ids.length ↔ ids.Nodup ∧ ∀ id ∈ ids, Available env id := by
  have hsub : (activeProducts env ids).map Sigma.fst ⊆ ids :=
    fun _ h => (mem_keys_activeProducts.1 h).1
  have hkeys : ((activeProducts env ids).map Sigma.fst).length = (activeProducts env ids).length :=
    List.length_map _
  have hsubperm := List.subperm_of_subset nodup_keys_activeProducts hsub
  constructor
  · intro hlen
    have hperm := hsubperm.perm_of_length_le (by rw [hkeys, hlen])
    exact ⟨hperm.nodup nodup_keys_activeProducts,
      fun id hid => (mem_keys_activeProducts.1 (hperm.mem_iff.2 hid)).2⟩
  · rintro ⟨hnodup, havailable⟩
    have hsup : ids ⊆ (activeProducts env ids).map Sigma.fst :=
      fun id hid => mem_keys_activeProducts.2 ⟨hid, havailable id hid⟩
    have hle := (List.subperm_of_subset hnodup hsup).length_le
    have hge := hsubperm.length_le
    omega

end Found

section Service
variable {ν : Type} [Ring ν]

/-! ### `createOrder` -/

/-- What the column `quantity` of type `INTEGER` can hold. -/
def FitsInteger (n : Int) : Prop := -2147483648 ≤ n ∧ n ≤ 2147483647

instance (n : Int) : Decidable (FitsInteger n) := inferInstanceAs (Decidable (_ ∧ _))

/-- `createOrder` on the table `OrderItem`: the transaction throws `columnError` if a quantity does
not fit. -/
def createOrderRows (columnError : String) (enabled : Bool) (env : Env ν) (s : OrderStore ν)
    (userId : Int) (items : List CreateOrderItemDto) :
    Except String (OrderStore ν × List (OrderEvent ν)) := do
  let order ← orderData env userId items
  if ∀ item ∈ order.items, FitsInteger item.quantity then createOrder enabled env s userId items
  else .error columnError

/-- The store after a call, which is as before if the call throws. -/
def storeAfter (s : OrderStore ν) : Except String (OrderStore ν × List (OrderEvent ν)) → OrderStore ν
  | .ok answer => answer.1
  | .error _ => s

/-! ### The order of a cart -/

/-- The row of an item that is asked for. -/
structure ItemRow (env : Env ν) (item : CreateOrderItemDto) (row : OrderItem ν) : Prop where
  productId : row.productId = item.productId
  quantity : row.quantity = item.quantity
  price : ∃ product, env.products.lookup item.productId = some product ∧ row.price = product.price

/-- The order of a cart. -/
structure OrderOf (env : Env ν) (userId : Int) (items : List CreateOrderItemDto) (order : Order ν) :
    Prop where
  userId : order.userId = userId
  status : order.status = .pending
  items : List.Forall₂ (ItemRow env) items order.items
  totalAmount : order.totalAmount = (order.items.map fun row => row.price * (row.quantity : ν)).sum

/-- A call stores the order of its cart if all products are available, and else it throws and stores
nothing. -/
structure CreatesExactly (env : Env ν) (s : OrderStore ν) (userId : Int)
    (items : List CreateOrderItemDto)
    (result : Except String (OrderStore ν × List (OrderEvent ν))) : Prop where
  succeeds : (∃ answer, result = .ok answer) ↔ ∀ item ∈ items, Available env item.productId
  stores : ∀ answer, result = .ok answer → ∃ order, OrderOf env userId items order ∧
    answer.1 = { orders := s.orders.insert s.nextId order, nextId := s.nextId + 1 }
  fails : ∀ error, result = .error error → storeAfter s result = s

/-! ### The rows -/

/-- With a price for each item, the sum is exact. -/
theorem priceItems_ok {env : Env ν} (ids : List Int) {items : List CreateOrderItemDto}
    (hids : ∀ item ∈ items, item.productId ∈ ids)
    (havailable : ∀ item ∈ items, Available env item.productId) (total : ν) :
    ∃ rows, priceItems (activeProducts env ids) total items =
        .ok (total + (rows.map fun row => row.price * (row.quantity : ν)).sum, rows) ∧
      List.Forall₂ (ItemRow env) items rows := by
  induction items generalizing total with
  | nil => exact ⟨[], by rw [priceItems, List.map_nil, List.sum_nil, add_zero], .nil⟩
  | cons item items ih =>
    rw [priceItems]
    cases hfind : (activeProducts env ids).find? (·.1 = item.productId) with
    | none =>
      obtain ⟨e, he, hid⟩ := List.mem_map.1 (mem_keys_activeProducts.2
        ⟨hids item List.mem_cons_self, havailable item List.mem_cons_self⟩)
      exact absurd (decide_eq_true hid) (List.find?_eq_none.1 hfind e he)
    | some e =>
      have hid : e.1 = item.productId := of_decide_eq_true (List.find?_some
        (p := fun e : (_ : Int) × Product ν => decide (e.1 = item.productId)) hfind)
      have hlookup := (mem_activeProducts.1 (List.mem_of_find?_eq_some hfind)).1
      rw [hid] at hlookup
      obtain ⟨rows, hrows, hall⟩ := ih (fun i hi => hids i (List.mem_cons_of_mem item hi))
        (fun i hi => havailable i (List.mem_cons_of_mem item hi))
        (total + e.2.price * (item.quantity : ν))
      refine ⟨⟨item.productId, item.quantity, e.2.price⟩ :: rows, ?_,
        .cons ⟨rfl, rfl, e.2, hlookup, rfl⟩ hall⟩
      simp only [hrows]
      rw [List.map_cons, List.sum_cons, ← add_assoc]
      rfl

variable {columnError : String} {enabled : Bool} {env : Env ν} {s : OrderStore ν} {userId : Int}
  {items : List CreateOrderItemDto}

theorem orderData_ok_of_available (userId : Int) (hnodup : (items.map (·.productId)).Nodup)
    (havailable : ∀ item ∈ items, Available env item.productId) :
    ∃ order, orderData env userId items = .ok order ∧ OrderOf env userId items order := by
  have hlen : (activeProducts env (items.map (·.productId))).length =
      (items.map (·.productId)).length := by
    refine length_activeProducts_eq_iff.2 ⟨hnodup, fun id hid => ?_⟩
    obtain ⟨item, hitem, rfl⟩ := List.mem_map.1 hid
    exact havailable item hitem
  obtain ⟨rows, hrows, hall⟩ := priceItems_ok (items.map (·.productId))
    (fun item hitem => List.mem_map_of_mem hitem) havailable (0 : ν)
  refine ⟨⟨userId, 0 + (rows.map fun row => row.price * (row.quantity : ν)).sum, .pending, rows⟩, ?_,
    rfl, rfl, hall, zero_add _⟩
  simp only [orderData, hlen, ne_eq, not_true, if_false, hrows]
  rfl

theorem orderData_error (h : ¬ ((items.map (·.productId)).Nodup ∧
    ∀ item ∈ items, Available env item.productId)) :
    orderData env userId items = .error "One or more products not found or inactive" := by
  have hlen : (activeProducts env (items.map (·.productId))).length ≠
      (items.map (·.productId)).length := by
    intro hlen
    obtain ⟨hnodup, havailable⟩ := length_activeProducts_eq_iff.1 hlen
    exact h ⟨hnodup, fun item hitem => havailable _ (List.mem_map_of_mem hitem)⟩
  rw [orderData, if_pos hlen]

/-- The quantities of the rows are those of the items. -/
theorem OrderOf.forall_fits_iff {order : Order ν} (h : OrderOf env userId items order) :
    (∀ row ∈ order.items, FitsInteger row.quantity) ↔ ∀ item ∈ items, FitsInteger item.quantity := by
  have hmap : order.items.map OrderItem.quantity = items.map CreateOrderItemDto.quantity := by
    have hitems := h.items
    generalize order.items = rows at hitems
    clear h
    induction hitems with
    | nil => rfl
    | cons hrow _ ih => rw [List.map_cons, List.map_cons, hrow.quantity, ih]
  have hrows := List.forall_mem_map (f := OrderItem.quantity) (l := order.items) (P := FitsInteger)
  have hitems := List.forall_mem_map (f := CreateOrderItemDto.quantity) (l := items) (P := FitsInteger)
  rw [← hrows, hmap, hitems]

/-! ### Calls -/

/-- What a call does: it stores the order of its cart, or throws. -/
theorem createOrderRows_cases (columnError : String) (enabled : Bool) (env : Env ν)
    (s : OrderStore ν) (userId : Int) (items : List CreateOrderItemDto) :
    ((items.map (·.productId)).Nodup ∧ (∀ item ∈ items, Available env item.productId) ∧
        (∀ item ∈ items, FitsInteger item.quantity) ∧
        ∃ order, OrderOf env userId items order ∧
          createOrderRows columnError enabled env s userId items =
            .ok ({ orders := s.orders.insert s.nextId order, nextId := s.nextId + 1 },
              publish enabled env (orderEvent env .orderCreated s.nextId order))) ∨
      (¬ ((items.map (·.productId)).Nodup ∧ (∀ item ∈ items, Available env item.productId) ∧
          ∀ item ∈ items, FitsInteger item.quantity) ∧
        ∃ error, createOrderRows columnError enabled env s userId items = .error error) := by
  by_cases hcart : (items.map (·.productId)).Nodup ∧ ∀ item ∈ items, Available env item.productId
  · obtain ⟨order, hdata, horder⟩ := orderData_ok_of_available userId hcart.1 hcart.2
    by_cases hfits : ∀ item ∈ items, FitsInteger item.quantity
    · refine .inl ⟨hcart.1, hcart.2, hfits, order, horder, ?_⟩
      rw [createOrderRows, hdata]
      simp only [bind, Except.bind, if_pos (horder.forall_fits_iff.2 hfits), createOrder, hdata]
      rfl
    · refine .inr ⟨fun h => hfits h.2.2, columnError, ?_⟩
      rw [createOrderRows, hdata]
      simp only [bind, Except.bind, if_neg (mt horder.forall_fits_iff.1 hfits)]
  · refine .inr ⟨fun h => hcart ⟨h.1, h.2.1⟩, "One or more products not found or inactive", ?_⟩
    rw [createOrderRows, orderData_error hcart]
    rfl

/-- A cart is handled as it should if one of its products is not available, or else no product is in
it twice and the quantities fit. -/
theorem createOrder_exact_iff (columnError : String) (enabled : Bool) (env : Env ν)
    (s : OrderStore ν) (userId : Int) (items : List CreateOrderItemDto) :
    CreatesExactly env s userId items (createOrderRows columnError enabled env s userId items) ↔
      (∃ item ∈ items, ¬ Available env item.productId) ∨
        ((items.map (·.productId)).Nodup ∧ ∀ item ∈ items, FitsInteger item.quantity) := by
  rcases createOrderRows_cases columnError enabled env s userId items with
    ⟨hnodup, havailable, hfits, order, horder, hok⟩ | ⟨hcart, error, herror⟩
  · refine iff_of_true ⟨iff_of_true ⟨_, hok⟩ havailable, fun answer hanswer => ?_, fun e he => ?_⟩
      (.inr ⟨hnodup, hfits⟩)
    · obtain rfl := Except.ok.inj (hok.symm.trans hanswer)
      exact ⟨order, horder, rfl⟩
    · rw [hok] at he
      cases he
  · rw [herror]
    constructor
    · intro h
      refine .inl ?_
      by_contra hnone
      push Not at hnone
      obtain ⟨answer, hok⟩ := h.succeeds.2 hnone
      cases hok
    · intro h
      refine ⟨⟨fun ⟨_, hok⟩ => (by cases hok), fun havailable => ?_⟩, fun _ hok => (by cases hok),
        fun _ _ => rfl⟩
      rcases h with ⟨item, hitem, hnot⟩ | ⟨hnodup, hfits⟩
      · exact absurd (havailable item hitem) hnot
      · exact absurd ⟨hnodup, havailable, hfits⟩ hcart

end Service

/-- A shop with one product, which is active. -/
def oneProduct : Env ℤ where
  products := AList.singleton 1 ⟨"mug", none, "kitchen", "acme", 5, .active, 0⟩

theorem createOrder_repeated :
    ¬ ∀ (columnError : String) (enabled : Bool) (env : Env ℤ) (s : OrderStore ℤ) (userId : Int)
        (items : List CreateOrderItemDto), items ≠ [] →
      (∀ item ∈ items, 0 < item.productId ∧ 0 < item.quantity) →
      CreatesExactly env s userId items (createOrderRows columnError enabled env s userId items) := by
  intro h
  have havailable : Available oneProduct 1 := ⟨_, rfl, rfl⟩
  obtain ⟨answer, hok⟩ := (h "" true oneProduct {} 1 [⟨1, 1⟩, ⟨1, 2⟩] (by decide) (by decide)).succeeds.2
    (by simpa using havailable)
  have herror : createOrderRows "" true oneProduct {} 1 [⟨1, 1⟩, ⟨1, 2⟩] =
    .error "One or more products not found or inactive" := rfl
  cases herror.symm.trans hok

end Portfolio.Orders
