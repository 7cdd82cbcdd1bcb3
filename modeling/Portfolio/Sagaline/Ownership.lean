import Portfolio.Sagaline.Shop

/-!
# Requests and the rows of other users

Every endpoint but one finds its rows through the user who asks: the cart by `findByUserId`, an item
among the items of that cart, an order with a check of its owner. `updateOrderStatus` takes the id
from the path and checks nothing. `others_unchanged_iff` shows that it is the only way to change
what belongs to someone else.
-/

namespace Portfolio.Sagaline

namespace Shop

def cartsOf (shop : Shop) (userId : Nat) : List Cart := shop.carts.filter (·.userId = userId)

def ordersOf (shop : Shop) (userId : Nat) : List Order := shop.orders.filter (·.userId = userId)

/-- The carts and orders of every user but one are the same. -/
def OthersUnchanged (shop shop' : Shop) (userId : Nat) : Prop :=
  ∀ other, other ≠ userId → shop'.cartsOf other = shop.cartsOf other ∧
    shop'.ordersOf other = shop.ordersOf other

/-- The request gives the order of another user a status that it does not have. -/
def ChangesForeignOrder (shop : Shop) (userId : Nat) : ShopRequest → Prop
  | .updateOrderStatus orderId status =>
    ∃ order ∈ shop.orders, order.id = orderId ∧ order.userId ≠ userId ∧ order.status ≠ status
  | _ => False

/-- The primary key of `carts`. -/
structure Keys (shop : Shop) : Prop where
  nodup : (shop.carts.map (·.id)).Nodup
  fresh : ∀ cart ∈ shop.carts, cart.id < shop.nextCartId

/-! ### The cart of the user -/

variable {shop shop' : Shop} {userId : Nat} {cart cart' : Cart}

theorem OthersUnchanged.trans {shop'' : Shop} (h : OthersUnchanged shop shop' userId)
    (h' : OthersUnchanged shop' shop'' userId) : OthersUnchanged shop shop'' userId := by
  intro other hne
  exact ⟨(h' other hne).1.trans (h other hne).1, (h' other hne).2.trans (h other hne).2⟩

theorem OthersUnchanged.refl (shop : Shop) (userId : Nat) : OthersUnchanged shop shop userId :=
  fun _ _ => ⟨rfl, rfl⟩

/-- Saving a cart touches the row of its user only. -/
theorem saveCart_othersUnchanged (hkeys : shop.Keys) (hmem : cart ∈ shop.carts)
    (huser : cart.userId = userId) {saved : Cart} (h : shop.saveCart cart' = .ok (shop', saved))
    (hid : cart'.id = cart.id) (huser' : cart'.userId = cart.userId) :
    OthersUnchanged shop shop' userId ∧ shop'.Keys := by
  unfold saveCart at h
  split at h
  · cases h
    have hsame : ∀ c ∈ shop.carts, c.id = cart'.id → c = cart := by
      intro c hc hcid
      exact List.inj_on_of_nodup_map hkeys.nodup hc hmem (hcid.trans hid)
    have hids : (shop.carts.map fun c => if c.id = cart'.id then cart' else c).map (·.id) =
        shop.carts.map (·.id) := by
      rw [List.map_map]
      refine List.map_congr_left fun c _ => ?_
      simp only [Function.comp]
      split
      · rename_i hc
        exact hc.symm
      · rfl
    refine ⟨fun other hne => ⟨?_, rfl⟩, ⟨hids ▸ hkeys.nodup, fun c hc => ?_⟩⟩
    · simp only [cartsOf, List.filter_map]
      have hcomp : shop.carts.filter ((fun c => decide (c.userId = other)) ∘
          fun c => if c.id = cart'.id then cart' else c) = shop.cartsOf other := by
        refine List.filter_congr fun c hc => ?_
        simp only [Function.comp]
        split
        · rename_i hcid
          rw [hsame c hc hcid, huser']
        · rfl
      rw [hcomp, cartsOf]
      refine (List.map_congr_left fun c hc => ?_).trans (List.map_id _)
      obtain ⟨hc, howner⟩ := List.mem_filter.1 hc
      rw [if_neg]
      · rfl
      · intro hcid
        rw [hsame c hc hcid, huser] at howner
        exact hne (of_decide_eq_true howner).symm
    · have hmem' : c.id ∈ shop.carts.map (·.id) := hids ▸ List.mem_map_of_mem hc
      obtain ⟨old, hold, heq⟩ := List.mem_map.1 hmem'
      rw [← heq]
      exact hkeys.fresh old hold
  · cases h

theorem findByUserId_spec (h : shop.findByUserId userId = some cart) :
    cart ∈ shop.carts ∧ cart.userId = userId :=
  ⟨List.mem_of_find?_eq_some h, by simpa using List.find?_some h⟩

theorem findOrCreateCart_spec (hkeys : shop.Keys)
    (h : shop.findOrCreateCart userId = (shop', cart)) :
    OthersUnchanged shop shop' userId ∧ shop'.Keys ∧ cart ∈ shop'.carts ∧ cart.userId = userId := by
  unfold findOrCreateCart at h
  split at h
  · rename_i hfind
    cases h
    exact ⟨.refl _ _, hkeys, findByUserId_spec hfind⟩
  · cases h
    refine ⟨fun other hne => ⟨?_, rfl⟩, ⟨?_, ?_⟩, by simp, rfl⟩
    · simp [cartsOf, Ne.symm hne]
    · simp only [List.map_append, List.map_cons, List.map_nil]
      refine List.Nodup.append hkeys.nodup (List.nodup_singleton _) ?_
      rw [List.disjoint_singleton]
      intro hmem
      obtain ⟨old, hold, hid⟩ := List.mem_map.1 hmem
      have := hkeys.fresh old hold
      omega
    · intro c hc
      rcases List.mem_append.1 hc with hc | hc
      · have := hkeys.fresh c hc
        simp only
        omega
      · rw [List.mem_singleton.1 hc]
        exact Nat.lt_succ_self _

theorem findCartItem_spec {itemId : Nat} {item : CartItem}
    (h : shop.findCartItem userId itemId = .ok (cart, item)) :
    cart ∈ shop.carts ∧ cart.userId = userId := by
  unfold findCartItem at h
  split at h
  · cases h
  · rename_i hfind
    split at h
    · cases h
    · cases h
      exact findByUserId_spec hfind

/-! ### The operations -/

theorem addToCart_othersUnchanged (hkeys : shop.Keys) {productId : Nat} {quantity : Int}
    {saved : Cart}
    (h : shop.addToCart userId productId quantity = .ok (shop', saved)) :
    OthersUnchanged shop shop' userId ∧ shop'.Keys := by
  unfold addToCart at h
  split at h
  · cases h
  · rename_i product _
    cases hc : shop.findOrCreateCart userId with
    | mk shop₁ cart =>
      obtain ⟨hframe, hkeys₁, hmem, huser⟩ := findOrCreateCart_spec hkeys hc
      rw [hc] at h
      dsimp only at h
      split at h
      · obtain ⟨hframe', hkeys'⟩ := saveCart_othersUnchanged hkeys₁ hmem huser h rfl rfl
        exact ⟨hframe.trans hframe', hkeys'⟩
      · have hkeys₂ : ({ shop₁ with nextItemId := shop₁.nextItemId + 1 } : Shop).Keys :=
          ⟨hkeys₁.nodup, hkeys₁.fresh⟩
        obtain ⟨hframe', hkeys'⟩ := saveCart_othersUnchanged hkeys₂ hmem huser h rfl rfl
        exact ⟨hframe.trans hframe', hkeys'⟩

theorem updateCartItemQuantity_othersUnchanged (hkeys : shop.Keys) {itemId : Nat} {quantity : Int}
    {saved : Cart} (h : shop.updateCartItemQuantity userId itemId quantity = .ok (shop', saved)) :
    OthersUnchanged shop shop' userId ∧ shop'.Keys := by
  unfold updateCartItemQuantity at h
  split at h
  · cases h
  · rename_i hfind
    obtain ⟨hmem, huser⟩ := findCartItem_spec hfind
    split at h
    · exact saveCart_othersUnchanged hkeys hmem huser h rfl rfl
    · exact saveCart_othersUnchanged hkeys hmem huser h rfl rfl

theorem removeFromCart_othersUnchanged (hkeys : shop.Keys) {itemId : Nat} {saved : Cart}
    (h : shop.removeFromCart userId itemId = .ok (shop', saved)) :
    OthersUnchanged shop shop' userId ∧ shop'.Keys := by
  unfold removeFromCart at h
  split at h
  · cases h
  · rename_i hfind
    obtain ⟨hmem, huser⟩ := findCartItem_spec hfind
    exact saveCart_othersUnchanged hkeys hmem huser h rfl rfl

theorem clearCart_othersUnchanged (hkeys : shop.Keys) {saved : Cart}
    (h : shop.clearCart userId = .ok (shop', saved)) :
    OthersUnchanged shop shop' userId ∧ shop'.Keys := by
  unfold clearCart at h
  split at h
  · cases h
  · rename_i hfind
    obtain ⟨hmem, huser⟩ := findByUserId_spec hfind
    exact saveCart_othersUnchanged hkeys hmem huser h rfl rfl

theorem createOrder_othersUnchanged (hkeys : shop.Keys) {shipping : Shipping} {order : Order}
    (h : shop.createOrder userId shipping = .ok (shop', order)) :
    OthersUnchanged shop shop' userId ∧ shop'.Keys := by
  unfold createOrder at h
  split at h
  · cases h
  · rename_i cart hfind
    obtain ⟨hmem, huser⟩ := findByUserId_spec hfind
    split at h
    · cases h
    · dsimp only at h
      split at h
      · generalize hshop : ({ shop with
          orders := shop.orders ++ [buildOrder shop.nextOrderId userId shipping cart.items],
          nextOrderId := shop.nextOrderId + 1 } : Shop) = shop₁ at h
        have hcarts : shop₁.carts = shop.carts := by rw [← hshop]
        have hkeys₁ : shop₁.Keys := by
          rw [← hshop]
          exact ⟨hkeys.nodup, hkeys.fresh⟩
        have hframe : OthersUnchanged shop shop₁ userId := by
          intro other hne
          rw [← hshop]
          exact ⟨rfl, by simp [ordersOf, buildOrder, Ne.symm hne]⟩
        cases hs : shop₁.saveCart cart.clearItems with
        | error e =>
          rw [hs] at h
          cases h
        | ok r =>
          rw [hs] at h
          cases h
          obtain ⟨hframe', hkeys'⟩ :=
            saveCart_othersUnchanged hkeys₁ (hcarts ▸ hmem) huser hs rfl rfl
          exact ⟨hframe.trans hframe', hkeys'⟩
      · cases h

/-- `updateOrderStatus` changes the orders with the id, whoever they belong to. -/
theorem updateOrderStatus_othersUnchanged_iff (userId : Nat) {orderId : Nat} {status : OrderStatus}
    {order : Order}
    (h : shop.updateOrderStatus orderId status = .ok (shop', order)) :
    OthersUnchanged shop shop' userId ↔
      ∀ o ∈ shop.orders, o.id = orderId → o.userId ≠ userId → o.status = status := by
  unfold updateOrderStatus at h
  split at h
  · cases h
  · cases h
    have hframe : ∀ other,
      (shop.orders.map fun o => if o.id = orderId then { o with status } else o).filter
        (fun o => decide (o.userId = other)) =
        (shop.ordersOf other).map fun o => if o.id = orderId then { o with status } else o := by
      intro other
      rw [List.filter_map, ordersOf]
      congr 1
      refine List.filter_congr fun o _ => ?_
      simp only [Function.comp]
      split <;> rfl
    constructor
    · intro hsame o ho hid hne
      obtain ⟨-, horders⟩ := hsame o.userId hne
      have hmap := (hframe o.userId).symm.trans horders
      have hmem : o ∈ shop.ordersOf o.userId := List.mem_filter.2 ⟨ho, by simp⟩
      have ho' := List.map_inj_left.1 (hmap.trans (List.map_id _).symm) o hmem
      rw [if_pos hid] at ho'
      exact congrArg Order.status ho'.symm
    · intro hall other hne
      refine ⟨rfl, (hframe other).trans ?_⟩
      refine (List.map_congr_left fun o ho => ?_).trans (List.map_id _)
      obtain ⟨ho, howner⟩ := List.mem_filter.1 ho
      split
      · rename_i hid
        have howner := of_decide_eq_true howner
        rw [← hall o ho hid (howner ▸ hne)]
        rfl
      · rfl

/-! ### The endpoints -/

/-- What a request of any other endpoint leaves. -/
theorem run_othersUnchanged (hkeys : shop.Keys) {request : ShopRequest} {reply : ShopReply}
    (hrequest : ∀ orderId status, request ≠ .updateOrderStatus orderId status)
    (h : shop.run userId request = .ok (shop', reply)) :
    OthersUnchanged shop shop' userId ∧ shop'.Keys := by
  cases request with
  | addToCart productId quantity =>
    simp only [run] at h
    split at h
    · cases h
    · obtain ⟨⟨_, _⟩, hr, heq⟩ := exists_of_map_ok h
      cases heq
      exact addToCart_othersUnchanged hkeys hr
  | updateCartItem itemId quantity =>
    obtain ⟨⟨_, _⟩, hr, heq⟩ := exists_of_map_ok h
    cases heq
    exact updateCartItemQuantity_othersUnchanged hkeys hr
  | removeFromCart itemId =>
    obtain ⟨⟨_, _⟩, hr, heq⟩ := exists_of_map_ok h
    cases heq
    exact removeFromCart_othersUnchanged hkeys hr
  | clearCart =>
    obtain ⟨⟨_, _⟩, hr, heq⟩ := exists_of_map_ok h
    cases heq
    exact clearCart_othersUnchanged hkeys hr
  | createOrder shipping paymentMethod =>
    simp only [run] at h
    split at h
    · cases h
    · obtain ⟨⟨_, _⟩, hr, heq⟩ := exists_of_map_ok h
      cases heq
      exact createOrder_othersUnchanged hkeys hr
  | getCart =>
    cases h
    exact ⟨.refl _ _, hkeys⟩
  | getUserOrders =>
    cases h
    exact ⟨.refl _ _, hkeys⟩
  | getOrder orderId =>
    obtain ⟨_, hr, heq⟩ := exists_of_map_ok h
    cases heq
    exact ⟨.refl _ _, hkeys⟩
  | updateOrderStatus orderId status => exact absurd rfl (hrequest orderId status)

theorem findOrder_isSome {orderId : Nat} {order : Order} (hmem : order ∈ shop.orders)
    (hid : order.id = orderId) (status : OrderStatus) :
    ∃ r, shop.updateOrderStatus orderId status = .ok r := by
  unfold updateOrderStatus
  cases hfind : shop.findOrder orderId with
  | none =>
    have := List.find?_eq_none.1 hfind order hmem
    simp [hid] at this
  | some found => exact ⟨_, rfl⟩

/-- A request leaves the carts and orders of every other user as they are if and only if it is not
the update of the status of someone else's order to a new one. -/
theorem others_unchanged_iff (shop : Shop) (hkeys : shop.Keys) (userId : Nat)
    (request : ShopRequest) :
    OthersUnchanged shop (shop.after userId request) userId ↔
      ¬ shop.ChangesForeignOrder userId request := by
  cases request with
  | updateOrderStatus orderId status =>
    simp only [ChangesForeignOrder, after, run]
    cases hr : shop.updateOrderStatus orderId status with
    | error e =>
      refine iff_of_true (.refl _ _) ?_
      rintro ⟨order, hmem, hid, -⟩
      obtain ⟨r, hok⟩ := findOrder_isSome hmem hid status
      rw [hr] at hok
      cases hok
    | ok r =>
      have hiff := updateOrderStatus_othersUnchanged_iff userId hr
      simp only [Except.map]
      rw [hiff]
      constructor
      · rintro h ⟨order, hmem, hid, hne, hstatus⟩
        exact hstatus (h order hmem hid hne)
      · intro h order hmem hid hne
        by_contra hstatus
        exact h ⟨order, hmem, hid, hne, hstatus⟩
  | _ =>
    refine iff_of_true ?_ id
    unfold after
    split
    · exact .refl _ _
    · rename_i hr
      exact (run_othersUnchanged hkeys (fun _ _ heq => by cases heq) hr).1

/-- The keys stay, so every shop that requests lead to has them. -/
theorem Keys.after (hkeys : shop.Keys) (userId : Nat) (request : ShopRequest) :
    (shop.after userId request).Keys := by
  unfold Shop.after
  split
  · exact hkeys
  · rename_i shop' reply hr
    by_cases hrequest : ∃ orderId status, request = .updateOrderStatus orderId status
    · obtain ⟨orderId, status, rfl⟩ := hrequest
      obtain ⟨⟨_, _⟩, hu, heq⟩ := exists_of_map_ok hr
      cases heq
      unfold updateOrderStatus at hu
      split at hu
      · cases hu
      · cases hu
        exact ⟨hkeys.nodup, hkeys.fresh⟩
    · exact (run_othersUnchanged hkeys (fun orderId status heq => hrequest ⟨orderId, status, heq⟩)
        hr).2

end Shop

/-! ### The order of user 2 -/

def shopOfTwo : Shop where
  products := [⟨5, 1000⟩]
  carts := [{ id := 1, userId := 2 }, { id := 2, userId := 1, items := [⟨1, 5, 2, 1000⟩] }]
  orders := [⟨1, 2, .pending, 1000, { shippingAddress := "Seoul" }, [⟨5, 1, 1000, 1000⟩]⟩]
  nextCartId := 3
  nextItemId := 2
  nextOrderId := 2

theorem shopOfTwo_keys : shopOfTwo.Keys := ⟨by decide, by decide⟩

/-- User 1 cancels it. -/
theorem foreign_order_cancelled :
    ¬ ∀ (shop : Shop) (userId : Nat) (request : ShopRequest), shop.Keys →
      Shop.OthersUnchanged shop (shop.after userId request) userId := by
  intro h
  obtain ⟨-, horders⟩ :=
    h shopOfTwo 1 (.updateOrderStatus 1 .cancelled) shopOfTwo_keys 2 (by decide)
  revert horders
  decide

theorem own_order_leaves_others :
    shopOfTwo.Keys ∧
      (Shop.OthersUnchanged shopOfTwo
          (shopOfTwo.after 1 (.createOrder { shippingAddress := "Busan" } "CARD")) 1 ↔
        ¬ shopOfTwo.ChangesForeignOrder 1 (.createOrder { shippingAddress := "Busan" } "CARD")) :=
  ⟨shopOfTwo_keys, Shop.others_unchanged_iff shopOfTwo shopOfTwo_keys 1 _⟩

end Portfolio.Sagaline
