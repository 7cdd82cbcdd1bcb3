import Portfolio.Sagaline.OrderEvents

/-!
# The order of events

For which calls the events of an order are handled in order, and `OrderConfirmed` is published once
(`in_order_and_once_iff`): the broker keeps the order within a partition only, and an order that has
left `CONFIRMED` publishes the event again when it comes back.
-/

namespace Portfolio.Sagaline

/-! ### Requests and orders -/

namespace Shop
variable {shop shop' : Shop} {userId : Nat}

theorem saveCart_orders {cart saved : Cart} (h : shop.saveCart cart = .ok (shop', saved)) :
    shop'.orders = shop.orders := by
  unfold saveCart at h
  split at h
  · obtain ⟨rfl, -⟩ := Prod.mk.inj (Except.ok.inj h)
    rfl
  · cases h

theorem findOrCreateCart_orders (shop : Shop) (userId : Nat) :
    (shop.findOrCreateCart userId).1.orders = shop.orders := by
  unfold findOrCreateCart
  split <;> rfl

theorem addToCart_orders {productId : Nat} {quantity : Int} {cart : Cart}
    (h : shop.addToCart userId productId quantity = .ok (shop', cart)) :
    shop'.orders = shop.orders := by
  unfold addToCart at h
  split at h
  · cases h
  · rw [← findOrCreateCart_orders shop userId]
    dsimp only at h
    split at h
    · exact saveCart_orders h
    · have horders := saveCart_orders h
      exact horders

theorem updateCartItemQuantity_orders {itemId : Nat} {quantity : Int} {cart : Cart}
    (h : shop.updateCartItemQuantity userId itemId quantity = .ok (shop', cart)) :
    shop'.orders = shop.orders := by
  unfold updateCartItemQuantity at h
  split at h
  · cases h
  · split at h
    · exact saveCart_orders h
    · exact saveCart_orders h

theorem removeFromCart_orders {itemId : Nat} {cart : Cart}
    (h : shop.removeFromCart userId itemId = .ok (shop', cart)) : shop'.orders = shop.orders := by
  unfold removeFromCart at h
  split at h
  · cases h
  · exact saveCart_orders h

theorem clearCart_orders {cart : Cart} (h : shop.clearCart userId = .ok (shop', cart)) :
    shop'.orders = shop.orders := by
  unfold clearCart at h
  split at h
  · cases h
  · exact saveCart_orders h

theorem createOrder_orders {shipping : Shipping} {order : Order}
    (h : shop.createOrder userId shipping = .ok (shop', order)) :
    shop'.orders = shop.orders ++ [order] ∧ order.status = .pending := by
  unfold createOrder at h
  split at h
  · cases h
  · split at h
    · cases h
    · dsimp only at h
      split at h
      · obtain ⟨⟨shop'', cart⟩, hsave, heq⟩ := exists_of_map_ok h
        obtain ⟨rfl, rfl⟩ := Prod.mk.inj heq
        exact ⟨saveCart_orders hsave, rfl⟩
      · cases h

/-- What a request does to the orders: `createOrder` adds one that is `PENDING`, `updateOrderStatus`
changes a status. -/
theorem run_orders {request : ShopRequest} {reply : ShopReply}
    (h : shop.run userId request = .ok (shop', reply)) :
    shop'.orders = shop.orders ∨
      (∃ order : Order, order.status = .pending ∧ shop'.orders = shop.orders ++ [order]) ∨
      ∃ orderId status, request = .updateOrderStatus orderId status ∧
        shop'.orders = shop.orders.map fun o =>
          if o.id = orderId then { o with status := status } else o := by
  cases request with
  | addToCart productId quantity =>
    simp only [run] at h
    split at h
    · cases h
    · obtain ⟨⟨shop'', cart⟩, hadd, heq⟩ := exists_of_map_ok h
      obtain ⟨rfl, -⟩ := Prod.mk.inj heq
      exact .inl (addToCart_orders hadd)
  | getCart =>
    obtain ⟨rfl, -⟩ := Prod.mk.inj (Except.ok.inj h)
    exact .inl rfl
  | updateCartItem itemId quantity =>
    obtain ⟨⟨shop'', cart⟩, hupdate, heq⟩ := exists_of_map_ok h
    obtain ⟨rfl, -⟩ := Prod.mk.inj heq
    exact .inl (updateCartItemQuantity_orders hupdate)
  | removeFromCart itemId =>
    obtain ⟨⟨shop'', cart⟩, hremove, heq⟩ := exists_of_map_ok h
    obtain ⟨rfl, -⟩ := Prod.mk.inj heq
    exact .inl (removeFromCart_orders hremove)
  | clearCart =>
    obtain ⟨⟨shop'', cart⟩, hclear, heq⟩ := exists_of_map_ok h
    obtain ⟨rfl, -⟩ := Prod.mk.inj heq
    exact .inl (clearCart_orders hclear)
  | createOrder shipping paymentMethod =>
    simp only [run] at h
    split at h
    · cases h
    · obtain ⟨⟨shop'', order⟩, hcreate, heq⟩ := exists_of_map_ok h
      obtain ⟨rfl, -⟩ := Prod.mk.inj heq
      obtain ⟨horders, hstatus⟩ := createOrder_orders hcreate
      exact .inr (.inl ⟨order, hstatus, horders⟩)
  | getUserOrders =>
    obtain ⟨rfl, -⟩ := Prod.mk.inj (Except.ok.inj h)
    exact .inl rfl
  | getOrder orderId =>
    obtain ⟨order, -, heq⟩ := exists_of_map_ok h
    obtain ⟨rfl, -⟩ := Prod.mk.inj heq
    exact .inl rfl
  | updateOrderStatus orderId status =>
    obtain ⟨⟨shop'', order⟩, hupdate, heq⟩ := exists_of_map_ok h
    obtain ⟨rfl, -⟩ := Prod.mk.inj heq
    unfold updateOrderStatus at hupdate
    split at hupdate
    · cases hupdate
    · obtain ⟨rfl, -⟩ := Prod.mk.inj (Except.ok.inj hupdate)
      exact .inr (.inr ⟨orderId, status, rfl, rfl⟩)

theorem findOrder_of_map {orderId : Nat} {f : Order → Order} (hf : ∀ o, (f o).id = o.id)
    (h : shop'.orders = shop.orders.map f) :
    shop'.findOrder orderId = (shop.findOrder orderId).map f := by
  simp only [findOrder, h, List.find?_map, Function.comp_def, hf]

/-- An order is confirmed by the request that publishes the event. -/
theorem event_isConfirmation_iff {call : ShopCall} {orderId : Nat} :
    (∃ event, shop.event call = some event ∧ event.isConfirmation orderId = true) ↔
      call.request = .updateOrderStatus orderId .confirmed ∧
        ∃ order, shop.findOrder orderId = some order ∧ order.status ≠ .confirmed := by
  constructor
  · rintro ⟨event, hevent, hconf⟩
    unfold Shop.event at hevent
    split at hevent
    · split at hevent
      · obtain rfl := Option.some.inj hevent
        simp [OrderEvent.isConfirmation, OrderEvent.created] at hconf
      · cases hevent
    · rename_i k newStatus hrequest
      split at hevent
      · cases hevent
      · rename_i order hfind
        split at hevent
        · rename_i hstatus
          simp only [Bool.and_eq_true, decide_eq_true_eq] at hstatus
          obtain rfl := Option.some.inj hevent
          have hid : order.id = k := by simpa using List.find?_some hfind
          obtain rfl : k = orderId := by
            simpa [OrderEvent.isConfirmation, OrderEvent.confirmed, hid] using hconf
          rw [hrequest, hstatus.1]
          exact ⟨rfl, order, hfind, hstatus.2⟩
        · cases hevent
    · cases hevent
  · rintro ⟨hrequest, order, hfind, hstatus⟩
    have hid : order.id = orderId := by simpa using List.find?_some hfind
    refine ⟨.confirmed call.eventId { order with status := .confirmed } .confirmed, ?_, ?_⟩
    · simp [Shop.event, hrequest, hfind, hstatus]
    · simp [OrderEvent.isConfirmation, OrderEvent.confirmed, hid]

theorem after_isConfirmed_of_event {call : ShopCall} {orderId : Nat} {event : OrderEvent}
    (h : shop.event call = some event) (hconf : event.isConfirmation orderId = true) :
    (shop.after call.userId call.request).isConfirmed orderId = true := by
  obtain ⟨hrequest, order, hfind, -⟩ := event_isConfirmation_iff.1 ⟨event, h, hconf⟩
  have hid : order.id = orderId := by simpa using List.find?_some hfind
  rw [hrequest]
  simp only [after, run, updateOrderStatus, hfind, Except.map]
  rw [isConfirmed, findOrder_of_map (f := fun o =>
    if o.id = orderId then { o with status := .confirmed } else o) (fun o => by split <;> rfl) rfl]
  simp [hfind, hid]

/-- A request that makes an order `CONFIRMED` publishes the event. -/
theorem isConfirmed_of_after {call : ShopCall} {orderId : Nat}
    (h : (shop.after call.userId call.request).isConfirmed orderId = true) :
    shop.isConfirmed orderId = true ∨
      ∃ event, shop.event call = some event ∧ event.isConfirmation orderId = true := by
  unfold after at h
  split at h
  · exact .inl h
  · rename_i shop' reply hrun
    rcases run_orders hrun with hsame | ⟨order, hstatus, hnew⟩ | ⟨k, status, hrequest, hupdate⟩
    · rw [isConfirmed, findOrder, hsame] at h
      exact .inl h
    · rw [isConfirmed, findOrder, hnew, List.find?_append] at h
      refine .inl ?_
      rw [isConfirmed, findOrder]
      cases hfind : shop.orders.find? (·.id = orderId) with
      | some o =>
        rw [hfind] at h
        exact h
      | none =>
        rw [hfind] at h
        simp only [List.find?_singleton, Option.none_or] at h
        split at h
        · simp [hstatus] at h
        · cases h
    · rw [isConfirmed, findOrder_of_map (fun o => by split <;> rfl) hupdate] at h
      cases hfind : shop.findOrder orderId with
      | none =>
        rw [hfind] at h
        cases h
      | some order =>
        have hid : order.id = orderId := by simpa using List.find?_some hfind
        rw [hfind] at h
        by_cases hstatus : order.status = .confirmed
        · exact .inl (by simp [isConfirmed, hfind, hstatus])
        · refine .inr (event_isConfirmation_iff.2 ⟨?_, order, hfind, hstatus⟩)
          by_cases hk : orderId = k
          · subst hk
            obtain rfl : status = .confirmed := by simpa [hid] using h
            exact hrequest
          · simp [hid, hk, hstatus] at h

end Shop

/-! ### Confirmations -/

section Confirmations
variable (products : List Product)

theorem confirmations_step (shop : Shop) (call : ShopCall) (orderId : Nat) :
    confirmations orderId ((orderService products).step shop call).2 =
      if (shop.event call).any (·.isConfirmation orderId) then 1 else 0 := by
  cases hevent : shop.event call with
  | none => simp [confirmations, orderService, hevent]
  | some event => simp [confirmations, orderService, hevent, List.countP_singleton]

theorem confirmations_concat (calls : List ShopCall) (call : ShopCall) (orderId : Nat) :
    confirmations orderId ((orderService products).run (calls ++ [call])).2 =
      confirmations orderId ((orderService products).run calls).2 +
        if (((orderService products).run calls).1.event call).any (·.isConfirmation orderId)
        then 1 else 0 := by
  rw [Machine.run_concat, ← confirmations_step products]
  exact List.countP_append

/-- An event was published for each order that has ever been `CONFIRMED`, and for no other. -/
theorem confirmations_pos_iff (calls : List ShopCall) (orderId : Nat) :
    0 < confirmations orderId ((orderService products).run calls).2 ↔
      ∃ earlier, earlier <+: calls ∧
        ((orderService products).run earlier).1.isConfirmed orderId = true := by
  induction calls using List.reverseRecOn with
  | nil =>
    constructor
    · intro h
      exact absurd h (Nat.lt_irrefl 0)
    · rintro ⟨earlier, hle, hconf⟩
      obtain rfl := List.prefix_nil.1 hle
      cases hconf
  | append_singleton calls call ih =>
    rw [confirmations_concat]
    constructor
    · intro h
      by_cases hold : 0 < confirmations orderId ((orderService products).run calls).2
      · obtain ⟨earlier, hle, hconf⟩ := ih.1 hold
        exact ⟨earlier, hle.trans (List.prefix_append ..), hconf⟩
      · split at h
        · rename_i hevent
          obtain ⟨event, hevent, hconf⟩ := (Option.any_eq_true _ _).1 hevent
          refine ⟨calls ++ [call], List.prefix_refl _, ?_⟩
          rw [Machine.run_concat]
          exact Shop.after_isConfirmed_of_event hevent hconf
        · omega
    · rintro ⟨earlier, hle, hconf⟩
      rcases List.prefix_concat_iff.1 hle with rfl | hle
      · rw [Machine.run_concat] at hconf
        rcases Shop.isConfirmed_of_after hconf with hold | ⟨event, hevent, hnew⟩
        · have := ih.2 ⟨calls, List.prefix_refl _, hold⟩
          omega
        · simp [hevent, hnew]
      · have := ih.2 ⟨earlier, hle, hconf⟩
        omega

theorem neverReconfirmed_concat {calls : List ShopCall} {call : ShopCall} :
    NeverReconfirmed products (calls ++ [call]) ↔ NeverReconfirmed products calls ∧
      ∀ orderId, (((orderService products).run calls).1.event call).any
          (·.isConfirmation orderId) = true →
        confirmations orderId ((orderService products).run calls).2 = 0 := by
  have hzero : ∀ orderId, confirmations orderId ((orderService products).run calls).2 = 0 ↔
      ∀ earlier, earlier <+: calls →
        ((orderService products).run earlier).1.isConfirmed orderId = false := by
    intro orderId
    rw [← Nat.le_zero_eq, ← Nat.not_lt, confirmations_pos_iff]
    simp only [not_exists, not_and, Bool.not_eq_true]
  constructor
  · intro h
    refine ⟨fun pre c post hcalls => h pre c (post ++ [call]) (by simp [hcalls]),
      fun orderId hany => ?_⟩
    obtain ⟨hrequest, order, hfind, hstatus⟩ :=
      Shop.event_isConfirmation_iff.1 ((Option.any_eq_true _ _).1 hany)
    exact (hzero orderId).2 (h calls call [] rfl orderId order hrequest hfind hstatus)
  · rintro ⟨h, hlast⟩ pre c post hcalls orderId order hrequest hfind hstatus
    rcases concat_eq_append_cons.1 hcalls with ⟨rfl, rfl, -⟩ | ⟨post', -, hcalls⟩
    · refine (hzero orderId).1 (hlast orderId ?_)
      exact (Option.any_eq_true _ _).2
        (Shop.event_isConfirmation_iff.2 ⟨hrequest, order, hfind, hstatus⟩)
    · exact h pre c post' hcalls orderId order hrequest hfind hstatus

theorem confirmedOnce_iff (calls : List ShopCall) :
    ConfirmedOnce ((orderService products).run calls).2 ↔ NeverReconfirmed products calls := by
  induction calls using List.reverseRecOn with
  | nil =>
    constructor
    · intro _ pre call post h
      simp at h
    · intro _ orderId
      exact Nat.zero_le 1
  | append_singleton calls call ih =>
    rw [neverReconfirmed_concat, ← ih]
    constructor
    · intro h
      refine ⟨fun orderId => ?_, fun orderId hany => ?_⟩
      · have := h orderId
        rw [confirmations_concat] at this
        omega
      · have := h orderId
        rw [confirmations_concat, if_pos hany] at this
        omega
    · rintro ⟨h, hlast⟩ orderId
      have := h orderId
      rw [confirmations_concat]
      split
      · rename_i hany
        have := hlast orderId hany
        omega
      · omega

end Confirmations

/-! ### Runs with Kafka -/

section Runs
variable {π : Type} [DecidableEq π] (partition : String → π)

def sentEvents (events : List (OrderEvent × Bool)) : List OrderEvent :=
  (events.filter (·.2)).map (·.1)

theorem foldl_publish_log (events : List (OrderEvent × Bool)) (topic : Topic π OrderEvent) :
    (events.foldl (publish partition) topic).log = topic.log ++ sentEvents events := by
  induction events generalizing topic with
  | nil => simp [sentEvents]
  | cons event events ih =>
    obtain ⟨event, sent⟩ := event
    rw [List.foldl_cons, ih]
    cases sent with
    | false => simp [publish, sentEvents]
    | true => simp [publish, Topic.send, sentEvents]

theorem foldl_publish_handled (events : List (OrderEvent × Bool)) (topic : Topic π OrderEvent) :
    (events.foldl (publish partition) topic).handled = topic.handled := by
  induction events generalizing topic with
  | nil => rfl
  | cons event events ih =>
    rw [List.foldl_cons, ih]
    unfold publish
    split <;> rfl

theorem foldl_publish_kept (events : List (OrderEvent × Bool)) {topic : Topic π OrderEvent}
    (h : Topic.Kept (messagePartition partition) topic) :
    Topic.Kept (messagePartition partition) (events.foldl (publish partition) topic) := by
  induction events generalizing topic with
  | nil => exact h
  | cons event events ih =>
    refine ih ?_
    unfold publish
    split
    · exact h.send event.1
    · exact h

theorem broker_step_request (products : List Product) (s : Broker π) (call : ShopCall) :
    (broker partition products).step s (.request call) =
      (⟨((orderService products).step s.shop call).1,
        s.published ++ ((orderService products).step s.shop call).2,
        ((orderService products).step s.shop call).2.foldl (publish partition) s.topic⟩, []) := rfl

/-- The broker does not matter to the service, and keeps the order within each partition. -/
theorem broker_run (products : List Product) (acts : List (BrokerAct π)) :
    ((broker partition products).run acts).1.shop =
        ((orderService products).run (acts.filterMap BrokerAct.call)).1 ∧
      ((broker partition products).run acts).1.published =
        ((orderService products).run (acts.filterMap BrokerAct.call)).2 ∧
      ((broker partition products).run acts).1.topic.log =
        sentEvents ((orderService products).run (acts.filterMap BrokerAct.call)).2 ∧
      Topic.Kept (messagePartition partition) ((broker partition products).run acts).1.topic := by
  induction acts using List.reverseRecOn with
  | nil => exact ⟨rfl, rfl, rfl, Topic.kept_empty _⟩
  | append_singleton acts act ih =>
    obtain ⟨hshop, hpublished, hlog, hkept⟩ := ih
    rw [Machine.run_concat, List.filterMap_append]
    cases act with
    | request call =>
      have hcalls : [BrokerAct.request (π := π) call].filterMap BrokerAct.call = [call] := rfl
      rw [hcalls, Machine.run_concat, broker_step_request, hshop, hpublished]
      refine ⟨rfl, rfl, ?_, foldl_publish_kept partition _ hkept⟩
      rw [foldl_publish_log, hlog]
      simp [sentEvents]
    | consume p =>
      have hcalls : [BrokerAct.consume p].filterMap BrokerAct.call = [] := rfl
      rw [hcalls, List.append_nil]
      exact ⟨hshop, hpublished, (Topic.consume_log ..).trans hlog, hkept.consume p⟩

theorem mem_sentEvents {events : List (OrderEvent × Bool)} {event : OrderEvent} :
    event ∈ sentEvents events ↔ (event, true) ∈ events := by
  simp [sentEvents]

/-- Nothing is handled before it is consumed. -/
theorem broker_run_requests (products : List Product) (calls : List ShopCall) :
    ((broker partition products).run (calls.map .request)).1.topic.handled = [] := by
  induction calls using List.reverseRecOn with
  | nil => rfl
  | append_singleton calls call ih =>
    rw [List.map_append, List.map_singleton, Machine.run_concat, broker_step_request]
    exact (foldl_publish_handled ..).trans ih

theorem foldl_step_consume (products : List Product) (ps : List π) (s : Broker π) :
    ((ps.map BrokerAct.consume).foldl (fun s act => ((broker partition products).step s act).1)
      s).topic =
      ps.foldl Topic.consume s.topic := by
  induction ps generalizing s with
  | nil => rfl
  | cons p ps ih => exact ih _

/-- All requests, and then everything in one partition. -/
def requestsThenDrain (products : List Product) (calls : List ShopCall) (p : π) :
    List (BrokerAct π) :=
  let queue := ((broker partition products).run (calls.map .request)).1.topic.queues p
  calls.map .request ++ (List.replicate queue.length p).map .consume

theorem requestsThenDrain_calls (products : List Product) (calls : List ShopCall) (p : π) :
    (requestsThenDrain partition products calls p).filterMap BrokerAct.call = calls := by
  simp [requestsThenDrain, List.filterMap_map, Function.comp_def, BrokerAct.call]

theorem requestsThenDrain_topic (products : List Product) (calls : List ShopCall) (p : π) :
    ((broker partition products).run (requestsThenDrain partition products calls p)).1.topic =
      ((broker partition products).run (calls.map .request)).1.topic.drain p := by
  rw [requestsThenDrain, Machine.run_append_fst, foldl_step_consume]
  rfl

/-- The events of each order are handled in order, however fast the partitions are consumed, and
`OrderConfirmed` is published once at most, exactly if the ids of the events of one order have the
same partition and no order is confirmed again. -/
theorem in_order_and_once_iff (products : List Product) (calls : List ShopCall) :
    (∀ acts : List (BrokerAct π), acts.filterMap BrokerAct.call = calls →
      InOrder ((broker partition products).run acts).1 ∧
        ConfirmedOnce ((broker partition products).run acts).1.published) ↔
    SamePartition partition ((orderService products).run calls).2 ∧
      NeverReconfirmed products calls := by
  constructor
  · intro h
    have hrequests : (calls.map (BrokerAct.request (π := π))).filterMap BrokerAct.call = calls := by
      simp [List.filterMap_map, Function.comp_def, BrokerAct.call]
    obtain ⟨-, hpublished, hlog, hkept⟩ := broker_run partition products (calls.map .request)
    rw [hrequests] at hpublished hlog
    refine ⟨?_, ?_⟩
    · rintro ⟨event, _⟩ hevent ⟨event', _⟩ hevent' rfl rfl hid
      by_contra hne
      obtain ⟨p, hp⟩ := Topic.not_filter_drain hkept (broker_run_requests partition products calls)
        (q := (·.orderId = event.orderId)) (a := event) (b := event')
        (hlog ▸ mem_sentEvents.2 hevent) (hlog ▸ mem_sentEvents.2 hevent') (by simp)
        (by simpa using hid.symm) hne
      -- all requests first, and then that partition
      have hacts := requestsThenDrain_calls partition products calls p
      have hle := (h _ hacts).1 event.orderId
      obtain ⟨-, -, hlog', -⟩ :=
        broker_run partition products (requestsThenDrain partition products calls p)
      rw [hlog', hacts, ← hlog, requestsThenDrain_topic] at hle
      exact hp hle
    · rw [← confirmedOnce_iff, ← hpublished]
      exact (h _ hrequests).2
  · rintro ⟨hsame, hnever⟩ acts rfl
    obtain ⟨-, hpublished, hlog, hkept⟩ := broker_run partition products acts
    refine ⟨fun orderId => hkept.filter_handled fun a ha b hb hqa hqb => ?_, ?_⟩
    · rw [hlog, mem_sentEvents] at ha hb
      refine hsame _ ha _ hb rfl rfl ?_
      exact (of_decide_eq_true hqa).trans (of_decide_eq_true hqb).symm
    · rw [hpublished, confirmedOnce_iff]
      exact hnever

end Runs

/-- One order, which is confirmed. -/
def confirmedOrder : List ShopCall :=
  [⟨1, .addToCart 5 1, "", true⟩,
    ⟨1, .createOrder { shippingAddress := "Seoul" } "CARD", "a", true⟩,
   ⟨1, .updateOrderStatus 1 .confirmed, "b", true⟩]

/-- It is cancelled, and confirmed once more. -/
def confirmedAgain : List ShopCall :=
  confirmedOrder ++
    [⟨1, .updateOrderStatus 1 .cancelled, "c", true⟩,
      ⟨1, .updateOrderStatus 1 .confirmed, "d", true⟩]

theorem confirmation_overtakes_and_repeats :
    (¬ ∀ (partition : String → Fin 3) (products : List Product) (acts : List (BrokerAct (Fin 3))),
      InOrder ((broker partition products).run acts).1) ∧
    ¬ ∀ (partition : String → Fin 3) (products : List Product) (acts : List (BrokerAct (Fin 3))),
      ConfirmedOnce ((broker partition products).run acts).1.published := by
  constructor
  · intro h
    have := h (fun eventId => if eventId = "a" then 0 else 1) [⟨5, 1000⟩]
      (confirmedOrder.map .request ++ [.consume 1]) 1
    revert this
    decide +kernel
  · intro h
    have := h (fun _ => 0) [⟨5, 1000⟩] (confirmedAgain.map .request) 1
    revert this
    decide +kernel

end Portfolio.Sagaline
