import Mathlib.Algebra.Ring.Int.Defs
import Portfolio.Orders.OrderService

/-!
# The life of an order

`updateOrderStatus` looks at the user of an order and never at its status: the status is what the last
request of its user asked for, and every such request sends its own event.
-/

namespace Portfolio.Orders

section Requests
variable {ν : Type}

/-- The change that the request asks of the order, if it comes from its user. -/
def OrderRequest.asks (id userId : Int) : OrderRequest ν → Option (NewStatus × Env ν)
  | .create _ _ _ => none
  | .update orderId user newStatus env =>
    if orderId = id ∧ user = userId then some (newStatus, env) else none

/-- The status after the requests since the order was created. -/
def statusAfter (id userId : Int) (requests : List (OrderRequest ν)) : OrderStatus :=
  match (requests.filterMap (·.asks id userId)).getLast? with
  | none => .pending
  | some change => change.1.status

/-- One event for each of them that Kafka takes. -/
def statusEvents (enabled : Bool) (id : Int) (order : Order ν) (requests : List (OrderRequest ν)) :
    List (OrderEvent ν) :=
  (requests.filterMap (·.asks id order.userId)).flatMap fun change =>
    publish enabled change.2 (orderEvent change.2 change.1.eventType id order)

/-- The order was created by one of the requests. Its status and its events are those of the later
ones. -/
def History (enabled : Bool) (requests : List (OrderRequest ν)) (events : List (OrderEvent ν))
    (id : Int)
    (order : Order ν) : Prop :=
  ∃ before items env after, requests = before ++ .create order.userId items env :: after ∧
    order.status = statusAfter id order.userId after ∧
    events.filter (·.orderId = id) =
      publish enabled env (orderEvent env .orderCreated id order) ++ statusEvents enabled id order after

variable {enabled : Bool} {requests : List (OrderRequest ν)} {events : List (OrderEvent ν)}
  {id : Int} {order : Order ν}

theorem filter_orderId_of_ne {more : List (OrderEvent ν)} (h : ∀ e ∈ more, e.orderId ≠ id) :
    more.filter (·.orderId = id) = [] := by
  simpa using h

theorem orderId_of_mem_publish {env : Env ν} {eventType : OrderEventType} {e : OrderEvent ν}
    (h : e ∈ publish enabled env (orderEvent env eventType id order)) : e.orderId = id := by
  rw [mem_publish h]
  rfl

theorem filter_orderId_publish (env : Env ν) (eventType : OrderEventType) :
    (publish enabled env (orderEvent env eventType id order)).filter (·.orderId = id) =
      publish enabled env (orderEvent env eventType id order) := by
  refine List.filter_eq_self.2 fun e he => ?_
  simpa using orderId_of_mem_publish he

/-- A request that does not ask for this order. -/
theorem History.other (h : History enabled requests events id order) {r : OrderRequest ν}
    (hr : r.asks id order.userId = none) {more : List (OrderEvent ν)}
    (hmore : ∀ e ∈ more, e.orderId ≠ id) :
    History enabled (requests ++ [r]) (events ++ more) id order := by
  obtain ⟨before, items, env, after, rfl, hstatus, hevents⟩ := h
  refine ⟨before, items, env, after ++ [r], by simp, ?_, ?_⟩
  · simpa [statusAfter, hr] using hstatus
  · rw [List.filter_append, hevents, filter_orderId_of_ne hmore]
    simp [statusEvents, hr]

/-- A request that does. -/
theorem History.asked (h : History enabled requests events id order) (newStatus : NewStatus)
    (env : Env ν) :
    History enabled (requests ++ [.update id order.userId newStatus env])
      (events ++ publish enabled env (orderEvent env newStatus.eventType id order)) id
      { order with status := newStatus.status } := by
  obtain ⟨before, items, env', after, rfl, -, hevents⟩ := h
  have hasks : OrderRequest.asks id order.userId (.update id order.userId newStatus env) =
      some (newStatus, env) := by
    simp [OrderRequest.asks]
  refine ⟨before, items, env', after ++ [.update id order.userId newStatus env], by simp, ?_, ?_⟩
  · simp [statusAfter, hasks]
  · rw [List.filter_append, hevents, filter_orderId_publish]
    simp only [statusEvents, List.filterMap_append, List.filterMap_cons_some hasks, List.filterMap_nil,
      List.flatMap_append, List.flatMap_cons, List.flatMap_nil, List.append_nil, List.append_assoc]
    rfl

structure LifecycleInv (enabled : Bool) (requests : List (OrderRequest ν))
    (events : List (OrderEvent ν))
    (s : OrderStore ν) : Prop where
  ids : ∀ id, s.nextId ≤ id → s.orders.lookup id = none
  older : ∀ e ∈ events, e.orderId < s.nextId
  history : ∀ id order, s.orders.lookup id = some order → History enabled requests events id order

theorem LifecycleInv.id_lt {s : OrderStore ν} (h : LifecycleInv enabled requests events s)
    (ho : s.orders.lookup id = some order) : id < s.nextId := by
  by_contra hlt
  rw [h.ids id (Int.not_lt.1 hlt)] at ho
  cases ho

end Requests

section Runs
variable {ν : Type} [Zero ν] [Add ν] [Mul ν] [IntCast ν] {enabled : Bool}

theorem LifecycleInv.step {requests : List (OrderRequest ν)} {events : List (OrderEvent ν)}
    {s : OrderStore ν}
    (h : LifecycleInv enabled requests events s) (r : OrderRequest ν) :
    LifecycleInv enabled (requests ++ [r]) (events ++ ((orderMachine ν enabled).step s r).2)
      ((orderMachine ν enabled).step s r).1 := by
  rcases orderMachine_step_cases enabled s r with
    ⟨items, env, order, rfl, hpending, hstep⟩ | ⟨id, newStatus, env, order, rfl, horder, hstep⟩ |
    ⟨hstep, hrefused⟩
  · -- A new order: no event is about it yet.
    rw [hstep]
    refine ⟨fun id hid => ?_, fun e he => ?_, fun id o ho => ?_⟩
    · have hid : s.nextId + 1 ≤ id := hid
      rw [AList.lookup_insert_ne (by omega)]
      exact h.ids id (by omega)
    · show e.orderId < s.nextId + 1
      rcases List.mem_append.1 he with he | he
      · have := h.older e he
        omega
      · have := orderId_of_mem_publish he
        omega
    · by_cases hid : id = s.nextId
      · subst hid
        obtain rfl : order = o := by simpa using ho
        refine ⟨requests, items, env, [], rfl, hpending, ?_⟩
        rw [List.filter_append, filter_orderId_of_ne fun e he => Int.ne_of_lt (h.older e he),
          filter_orderId_publish]
        simp [statusEvents]
      · rw [AList.lookup_insert_ne hid] at ho
        refine (h.history id o ho).other rfl fun e he => ?_
        rw [orderId_of_mem_publish he]
        exact Ne.symm hid
  · -- A new status: the other orders have other ids.
    rw [hstep]
    refine ⟨fun q hq => ?_, fun e he => ?_, fun q o ho => ?_⟩
    · have hlt := h.id_lt horder
      have hq : s.nextId ≤ q := hq
      rw [AList.lookup_insert_ne (by omega)]
      exact h.ids q hq
    · rcases List.mem_append.1 he with he | he
      · exact h.older e he
      · rw [orderId_of_mem_publish he]
        exact h.id_lt horder
    · by_cases hq : q = id
      · subst hq
        obtain rfl : { order with status := newStatus.status } = o := by simpa using ho
        exact (h.history q order horder).asked newStatus env
      · rw [AList.lookup_insert_ne hq] at ho
        refine (h.history q o ho).other ?_ fun e he => ?_
        · simp [OrderRequest.asks, Ne.symm hq]
        · rw [orderId_of_mem_publish he]
          exact Ne.symm hq
  · rw [hstep]
    refine ⟨h.ids, fun e he => h.older e (by simpa using he), fun q o ho => ?_⟩
    refine (h.history q o ho).other ?_ fun e he => by cases he
    cases r with
    | create => rfl
    | update orderId userId newStatus env =>
      rw [OrderRequest.asks, if_neg]
      rintro ⟨rfl, huser⟩
      exact hrefused orderId userId newStatus env o rfl ho huser.symm

/-- In every run the status of an order is what the last pay or cancel request of its user asked
for, and PENDING before the first one. The events about it are the one of its creation and one for
each of these requests, in their order, as far as Kafka is enabled and takes them. -/
theorem order_follows_requests (enabled : Bool) (requests : List (OrderRequest ν)) (id : Int)
    (order : Order ν)
    (h : ((orderMachine ν enabled).run requests).1.orders.lookup id = some order) :
    History enabled requests ((orderMachine ν enabled).run requests).2 id order := by
  have hinv : LifecycleInv enabled requests ((orderMachine ν enabled).run requests).2
      ((orderMachine ν enabled).run requests).1 := by
    refine (orderMachine ν enabled).run_inv (P := LifecycleInv enabled) ?_
      (fun _ _ s r hs => hs.step r) requests
    exact ⟨fun _ _ => rfl, fun _ he => absurd he List.not_mem_nil, fun _ _ ho => by cases ho⟩
  exact hinv.history id order h

end Runs

/-- A shop with one product. -/
def shop : Env Int where
  products := AList.singleton 1
    { name := "keyboard", description := none, category := "input", brand := "acme", price := 10,
      status := .active, createdAt := 0 }

/-- An order of the user 7 is created, cancelled and then paid twice. -/
def cancelledThenPaid : List (OrderRequest Int) :=
  [.create 7 [{ productId := 1, quantity := 2 }] shop, .update 1 7 .cancelled shop,
    .update 1 7 .paid shop, .update 1 7 .paid shop]

theorem order_follows_requests_pay :
    ((orderMachine Int true).run cancelledThenPaid).1.orders.lookup 1 =
        some { userId := 7, totalAmount := 20, status := .paid, items := [⟨1, 2, 10⟩] } ∧
      History true cancelledThenPaid ((orderMachine Int true).run cancelledThenPaid).2 1
        { userId := 7, totalAmount := 20, status := .paid, items := [⟨1, 2, 10⟩] } := by
  have hrow : ((orderMachine Int true).run cancelledThenPaid).1.orders.lookup 1 =
      some { userId := 7, totalAmount := 20, status := .paid, items := [⟨1, 2, 10⟩] } := by decide
  exact ⟨hrow, order_follows_requests true _ 1 _ hrow⟩

/-- The order becomes PAID after it was CANCELLED, with two events of its payment. -/
theorem paid_after_cancelled :
    (((orderMachine Int true).run (cancelledThenPaid.take 2)).1.orders.lookup 1).map (·.status) =
        some .cancelled ∧
      (((orderMachine Int true).run cancelledThenPaid).1.orders.lookup 1).map (·.status) = some .paid ∧
      (((orderMachine Int true).run cancelledThenPaid).2.filter fun e =>
        decide (e.orderId = 1 ∧ e.eventType = .orderPaid)).length = 2 := by
  decide

end Portfolio.Orders
