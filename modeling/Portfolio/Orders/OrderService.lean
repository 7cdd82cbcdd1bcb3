import Portfolio.Products.ProductService

/-!
# Orders and their events

`OrderService` and `KafkaProducerService` (`backend/node.js`). Requests are handled one after
another; what their surroundings decide is the product table, which `ProductService` keeps, the id
and the time of the event and whether Kafka takes it (`Env`). Amounts are of any type with the
operations used on them, without laws. Times of the rows are left out.
-/

namespace Portfolio.Orders
open Products (Product ProductStatus)

inductive OrderStatus where
  | pending
  | paid
  | cancelled
  deriving DecidableEq, Repr

inductive OrderEventType where
  | orderCreated
  | orderPaid
  | orderCancelled
  deriving DecidableEq, Repr

structure OrderEvent (ν : Type) where
  eventId : String
  eventType : OrderEventType
  timestamp : String
  orderId : Int
  userId : Int
  totalAmount : ν
  deriving DecidableEq, Repr

structure OrderItem (ν : Type) where
  productId : Int
  quantity : Int
  price : ν
  deriving DecidableEq, Repr

/-- A row with its items, without its `id`. -/
structure Order (ν : Type) where
  userId : Int
  totalAmount : ν
  status : OrderStatus
  items : List (OrderItem ν)
  deriving DecidableEq, Repr

structure CreateOrderItemDto where
  productId : Int
  quantity : Int
  deriving DecidableEq, Repr

structure OrderStore (ν : Type) where
  orders : AList fun _ : Int => Order ν := ∅
  nextId : Int := 1

/-- What the surroundings decide while a request is handled. -/
structure Env (ν : Type) where
  products : AList fun _ : Int => Product ν := ∅
  eventId : String := ""
  timestamp : String := ""
  /-- `producer.send` throws. -/
  sendFails : Bool := false

section Service
variable {ν : Type}

/-! ### Events -/

/-- `publishOrderEvent`: the events sent, or the error of `send`. -/
def publishOrderEvent (enabled : Bool) (env : Env ν) (event : OrderEvent ν) :
    Except String (List (OrderEvent ν)) :=
  if !enabled then .ok []
  else if env.sendFails then .error "Failed to publish order event"
  else .ok [event]

/-- The services' calls of `publishOrderEvent` catch its error. -/
def publish (enabled : Bool) (env : Env ν) (event : OrderEvent ν) : List (OrderEvent ν) :=
  match publishOrderEvent enabled env event with
  | .ok events => events
  | .error _ => []

def orderEvent (env : Env ν) (eventType : OrderEventType) (id : Int) (order : Order ν) :
    OrderEvent ν where
  eventId := env.eventId
  eventType := eventType
  timestamp := env.timestamp
  orderId := id
  userId := order.userId
  totalAmount := order.totalAmount

theorem mem_publish {enabled : Bool} {env : Env ν} {event e : OrderEvent ν}
    (h : e ∈ publish enabled env event) :
    e = event := by
  unfold publish publishOrderEvent at h
  split at h
  · rename_i events hevents
    split at hevents
    · obtain rfl := Except.ok.inj hevents
      cases h
    split at hevents
    · cases hevents
    · obtain rfl := Except.ok.inj hevents
      exact List.mem_singleton.1 h
  · cases h

/-! ### Requests -/

/-- `order.findFirst` with the id and the user. -/
def findOne (s : OrderStore ν) (id userId : Int) : Except String (Order ν) :=
  match s.orders.lookup id with
  | none => .error ("Order with ID " ++ toString id ++ " not found")
  | some order =>
    if order.userId = userId then .ok order else .error ("Order with ID " ++ toString id ++ " not found")

theorem findOne_eq_ok {s : OrderStore ν} {id userId : Int} {order : Order ν} :
    findOne s id userId = .ok order ↔ s.orders.lookup id = some order ∧ order.userId = userId := by
  unfold findOne
  constructor
  · intro h
    split at h
    · cases h
    · rename_i o ho
      split at h
      · rename_i huser
        obtain rfl := Except.ok.inj h
        exact ⟨ho, huser⟩
      · cases h
  · rintro ⟨ho, huser⟩
    simp only [ho, huser, if_true]

variable [Zero ν] [Add ν] [Mul ν] [IntCast ν]

/-- `product.findMany` of the active products among the ids. -/
def activeProducts (env : Env ν) (productIds : List Int) : List ((_ : Int) × Product ν) :=
  env.products.entries.filter fun e => decide (e.1 ∈ productIds ∧ e.2.status = .active)

/-- The items with their prices, and their total. -/
def priceItems (products : List ((_ : Int) × Product ν)) :
    ν → List CreateOrderItemDto → Except String (ν × List (OrderItem ν))
  | totalAmount, [] => .ok (totalAmount, [])
  | totalAmount, item :: items => match products.find? (·.1 = item.productId) with
    | none => .error ("Product " ++ toString item.productId ++ " price not found")
    | some e => do
      let (total, orderItems) ← priceItems products (totalAmount + e.2.price * (item.quantity : ν)) items
      return (total,
        { productId := item.productId, quantity := item.quantity, price := e.2.price } :: orderItems)

/-- The row that `createOrder` writes. -/
def orderData (env : Env ν) (userId : Int) (items : List CreateOrderItemDto) :
    Except String (Order ν) :=
  let productIds := items.map (·.productId)
  let products := activeProducts env productIds
  if products.length ≠ productIds.length then .error "One or more products not found or inactive"
  else do
    let (totalAmount, orderItems) ← priceItems products 0 items
    return { userId := userId, totalAmount := totalAmount, status := .pending, items := orderItems }

/-- The store and the events published. -/
def createOrder (enabled : Bool) (env : Env ν) (s : OrderStore ν) (userId : Int)
    (items : List CreateOrderItemDto) :
    Except String (OrderStore ν × List (OrderEvent ν)) := do
  let order ← orderData env userId items
  return ({ orders := s.orders.insert s.nextId order, nextId := s.nextId + 1 },
    publish enabled env (orderEvent env .orderCreated s.nextId order))

/-- The argument `newStatus`. -/
inductive NewStatus where
  | paid
  | cancelled
  deriving DecidableEq, Repr

def NewStatus.status : NewStatus → OrderStatus
  | .paid => .paid
  | .cancelled => .cancelled

def NewStatus.eventType : NewStatus → OrderEventType
  | .paid => .orderPaid
  | .cancelled => .orderCancelled

/-- The row is updated whatever its status is. -/
def updateOrderStatus (enabled : Bool) (env : Env ν) (s : OrderStore ν) (orderId userId : Int)
    (newStatus : NewStatus) :
    Except String (OrderStore ν × List (OrderEvent ν)) := do
  let order ← findOne s orderId userId
  let updated := { order with status := newStatus.status }
  return ({ s with orders := s.orders.insert orderId updated },
    publish enabled env (orderEvent env newStatus.eventType orderId updated))

/-- `POST /orders`, `PATCH /orders/:id/pay` and `PATCH /orders/:id/cancel` -/
inductive OrderRequest (ν : Type) where
  | create (userId : Int) (items : List CreateOrderItemDto) (env : Env ν)
  | update (orderId userId : Int) (newStatus : NewStatus) (env : Env ν)

def OrderRequest.answer (enabled : Bool) (s : OrderStore ν) :
    OrderRequest ν → Except String (OrderStore ν × List (OrderEvent ν))
  | .create userId items env => createOrder enabled env s userId items
  | .update orderId userId newStatus env => updateOrderStatus enabled env s orderId userId newStatus

/-- The service with Kafka enabled or not. A request that fails changes nothing. -/
def orderMachine (ν : Type) [Zero ν] [Add ν] [Mul ν] [IntCast ν] (enabled : Bool) :
    Machine (OrderStore ν) (OrderRequest ν) (OrderEvent ν) where
  init := {}
  step s r := match r.answer enabled s with
    | .ok answer => answer
    | .error _ => (s, [])

/-! ### What the operations do -/

theorem orderData_ok {env : Env ν} {userId : Int} {items : List CreateOrderItemDto} {order : Order ν}
    (h : orderData env userId items = .ok order) : order.userId = userId ∧ order.status = .pending := by
  simp only [orderData] at h
  split at h
  · cases h
  · cases hprice : priceItems (activeProducts env (items.map (·.productId))) (0 : ν) items with
    | error e =>
      rw [hprice] at h
      cases h
    | ok priced =>
      rw [hprice] at h
      obtain rfl := Except.ok.inj h
      exact ⟨rfl, rfl⟩

/-- A request creates an order with a new id, sets the status of an order of its user, or is
refused. -/
theorem orderMachine_step_cases (enabled : Bool) (s : OrderStore ν) (r : OrderRequest ν) :
    (∃ items env order, r = .create order.userId items env ∧ order.status = .pending ∧
      (orderMachine ν enabled).step s r =
        ({ orders := s.orders.insert s.nextId order, nextId := s.nextId + 1 },
        publish enabled env (orderEvent env .orderCreated s.nextId order))) ∨
    (∃ id newStatus env order, r = .update id order.userId newStatus env ∧
      s.orders.lookup id = some order ∧
      (orderMachine ν enabled).step s r =
        ({ s with orders := s.orders.insert id { order with status := newStatus.status } },
          publish enabled env (orderEvent env newStatus.eventType id order))) ∨
    ((orderMachine ν enabled).step s r = (s, []) ∧
      ∀ id userId newStatus env order, r = .update id userId newStatus env →
        s.orders.lookup id = some order → order.userId ≠ userId) := by
  cases r with
  | create userId items env =>
    cases hdata : orderData env userId items with
    | error e =>
      refine .inr (.inr ⟨?_, fun _ _ _ _ _ h => by cases h⟩)
      simp only [orderMachine, OrderRequest.answer, createOrder, hdata]
      rfl
    | ok order =>
      obtain ⟨rfl, hpending⟩ := orderData_ok hdata
      refine .inl ⟨items, env, order, rfl, hpending, ?_⟩
      simp only [orderMachine, OrderRequest.answer, createOrder, hdata]
      rfl
  | update orderId userId newStatus env =>
    cases hfind : findOne s orderId userId with
    | error e =>
      refine .inr (.inr ⟨?_, fun id user _ _ order h horder huser => ?_⟩)
      · simp only [orderMachine, OrderRequest.answer, updateOrderStatus, hfind]
        rfl
      · cases h
        rw [findOne_eq_ok.2 ⟨horder, huser⟩] at hfind
        cases hfind
    | ok order =>
      obtain ⟨horder, rfl⟩ := findOne_eq_ok.1 hfind
      refine .inr (.inl ⟨orderId, newStatus, env, order, rfl, horder, ?_⟩)
      simp only [orderMachine, OrderRequest.answer, updateOrderStatus, hfind]
      rfl

end Service

end Portfolio.Orders
