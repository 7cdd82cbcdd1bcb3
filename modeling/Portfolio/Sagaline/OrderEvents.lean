import Portfolio.Lib.Machine
import Portfolio.Lib.Topic
import Portfolio.Sagaline.Shop

/-!
# Events of orders

The events that `OrderService` publishes and `OrderEventConsumer` handles (`e-commerce`). The key of
a message is the id of the event, which is new for each event, so the events of one order can go to
different partitions of the topic; and `updateOrderStatus` publishes `OrderConfirmed` whenever an
order gets to `CONFIRMED`, from whatever status.
-/

namespace Portfolio.Sagaline

inductive OrderEventData where
  | orderCreated (totalAmount : Int) (status : OrderStatus) (items : List (Nat × Int × Int))
  | orderConfirmed (status : OrderStatus)
  deriving DecidableEq, Repr

structure OrderEvent where
  eventId : String
  orderId : Nat
  userId : Nat
  data : OrderEventData
  deriving DecidableEq, Repr

namespace OrderEvent

def created (eventId : String) (order : Order) : OrderEvent where
  eventId
  orderId := order.id
  userId := order.userId
  data := .orderCreated order.totalAmount order.status
    (order.items.map fun item => (item.productId, item.quantity, item.price))

def confirmed (eventId : String) (order : Order) (newStatus : OrderStatus) : OrderEvent where
  eventId
  orderId := order.id
  userId := order.userId
  data := .orderConfirmed newStatus

def isConfirmation (orderId : Nat) (event : OrderEvent) : Bool :=
  event.orderId = orderId && match event.data with
    | .orderConfirmed _ => true
    | .orderCreated .. => false

end OrderEvent

/-- A request, with the id of the event if there is one, and whether Kafka takes the message. -/
structure ShopCall where
  userId : Nat
  request : ShopRequest
  eventId : String
  sent : Bool := true
  deriving DecidableEq, Repr

/-- The event that a request publishes. -/
def Shop.event (shop : Shop) (call : ShopCall) : Option OrderEvent :=
  match call.request with
  | .createOrder _ _ => match shop.run call.userId call.request with
    | .ok (_, .order order) => some (.created call.eventId order)
    | _ => none
  | .updateOrderStatus orderId newStatus => match shop.findOrder orderId with
    | none => none
    | some order =>
      if newStatus = .confirmed && order.status ≠ .confirmed then
        some (.confirmed call.eventId { order with status := newStatus } newStatus)
      else none
  | _ => none

/-- The service alone. Its outputs are the events, with `sent`. -/
def orderService (products : List Product) : Machine Shop ShopCall (OrderEvent × Bool) where
  init := { products }
  step shop call :=
    (shop.after call.userId call.request,
      (shop.event call).toList.map fun event => (event, call.sent))

/-! ### With Kafka -/

structure Broker (π : Type) where
  shop : Shop
  published : List (OrderEvent × Bool) := []
  topic : Topic π OrderEvent := {}

inductive BrokerAct (π : Type) where
  | request (call : ShopCall)
  | consume (partition : π)

def BrokerAct.call {π : Type} : BrokerAct π → Option ShopCall
  | .request call => some call
  | .consume _ => none

section Kafka
variable {π : Type} [DecidableEq π] (partition : String → π)

/-- The partition of a message follows from its key. -/
def messagePartition (event : OrderEvent) : π := partition event.eventId

/-- `EventPublisher.publish`. A failed `send` is logged. -/
def publish (topic : Topic π OrderEvent) (event : OrderEvent × Bool) : Topic π OrderEvent :=
  if event.2 then topic.send (messagePartition partition) event.1 else topic

def broker (products : List Product) : Machine (Broker π) (BrokerAct π) Unit where
  init := { shop := (orderService products).init }
  step s
    | .request call =>
      let (shop, events) := (orderService products).step s.shop call
      (⟨shop, s.published ++ events, events.foldl (publish partition) s.topic⟩, [])
    | .consume p => ({ s with topic := s.topic.consume p }, [])

end Kafka

/-! ### What is asked of it -/

/-- The events of an order have been handled in the order of their publication. -/
def InOrder {π : Type} (s : Broker π) : Prop :=
  ∀ orderId,
    s.topic.handled.filter (·.orderId = orderId) <+: s.topic.log.filter (·.orderId = orderId)

def confirmations (orderId : Nat) (events : List (OrderEvent × Bool)) : Nat :=
  events.countP (·.1.isConfirmation orderId)

def ConfirmedOnce (events : List (OrderEvent × Bool)) : Prop :=
  ∀ orderId, confirmations orderId events ≤ 1

/-- The ids of the events of one order have one partition. -/
def SamePartition {π : Type} (partition : String → π) (events : List (OrderEvent × Bool)) : Prop :=
  ∀ event ∈ events, ∀ event' ∈ events, event.2 = true → event'.2 = true →
    event.1.orderId = event'.1.orderId → partition event.1.eventId = partition event'.1.eventId

def Shop.isConfirmed (shop : Shop) (orderId : Nat) : Bool :=
  (shop.findOrder orderId).any (·.status = .confirmed)

/-- No order that has left the status `CONFIRMED` gets it again. -/
def NeverReconfirmed (products : List Product) (calls : List ShopCall) : Prop :=
  ∀ pre call post, calls = pre ++ call :: post → ∀ orderId order,
    call.request = .updateOrderStatus orderId .confirmed →
    ((orderService products).run pre).1.findOrder orderId = some order → order.status ≠ .confirmed →
    ∀ earlier, earlier <+: pre →
      ((orderService products).run earlier).1.isConfirmed orderId = false

end Portfolio.Sagaline
