import Mathlib.Data.Rat.Floor
import Portfolio.Lib.Machine

/-!
# Creating an order in one transaction

`OrderService.createOrder` (`backend/spring`). The method is one transaction; each of its steps can
fail, up to and including the commit. `BigDecimal` is exact, so amounts are rationals, and a
`NUMERIC(10, 2)` column rounds what is written to it. Creation times are left out.
-/

namespace Portfolio.SpringOrders

inductive OrderStatus where
  | pending
  | paid
  | cancelled
  deriving DecidableEq, Repr

/-- The validated request body. `@Valid` does not look at `null` elements. -/
structure OrderItemRequest where
  productId : Int
  quantity : Int
  price : ℚ
  deriving DecidableEq

structure OrderItem where
  id : Int
  productId : Int
  quantity : Int
  price : ℚ
  deriving DecidableEq

structure Order where
  id : Int
  userId : Int
  totalAmount : ℚ
  status : OrderStatus
  items : List OrderItem
  deriving DecidableEq

structure OrderEvent where
  eventId : String
  eventType : String
  timestamp : Nat
  orderId : Int
  userId : Int
  totalAmount : ℚ
  deriving DecidableEq

/-- The committed rows and the identity columns, whose numbers are not given back. -/
structure Database where
  orders : List Order := []
  nextOrderId : Int := 1
  nextItemId : Int := 1
  deriving DecidableEq

/-- The steps of `createOrder` that can fail. -/
inductive Step where
  | begin
  | insertOrder
  | insertItem (n : Nat)
  | send
  | response
  | commit
  deriving DecidableEq

/-- What the surroundings decide in one call. -/
structure Env where
  fails : Step → Bool := fun _ => false
  /-- The ids that a `save` which fails has taken from the identity columns by then. -/
  taken : Nat × Nat := (0, 0)
  eventId : String := ""
  timestamp : Nat := 0

inductive Error where
  /-- An element of `items` is `null`. -/
  | nullPointer
  | failed (step : Step)
  deriving DecidableEq

/-- What a `NUMERIC(10, 2)` column keeps of a number: it rounds half away from zero and has eight
digits before the point. -/
def numeric (x : ℚ) : Option ℚ :=
  let rounded : ℚ := (if 0 ≤ x then ⌊x * 100 + 1 / 2⌋ else ⌈x * 100 - 1 / 2⌉) / 100
  if |rounded| < 100000000 then some rounded else none

/-! ### The method -/

def calculateTotalAmount (items : List OrderItemRequest) : ℚ :=
  items.foldl (fun total item => total + item.price * item.quantity) 0

/-- The cascade of `save`: an `INSERT` for each item. The entities keep what the request said, the
database has the rows. -/
def insertItems (env : Env) (nextItemId : Int) :
    Nat → List OrderItemRequest → Except Error (List OrderItem × List OrderItem)
  | _, [] => .ok ([], [])
  | n, item :: items =>
    if env.fails (.insertItem n) then .error (.failed (.insertItem n))
    else match numeric item.price with
      | none => .error (.failed (.insertItem n))
      | some price => (insertItems env nextItemId (n + 1) items).map fun (entities, rows) =>
        (⟨nextItemId + n, item.productId, item.quantity, item.price⟩ :: entities,
          ⟨nextItemId + n, item.productId, item.quantity, price⟩ :: rows)

/-- `orderRepository.save`: the entity and the row. -/
def save (env : Env) (db : Database) (userId : Int) (items : List OrderItemRequest) :
    Except Error (Order × Order) :=
  if env.fails .insertOrder then .error (.failed .insertOrder)
  else match numeric (calculateTotalAmount items) with
    | none => .error (.failed .insertOrder)
    | some totalAmount => (insertItems env db.nextItemId 0 items).map fun (entities, rows) =>
      (⟨db.nextOrderId, userId, calculateTotalAmount items, .pending, entities⟩,
        ⟨db.nextOrderId, userId, totalAmount, .pending, rows⟩)

/-- `publishOrderCreatedEvent`: the exception of `send` is caught. -/
def publishOrderCreatedEvent (env : Env) (order : Order) : List OrderEvent :=
  if env.fails .send then []
  else [⟨env.eventId, "ORDER_CREATED", env.timestamp, order.id, order.userId, order.totalAmount⟩]

structure Call where
  userId : Int
  items : List (Option OrderItemRequest)
  env : Env := {}

/-- The body up to `save`. -/
def saveOrder (db : Database) (call : Call) : Except Error (Order × Order) :=
  if call.env.fails .begin then .error (.failed .begin)
  else if none ∈ call.items then .error .nullPointer
  else save call.env db call.userId call.items.reduceOption

structure Outcome where
  db : Database
  events : List OrderEvent
  /-- `OrderResponse` has the fields of the entity. -/
  response : Except Error Order

/-- A transaction that does not commit leaves the identity columns further on. -/
def Database.rollback (db : Database) (orderIds itemIds : Nat) : Database :=
  { db with nextOrderId := db.nextOrderId + orderIds, nextItemId := db.nextItemId + itemIds }

def Database.insert (db : Database) (row : Order) : Database :=
  { db.rollback 1 row.items.length with orders := db.orders ++ [row] }

def createOrder (db : Database) (call : Call) : Outcome :=
  match saveOrder db call with
  | .error e => ⟨db.rollback call.env.taken.1 call.env.taken.2, [], .error e⟩
  | .ok (savedOrder, row) =>
    let events := publishOrderCreatedEvent call.env savedOrder
    if call.env.fails .response then
      ⟨db.rollback 1 row.items.length, events, .error (.failed .response)⟩
    else if call.env.fails .commit then
      ⟨db.rollback 1 row.items.length, events, .error (.failed .commit)⟩
    else ⟨db.insert row, events, .ok savedOrder⟩

/-- Calls one after another; the outputs are the events sent to Kafka. -/
def service (db : Database) : Machine Database Call OrderEvent where
  init := db
  step db call := ((createOrder db call).db, (createOrder db call).events)

end Portfolio.SpringOrders
