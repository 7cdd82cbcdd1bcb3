import Mathlib.Data.List.Nodup

/-!
# Carts and orders

`CartService` and `OrderService` behind `CartController` and `OrderController` (`e-commerce`). A
cart has its rows of `cart_items`, an order its rows of `order_items`. Amounts are in hundredths,
which the `DECIMAL(12, 2)` columns keep exactly; quantities are `int`s. A request that throws is
rolled back.
-/

namespace Portfolio.Sagaline

inductive OrderStatus where
  | pending
  | confirmed
  | shipped
  | delivered
  | cancelled
  deriving DecidableEq, Repr

structure Product where
  id : Nat
  price : Int
  deriving DecidableEq, Repr

structure CartItem where
  id : Nat
  productId : Nat
  quantity : Int
  price : Int
  deriving DecidableEq, Repr

structure Cart where
  id : Nat
  userId : Nat
  items : List CartItem := []
  deriving DecidableEq, Repr

structure OrderItem where
  productId : Nat
  quantity : Int
  price : Int
  subtotal : Int
  deriving DecidableEq, Repr

structure Shipping where
  shippingAddress : String
  shippingCity : Option String := none
  shippingPostalCode : Option String := none
  deriving DecidableEq, Repr

structure Order where
  id : Nat
  userId : Nat
  status : OrderStatus
  totalAmount : Int
  shipping : Shipping
  items : List OrderItem
  deriving DecidableEq, Repr

structure Shop where
  products : List Product := []
  carts : List Cart := []
  orders : List Order := []
  nextCartId : Nat := 1
  nextItemId : Nat := 1
  nextOrderId : Nat := 1
  deriving DecidableEq, Repr

inductive ShopError where
  | invalidRequest
  | illegalArgument (message : String)
  | illegalState (message : String)
  /-- A value that a column or its `CHECK` does not take. -/
  | dataIntegrityViolation
  deriving DecidableEq, Repr

/-- Addition of `int`s. -/
def addInt (a b : Int) : Int := (a + b + 2147483648) % 4294967296 - 2147483648

/-! ### `CartService` -/

namespace Cart

def addItem (cart : Cart) (item : CartItem) : Cart := { cart with items := cart.items ++ [item] }

def removeItem (cart : Cart) (item : CartItem) : Cart :=
  { cart with items := cart.items.filter (·.id ≠ item.id) }

def clearItems (cart : Cart) : Cart := { cart with items := [] }

def setQuantity (cart : Cart) (item : CartItem) (quantity : Int) : Cart :=
  { cart with items := cart.items.map fun i => if i.id = item.id then { i with quantity } else i }

end Cart

namespace Shop

def findProduct (shop : Shop) (id : Nat) : Option Product := shop.products.find? (·.id = id)

def findByUserId (shop : Shop) (userId : Nat) : Option Cart := shop.carts.find? (·.userId = userId)

def findOrder (shop : Shop) (id : Nat) : Option Order := shop.orders.find? (·.id = id)

/-- `cartRepository.save` of a cart that has a row. -/
def saveCart (shop : Shop) (cart : Cart) : Except ShopError (Shop × Cart) :=
  if cart.items.all (0 < ·.quantity) then
    .ok ({ shop with carts := shop.carts.map fun c => if c.id = cart.id then cart else c }, cart)
  else .error .dataIntegrityViolation

def findOrCreateCart (shop : Shop) (userId : Nat) : Shop × Cart :=
  match shop.findByUserId userId with
  | some cart => (shop, cart)
  | none =>
    let cart : Cart := { id := shop.nextCartId, userId }
    ({ shop with carts := shop.carts ++ [cart], nextCartId := shop.nextCartId + 1 }, cart)

def addToCart (shop : Shop) (userId productId : Nat) (quantity : Int) :
    Except ShopError (Shop × Cart) :=
  match shop.findProduct productId with
  | none => .error (.illegalArgument "Product not found")
  | some product =>
    let (shop, cart) := shop.findOrCreateCart userId
    match cart.items.find? (·.productId = product.id) with
    | some existingItem =>
      shop.saveCart (cart.setQuantity existingItem (addInt existingItem.quantity quantity))
    | none =>
      { shop with nextItemId := shop.nextItemId + 1 }.saveCart
        (cart.addItem ⟨shop.nextItemId, product.id, quantity, product.price⟩)

/-- The first lines of the methods for one item of the cart. -/
def findCartItem (shop : Shop) (userId itemId : Nat) : Except ShopError (Cart × CartItem) :=
  match shop.findByUserId userId with
  | none => .error (.illegalArgument "Cart not found")
  | some cart => match cart.items.find? (·.id = itemId) with
    | none => .error (.illegalArgument "Cart item not found")
    | some item => .ok (cart, item)

def updateCartItemQuantity (shop : Shop) (userId itemId : Nat) (quantity : Int) :
    Except ShopError (Shop × Cart) :=
  match shop.findCartItem userId itemId with
  | .error e => .error e
  | .ok (cart, item) =>
    if quantity ≤ 0 then shop.saveCart (cart.removeItem item)
    else shop.saveCart (cart.setQuantity item quantity)

def removeFromCart (shop : Shop) (userId itemId : Nat) : Except ShopError (Shop × Cart) :=
  match shop.findCartItem userId itemId with
  | .error e => .error e
  | .ok (cart, item) => shop.saveCart (cart.removeItem item)

def clearCart (shop : Shop) (userId : Nat) : Except ShopError (Shop × Cart) :=
  match shop.findByUserId userId with
  | none => .error (.illegalArgument "Cart not found")
  | some cart => shop.saveCart cart.clearItems

end Shop

/-! ### `OrderService` -/

/-- A `DECIMAL(12, 2)` column. -/
def fitsDecimal (amount : Int) : Bool := amount.natAbs < 1000000000000

def Shipping.fits (s : Shipping) : Bool :=
  s.shippingCity.all (·.length ≤ 100) && s.shippingPostalCode.all (·.length ≤ 20)

def CartItem.subtotal (item : CartItem) : Int := item.price * item.quantity

def CartItem.toOrderItem (item : CartItem) : OrderItem :=
  ⟨item.productId, item.quantity, item.price, item.subtotal⟩

def totalAmount (items : List CartItem) : Int :=
  items.foldl (fun total item => total + item.subtotal) 0

/-- The order that `createOrder` builds of the items in the cart. -/
def buildOrder (id userId : Nat) (shipping : Shipping) (items : List CartItem) : Order :=
  { id, userId, status := .pending, totalAmount := totalAmount items, shipping
    items := items.map (·.toOrderItem) }

def Order.fits (order : Order) : Bool :=
  fitsDecimal order.totalAmount && order.items.all (fitsDecimal ·.subtotal) && order.shipping.fits

namespace Shop

def createOrder (shop : Shop) (userId : Nat) (shipping : Shipping) :
    Except ShopError (Shop × Order) :=
  match shop.findByUserId userId with
  | none => .error (.illegalState "Cart not found")
  | some cart =>
    if cart.items.isEmpty then .error (.illegalState "Cart is empty")
    else
      let order := buildOrder shop.nextOrderId userId shipping cart.items
      if order.fits then
        let shop :=
          { shop with orders := shop.orders ++ [order], nextOrderId := shop.nextOrderId + 1 }
        (shop.saveCart cart.clearItems).map fun (shop, _) => (shop, order)
      else .error .dataIntegrityViolation

def getOrderById (shop : Shop) (userId orderId : Nat) : Except ShopError Order :=
  match shop.findOrder orderId with
  | none => .error (.illegalArgument "Order not found")
  | some order =>
    if order.userId ≠ userId then .error (.illegalArgument "Order does not belong to user")
    else .ok order

def updateOrderStatus (shop : Shop) (orderId : Nat) (newStatus : OrderStatus) :
    Except ShopError (Shop × Order) :=
  match shop.findOrder orderId with
  | none => .error (.illegalArgument "Order not found")
  | some order => .ok ({ shop with orders := shop.orders.map fun o =>
      if o.id = orderId then { o with status := newStatus } else o },
        { order with status := newStatus })

end Shop

theorem exists_of_map_ok {ε α β : Type} {x : Except ε α} {f : α → β} {b : β} (h : x.map f = .ok b) :
    ∃ a, x = .ok a ∧ f a = b := by
  cases x with
  | error e => cases h
  | ok a => exact ⟨a, rfl, Except.ok.inj h⟩

/-! ### The endpoints -/

/-- What `@NotBlank` does not take. -/
def isBlank (text : String) : Bool := text.toList.all (· ≤ ' ')

inductive ShopRequest where
  | addToCart (productId : Nat) (quantity : Int)
  | getCart
  | updateCartItem (itemId : Nat) (quantity : Int)
  | removeFromCart (itemId : Nat)
  | clearCart
  | createOrder (shipping : Shipping) (paymentMethod : String)
  | getUserOrders
  | getOrder (orderId : Nat)
  | updateOrderStatus (orderId : Nat) (status : OrderStatus)
  deriving DecidableEq, Repr

inductive ShopReply where
  | cart (cart : Option Cart)
  | noContent
  | order (order : Order)
  | orders (orders : List Order)
  deriving DecidableEq, Repr

namespace Shop

/-- The controllers, for a request of the authenticated user `userId`. -/
def run (shop : Shop) (userId : Nat) : ShopRequest → Except ShopError (Shop × ShopReply)
  | .addToCart productId quantity =>
    if quantity < 1 then .error .invalidRequest
    else (shop.addToCart userId productId quantity).map fun (shop, cart) =>
      (shop, .cart (some cart))
  | .getCart => .ok (shop, .cart (shop.findByUserId userId))
  | .updateCartItem itemId quantity =>
    (shop.updateCartItemQuantity userId itemId quantity).map fun (shop, cart) =>
    (shop, .cart (some cart))
  | .removeFromCart itemId => (shop.removeFromCart userId itemId).map fun (shop, _) =>
    (shop, .noContent)
  | .clearCart => (shop.clearCart userId).map fun (shop, _) => (shop, .noContent)
  | .createOrder shipping paymentMethod =>
    if isBlank shipping.shippingAddress || isBlank paymentMethod then .error .invalidRequest
    else (shop.createOrder userId shipping).map fun (shop, order) => (shop, .order order)
  | .getUserOrders => .ok (shop, .orders (shop.orders.filter (·.userId = userId)))
  | .getOrder orderId => (shop.getOrderById userId orderId).map fun order => (shop, .order order)
  | .updateOrderStatus orderId status =>
    (shop.updateOrderStatus orderId status).map fun (shop, order) => (shop, .order order)

/-- The database after a request. -/
def after (shop : Shop) (userId : Nat) (request : ShopRequest) : Shop :=
  match shop.run userId request with
  | .error _ => shop
  | .ok (shop, _) => shop

end Shop
end Portfolio.Sagaline
