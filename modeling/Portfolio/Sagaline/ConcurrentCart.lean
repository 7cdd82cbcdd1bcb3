import Mathlib.Algebra.Ring.Int.Defs
import Portfolio.Lib.Interleaving
import Portfolio.Sagaline.Shop

/-!
# Requests for one cart at the same time

The statements of `addToCart` and `createOrder` (`e-commerce`) of one user, when any number of these
requests run at once, each in a read committed transaction. Hibernate reads the cart and its items,
works on the entities, and writes the rows by their ids when it flushes: an `UPDATE` or `DELETE` of
a row that is gone fails, one of a row that has changed does not, as there is no version column. A
statement waits for the locks of other transactions on its row. What a transaction has written is
seen by others, and counted here, when it commits.
-/

namespace Portfolio.Sagaline

/-- The committed rows of the user, and what the transactions under way hold. -/
structure CartState where
  hasCart : Bool := false
  items : List CartItem := []
  orders : List Order := []
  /-- Product and quantity of the `addToCart` requests that were accepted. -/
  accepted : List (Nat × Int) := []
  /-- Item rows with an uncommitted update or delete. -/
  locked : List Nat := []
  /-- Products of uncommitted item rows, for `UNIQUE(cart_id, product_id)`. -/
  newProducts : List Nat := []
  /-- There is an uncommitted row in `carts`, for `UNIQUE(user_id)`. -/
  newCart : Bool := false
  nextItemId : Nat := 1
  nextOrderId : Nat := 1

/-- What `addToCart` writes: the entity of an item with its new quantity, or a new item. -/
inductive ItemWrite where
  | update (row : CartItem) (quantity : Int)
  | insert (row : CartItem)
  deriving DecidableEq

inductive CartRequest where
  | addToCart (productId : Nat) (quantity : Int)
  | createOrder (shipping : Shipping)
  deriving DecidableEq

/-- A request and the statement that comes next. -/
inductive CartCall where
  | adding (productId : Nat) (quantity : Int)
  | findingCart (productId : Nat) (quantity price : Int)
  | creatingCart (productId : Nat) (quantity price : Int)
  | loadingItems (productId : Nat) (quantity price : Int) (newCart : Bool)
  | writing (productId : Nat) (quantity : Int) (newCart : Bool) (write : ItemWrite)
  | committing (productId : Nat) (quantity : Int) (newCart : Bool) (write : ItemWrite)
  | ordering (shipping : Shipping)
  | loadingOrder (shipping : Shipping)
  | deleting (order : Order) (deleted remaining : List CartItem)
  | accepted
  | rejected
  deriving DecidableEq

namespace CartState

def rollback (s : CartState) (newCart : Bool) : CartState :=
  { s with newCart := s.newCart && !newCart }

/-- The commit of `addToCart`. The `UPDATE` has set all columns to those of the entity. -/
def commitAdd (s : CartState) (productId : Nat) (quantity : Int) (newCart : Bool) :
    ItemWrite → CartState
  | .update row n =>
    { s.rollback newCart with
      hasCart := s.hasCart || newCart
      items := s.items.map fun i => if i.id = row.id then { row with quantity := n } else i
      locked := s.locked.filter (· ≠ row.id)
      accepted := s.accepted ++ [(productId, quantity)] }
  | .insert row =>
    { s.rollback newCart with
      hasCart := s.hasCart || newCart
      items := s.items ++ [row]
      newProducts := s.newProducts.filter (· ≠ row.productId)
      accepted := s.accepted ++ [(productId, quantity)] }

def unlock (s : CartState) (rows : List CartItem) : CartState :=
  { s with locked := s.locked.filter (· ∉ rows.map (·.id)) }

/-- The commit of `createOrder`. -/
def commitOrder (s : CartState) (order : Order) (deleted : List CartItem) : CartState :=
  { s.unlock deleted with
    items := s.items.filter (·.id ∉ deleted.map (·.id))
    orders := s.orders ++ [order] }

end CartState

/-- `@Min(1)`, and what an `Integer` can hold. -/
def validQuantity (quantity : Int) : Bool := 1 ≤ quantity && quantity ≤ 2147483647

/-- The choice of `addToCart` on the items that it has read. -/
def chooseWrite (items : List CartItem) (productId : Nat) (quantity price : Int) : ItemWrite :=
  match items.find? (·.productId = productId) with
  | some existingItem => .update existingItem (addInt existingItem.quantity quantity)
  | none => .insert ⟨0, productId, quantity, price⟩

section Steps
variable (userId : Nat)

/-- The next statement of a request. `price` is that of the product if there is one. -/
def cartNext (price : Option Int) (s : CartState) (call : CartCall) : CartState × CartCall :=
  match call with
  | .adding productId quantity => match price with
    | none => (s, .rejected)
    | some price => (s, .findingCart productId quantity price)
  | .findingCart productId quantity price =>
    if s.hasCart then (s, .loadingItems productId quantity price false)
    else (s, .creatingCart productId quantity price)
  | .creatingCart productId quantity price =>
    if s.hasCart then (s, .rejected)
    else if s.newCart then (s, call)
    else ({ s with newCart := true }, .loadingItems productId quantity price true)
  | .loadingItems productId quantity price newCart =>
    (s, .writing productId quantity newCart
      (chooseWrite (if newCart then [] else s.items) productId quantity price))
  | .writing productId quantity newCart (.update row n) =>
    if row.id ∈ s.locked then (s, call)
    else if n ≤ 0 || s.items.all (·.id ≠ row.id) then (s.rollback newCart, .rejected)
    else ({ s with locked := s.locked ++ [row.id] },
      .committing productId quantity newCart (.update row n))
  | .writing productId quantity newCart (.insert row) =>
    if s.items.any (·.productId = row.productId) then (s.rollback newCart, .rejected)
    else if row.productId ∈ s.newProducts then (s, call)
    else (
      { s with newProducts := s.newProducts ++ [row.productId], nextItemId := s.nextItemId + 1 },
      .committing productId quantity newCart (.insert { row with id := s.nextItemId }))
  | .committing productId quantity newCart write =>
    (s.commitAdd productId quantity newCart write, .accepted)
  | .ordering shipping => if s.hasCart then (s, .loadingOrder shipping) else (s, .rejected)
  | .loadingOrder shipping =>
    let order := buildOrder s.nextOrderId userId shipping s.items
    if s.items.isEmpty then (s, .rejected)
    else if order.fits then
      ({ s with nextOrderId := s.nextOrderId + 1 }, .deleting order [] s.items)
    else ({ s with nextOrderId := s.nextOrderId + 1 }, .rejected)
  | .deleting order deleted (row :: remaining) =>
    if row.id ∈ s.locked then (s, call)
    else if s.items.all (·.id ≠ row.id) then (s.unlock deleted, .rejected)
    else ({ s with locked := s.locked ++ [row.id] }, .deleting order (deleted ++ [row]) remaining)
  | .deleting order deleted [] => (s.commitOrder order deleted, .accepted)
  | .accepted => (s, .accepted)
  | .rejected => (s, .rejected)

def cartRequests : Protocol CartState CartRequest CartCall (Option Int) where
  start
    | .addToCart productId quantity =>
      if validQuantity quantity then .adding productId quantity else .rejected
    | .createOrder shipping => .ordering shipping
  next := cartNext userId

/-- All interleavings of requests of a user who has no cart yet. -/
def cartMachine : Machine (Threads CartState CartCall) (Sched CartRequest (Option Int)) Unit :=
  (cartRequests userId).machine {}

end Steps

/-! ### What is counted -/

/-- The quantity of a product among items. -/
def cartQuantity (productId : Nat) (items : List CartItem) : Int :=
  (items.map fun i => if i.productId = productId then i.quantity else 0).sum

def orderQuantity (productId : Nat) (order : Order) : Int :=
  (order.items.map fun i => if i.productId = productId then i.quantity else 0).sum

def acceptedQuantity (productId : Nat) (accepted : List (Nat × Int)) : Int :=
  (accepted.map fun a => if a.1 = productId then a.2 else 0).sum

/-- Orders and cart together have what the accepted requests have added. -/
def Conserved (s : CartState) : Prop :=
  ∀ productId, (s.orders.map (orderQuantity productId)).sum + cartQuantity productId s.items =
    acceptedQuantity productId s.accepted

def TotalsAddUp (s : CartState) : Prop :=
  ∀ order ∈ s.orders, order.totalAmount = (order.items.map (·.subtotal)).sum

/-- The row that a request updates or deletes has the quantity that the request has read, if the row
is still there. -/
def Undisturbed (s : Threads CartState CartCall) (call : CartCall) (_ : Option Int) : Prop :=
  match call with
  | .writing _ _ _ (.update row _) | .deleting _ _ (row :: _) =>
      ∀ i ∈ s.shared.items, i.id = row.id → i.quantity = row.quantity
  | _ => True

instance (s : Threads CartState CartCall) (call : CartCall) (price : Option Int) :
    Decidable (Undisturbed s call price) :=
  match call with
  | .writing _ _ _ (.update row _) | .deleting _ _ (row :: _) =>
      inferInstanceAs (Decidable (∀ i ∈ s.shared.items, i.id = row.id → i.quantity = row.quantity))
  | .writing _ _ _ (.insert _) | .deleting _ _ [] | .adding .. | .findingCart .. | .creatingCart ..
  | .loadingItems .. | .committing .. | .ordering _ | .loadingOrder _ | .accepted | .rejected =>
      isTrue trivial

end Portfolio.Sagaline
