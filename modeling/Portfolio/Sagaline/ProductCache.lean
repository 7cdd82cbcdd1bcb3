import Portfolio.Lib.Interleaving

/-!
# The product cache

`getProductById`, `updateProduct` and `deleteProduct` of `ProductService` (`e-commerce`) on one
product, with its entry of the cache `productDetails`. `@Cacheable` looks the entry up, runs the
method on a miss and puts what it returns; `@CacheEvict` removes the entry after the transaction of
the method has been committed, and does not when the method throws. Every statement reads what is
committed when it runs. Prices are in hundredths.
-/

namespace Portfolio.Sagaline.ProductCache

structure Category where
  id : Int
  name : String
  description : Option String := none
  parentId : Option Int := none
  deriving DecidableEq, Repr

/-- A row of `products`; the categories are rows of `product_categories`. -/
structure Product where
  id : Int
  name : String
  description : Option String := none
  price : Int
  sku : Option String := none
  brand : Option String := none
  isActive : Bool := true
  createdAt : Nat
  deriving DecidableEq, Repr

structure ProductDTO where
  id : Int
  name : String
  description : Option String
  price : Int
  sku : Option String
  brand : Option String
  isActive : Bool
  categories : List Category
  createdAt : Nat
  deriving DecidableEq, Repr

structure CreateProductRequest where
  name : String
  description : Option String := none
  price : Int
  brand : Option String := none
  categoryIds : Option (List Int) := none
  deriving DecidableEq, Repr

structure ProductState where
  row : Option Product
  categories : List Category := []
  productDetails : Option ProductDTO := none
  deriving DecidableEq, Repr

def toDTO (product : Product) (categories : List Category) : ProductDTO where
  id := product.id
  name := product.name
  description := product.description
  price := product.price
  sku := product.sku
  brand := product.brand
  isActive := product.isActive
  categories := categories
  createdAt := product.createdAt

/-- What the database has for the product. -/
def ProductState.dto (s : ProductState) : Option ProductDTO := s.row.map fun row => toDTO row s.categories

inductive ProductRequest where
  | getProductById
  | updateProduct (request : CreateProductRequest)
  | deleteProduct
  deriving DecidableEq, Repr

/-- The setters that `updateProduct` calls on the row. -/
def CreateProductRequest.apply (request : CreateProductRequest) (product : Product) : Product :=
  { product with
    name := request.name
    description := request.description
    price := request.price
    brand := request.brand }

/-- What a transaction writes: the whole row if it has changed what it read, and the categories if
they were set. `category` is the table of categories. -/
def ProductState.commit (category : List Category) (s : ProductState) (read changed : Product)
    (categoryIds : Option (List Int)) : ProductState :=
  { s with
    row := if changed = read then s.row else some changed
    categories := match categoryIds with
      | none => s.categories
      | some ids => category.filter (·.id ∈ ids) }

/-! ### Requests -/

inductive ProductCall where
  | lookingUp
  | finding
  | loadingCategories (product : Product)
  | putting (dto : ProductDTO)
  | updating (request : CreateProductRequest)
  | deleting
  | committing (read changed : Product) (categoryIds : Option (List Int))
  | evicting
  | returned
  | threw
  deriving DecidableEq, Repr

def ProductCall.start : ProductRequest → ProductCall
  | .getProductById => .lookingUp
  | .updateProduct request => .updating request
  | .deleteProduct => .deleting

/-- `commits` says whether the database accepts the transaction. -/
def ProductCall.next (category : List Category) (commits : Bool) (s : ProductState) :
    ProductCall → ProductState × ProductCall
  | .lookingUp => match s.productDetails with
    | some _ => (s, .returned)
    | none => (s, .finding)
  | .finding => match s.row with
    | none => (s, .threw)
    | some product => (s, .loadingCategories product)
  | .loadingCategories product => (s, .putting (toDTO product s.categories))
  | .putting dto => ({ s with productDetails := some dto }, .returned)
  | .updating request => match s.row with
    | none => (s, .threw)
    | some product => (s, .committing product (request.apply product) request.categoryIds)
  | .deleting => match s.row with
    | none => (s, .threw)
    | some product => (s, .committing product { product with isActive := false } none)
  | .committing read changed categoryIds =>
    if commits then (s.commit category read changed categoryIds, .evicting) else (s, .threw)
  | .evicting => ({ s with productDetails := none }, .returned)
  | .returned => (s, .returned)
  | .threw => (s, .threw)

def productProtocol (category : List Category) : Protocol ProductState ProductRequest ProductCall Bool where
  start := .start
  next := ProductCall.next category

/-- Requests on a product that is not cached yet. -/
def productMachine (category : List Category) (row : Option Product) (categories : List Category) :
    Machine (Threads ProductState ProductCall) (Sched ProductRequest Bool) Unit :=
  (productProtocol category).machine { row := row, categories := categories }

end Portfolio.Sagaline.ProductCache
