import Mathlib.Data.List.AList
import Portfolio.Lib.Interleaving

/-!
# Products and their search index

`ProductService`, `ElasticsearchService` and `AdminService.reindexProducts` (`backend/node.js`) with
Elasticsearch enabled. A request is a sequence of single operations on the table `Product` and on
the index `products`; `ProductCall` says which one is next. Prices are of any type, no operation
looks into them. `updatedAt` is not indexed and is left out.
-/

namespace Portfolio.Products

inductive ProductStatus where
  | active
  | inactive
  deriving DecidableEq, Repr

/-- A row, without its `id`. -/
structure Product (ν : Type) where
  name : String
  description : Option String
  category : String
  brand : String
  price : ν
  status : ProductStatus
  createdAt : Nat
  deriving DecidableEq, Repr

structure CreateProductDto (ν : Type) where
  name : String
  description : Option String := none
  category : String
  brand : String
  price : ν
  status : Option ProductStatus := none
  deriving DecidableEq, Repr

/-- Fields that are not given stay as they are; `description` can also be set to null. -/
structure UpdateProductDto (ν : Type) where
  name : Option String := none
  description : Option (Option String) := none
  category : Option String := none
  brand : Option String := none
  price : Option ν := none
  status : Option ProductStatus := none
  deriving DecidableEq, Repr

structure ProductDocument (ν : Type) where
  id : Int
  name : String
  description : Option String
  category : String
  brand : String
  price : ν
  status : ProductStatus
  createdAt : Nat
  deriving DecidableEq, Repr

variable {ν : Type}

/-- The `data` of `create`. -/
def CreateProductDto.toProduct (dto : CreateProductDto ν) (now : Nat) : Product ν where
  name := dto.name
  description := dto.description
  category := dto.category
  brand := dto.brand
  price := dto.price
  status := dto.status.getD .active
  createdAt := now

/-- The `data` of `update`. -/
def UpdateProductDto.apply (dto : UpdateProductDto ν) (product : Product ν) : Product ν :=
  { product with
    name := dto.name.getD product.name
    description := dto.description.getD product.description
    category := dto.category.getD product.category
    brand := dto.brand.getD product.brand
    price := dto.price.getD product.price
    status := dto.status.getD product.status }

/-- The document that `indexProduct` and `reindexProducts` build. -/
def document (id : Int) (product : Product ν) : ProductDocument ν where
  id := id
  name := product.name
  description := product.description
  category := product.category
  brand := product.brand
  price := product.price
  status := product.status
  createdAt := product.createdAt

/-! ### The two stores -/

/-- The documents by their `_id`. -/
abbrev Documents (ν : Type) := AList fun _ : Int => ProductDocument ν

structure ProductStore (ν : Type) where
  products : AList fun _ : Int => Product ν := ∅
  nextId : Int := 1
  /-- None while the index does not exist. -/
  index : Option (Documents ν) := some ∅

namespace ProductStore

/-- The document that belongs to the row. -/
def row (s : ProductStore ν) (id : Int) : Option (ProductDocument ν) :=
  (s.products.lookup id).map (document id)

/-- The document in the index. -/
def indexed (s : ProductStore ν) (id : Int) : Option (ProductDocument ν) := s.index.bind (·.lookup id)

/-- `product.create` -/
def create (s : ProductStore ν) (product : Product ν) : ProductStore ν :=
  { s with products := s.products.insert s.nextId product, nextId := s.nextId + 1 }

/-- `product.update` of a row that is there. -/
def update (s : ProductStore ν) (id : Int) (product : Product ν) : ProductStore ν :=
  { s with products := s.products.insert id product }

/-- `product.delete` -/
def delete (s : ProductStore ν) (id : Int) : ProductStore ν :=
  { s with products := s.products.erase id }

/-- `product.findMany`, as documents. -/
def allDocuments (s : ProductStore ν) : List (ProductDocument ν) :=
  s.products.entries.map fun e => document e.1 e.2

/-- `client.index`; it creates an index that does not exist. -/
def indexDocument (s : ProductStore ν) (d : ProductDocument ν) : ProductStore ν :=
  { s with index := some ((s.index.getD ∅).insert d.id d) }

/-- `client.delete`. It throws if there is no such document or no index, and `deleteProduct` catches
that. -/
def deleteDocument (s : ProductStore ν) (id : Int) : ProductStore ν :=
  { s with index := s.index.map (·.erase id) }

/-- `client.bulk` -/
def bulk (s : ProductStore ν) (documents : List (ProductDocument ν)) : ProductStore ν :=
  documents.foldl indexDocument s

end ProductStore

/-! ### Requests -/

inductive ProductRequest (ν : Type) where
  | create (dto : CreateProductDto ν)
  | update (id : Int) (dto : UpdateProductDto ν)
  | remove (id : Int)
  | reindexProducts
  deriving DecidableEq, Repr

inductive Change (ν : Type) where
  | update (dto : UpdateProductDto ν)
  | remove
  deriving DecidableEq, Repr

inductive ProductError where
  /-- `findOne` finds nothing. -/
  | notFound
  /-- The row is gone when it is to be written. -/
  | recordNotFound
  /-- `indices.delete` of an index that does not exist. -/
  | indexNotFound
  /-- `indices.create` of an index that exists. -/
  | indexExists
  deriving DecidableEq, Repr

/-- The next operation of a request. -/
inductive ProductCall (ν : Type) where
  | creating (dto : CreateProductDto ν)
  | finding (id : Int) (change : Change ν)
  | writing (id : Int) (change : Change ν)
  | indexing (d : ProductDocument ν)
  | unindexing (id : Int)
  | readingAll
  /-- The first `indices.exists` of `reindexAll`. -/
  | checkingIndex (documents : List (ProductDocument ν))
  | deletingIndex (documents : List (ProductDocument ν))
  /-- The `indices.exists` of `createIndexIfNotExists`. -/
  | checkingAgain (documents : List (ProductDocument ν))
  | creatingIndex (documents : List (ProductDocument ν))
  | bulking (documents : List (ProductDocument ν))
  | done
  | failed (e : ProductError)
  deriving DecidableEq, Repr

def ProductRequest.start : ProductRequest ν → ProductCall ν
  | .create dto => .creating dto
  | .update id dto => .finding id (.update dto)
  | .remove id => .finding id .remove
  | .reindexProducts => .readingAll

/-- The end of `reindexAll`: without products there is nothing to send. -/
def ProductCall.thenBulk (documents : List (ProductDocument ν)) : ProductCall ν :=
  if documents.isEmpty then .done else .bulking documents

/-- One operation at the time `now`. -/
def ProductCall.next (now : Nat) (s : ProductStore ν) : ProductCall ν → ProductStore ν × ProductCall ν
  | .creating dto => (s.create (dto.toProduct now), .indexing (document s.nextId (dto.toProduct now)))
  | .finding id change => match s.products.lookup id with
    | none => (s, .failed .notFound)
    | some _ => (s, .writing id change)
  | .writing id change => match s.products.lookup id, change with
    | none, _ => (s, .failed .recordNotFound)
    | some product, .update dto =>
      (s.update id (dto.apply product), .indexing (document id (dto.apply product)))
    | some _, .remove => (s.delete id, .unindexing id)
  | .indexing d => (s.indexDocument d, .done)
  | .unindexing id => (s.deleteDocument id, .done)
  | .readingAll => (s, .checkingIndex s.allDocuments)
  | .checkingIndex documents =>
    (s, if s.index.isSome then .deletingIndex documents else .checkingAgain documents)
  | .deletingIndex documents =>
    if s.index.isSome then ({ s with index := none }, .checkingAgain documents)
    else (s, .failed .indexNotFound)
  | .checkingAgain documents =>
    (s, if s.index.isSome then .thenBulk documents else .creatingIndex documents)
  | .creatingIndex documents =>
    if s.index.isSome then (s, .failed .indexExists)
    else ({ s with index := some ∅ }, .thenBulk documents)
  | .bulking documents => (s.bulk documents, .done)
  | .done => (s, .done)
  | .failed e => (s, .failed e)

def productProtocol (ν : Type) : Protocol (ProductStore ν) (ProductRequest ν) (ProductCall ν) Nat where
  start := ProductRequest.start
  next := ProductCall.next

/-- Any number of concurrent requests, from an empty table and an empty index. -/
def productMachine (ν : Type) :
    Machine (Threads (ProductStore ν) (ProductCall ν)) (Sched (ProductRequest ν) Nat) Unit :=
  (productProtocol ν).machine {}

/-! ### What the operations do to one product -/

namespace ProductStore
variable (s : ProductStore ν) {id : Int}

@[simp] theorem row_create (product : Product ν) :
    (s.create product).row id =
      if id = s.nextId then some (document s.nextId product) else s.row id := by
  split
  · rename_i h
    subst h
    simp [row, create]
  · rename_i h
    simp [row, create, AList.lookup_insert_ne h]

@[simp] theorem row_update {p : Int} (product : Product ν) :
    (s.update p product).row id = if id = p then some (document p product) else s.row id := by
  split
  · rename_i h
    subst h
    simp [row, update]
  · rename_i h
    simp [row, update, AList.lookup_insert_ne h]

@[simp] theorem row_delete {p : Int} : (s.delete p).row id = if id = p then none else s.row id := by
  split
  · rename_i h
    subst h
    simp [row, delete]
  · rename_i h
    simp [row, delete, AList.lookup_erase_ne h]

@[simp] theorem row_indexDocument (d : ProductDocument ν) : (s.indexDocument d).row id = s.row id := rfl

@[simp] theorem row_deleteDocument {p : Int} : (s.deleteDocument p).row id = s.row id := rfl

@[simp] theorem indexed_indexDocument (d : ProductDocument ν) :
    (s.indexDocument d).indexed id = if id = d.id then some d else s.indexed id := by
  split
  · rename_i h
    subst h
    simp [indexed, indexDocument]
  · rename_i h
    show AList.lookup id ((s.index.getD ∅).insert d.id d) = s.index.bind (·.lookup id)
    rw [AList.lookup_insert_ne h]
    cases s.index with
    | none => rfl
    | some docs => rfl

@[simp] theorem indexed_deleteDocument {p : Int} :
    (s.deleteDocument p).indexed id = if id = p then none else s.indexed id := by
  cases hi : s.index with
  | none => simp [indexed, deleteDocument, hi]
  | some docs =>
    split
    · rename_i h
      subst h
      simp [indexed, deleteDocument, hi]
    · rename_i h
      simp [indexed, deleteDocument, hi, AList.lookup_erase_ne h]

theorem bulk_products (documents : List (ProductDocument ν)) :
    (s.bulk documents).products = s.products ∧ (s.bulk documents).nextId = s.nextId := by
  induction documents generalizing s with
  | nil => exact ⟨rfl, rfl⟩
  | cons d documents ih => exact ih (s.indexDocument d)

theorem bulk_index (documents : List (ProductDocument ν)) :
    (s.bulk documents).index.isSome ∨ (s.bulk documents).index = s.index := by
  induction documents generalizing s with
  | nil => exact .inr rfl
  | cons d documents ih =>
    rcases ih (s.indexDocument d) with h | h
    · exact .inl h
    · exact .inl (congrArg Option.isSome h)

variable {s} in
theorem id_of_row {d : ProductDocument ν} (h : s.row id = some d) : d.id = id := by
  obtain ⟨product, -, rfl⟩ := Option.map_eq_some_iff.1 h
  rfl

theorem mem_allDocuments {d : ProductDocument ν} : d ∈ s.allDocuments ↔ s.row d.id = some d := by
  constructor
  · intro h
    obtain ⟨e, he, rfl⟩ := List.mem_map.1 h
    have hlookup : s.products.lookup e.1 = some e.2 := AList.mem_lookup_iff.2 he
    show (s.products.lookup e.1).map (document e.1) = _
    rw [hlookup]
    rfl
  · intro h
    obtain ⟨product, hlookup, hd⟩ := Option.map_eq_some_iff.1 h
    exact List.mem_map.2 ⟨⟨d.id, product⟩, AList.mem_lookup_iff.1 hlookup, hd⟩

theorem indexed_bulk {documents : List (ProductDocument ν)} (h : ∀ d ∈ documents, s.row d.id = some d) :
    (s.bulk documents).indexed id = if id ∈ documents.map (·.id) then s.row id else s.indexed id := by
  induction documents generalizing s with
  | nil => rfl
  | cons d documents ih =>
    have hd := h d List.mem_cons_self
    show ((s.indexDocument d).bulk documents).indexed id = _
    rw [ih (s.indexDocument d) (fun d' hd' => h d' (List.mem_cons_of_mem d hd')), row_indexDocument,
      indexed_indexDocument]
    simp only [List.map_cons, List.mem_cons]
    by_cases hid : id = d.id
    · subst hid
      simp [hd]
    · simp [hid]

end ProductStore

end Portfolio.Products
