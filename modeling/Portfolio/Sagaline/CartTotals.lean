import Portfolio.Lib.Machine
import Portfolio.Lib.Rows
import Portfolio.Sagaline.Shop

/-!
# The totals of a cart

`CartService.toDTO` (`e-commerce`), after any edits of carts one after another. A quantity that
overflows is turned away by the `CHECK` of `cart_items`, so each row stays right; the sum of them,
which is an `int` too, is checked by nobody (`totals_exact_iff`).
-/

namespace Portfolio.Sagaline

structure CartItemDTO where
  id : Nat
  productId : Nat
  quantity : Int
  price : Int
  subtotal : Int
  deriving DecidableEq, Repr

structure CartDTO where
  id : Nat
  userId : Nat
  items : List CartItemDTO
  totalAmount : Int
  totalItems : Int
  deriving DecidableEq, Repr

def CartItem.toItemDTO (item : CartItem) : CartItemDTO :=
  ⟨item.id, item.productId, item.quantity, item.price, item.price * item.quantity⟩

/-- `BigDecimal.add` is exact, `IntStream.sum` is not. -/
def Cart.toDTO (cart : Cart) : CartDTO :=
  let itemDTOs := cart.items.map (·.toItemDTO)
  { id := cart.id
    userId := cart.userId
    items := itemDTOs
    totalAmount := (itemDTOs.map (·.subtotal)).foldl (· + ·) 0
    totalItems := (itemDTOs.map (·.quantity)).foldl addInt 0 }

/-! ### Edits -/

inductive CartEdit where
  | add (productId : Nat) (quantity : Int32)
  | update (itemId : Nat) (quantity : Int32)
  | remove (itemId : Nat)
  deriving DecidableEq, Repr

def CartEdit.request : CartEdit → ShopRequest
  | .add productId quantity => .addToCart productId quantity.toInt
  | .update itemId quantity => .updateCartItem itemId quantity.toInt
  | .remove itemId => .removeFromCart itemId

/-- Edits of users one after another, in a shop whose carts are empty at first. -/
def editMachine (products : List Product) : Machine Shop (Nat × CartEdit) Unit where
  init := { products }
  step shop edit := (shop.after edit.1 edit.2.request, [])

/-- How many pieces the items are together. -/
def pieces (items : List CartItem) : Int := (items.map (·.quantity)).sum

/-- The items of a cart, and what is reported of them. -/
structure CartOk (cart : Cart) : Prop where
  products : (cart.items.map (·.productId)).Nodup
  positive : ∀ item ∈ cart.items, 1 ≤ item.quantity
  totalAmount : cart.toDTO.totalAmount = (cart.items.map fun item => item.price * item.quantity).sum
  totalItems : cart.toDTO.totalItems = pieces cart.items

/-- The items in the cart of a user, none if there is no cart. -/
def itemsOf (shop : Shop) (userId : Nat) : List CartItem :=
  match shop.findByUserId userId with
  | some cart => cart.items
  | none => []

/-- The edit does not fill the cart of its user with more pieces than an `int` counts. An addition
that overflows the quantity of its own item is refused. -/
def Room (shop : Shop) : Nat × CartEdit → Prop
  | (userId, .add productId quantity) => (shop.findProduct productId).isSome →
    (∀ item ∈ itemsOf shop userId, item.productId = productId →
      item.quantity + quantity.toInt ≤ 2147483647) →
    pieces (itemsOf shop userId) + quantity.toInt ≤ 2147483647
  | (userId, .update itemId quantity) => ∀ item ∈ itemsOf shop userId, item.id = itemId →
    pieces (itemsOf shop userId) - item.quantity + quantity.toInt ≤ 2147483647
  | (_, .remove _) => True

/-! ### Sums -/

/-- A sum of `int`s is wrong by a multiple of `2 ^ 32`. -/
theorem foldl_addInt (quantities : List Int) {a : Int} (hlo : -2147483648 ≤ a)
    (hhi : a ≤ 2147483647) :
    quantities.foldl addInt a = (a + quantities.sum + 2147483648) % 4294967296 - 2147483648 := by
  induction quantities generalizing a with
  | nil =>
    rw [List.foldl_nil, List.sum_nil]
    omega
  | cons q quantities ih =>
    have hadd : addInt a q = (a + q + 2147483648) % 4294967296 - 2147483648 := rfl
    rw [List.foldl_cons, ih (by omega) (by omega), List.sum_cons, hadd]
    omega

theorem totalAmount_toDTO (cart : Cart) :
    cart.toDTO.totalAmount = (cart.items.map fun item => item.price * item.quantity).sum := by
  rw [List.sum_eq_foldl]
  show ((cart.items.map (·.toItemDTO)).map (·.subtotal)).foldl (· + ·) 0 = _
  rw [List.map_map]
  rfl

theorem totalItems_toDTO (cart : Cart) :
    cart.toDTO.totalItems = (pieces cart.items + 2147483648) % 4294967296 - 2147483648 := by
  have hmap : (cart.items.map (·.toItemDTO)).map (·.quantity) = cart.items.map (·.quantity) := by
    rw [List.map_map]
    rfl
  show ((cart.items.map (·.toItemDTO)).map (·.quantity)).foldl addInt 0 = _
  rw [hmap, foldl_addInt _ (by omega) (by omega), zero_add, pieces]

theorem pieces_nonneg {items : List CartItem} (h : ∀ item ∈ items, 1 ≤ item.quantity) :
    0 ≤ pieces items := by
  induction items with
  | nil => exact Int.le_refl 0
  | cons item items ih =>
    have hitem := h item List.mem_cons_self
    have hrest := ih fun i hi => h i (List.mem_cons_of_mem item hi)
    rw [pieces] at hrest ⊢
    rw [List.map_cons, List.sum_cons]
    omega

/-! ### What an edit does -/

/-- What the rows of a cart keep; `next` is the next number of a row. -/
structure ValidItems (next : Nat) (items : List CartItem) : Prop where
  ids : UniqueIds (·.id) items
  fresh : ∀ item ∈ items, item.id < next
  products : (items.map (·.productId)).Nodup
  quantity : ∀ item ∈ items, 1 ≤ item.quantity ∧ item.quantity ≤ 2147483647

/-- The rows after an edit that is not refused. -/
inductive Edited (shop : Shop) (items : List CartItem) : CartEdit → List CartItem → Prop where
  | more {productId : Nat} {quantity : Int32} {item : CartItem}
    (product : (shop.findProduct productId).isSome) (mem : item ∈ items)
    (same : item.productId = productId) (positive : 1 ≤ quantity.toInt)
    (fits : item.quantity + quantity.toInt ≤ 2147483647) :
    Edited shop items (.add productId quantity) (items.map fun i =>
      if i.id = item.id then { i with quantity := item.quantity + quantity.toInt } else i)
  | new {productId : Nat} {quantity : Int32} {price : Int}
    (product : (shop.findProduct productId).isSome) (other : ∀ item ∈ items, item.productId ≠ productId)
    (positive : 1 ≤ quantity.toInt) :
    Edited shop items (.add productId quantity)
      (items ++ [⟨shop.nextItemId, productId, quantity.toInt, price⟩])
  | set {itemId : Nat} {quantity : Int32} {item : CartItem} (mem : item ∈ items)
    (same : item.id = itemId) (positive : 1 ≤ quantity.toInt) :
    Edited shop items (.update itemId quantity) (items.map fun i =>
      if i.id = item.id then { i with quantity := quantity.toInt } else i)
  | dropped {itemId : Nat} {quantity : Int32} {item : CartItem} (mem : item ∈ items)
    (same : item.id = itemId) (nonpos : quantity.toInt ≤ 0) :
    Edited shop items (.update itemId quantity) (items.filter (·.id ≠ item.id))
  | removed {itemId : Nat} {item : CartItem} (mem : item ∈ items) (same : item.id = itemId) :
    Edited shop items (.remove itemId) (items.filter (·.id ≠ item.id))

/-- Why an edit is refused. -/
def Refused (shop : Shop) (items : List CartItem) : CartEdit → Prop
  | .add productId quantity => shop.findProduct productId = none ∨ quantity.toInt < 1 ∨
    ∃ item ∈ items, item.productId = productId ∧ 2147483647 < item.quantity + quantity.toInt
  | .update itemId _ | .remove itemId => ∀ item ∈ items, item.id ≠ itemId

section Quantities
variable {next : Nat} {items : List CartItem} {item : CartItem} {n : Int}

/-- The rows with a new quantity for one of them. -/
theorem ValidItems.setQuantity (h : ValidItems next items) (hpos : 1 ≤ n) (hle : n ≤ 2147483647) :
    ValidItems next (items.map fun i => if i.id = item.id then { i with quantity := n } else i) := by
  have hid : ∀ i : CartItem,
      (if i.id = item.id then { i with quantity := n } else i).id = i.id := by
    intro i
    split <;> rfl
  have hproduct : ∀ i : CartItem,
      (if i.id = item.id then { i with quantity := n } else i).productId = i.productId := by
    intro i
    split <;> rfl
  refine ⟨fun k => ?_, fun i hi => ?_, ?_, fun i hi => ?_⟩
  · rw [List.countP_map]
    simp only [Function.comp_def, hid]
    exact h.ids k
  · obtain ⟨old, hold, rfl⟩ := List.mem_map.1 hi
    rw [hid]
    exact h.fresh old hold
  · rw [List.map_map]
    simp only [Function.comp_def, hproduct]
    exact h.products
  · obtain ⟨old, hold, rfl⟩ := List.mem_map.1 hi
    split
    · exact ⟨hpos, hle⟩
    · exact h.quantity old hold

theorem ValidItems.filter (h : ValidItems next items) (p : CartItem → Bool) :
    ValidItems next (items.filter p) :=
  ⟨h.ids.sublist List.filter_sublist, fun i hi => h.fresh i (List.mem_of_mem_filter hi),
    (List.filter_sublist.map _).nodup h.products, fun i hi => h.quantity i (List.mem_of_mem_filter hi)⟩

theorem ValidItems.mono {next' : Nat} (h : ValidItems next items) (hle : next ≤ next') :
    ValidItems next' items :=
  ⟨h.ids, fun item hitem => Nat.lt_of_lt_of_le (h.fresh item hitem) hle, h.products, h.quantity⟩

/-- The rows with a new one. -/
theorem ValidItems.concat {next' : Nat} (h : ValidItems next items) (hid : item.id = next)
    (hlt : next < next') (hother : ∀ i ∈ items, i.productId ≠ item.productId)
    (hquantity : 1 ≤ item.quantity ∧ item.quantity ≤ 2147483647) : ValidItems next' (items ++ [item]) := by
  have hmem : ∀ i ∈ items ++ [item], i ∈ items ∨ i = item := by simp
  refine ⟨fun k => ?_, fun i hi => ?_, ?_, fun i hi => ?_⟩
  · rw [List.countP_append, List.countP_singleton]
    have hcount := h.ids k
    split
    · next hk =>
      have hzero : items.countP (fun i => decide (i.id = k)) = 0 := by
        rw [List.countP_eq_zero]
        intro i hi hid'
        have hfresh : i.id < next := h.fresh i hi
        have hid' : i.id = k := of_decide_eq_true hid'
        have hk : item.id = k := of_decide_eq_true hk
        omega
      show items.countP (fun i => decide (i.id = k)) + 1 ≤ 1
      omega
    · exact hcount
  · rcases hmem i hi with hi | rfl
    · exact Nat.lt_trans (h.fresh i hi) hlt
    · rw [hid]
      exact hlt
  · rw [List.map_append, List.map_singleton]
    refine List.Nodup.append h.products (List.nodup_singleton _) ?_
    rw [List.disjoint_singleton]
    intro hproduct
    obtain ⟨i, hi, heq⟩ := List.mem_map.1 hproduct
    exact hother i hi heq
  · rcases hmem i hi with hi | rfl
    · exact h.quantity i hi
    · exact hquantity

theorem pieces_setQuantity (h : UniqueIds (·.id) items) (hmem : item ∈ items) :
    pieces (items.map fun i => if i.id = item.id then { i with quantity := n } else i) =
      pieces items - item.quantity + n := by
  have hmap : (items.map fun i => if i.id = item.id then { i with quantity := n } else i) =
      items.map fun i => if i.id = item.id then { item with quantity := n } else i := by
    refine List.map_congr_left fun i hi => ?_
    split
    · rename_i hid
      rw [h.eq_of_id hi hmem hid]
    · rfl
  have hsum := sum_map_replace (fun i : CartItem => i.quantity) h { item with quantity := n } hmem
  rw [hmap, pieces, pieces]
  dsimp only at hsum
  omega

theorem pieces_filter_ne (h : UniqueIds (·.id) items) (hmem : item ∈ items) :
    pieces (items.filter (·.id ≠ item.id)) = pieces items - item.quantity := by
  have hsum := sum_map_filter_ne (fun i : CartItem => i.quantity) h hmem
  rw [pieces, pieces]
  omega

theorem pieces_concat (items : List CartItem) (item : CartItem) :
    pieces (items ++ [item]) = pieces items + item.quantity := by
  rw [pieces, pieces, List.map_append, List.sum_append, List.map_singleton, List.sum_singleton]

end Quantities

namespace Edited
variable {shop : Shop} {items items' : List CartItem} {edit : CartEdit}

theorem valid (h : Edited shop items edit items') (hvalid : ValidItems shop.nextItemId items)
    {next : Nat} (hnext : shop.nextItemId ≤ next) (hadd : ∀ productId quantity,
      edit = .add productId quantity → (∀ item ∈ items, item.productId ≠ productId) →
      shop.nextItemId < next) :
    ValidItems next items' := by
  have hmono := hvalid.mono hnext
  cases h with
  | more product mem same positive fits =>
    refine hmono.setQuantity ?_ fits
    have := (hvalid.quantity _ mem).1
    omega
  | @new productId quantity price product other positive =>
    have := quantity.toInt_lt
    exact hvalid.concat rfl (hadd productId quantity rfl other) other ⟨positive, by dsimp only; omega⟩
  | @set itemId quantity item mem same positive =>
    have := quantity.toInt_lt
    exact hmono.setQuantity positive (by omega)
  | dropped mem same nonpos => exact hmono.filter _
  | removed mem same => exact hmono.filter _

/-- The pieces after an edit fit if and only if there is room for it. -/
theorem pieces_le_iff {userId : Nat} (h : Edited shop (itemsOf shop userId) edit items')
    (hvalid : ValidItems shop.nextItemId (itemsOf shop userId))
    (hle : pieces (itemsOf shop userId) ≤ 2147483647) :
    pieces items' ≤ 2147483647 ↔ Room shop (userId, edit) := by
  generalize hitems : itemsOf shop userId = items at *
  cases h with
  | @more productId quantity item product mem same positive fits =>
    rw [pieces_setQuantity hvalid.ids mem]
    have hpieces : pieces items - item.quantity + (item.quantity + quantity.toInt) =
      pieces items + quantity.toInt := by omega
    rw [hpieces, Room, hitems]
    constructor
    · intro hroom _ _
      exact hroom
    · intro hroom
      refine hroom product fun other hother hid => ?_
      rw [List.inj_on_of_nodup_map hvalid.products hother mem (hid.trans same.symm)]
      exact fits
  | @new productId quantity price product other positive =>
    rw [pieces_concat, Room, hitems]
    constructor
    · intro hroom _ _
      exact hroom
    · intro hroom
      exact hroom product fun item hitem hid => absurd hid (other item hitem)
  | @set itemId quantity item mem same positive =>
    rw [pieces_setQuantity hvalid.ids mem, Room, hitems]
    constructor
    · intro hroom other hother hid
      rw [hvalid.ids.eq_of_id hother mem (hid.trans same.symm)]
      exact hroom
    · intro hroom
      exact hroom item mem same
  | @dropped itemId quantity item mem same nonpos =>
    have hpos := (hvalid.quantity item mem).1
    rw [pieces_filter_ne hvalid.ids mem, Room, hitems]
    refine iff_of_true (by omega) fun other hother hid => ?_
    rw [hvalid.ids.eq_of_id hother mem (hid.trans same.symm)]
    omega
  | @removed itemId item mem same =>
    have hpos := (hvalid.quantity item mem).1
    rw [pieces_filter_ne hvalid.ids mem]
    exact iff_of_true (by omega) trivial

end Edited

theorem Refused.room {shop : Shop} {userId : Nat} {edit : CartEdit}
    (h : Refused shop (itemsOf shop userId) edit)
    (hle : pieces (itemsOf shop userId) ≤ 2147483647) : Room shop (userId, edit) := by
  cases edit with
  | add productId quantity =>
    intro hproduct hfits
    rcases h with hnone | hquantity | ⟨item, hitem, hid, hlt⟩
    · rw [hnone] at hproduct
      cases hproduct
    · omega
    · have := hfits item hitem hid
      omega
  | update itemId quantity =>
    intro item hitem hid
    exact absurd hid (h item hitem)
  | remove itemId => trivial

/-! ### The shop after an edit -/

/-- A cart has been saved, and the others are as before. -/
structure SavedIn (shop shop' : Shop) (saved : Cart) : Prop where
  mem : saved ∈ shop'.carts
  old : ∀ cart ∈ shop'.carts, cart = saved ∨ cart ∈ shop.carts

section Save
variable {shop shop₁ shop' : Shop} {userId : Nat} {cart saved : Cart}

theorem saveCart_of_pos (h : ∀ item ∈ cart.items, 0 < item.quantity) :
    shop.saveCart cart =
      .ok ({ shop with carts := shop.carts.map fun c => if c.id = cart.id then cart else c }, cart) := by
  rw [Shop.saveCart, if_pos]
  exact List.all_eq_true.2 fun item hitem => decide_eq_true (h item hitem)

theorem setQuantity_pos (h : ∀ item ∈ cart.items, 0 < item.quantity) (existing : CartItem) {n : Int}
    (hn : 0 < n) : ∀ item ∈ (cart.setQuantity existing n).items, 0 < item.quantity := by
  intro item hitem
  obtain ⟨old, hold, rfl⟩ := List.mem_map.1 hitem
  split
  · exact hn
  · exact h old hold

theorem saveCart_of_not_pos {item : CartItem} (hmem : item ∈ cart.items) (h : ¬ 0 < item.quantity) :
    shop.saveCart cart = .error .dataIntegrityViolation := by
  rw [Shop.saveCart, if_neg]
  exact fun hall => h (of_decide_eq_true (List.all_eq_true.1 hall item hmem))

theorem savedIn_map (hmem : cart ∈ shop₁.carts) (hid : saved.id = cart.id)
    (hold : ∀ c ∈ shop₁.carts, c ∈ shop.carts ∨ c.id = cart.id)
    (hcarts : shop'.carts = shop₁.carts.map fun c => if c.id = saved.id then saved else c) :
    SavedIn shop shop' saved := by
  constructor
  · rw [hcarts]
    exact List.mem_map.2 ⟨cart, hmem, if_pos hid.symm⟩
  · intro c hc
    rw [hcarts] at hc
    obtain ⟨old, hmem', rfl⟩ := List.mem_map.1 hc
    split
    · exact .inl rfl
    · rename_i hne
      exact .inr ((hold old hmem').resolve_right fun heq => hne (heq.trans hid.symm))

theorem findOrCreateCart_items (h : shop.findOrCreateCart userId = (shop₁, cart)) :
    cart.items = itemsOf shop userId ∧ cart ∈ shop₁.carts ∧
      (∀ c ∈ shop₁.carts, c ∈ shop.carts ∨ c.id = cart.id) ∧
      shop₁.nextItemId = shop.nextItemId := by
  rw [itemsOf]
  cases hfind : shop.findByUserId userId with
  | some found =>
    rw [Shop.findOrCreateCart, hfind] at h
    cases h
    exact ⟨rfl, List.mem_of_find?_eq_some hfind, fun c hc => .inl hc, rfl⟩
  | none =>
    rw [Shop.findOrCreateCart, hfind] at h
    cases h
    refine ⟨rfl, List.mem_append_right _ (List.mem_singleton.2 rfl), fun c hc => ?_, rfl⟩
    rcases List.mem_append.1 hc with hc | hc
    · exact .inl hc
    · rw [List.mem_singleton.1 hc]
      exact .inr rfl

end Save

/-- An edit saves the cart of its user, or is refused and changes nothing. -/
def EditCases (shop : Shop) (userId : Nat) (edit : CartEdit) (shop' : Shop) : Prop :=
  (Refused shop (itemsOf shop userId) edit ∧ shop' = shop) ∨
    ∃ saved, Edited shop (itemsOf shop userId) edit saved.items ∧ SavedIn shop shop' saved ∧
      shop.nextItemId ≤ shop'.nextItemId ∧
      ∀ productId quantity, edit = .add productId quantity →
        (∀ item ∈ itemsOf shop userId, item.productId ≠ productId) →
        shop.nextItemId < shop'.nextItemId

section Cases
variable {shop : Shop} {userId : Nat}
  (hitems : ∀ item ∈ itemsOf shop userId, 1 ≤ item.quantity ∧ item.quantity ≤ 2147483647)
include hitems

theorem add_cases (productId : Nat) (quantity : Int32) :
    EditCases shop userId (.add productId quantity)
      (shop.after userId (.addToCart productId quantity.toInt)) := by
  have hbound := quantity.toInt_lt
  by_cases hpos : quantity.toInt < 1
  · refine .inl ⟨.inr (.inl hpos), ?_⟩
    rw [Shop.after, Shop.run, if_pos hpos]
  rw [Shop.after, Shop.run, if_neg hpos, Shop.addToCart]
  cases hproduct : shop.findProduct productId with
  | none => exact .inl ⟨.inl hproduct, rfl⟩
  | some product =>
    have hid : product.id = productId := of_decide_eq_true (List.find?_some
      (p := fun p : Product => decide (p.id = productId)) hproduct)
    have hsome : (shop.findProduct productId).isSome := by rw [hproduct, Option.isSome_some]
    cases hcart : shop.findOrCreateCart userId with
    | mk shop₁ cart =>
      obtain ⟨hcartItems, hmem, hold, hnext⟩ := findOrCreateCart_items hcart
      have hcartPos : ∀ item ∈ cart.items, 0 < item.quantity := by
        intro item hitem
        have := hitems item (hcartItems ▸ hitem)
        omega
      dsimp only
      cases hfind : cart.items.find? (·.productId = product.id) with
      | some existing =>
        have hexisting : existing ∈ cart.items := List.mem_of_find?_eq_some hfind
        have hsame : existing.productId = product.id := of_decide_eq_true (List.find?_some
          (p := fun i : CartItem => decide (i.productId = product.id)) hfind)
        have hquantity := hitems existing (hcartItems ▸ hexisting)
        have hadd : addInt existing.quantity quantity.toInt =
          (existing.quantity + quantity.toInt + 2147483648) % 4294967296 - 2147483648 := rfl
        dsimp only
        by_cases hfits : existing.quantity + quantity.toInt ≤ 2147483647
        · have hsum : addInt existing.quantity quantity.toInt =
              existing.quantity + quantity.toInt := by omega
          rw [hsum, saveCart_of_pos]
          · refine .inr ⟨cart.setQuantity existing (existing.quantity + quantity.toInt), ?_,
              savedIn_map hmem rfl hold rfl, Nat.le_of_eq hnext.symm, fun p q hedit hother => ?_⟩
            · rw [← hcartItems]
              exact .more hsome hexisting (hsame.trans hid) (by omega) hfits
            · cases hedit
              exact absurd (hsame.trans hid) (hother existing (hcartItems ▸ hexisting))
          · exact setQuantity_pos hcartPos existing (by omega)
        · -- the sum is negative, and the `CHECK` of the table fails
          have hset : { existing with quantity := addInt existing.quantity quantity.toInt } ∈
              (cart.setQuantity existing (addInt existing.quantity quantity.toInt)).items :=
            List.mem_map.2 ⟨existing, hexisting, if_pos rfl⟩
          rw [saveCart_of_not_pos hset (by dsimp only; omega)]
          exact .inl ⟨.inr (.inr ⟨existing, hcartItems ▸ hexisting, hsame.trans hid, by omega⟩), rfl⟩
      | none =>
        have hother : ∀ item ∈ itemsOf shop userId, item.productId ≠ productId := by
          intro item hitem heq
          exact List.find?_eq_none.1 hfind item (hcartItems ▸ hitem)
            (decide_eq_true (heq.trans hid.symm))
        dsimp only
        rw [saveCart_of_pos]
        · refine .inr ⟨cart.addItem ⟨shop₁.nextItemId, product.id, quantity.toInt, product.price⟩, ?_,
            savedIn_map hmem rfl hold rfl, ?_, fun _ _ _ _ => ?_⟩
          · show Edited shop _ _ (cart.items ++ [_])
            rw [hcartItems, hnext, hid]
            exact .new hsome hother (by omega)
          · show shop.nextItemId ≤ shop₁.nextItemId + 1
            omega
          · show shop.nextItemId < shop₁.nextItemId + 1
            omega
        · intro item hitem
          rcases List.mem_append.1 hitem with hitem | hitem
          · exact hcartPos item hitem
          · rw [List.mem_singleton.1 hitem]
            dsimp only
            omega

omit hitems in
/-- The row that an edit is about. -/
theorem findCartItem_cases (shop : Shop) (userId itemId : Nat) :
    (∃ error, shop.findCartItem userId itemId = .error error ∧
        ∀ item ∈ itemsOf shop userId, item.id ≠ itemId) ∨
      ∃ cart item, shop.findCartItem userId itemId = .ok (cart, item) ∧
        cart.items = itemsOf shop userId ∧ cart ∈ shop.carts ∧ item ∈ cart.items ∧
        item.id = itemId := by
  rw [Shop.findCartItem, itemsOf]
  cases hcart : shop.findByUserId userId with
  | none => exact .inl ⟨_, rfl, fun item hitem => absurd hitem List.not_mem_nil⟩
  | some cart =>
    dsimp only
    cases hitem : cart.items.find? (·.id = itemId) with
    | none =>
      exact .inl ⟨_, rfl, fun item hmem heq => List.find?_eq_none.1 hitem item hmem
        (decide_eq_true heq)⟩
    | some item =>
      exact .inr ⟨cart, item, rfl, rfl, List.mem_of_find?_eq_some hcart,
        List.mem_of_find?_eq_some hitem, of_decide_eq_true (List.find?_some
          (p := fun i : CartItem => decide (i.id = itemId)) hitem)⟩

theorem update_cases (itemId : Nat) (quantity : Int32) :
    EditCases shop userId (.update itemId quantity)
      (shop.after userId (.updateCartItem itemId quantity.toInt)) := by
  rw [Shop.after, Shop.run, Shop.updateCartItemQuantity]
  rcases findCartItem_cases shop userId itemId with
    ⟨error, herror, hnone⟩ | ⟨cart, item, hok, hcartItems, hmem, hitem, hid⟩
  · rw [herror]
    exact .inl ⟨hnone, rfl⟩
  · rw [hok]
    dsimp only
    have hpos : ∀ i ∈ cart.items, 0 < i.quantity := by
      intro i hi
      have := hitems i (hcartItems ▸ hi)
      omega
    by_cases hquantity : quantity.toInt ≤ 0
    · rw [if_pos hquantity, saveCart_of_pos fun i hi => hpos i (List.mem_of_mem_filter hi)]
      refine .inr ⟨cart.removeItem item, ?_, savedIn_map hmem rfl (fun c hc => .inl hc) rfl,
        Nat.le_refl _, fun _ _ h => (by cases h)⟩
      rw [← hcartItems]
      exact .dropped hitem hid hquantity
    · rw [if_neg hquantity, saveCart_of_pos]
      · refine .inr ⟨cart.setQuantity item quantity.toInt, ?_,
          savedIn_map hmem rfl (fun c hc => .inl hc) rfl, Nat.le_refl _, fun _ _ h => (by cases h)⟩
        rw [← hcartItems]
        exact .set hitem hid (by omega)
      · exact setQuantity_pos hpos item (by omega)

theorem remove_cases (itemId : Nat) :
    EditCases shop userId (.remove itemId) (shop.after userId (.removeFromCart itemId)) := by
  rw [Shop.after, Shop.run, Shop.removeFromCart]
  rcases findCartItem_cases shop userId itemId with
    ⟨error, herror, hnone⟩ | ⟨cart, item, hok, hcartItems, hmem, hitem, hid⟩
  · rw [herror]
    exact .inl ⟨hnone, rfl⟩
  · rw [hok]
    dsimp only
    have hpos : ∀ i ∈ (cart.removeItem item).items, 0 < i.quantity := by
      intro i hi
      have := hitems i (hcartItems ▸ List.mem_of_mem_filter hi)
      omega
    rw [saveCart_of_pos hpos]
    refine .inr ⟨cart.removeItem item, ?_, savedIn_map hmem rfl (fun c hc => .inl hc) rfl,
      Nat.le_refl _, fun _ _ h => (by cases h)⟩
    rw [← hcartItems]
    exact .removed hitem hid

theorem edit_cases (edit : CartEdit) :
    EditCases shop userId edit (shop.after userId edit.request) := by
  cases edit with
  | add productId quantity => exact add_cases hitems productId quantity
  | update itemId quantity => exact update_cases hitems itemId quantity
  | remove itemId => exact remove_cases hitems itemId

end Cases

/-! ### Runs -/

/-- What every edit keeps. -/
def ValidCarts (shop : Shop) : Prop := ∀ cart ∈ shop.carts, ValidItems shop.nextItemId cart.items

/-- What they keep if there is room. -/
def SmallCarts (shop : Shop) : Prop := ∀ cart ∈ shop.carts, pieces cart.items ≤ 2147483647

theorem ValidCarts.itemsOf {shop : Shop} (h : ValidCarts shop) (userId : Nat) :
    ValidItems shop.nextItemId (itemsOf shop userId) := by
  rw [Sagaline.itemsOf]
  split
  · rename_i cart hcart
    exact h cart (List.mem_of_find?_eq_some hcart)
  · exact ⟨fun _ => Nat.zero_le 1, fun _ hi => absurd hi List.not_mem_nil, List.nodup_nil,
      fun _ hi => absurd hi List.not_mem_nil⟩

theorem SmallCarts.itemsOf {shop : Shop} (h : SmallCarts shop) (userId : Nat) :
    pieces (itemsOf shop userId) ≤ 2147483647 := by
  rw [Sagaline.itemsOf]
  split
  · rename_i cart hcart
    exact h cart (List.mem_of_find?_eq_some hcart)
  · show (0 : Int) ≤ 2147483647
    omega

theorem ValidCarts.step {shop : Shop} (h : ValidCarts shop) (userId : Nat) (edit : CartEdit) :
    ValidCarts (shop.after userId edit.request) := by
  rcases edit_cases (h.itemsOf userId).quantity edit with
    ⟨-, hsame⟩ | ⟨saved, hedited, hsaved, hnext, hadd⟩
  · rw [hsame]
    exact h
  · intro cart hcart
    rcases hsaved.old cart hcart with rfl | hold
    · exact hedited.valid (h.itemsOf userId) hnext hadd
    · exact (h cart hold).mono hnext

/-- The carts stay small if and only if there is room for the edit. -/
theorem SmallCarts.step_iff {shop : Shop} (hvalid : ValidCarts shop) (h : SmallCarts shop)
    (userId : Nat) (edit : CartEdit) :
    SmallCarts (shop.after userId edit.request) ↔ Room shop (userId, edit) := by
  rcases edit_cases (hvalid.itemsOf userId).quantity edit with
    ⟨hrefused, hsame⟩ | ⟨saved, hedited, hsaved, -, -⟩
  · rw [hsame]
    exact iff_of_true h (hrefused.room (h.itemsOf userId))
  · rw [← hedited.pieces_le_iff (hvalid.itemsOf userId) (h.itemsOf userId)]
    constructor
    · intro hsmall
      exact hsmall saved hsaved.mem
    · intro hle cart hcart
      rcases hsaved.old cart hcart with rfl | hold
      · exact hle
      · exact h cart hold

theorem ValidItems.ok_iff {next : Nat} {cart : Cart} (h : ValidItems next cart.items) :
    CartOk cart ↔ pieces cart.items ≤ 2147483647 := by
  have hnonneg := pieces_nonneg fun item hitem => (h.quantity item hitem).1
  constructor
  · intro hok
    have htotal := hok.totalItems
    rw [totalItems_toDTO] at htotal
    omega
  · intro hle
    refine ⟨h.products, fun item hitem => (h.quantity item hitem).1, totalAmount_toDTO cart, ?_⟩
    rw [totalItems_toDTO]
    omega

theorem validCarts_run (products : List Product) (edits : List (Nat × CartEdit)) :
    ValidCarts ((editMachine products).run edits).1 :=
  (editMachine products).run_inv (P := fun _ _ shop => ValidCarts shop)
    (fun _ hcart => absurd hcart List.not_mem_nil)
    (fun _ _ _ edit hshop => hshop.step edit.1 edit.2) edits

/-- All carts are as they should be, at any time, if and only if there is room for each edit. -/
theorem totals_exact_iff (products : List Product) (edits : List (Nat × CartEdit)) :
    (∀ pre, pre <+: edits → ∀ cart ∈ ((editMachine products).run pre).1.carts, CartOk cart) ↔
      (editMachine products).Along Room edits := by
  have hok : ∀ pre, (∀ cart ∈ ((editMachine products).run pre).1.carts, CartOk cart) ↔
      SmallCarts ((editMachine products).run pre).1 :=
    fun pre => forall₂_congr fun cart hcart => (validCarts_run products pre cart hcart).ok_iff
  have hsmall : ∀ pre, (editMachine products).Along Room pre →
      SmallCarts ((editMachine products).run pre).1 := by
    intro pre hroom
    induction pre using List.reverseRecOn with
    | nil => exact fun _ hcart => absurd hcart List.not_mem_nil
    | append_singleton pre edit ih =>
      obtain ⟨hpre, hedit⟩ := (editMachine products).along_concat.1 hroom
      rw [Machine.run_concat]
      exact ((ih hpre).step_iff (validCarts_run products pre) edit.1 edit.2).2 hedit
  refine (editMachine products).always_iff_along
    (P := fun r => ∀ cart ∈ r.1.carts, CartOk cart) (fun pre _ hroom => (hok pre).2 (hsmall pre hroom))
    fun pre edit _ hroom hcarts => ?_
  have hafter := (hok _).1 hcarts
  rw [Machine.run_concat] at hafter
  exact ((hsmall pre hroom).step_iff (validCarts_run products pre) edit.1 edit.2).1 hafter

/-- Two products, as many of each as an `Integer` can hold. -/
def fullCart : List (Nat × CartEdit) := [(1, .add 1 2147483647), (1, .add 2 2147483647)]

theorem totalItems_overflow :
    ¬ ∀ (products : List Product) (edits : List (Nat × CartEdit)),
      ∀ cart ∈ ((editMachine products).run edits).1.carts, CartOk cart := by
  intro h
  have hcart := h [⟨1, 100⟩, ⟨2, 100⟩] fullCart
    ⟨1, 1, [⟨1, 1, 2147483647, 100⟩, ⟨2, 2, 2147483647, 100⟩]⟩ (by decide +kernel)
  have htotal := hcart.totalItems
  revert htotal
  decide +kernel

end Portfolio.Sagaline
