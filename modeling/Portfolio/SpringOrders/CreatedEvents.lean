import Portfolio.SpringOrders.OrderService

/-!
# Events of orders that were not committed

The comment in `createOrder` puts the event after the commit, the code sends it before: what fails
between the two takes the order back and leaves the event. The event also has the total of the
entity, which the column rounds. `events_committed_iff` says that these are the only ways in which
an event can be sent without its order.
-/

namespace Portfolio.SpringOrders

/-- Every `ORDER_CREATED` event sent is about a committed order with its id and total. -/
def EventsCommitted (db : Database) (events : List OrderEvent) : Prop :=
  ∀ e ∈ events, e.eventType = "ORDER_CREATED" →
    ∃ order ∈ db.orders, order.id = e.orderId ∧ order.totalAmount = e.totalAmount

/-- No statement of `save` fails, and the amounts fit their columns. -/
def Saves (env : Env) (items : List OrderItemRequest) : Prop :=
  env.fails .insertOrder = false ∧ (numeric (calculateTotalAmount items)).isSome ∧
    ∀ n item, items[n]? = some item →
      env.fails (.insertItem n) = false ∧ (numeric item.price).isSome

/-- An event is sent. -/
def Call.Sends (call : Call) : Prop :=
  call.env.fails .begin = false ∧ none ∉ call.items ∧
    Saves call.env call.items.reduceOption ∧ call.env.fails .send = false

/-- A call that sends an event goes on to commit, and its total has no more than two decimals. -/
def Call.CommitsWhatItSends (call : Call) : Prop :=
  call.Sends → call.env.fails .response = false ∧ call.env.fails .commit = false ∧
    numeric (calculateTotalAmount call.items.reduceOption) =
      some (calculateTotalAmount call.items.reduceOption)

/-! ### What `save` does -/

theorem insertItems_cons (env : Env) (nextItemId : Int) (n : Nat) (item : OrderItemRequest)
    (items : List OrderItemRequest) :
    insertItems env nextItemId n (item :: items) =
      if env.fails (.insertItem n) then .error (.failed (.insertItem n))
      else match numeric item.price with
        | none => .error (.failed (.insertItem n))
        | some price => (insertItems env nextItemId (n + 1) items).map fun (entities, rows) =>
          (⟨nextItemId + n, item.productId, item.quantity, item.price⟩ :: entities,
            ⟨nextItemId + n, item.productId, item.quantity, price⟩ :: rows) := by
  rfl

theorem insertItems_ok_iff (env : Env) (nextItemId : Int) (n : Nat)
    (items : List OrderItemRequest) :
    (∃ r, insertItems env nextItemId n items = .ok r) ↔
      ∀ k item, items[k]? = some item →
        env.fails (.insertItem (n + k)) = false ∧ (numeric item.price).isSome := by
  induction items generalizing n with
  | nil => exact iff_of_true ⟨_, rfl⟩ fun k it hk => by simp at hk
  | cons item items ih =>
    have hsplit : (∀ k it, (item :: items)[k]? = some it →
        env.fails (.insertItem (n + k)) = false ∧ (numeric it.price).isSome) ↔
        (env.fails (.insertItem n) = false ∧ (numeric item.price).isSome) ∧
          ∃ r, insertItems env nextItemId (n + 1) items = .ok r := by
      rw [ih]
      constructor
      · intro h
        exact ⟨by simpa using h 0 item, fun k it hk => by
          simpa [Nat.add_assoc, Nat.add_comm 1 k] using h (k + 1) it (by simpa using hk)⟩
      · rintro ⟨h0, h⟩ k it hk
        cases k with
        | zero =>
          obtain rfl : item = it := by simpa using hk
          simpa using h0
        | succ k => simpa [Nat.add_assoc, Nat.add_comm 1 k] using h k it (by simpa using hk)
    rw [hsplit, insertItems_cons]
    cases env.fails (.insertItem n) with
    | true => simp
    | false =>
      cases numeric item.price with
      | none => simp
      | some price => cases insertItems env nextItemId (n + 1) items <;> simp [Except.map]

theorem save_ok_iff (env : Env) (db : Database) (userId : Int) (items : List OrderItemRequest) :
    (∃ r, save env db userId items = .ok r) ↔ Saves env items := by
  have hitems := insertItems_ok_iff env db.nextItemId 0 items
  simp only [Nat.zero_add] at hitems
  rw [Saves, ← hitems, save]
  cases env.fails .insertOrder with
  | true => simp
  | false =>
    cases numeric (calculateTotalAmount items) with
    | none => simp
    | some total => cases insertItems env db.nextItemId 0 items <;> simp [Except.map]

/-- The entity and the row that `save` gives have the new id, and the row has the rounded total. -/
theorem save_spec {env : Env} {db : Database} {userId : Int} {items : List OrderItemRequest}
    {order row : Order} (h : save env db userId items = .ok (order, row)) :
    order.id = db.nextOrderId ∧ order.totalAmount = calculateTotalAmount items ∧
      row.id = db.nextOrderId ∧ numeric (calculateTotalAmount items) = some row.totalAmount := by
  unfold save at h
  split at h
  · cases h
  · split at h
    · cases h
    · rename_i total ht
      cases hi : insertItems env db.nextItemId 0 items with
      | error e =>
        rw [hi] at h
        cases h
      | ok r =>
        rw [hi] at h
        cases h
        exact ⟨rfl, rfl, rfl, ht⟩

theorem saveOrder_ok_iff (db : Database) (call : Call) :
    (∃ r, saveOrder db call = .ok r) ↔
      call.env.fails .begin = false ∧ none ∉ call.items ∧
        Saves call.env call.items.reduceOption := by
  rw [← save_ok_iff call.env db call.userId, saveOrder]
  cases call.env.fails .begin with
  | true => simp
  | false => by_cases hnull : none ∈ call.items <;> simp [hnull]

theorem saveOrder_spec {db : Database} {call : Call} {order row : Order}
    (h : saveOrder db call = .ok (order, row)) :
    save call.env db call.userId call.items.reduceOption = .ok (order, row) := by
  unfold saveOrder at h
  split at h
  · cases h
  · split at h
    · cases h
    · exact h

/-! ### One call -/

theorem createOrder_of_not_sends {db : Database} {call : Call} (h : ¬ call.Sends) :
    (createOrder db call).events = [] := by
  unfold createOrder
  cases hs : saveOrder db call with
  | error e => rfl
  | ok r =>
    have hok := (saveOrder_ok_iff db call).1 ⟨r, hs⟩
    have hsend : call.env.fails .send = true := by
      cases hf : call.env.fails .send with
      | true => rfl
      | false => exact absurd ⟨hok.1, hok.2.1, hok.2.2, hf⟩ h
    simp only [publishOrderCreatedEvent, hsend, if_true]
    split <;> [rfl; split <;> rfl]

/-- A call that sends an event: the one event, and what becomes of the database. -/
theorem createOrder_of_sends (db : Database) {call : Call} (h : call.Sends) :
    ∃ order row : Order,
      order.id = db.nextOrderId ∧
      order.totalAmount = calculateTotalAmount call.items.reduceOption ∧
      row.id = db.nextOrderId ∧
      numeric (calculateTotalAmount call.items.reduceOption) = some row.totalAmount ∧
      (createOrder db call).events = [⟨call.env.eventId, "ORDER_CREATED", call.env.timestamp,
        order.id, order.userId, order.totalAmount⟩] ∧
      (createOrder db call).db =
        if call.env.fails .response ∨ call.env.fails .commit then db.rollback 1 row.items.length
        else db.insert row := by
  obtain ⟨⟨order, row⟩, hs⟩ := (saveOrder_ok_iff db call).2 ⟨h.1, h.2.1, h.2.2.1⟩
  obtain ⟨hid, htotal, hrow, hnumeric⟩ := save_spec (saveOrder_spec hs)
  refine ⟨order, row, hid, htotal, hrow, hnumeric, ?_⟩
  simp only [createOrder, hs, publishOrderCreatedEvent, h.2.2.2]
  cases call.env.fails .response <;> cases call.env.fails .commit <;> simp

/-- A call only adds an order. -/
theorem mem_createOrder {db : Database} {call : Call} {order : Order} (h : order ∈ db.orders) :
    order ∈ (createOrder db call).db.orders := by
  unfold createOrder
  split
  · exact h
  · dsimp only
    split
    · exact h
    · split
      · exact h
      · exact List.mem_append_left _ h

/-! ### Runs -/

/-- The identity column is past every id in the table. -/
def Database.Fresh (db : Database) : Prop := ∀ order ∈ db.orders, order.id < db.nextOrderId

theorem Database.Fresh.rollback {db : Database} (h : db.Fresh) (orderIds itemIds : Nat) :
    (db.rollback orderIds itemIds).Fresh := by
  intro order hmem
  have := h order hmem
  simp only [Database.rollback]
  omega

theorem Database.Fresh.insert {db : Database} (h : db.Fresh) {row : Order}
    (hrow : row.id = db.nextOrderId) : (db.insert row).Fresh := by
  intro order hmem
  simp only [Database.insert, Database.rollback] at hmem ⊢
  rcases List.mem_append.1 hmem with hmem | hmem
  · have := h order hmem
    omega
  · obtain rfl := List.mem_singleton.1 hmem
    omega

theorem Database.Fresh.createOrder {db : Database} (h : db.Fresh) (call : Call) :
    (createOrder db call).db.Fresh := by
  unfold SpringOrders.createOrder
  cases hs : saveOrder db call with
  | error e => exact h.rollback _ _
  | ok r =>
    obtain ⟨order, row⟩ := r
    dsimp only
    split
    · exact h.rollback _ _
    · split
      · exact h.rollback _ _
      · exact h.insert (save_spec (saveOrder_spec hs)).2.2.1

theorem service_fresh (calls : List Call) : ((service {}).run calls).1.Fresh :=
  (service {}).run_inv (P := fun _ _ db => db.Fresh) (fun _ h => absurd h List.not_mem_nil)
    (fun _ _ _ call h => h.createOrder call) calls

theorem EventsCommitted.createOrder {db : Database} {events : List OrderEvent} {call : Call}
    (h : EventsCommitted db events) (hcall : call.CommitsWhatItSends) :
    EventsCommitted (createOrder db call).db (events ++ (createOrder db call).events) := by
  intro e he htype
  rcases List.mem_append.1 he with he | he
  · obtain ⟨order, hmem, hid, htotal⟩ := h e he htype
    exact ⟨order, mem_createOrder hmem, hid, htotal⟩
  · by_cases hsends : call.Sends
    · obtain ⟨hresponse, hcommit, hround⟩ := hcall hsends
      obtain ⟨order, row, hid, htotal, hrow, hnumeric, hevents, hdb⟩ :=
        createOrder_of_sends db hsends
      rw [hevents] at he
      obtain rfl := List.mem_singleton.1 he
      rw [hround] at hnumeric
      refine ⟨row, ?_, hrow.trans hid.symm, ?_⟩
      · rw [hdb, if_neg (by simp [hresponse, hcommit])]
        exact List.mem_append_right _ (by simp)
      · exact (Option.some.inj hnumeric).symm.trans htotal.symm
    · rw [createOrder_of_not_sends hsends] at he
      exact absurd he List.not_mem_nil

/-- The order of the event is there after the call only if the call has committed it. -/
theorem commits_of_eventsCommitted {db : Database} {events : List OrderEvent} {call : Call}
    (hfresh : db.Fresh)
    (h : EventsCommitted (createOrder db call).db (events ++ (createOrder db call).events)) :
    call.CommitsWhatItSends := by
  intro hsends
  obtain ⟨order, row, hid, htotal, -, hnumeric, hevents, hdb⟩ :=
    createOrder_of_sends db hsends
  rw [hevents] at h
  obtain ⟨found, hmem, hfound, hsame⟩ :=
    h _ (List.mem_append_right _ (List.mem_singleton_self _)) rfl
  have hnew : found ∉ db.orders := fun hold => by
    have := hfresh found hold
    simp only at hfound
    omega
  rw [hdb] at hmem
  split at hmem
  · exact absurd hmem hnew
  · rename_i hok
    obtain rfl : found = row := by
      rcases List.mem_append.1 hmem with hold | hrow
      · exact absurd hold hnew
      · exact List.mem_singleton.1 hrow
    simp only [not_or, Bool.not_eq_true] at hok
    refine ⟨hok.1, hok.2, ?_⟩
    rw [hnumeric, hsame, htotal]

/-- All through a run every event is about a committed order if and only if every call that sends an
event also commits, with a total that the column does not round. -/
theorem events_committed_iff (calls : List Call) :
    (∀ pre, pre <+: calls →
      EventsCommitted ((service {}).run pre).1 ((service {}).run pre).2) ↔
    ∀ call ∈ calls, call.CommitsWhatItSends := by
  rw [← (service {}).along_iff_forall_mem]
  refine (service {}).always_iff_along (P := fun r => EventsCommitted r.1 r.2) ?_ ?_
  · intro pre _ hpre
    exact (service {}).run_inv_along (P := fun _ events db => EventsCommitted db events)
      (fun _ h => absurd h List.not_mem_nil) (fun _ _ _ _ h hcall => h.createOrder hcall) pre hpre
  · intro pre call _ _ h
    rw [Machine.run_concat] at h
    exact commits_of_eventsCommitted (service_fresh pre) h

/-- The commit fails after the event has been sent. -/
theorem event_without_order :
    ¬ ∀ calls : List Call,
      EventsCommitted ((service {}).run calls).1 ((service {}).run calls).2 := by
  intro h
  have := h [{ userId := 7, items := [some ⟨1, 2, 10⟩], env := { fails := (· = .commit) } }]
  revert this
  unfold EventsCommitted
  decide +kernel

end Portfolio.SpringOrders
