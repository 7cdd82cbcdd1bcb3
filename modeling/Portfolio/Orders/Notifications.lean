import Portfolio.Orders.OrderService

/-!
# Notifications of order events

`NotificationConsumer` and `NotificationService` behind the topic `order-events`. Kafka delivers a
published event at least once, in any order and any number of times, and again until its handler has
succeeded and that was acknowledged (`Topic`). The handler never fails and looks up no earlier
notification, so each delivery whose insert works makes one more row. `toFixed` is the text of an
amount with two decimals.
-/

namespace Portfolio.Orders

/-! ### The handler -/

/-- A row, without its time. -/
structure Notification where
  id : Int
  userId : Int
  type : OrderEventType
  message : String
  deriving DecidableEq, Repr

structure NotificationDb where
  notifications : List Notification := []
  nextId : Int := 1
  deriving DecidableEq, Repr

section Consumer
variable {ν : Type} (toFixed : ν → String)

/-- The default branch is for event types that `OrderService` does not send. -/
def generateNotificationMessage (event : OrderEvent ν) : String :=
  match event.eventType with
  | .orderCreated =>
    "Your order #" ++ toString event.orderId ++ " has been created. Total amount: $" ++
      toFixed event.totalAmount
  | .orderPaid =>
    "Payment confirmed for order #" ++ toString event.orderId ++ ". Thank you for your purchase!"
  | .orderCancelled => "Your order #" ++ toString event.orderId ++ " has been cancelled."

/-- The row that is made of an event. -/
def notificationOf (id : Int) (event : OrderEvent ν) : Notification where
  id := id
  userId := event.userId
  type := event.eventType
  message := generateNotificationMessage toFixed event

def createNotificationFromOrderEvent (insertFails : Bool) (db : NotificationDb) (event : OrderEvent ν) :
    Except String NotificationDb :=
  if insertFails then .error "notification.create"
  else .ok
    { notifications := db.notifications ++ [notificationOf toFixed db.nextId event]
      nextId := db.nextId + 1 }

/-- The body of the `try` block. `value` is none if `JSON.parse` throws. -/
def processMessage (insertFails : Bool) (db : NotificationDb) (value : Option (OrderEvent ν)) :
    Except String NotificationDb :=
  match value with
  | none => .error "JSON.parse"
  | some event => createNotificationFromOrderEvent toFixed insertFails db event

/-- Every error is logged and the handler returns. -/
def handleMessage (insertFails : Bool) (db : NotificationDb) (value : Option (OrderEvent ν)) :
    NotificationDb × Except String Unit :=
  match processMessage toFixed insertFails db value with
  | .ok db' => (db', .ok ())
  | .error _ => (db, .ok ())

theorem handleMessage_ok (insertFails : Bool) (db : NotificationDb) (value : Option (OrderEvent ν)) :
    (handleMessage toFixed insertFails db value).2 = .ok () := by
  unfold handleMessage
  split
  · rfl
  · rfl

theorem handleMessage_of_insertFails (db : NotificationDb) (value : Option (OrderEvent ν)) :
    (handleMessage toFixed true db value).1 = db := by
  cases value with
  | none => rfl
  | some event => rfl

/-! ### The topic -/

/-- Published events, by their position in the order of publication. -/
structure Topic (ν : Type) where
  log : List (OrderEvent ν) := []
  /-- Positions of the events that are to be delivered still. -/
  unsettled : List Nat := []
  db : NotificationDb := {}

inductive TopicStep (ν : Type) where
  | publish (event : OrderEvent ν)
  /-- The event at a position is handed to the consumer, for the first time or again. -/
  | deliver (position : Nat) (insertFails : Bool) (acknowledged : Bool)

namespace Topic

/-- A delivery is settled if the handler has returned and this was acknowledged. -/
def settle (unsettled : List Nat) (position : Nat) (acknowledged : Bool)
    (result : Except String Unit) : List Nat :=
  if result.isOk && acknowledged then unsettled.filter (· ≠ position)
  else if position ∈ unsettled then unsettled else unsettled ++ [position]

/-- The step, and the rows made with the positions of their events. -/
def step (t : Topic ν) : TopicStep ν → Topic ν × List (Nat × Notification)
  | .publish event => ({ t with log := t.log ++ [event], unsettled := t.unsettled ++ [t.log.length] }, [])
  | .deliver position insertFails acknowledged => match t.log[position]? with
    | none => (t, [])
    | some event =>
      let handled := handleMessage toFixed insertFails t.db (some event)
      ({ t with unsettled := settle t.unsettled position acknowledged handled.2, db := handled.1 },
        (handled.1.notifications.drop t.db.notifications.length).map fun row => (position, row))

/-- The delivery of the event at position `n` finds the insert working. -/
def Inserts (n : Nat) (t : Topic ν) : TopicStep ν → Prop
  | .publish _ => False
  | .deliver position insertFails _ => position = n ∧ n < t.log.length ∧ insertFails = false

instance (n : Nat) (t : Topic ν) : ∀ a, Decidable (Inserts n t a)
  | .publish _ => isFalse id
  | .deliver position insertFails _ =>
    inferInstanceAs (Decidable (position = n ∧ n < t.log.length ∧ insertFails = false))

theorem step_deliver {t : Topic ν} {position : Nat} {event : OrderEvent ν}
    (h : t.log[position]? = some event)
    (insertFails acknowledged : Bool) :
    t.step toFixed (.deliver position insertFails acknowledged) =
      ({ t with
          unsettled := settle t.unsettled position acknowledged (.ok ())
          db := (handleMessage toFixed insertFails t.db (some event)).1 },
        if insertFails then [] else [(position, notificationOf toFixed t.db.nextId event)]) := by
  simp only [step, h, handleMessage_ok]
  cases insertFails with
  | true => simp [handleMessage_of_insertFails]
  | false => simp [handleMessage, processMessage, createNotificationFromOrderEvent]

end Topic

def topicMachine : Machine (Topic ν) (TopicStep ν) (Nat × Notification) where
  init := {}
  step t a := t.step toFixed a

/-- The table has one row for every published event, with its user, its type and its message, and no
others. -/
structure OnePerEvent (t : Topic ν) (made : List (Nat × Notification)) : Prop where
  table : t.db.notifications = made.map (·.2)
  content : ∀ c ∈ made, ∃ event, t.log[c.1]? = some event ∧ c.2 = notificationOf toFixed c.2.id event
  one : ∀ n < t.log.length, (made.map (·.1)).count n = 1

/-! ### Runs -/

structure TopicInv (steps : List (TopicStep ν)) (made : List (Nat × Notification)) (t : Topic ν) :
    Prop where
  table : t.db.notifications = made.map (·.2)
  content : ∀ c ∈ made, ∃ event, t.log[c.1]? = some event ∧ c.2 = notificationOf toFixed c.2.id event
  made : ∀ n, (made.map (·.1)).count n = (topicMachine toFixed).countSteps (Topic.Inserts n) steps

variable {toFixed}

theorem TopicInv.deliver {steps : List (TopicStep ν)} {made : List (Nat × Notification)} {t : Topic ν}
    (ht : ((topicMachine toFixed).run steps).1 = t) (h : TopicInv toFixed steps made t) (position : Nat)
    (insertFails acknowledged : Bool) :
    TopicInv toFixed (steps ++ [.deliver position insertFails acknowledged])
      (made ++ (t.step toFixed (.deliver position insertFails acknowledged)).2)
      (t.step toFixed (.deliver position insertFails acknowledged)).1 := by
  cases hlog : t.log[position]? with
  | none =>
    have hstep : t.step toFixed (.deliver position insertFails acknowledged) = (t, []) := by
      simp only [Topic.step, hlog]
    rw [hstep, List.append_nil]
    refine ⟨h.table, h.content, fun n => ?_⟩
    have hno : ¬ Topic.Inserts n t (.deliver position insertFails acknowledged) := by
      rintro ⟨rfl, hlt, -⟩
      rw [List.getElem?_eq_none_iff] at hlog
      omega
    rw [Machine.countSteps_concat, ht, if_neg hno]
    exact h.made n
  | some event =>
    rw [Topic.step_deliver toFixed hlog]
    have hlt : position < t.log.length := (List.getElem?_eq_some_iff.1 hlog).1
    cases insertFails with
    | true =>
      rw [if_pos rfl, List.append_nil, handleMessage_of_insertFails]
      refine ⟨h.table, h.content, fun n => ?_⟩
      have hno : ¬ Topic.Inserts n t (.deliver position true acknowledged) := by
        rintro ⟨-, -, hfails⟩
        cases hfails
      rw [Machine.countSteps_concat, ht, if_neg hno]
      exact h.made n
    | false =>
      refine ⟨?_, fun c hc => ?_, fun n => ?_⟩
      · show t.db.notifications ++ [notificationOf toFixed t.db.nextId event] = _
        simp [h.table]
      · rcases List.mem_append.1 hc with hc | hc
        · exact h.content c hc
        · obtain rfl := List.mem_singleton.1 hc
          exact ⟨event, hlog, rfl⟩
      · rw [Machine.countSteps_concat, ht, ← h.made n, List.map_append, List.count_append]
        by_cases hn : position = n
        · subst hn
          simp [Topic.Inserts, hlt]
        · simp [Topic.Inserts, hn]

theorem topicInv_run (toFixed : ν → String) (steps : List (TopicStep ν)) :
    TopicInv toFixed steps ((topicMachine toFixed).run steps).2 ((topicMachine toFixed).run steps).1 := by
  induction steps using List.reverseRecOn with
  | nil => exact ⟨rfl, fun _ hc => absurd hc List.not_mem_nil, fun _ => rfl⟩
  | append_singleton steps a ih =>
    rw [Machine.run_concat]
    cases a with
    | publish event =>
      have hstep : (topicMachine toFixed).step ((topicMachine toFixed).run steps).1 (.publish event) =
          ({ ((topicMachine toFixed).run steps).1 with
              log := ((topicMachine toFixed).run steps).1.log ++ [event]
              unsettled := ((topicMachine toFixed).run steps).1.unsettled ++
                [((topicMachine toFixed).run steps).1.log.length] }, []) := rfl
      rw [hstep, List.append_nil]
      refine ⟨ih.table, fun c hc => ?_, fun n => ?_⟩
      · obtain ⟨e, he, hrow⟩ := ih.content c hc
        exact ⟨e, (List.getElem?_append_left (List.getElem?_eq_some_iff.1 he).1).trans he, hrow⟩
      · have hno : ¬ Topic.Inserts n ((topicMachine toFixed).run steps).1 (.publish event) := id
        rw [Machine.countSteps_concat, if_neg hno]
        exact ih.made n
    | deliver position insertFails acknowledged =>
      exact ih.deliver rfl position insertFails acknowledged

/-- There is exactly one notification per event if and only if exactly one delivery of each event
finds the insert working. -/
theorem one_per_event_iff (toFixed : ν → String) (steps : List (TopicStep ν)) :
    OnePerEvent toFixed ((topicMachine toFixed).run steps).1 ((topicMachine toFixed).run steps).2 ↔
      ∀ n < ((topicMachine toFixed).run steps).1.log.length,
        (topicMachine toFixed).countSteps (Topic.Inserts n) steps = 1 := by
  have hinv := topicInv_run toFixed steps
  constructor
  · intro h n hn
    rw [← hinv.made n]
    exact h.one n hn
  · intro h
    refine ⟨hinv.table, hinv.content, fun n hn => ?_⟩
    rw [hinv.made n]
    exact h n hn

end Consumer

/-- `toFixed(2)` of a whole number. -/
def wholeToFixed (n : Int) : String := toString n ++ ".00"

def createdEvent : OrderEvent Int :=
  { eventId := "e1", eventType := .orderCreated, timestamp := "t1", orderId := 1, userId := 7,
    totalAmount := 20 }

/-- The insert fails on the only delivery. -/
def failedInsert : List (TopicStep Int) := [.publish createdEvent, .deliver 0 true true]

/-- The first acknowledgement is lost and the event comes again. -/
def lostAcknowledgement : List (TopicStep Int) :=
  [.publish createdEvent, .deliver 0 false false, .deliver 0 false true]

/-- Delivery settles in both runs, with no notification in the first and two in the second. -/
theorem notification_lost_or_doubled :
    (((topicMachine wholeToFixed).run failedInsert).1.unsettled = [] ∧
      ¬ OnePerEvent wholeToFixed ((topicMachine wholeToFixed).run failedInsert).1
        ((topicMachine wholeToFixed).run failedInsert).2) ∧
    (((topicMachine wholeToFixed).run lostAcknowledgement).1.unsettled = [] ∧
      ¬ OnePerEvent wholeToFixed ((topicMachine wholeToFixed).run lostAcknowledgement).1
        ((topicMachine wholeToFixed).run lostAcknowledgement).2) := by
  refine ⟨⟨rfl, fun h => ?_⟩, rfl, fun h => ?_⟩
  · exact absurd (h.one 0 (by decide)) (by decide)
  · exact absurd (h.one 0 (by decide)) (by decide)

end Portfolio.Orders
