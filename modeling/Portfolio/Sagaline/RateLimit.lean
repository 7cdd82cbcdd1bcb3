import Mathlib.Logic.Function.Basic
import Portfolio.Lib.Interleaving

/-!
# The rate limiter

`RateLimitService.isAllowed` (`e-commerce`), in any number of calls at the same time. Its commands
are `INCR` and, for the caller who sees the count 1, `EXPIRE`; a command can fail before or after
Redis has carried it out, and any exception lets the request through. The answer is given when the
last command of a call has come back. Times are in milliseconds.
-/

namespace Portfolio.Sagaline

/-- A counter key, with the time of the `INCR` that created it. -/
structure Counter where
  count : Nat
  deadline : Option Nat := none
  born : Nat
  deriving DecidableEq, Repr

/-- What a call has answered. `window` is the creation of the counter that it has counted in. -/
structure Answer where
  key : String
  time : Nat
  allowed : Bool
  window : Nat
  deriving DecidableEq, Repr

structure RateState where
  now : Nat := 0
  counters : String → Option Counter := fun _ => none
  answers : List Answer := []

/-- How a command ends: it is carried out, it is not, or it is and the caller gets an error. -/
inductive Outcome where
  | done
  | lost
  | unanswered
  deriving DecidableEq, Repr

inductive RateCall where
  | counting (key : String)
  | expiring (key : String) (window : Nat)
  | returned
  deriving DecidableEq, Repr

def rateLimitKey (key : String) : String := "rate_limit:" ++ key

/-- Redis takes a key away once its deadline has passed. -/
def Counter.isLive (now : Nat) (c : Counter) : Bool := c.deadline.all (now ≤ ·)

namespace RateState

def find (s : RateState) (key : String) : Option Counter := (s.counters key).filter (·.isLive s.now)

def store (s : RateState) (key : String) (c : Option Counter) : RateState :=
  { s with counters := Function.update s.counters key c }

/-- `INCR`. -/
def incr (s : RateState) (key : String) : RateState × Counter :=
  let c : Counter := match s.find key with
    | none => { count := 1, born := s.now }
    | some c => { c with count := c.count + 1 }
  (s.store key (some c), c)

/-- `PEXPIRE`, which deletes the key if there is no time left. -/
def expire (s : RateState) (key : String) (duration : Nat) : RateState :=
  match s.find key with
  | none => s
  | some c =>
    s.store key (if duration = 0 then none else some { c with deadline := some (s.now + duration) })

def answer (s : RateState) (key : String) (allowed : Bool) (window : Nat) : RateState × RateCall :=
  ({ s with answers := s.answers ++ [⟨key, s.now, allowed, window⟩] }, .returned)

variable (s : RateState) (key : String) (c : Option Counter)

@[simp] theorem store_now : (s.store key c).now = s.now := rfl
@[simp] theorem store_answers : (s.store key c).answers = s.answers := rfl
@[simp] theorem store_self : (s.store key c).counters key = c := Function.update_self ..

theorem store_of_ne {key' : String} (h : key' ≠ key) :
    (s.store key c).counters key' = s.counters key' :=
  Function.update_of_ne h ..

end RateState

section Steps
variable (maxRequests : Int) (duration : Nat)

/-- The next command of `isAllowed`, after some milliseconds. -/
def rateNext (choice : Nat × Outcome) (s : RateState) (call : RateCall) : RateState × RateCall :=
  let s := { s with now := s.now + choice.1 }
  match call with
  | .counting key => match choice.2 with
    | .lost => s.answer key true s.now
    | .unanswered => (s.incr (rateLimitKey key)).1.answer key true s.now
    | .done =>
      let (s, currentCount) := s.incr (rateLimitKey key)
      if currentCount.count = 1 then (s, .expiring key currentCount.born)
      else s.answer key (currentCount.count ≤ maxRequests) currentCount.born
  | .expiring key window => match choice.2 with
    | .lost => s.answer key true window
    | .unanswered => (s.expire (rateLimitKey key) duration).answer key true window
    | .done => (s.expire (rateLimitKey key) duration).answer key (1 ≤ maxRequests) window
  | .returned => (s, .returned)

def rateLimits : Protocol RateState String RateCall (Nat × Outcome) where
  start key := .counting key
  next := rateNext maxRequests duration

def rateMachine : Machine (Threads RateState RateCall) (Sched String (Nat × Outcome)) Unit :=
  (rateLimits maxRequests duration).machine {}

end Steps

/-! ### What is asked of it -/

/-- The calls for a key that have returned `true` in the `duration` from a time on. -/
def allowedIn (key : String) (start duration : Nat) (answers : List Answer) : Nat :=
  answers.countP fun a => a.key = key && a.allowed && start ≤ a.time && a.time ≤ start + duration

/-- No call is rejected later than `duration` after its counter was created, and a counter without a
deadline is one whose creator is about to set it. -/
def Released (duration : Nat) (s : Threads RateState RateCall) : Prop :=
  (∀ a ∈ s.shared.answers, a.allowed = false → a.time ≤ a.window + duration) ∧
    ∀ key c, s.shared.counters (rateLimitKey key) = some c → c.deadline = none →
      .expiring key c.born ∈ s.calls

/-- Redis carries out the command and answers. -/
def NoError (_ : Threads RateState RateCall) (_ : RateCall) (choice : Nat × Outcome) : Prop :=
  choice.2 = .done

/-- The `INCR` that creates a counter is answered, and its `EXPIRE` is carried out. -/
def Carried (s : RateState) (outcome : Outcome) : RateCall → Prop
  | .counting key => outcome = .unanswered → (s.find (rateLimitKey key)).isSome = true
  | .expiring _ _ => outcome ≠ .lost
  | .returned => True

/-- A call that counts finds no full counter that is older than `duration`, as one is whose deadline
was set late; where no call has room, the deadline is set in time. -/
def Timely (maxRequests : Int) (duration : Nat) (s : RateState) : RateCall → Prop
  | .counting key => ∀ c ∈ s.find (rateLimitKey key), c.count < maxRequests ∨ s.now ≤ c.born + duration
  | .expiring _ window => 1 ≤ maxRequests ∨ s.now ≤ window + duration
  | .returned => True

/-- Both, after the time that passes before the command. -/
def Armed (maxRequests : Int) (duration : Nat) (s : Threads RateState RateCall) (call : RateCall)
    (choice : Nat × Outcome) : Prop :=
  Carried { s.shared with now := s.shared.now + choice.1 } choice.2 call ∧
    (choice.2 = .done → Timely maxRequests duration { s.shared with now := s.shared.now + choice.1 } call)

instance (s : Threads RateState RateCall) (call : RateCall) (choice : Nat × Outcome) :
    Decidable (NoError s call choice) :=
  inferInstanceAs (Decidable (choice.2 = .done))

instance (s : RateState) (outcome : Outcome) : ∀ call : RateCall, Decidable (Carried s outcome call)
  | .counting key =>
    inferInstanceAs (Decidable (outcome = .unanswered → (s.find (rateLimitKey key)).isSome = true))
  | .expiring _ _ => inferInstanceAs (Decidable (outcome ≠ .lost))
  | .returned => isTrue trivial

instance (maxRequests : Int) (duration : Nat) (s : RateState) :
    ∀ call : RateCall, Decidable (Timely maxRequests duration s call)
  | .counting key => inferInstanceAs (Decidable (∀ c ∈ s.find (rateLimitKey key),
      c.count < maxRequests ∨ s.now ≤ c.born + duration))
  | .expiring _ window => inferInstanceAs (Decidable (1 ≤ maxRequests ∨ s.now ≤ window + duration))
  | .returned => isTrue trivial

instance (maxRequests : Int) (duration : Nat) (s : Threads RateState RateCall) (call : RateCall)
    (choice : Nat × Outcome) : Decidable (Armed maxRequests duration s call choice) :=
  inferInstanceAs (Decidable (_ ∧ (_ → _)))

end Portfolio.Sagaline
