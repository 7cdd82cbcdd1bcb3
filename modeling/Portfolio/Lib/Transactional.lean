import Mathlib.Tactic.Common

/-!
# Transactional methods

Computations that read and write a store and may throw. `transactional` is the rule of a declarative
transaction: the outermost call begins one and commits it, unless it ends with an exception, which
takes back all that was written since; a call inside joins it, and dooms it with an exception even if
that is caught.
-/

namespace Portfolio

/-- The store as the next statement sees it, and the transaction that is open, with the store that a
rollback goes back to. -/
structure Connection (σ : Type) where
  store : σ
  begun : Option σ := none
  rollbackOnly : Bool := false

/-- What is written stays written when an exception is thrown. -/
def Transaction (σ ε α : Type) : Type := Connection σ → Except ε α × Connection σ

namespace Transaction
variable {σ ε α β : Type}

protected def pure (a : α) : Transaction σ ε α := fun c => (.ok a, c)

protected def bind (x : Transaction σ ε α) (f : α → Transaction σ ε β) : Transaction σ ε β := fun c =>
  match x c with
  | (.ok a, c) => f a c
  | (.error e, c) => (.error e, c)

instance : Monad (Transaction σ ε) where
  pure := Transaction.pure
  bind := Transaction.bind

def throw (e : ε) : Transaction σ ε α := fun c => (.error e, c)

def read (f : σ → α) : Transaction σ ε α := fun c => (.ok (f c.store), c)

def write (f : σ → σ) : Transaction σ ε Unit := fun c => (.ok (), { c with store := f c.store })

/-- `unexpected` is thrown in place of the commit of a doomed transaction. -/
def transactional (unexpected : ε) (body : Transaction σ ε α) : Transaction σ ε α := fun c =>
  match c.begun with
  | some _ => match body c with
    | (.ok a, c) => (.ok a, c)
    | (.error e, c) => (.error e, { c with rollbackOnly := true })
  | none => match body { store := c.store, begun := some c.store } with
    | (.ok a, d) =>
      if d.rollbackOnly then (.error unexpected, { store := c.store })
      else (.ok a, { store := d.store })
    | (.error e, _) => (.error e, { store := c.store })

/-! ### Rules -/

section Rules
variable {unexpected e : ε} {a : α} {c d : Connection σ}

@[simp] theorem read_apply {f : σ → α} : (read f : Transaction σ ε α) c = (.ok (f c.store), c) := rfl

theorem bind_ok {x : Transaction σ ε α} {f : α → Transaction σ ε β} (h : x c = (.ok a, d)) :
    (x >>= f) c = f a d := by
  show (match x c with
    | (.ok a, c) => f a c
    | (.error e, c) => (.error e, c)) = f a d
  rw [h]

theorem bind_error {x : Transaction σ ε α} {f : α → Transaction σ ε β} (h : x c = (.error e, d)) :
    (x >>= f) c = (.error e, d) := by
  show (match x c with
    | (.ok a, c) => f a c
    | (.error e, c) => (.error e, c)) = (.error e, d)
  rw [h]

variable {body : Transaction σ ε α} {s : σ}

/-- A call inside a transaction that returns. -/
theorem transactional_joined_ok (hbegun : c.begun = some s) (h : body c = (.ok a, d)) :
    transactional unexpected body c = (.ok a, d) := by
  simp only [transactional, hbegun, h]

/-- A call inside a transaction that throws. -/
theorem transactional_joined_error (hbegun : c.begun = some s) (h : body c = (.error e, d)) :
    transactional unexpected body c = (.error e, { d with rollbackOnly := true }) := by
  simp only [transactional, hbegun, h]

/-- The outermost call commits. -/
theorem transactional_ok (h : body { store := s, begun := some s } = (.ok a, d))
    (hrollback : d.rollbackOnly = false) :
    transactional unexpected body { store := s } = (.ok a, { store := d.store }) := by
  simp only [transactional, h, hrollback, Bool.false_eq_true, if_false]

/-- An exception of the outermost call takes back what was written. -/
theorem transactional_error (h : body { store := s, begun := some s } = (.error e, d)) :
    transactional unexpected body { store := s } = (.error e, { store := s }) := by
  simp only [transactional, h]

end Rules

end Transaction

end Portfolio
