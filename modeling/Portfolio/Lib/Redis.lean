import Mathlib.Algebra.Group.Nat.Defs
import Mathlib.Data.List.Sort

/-!
# A Redis keyspace

Strings and hashes under keys. A key with a deadline is there before it and gone from then on. Every
command works at a time `now`; times are in nanoseconds.
-/

namespace Portfolio
open Std

namespace Redis

/-- The fields of a hash are in the order in which they were first set. -/
inductive Value where
  | string (text : String)
  | hash (fields : List (String × String))
  deriving DecidableEq, Repr

structure Entry where
  value : Value
  deadline : Option Nat := none
  deriving DecidableEq, Repr

inductive Reply where
  | error
  | nil
  | status
  | integer (n : Nat)
  | string (text : String)
  | array (elements : List String)
  deriving DecidableEq, Repr

def Entry.isLive (now : Nat) (e : Entry) : Bool := e.deadline.all (now < ·)

end Redis

structure Redis where
  entries : TreeMap String Redis.Entry := ∅

namespace Redis

def find (r : Redis) (now : Nat) (key : String) : Option Entry := r.entries[key]?.filter (·.isLive now)

def put (r : Redis) (key : String) (e : Entry) : Redis := { entries := r.entries.insert key e }

def erase (r : Redis) (key : String) : Redis := { entries := r.entries.erase key }

/-- The deadline `seconds` from now. -/
def after (now : Nat) (seconds : Int) : Nat := now + seconds.toNat * 10 ^ 9

/-! ### Commands -/

def setex (r : Redis) (now : Nat) (key : String) (seconds : Int) (text : String) : Redis × Reply :=
  if seconds ≤ 0 then (r, .error)
  else (r.put key { value := .string text, deadline := some (after now seconds) }, .status)

def get (r : Redis) (now : Nat) (key : String) : Reply :=
  match r.find now key with
  | none => .nil
  | some { value := .string text, .. } => .string text
  | some { value := .hash _, .. } => .error

def del (r : Redis) (now : Nat) (key : String) : Redis × Reply :=
  (r.erase key, .integer (if (r.find now key).isSome then 1 else 0))

def setField (fields : List (String × String)) (field : String × String) : List (String × String) :=
  if fields.any (·.1 = field.1) then fields.map fun old => if old.1 = field.1 then field else old
  else fields ++ [field]

def hset (r : Redis) (now : Nat) (key : String) (fields : List (String × String)) : Redis × Reply :=
  match r.find now key with
  | none => (r.put key { value := .hash (fields.foldl setField []) }, .integer (fields.foldl setField []).length)
  | some { value := .hash old, deadline } =>
    (r.put key { value := .hash (fields.foldl setField old), deadline },
      .integer ((fields.foldl setField old).length - old.length))
  | some { value := .string _, .. } => (r, .error)

def hmset (r : Redis) (now : Nat) (key : String) (fields : List (String × String)) : Redis × Reply :=
  match r.hset now key fields with
  | (r, .error) => (r, .error)
  | (r, _) => (r, .status)

def expire (r : Redis) (now : Nat) (key : String) (seconds : Int) : Redis × Reply :=
  match r.find now key with
  | none => (r, .integer 0)
  | some e =>
    if seconds ≤ 0 then (r.erase key, .integer 1)
    else (r.put key { e with deadline := some (after now seconds) }, .integer 1)

def hgetall (r : Redis) (now : Nat) (key : String) : Reply :=
  match r.find now key with
  | none => .array []
  | some { value := .hash fields, .. } => .array (fields.flatMap fun field => [field.1, field.2])
  | some { value := .string _, .. } => .error

/-- `KEYS start*`. Redis promises no order: `rank` stands for the one of this reply. -/
def keys (r : Redis) (now : Nat) (start : String) (rank : String → Nat) : Reply :=
  .array (((r.entries.toList.filter fun e => e.2.isLive now && start.toList.isPrefixOf e.1.toList).map
    Prod.fst).mergeSort fun a b => decide (rank a ≤ rank b))

/-! ### Lookups -/

variable {r : Redis} {now : Nat} {key key' : String} {e : Entry}

theorem find_eq_some : r.find now key = some e ↔ r.entries[key]? = some e ∧ e.isLive now = true := by
  simp [find, Option.filter_eq_some_iff]

theorem find_put_self (h : e.isLive now = true) : (r.put key e).find now key = some e := by
  simp [find, put, h]

theorem find_put_of_ne (h : key' ≠ key) : (r.put key e).find now key' = r.find now key' := by
  simp [find, put, TreeMap.getElem?_insert, Ne.symm h]

theorem find_erase_self : (r.erase key).find now key = none := by
  simp [find, erase]

theorem find_erase_of_ne (h : key' ≠ key) : (r.erase key).find now key' = r.find now key' := by
  simp [find, erase, TreeMap.getElem?_erase, Ne.symm h]

theorem Entry.isLive_of_le {later : Nat} (hle : now ≤ later) (h : e.isLive later = true) : e.isLive now = true := by
  unfold isLive at *
  cases hd : e.deadline with
  | none => rfl
  | some d =>
    rw [hd] at h
    simp only [Option.all_some, decide_eq_true_eq] at h ⊢
    omega

/-- Time only takes keys away. -/
theorem find_of_le {later : Nat} (hle : now ≤ later) (h : r.find later key = some e) :
    r.find now key = some e := by
  obtain ⟨hget, hlive⟩ := find_eq_some.1 h
  exact find_eq_some.2 ⟨hget, Entry.isLive_of_le hle hlive⟩

theorem isLive_iff {v : Value} {deadline : Nat} :
    Entry.isLive now { value := v, deadline := some deadline } = true ↔ now < deadline := by
  simp [Entry.isLive]

theorem mem_keys {start : String} {rank : String → Nat} {elements : List String}
    (h : r.keys now start rank = .array elements) :
    key ∈ elements ↔ start.toList <+: key.toList ∧ (r.find now key).isSome = true := by
  cases h
  rw [List.mem_mergeSort, List.mem_map]
  simp only [List.mem_filter, Bool.and_eq_true, List.isPrefixOf_iff_prefix, Option.isSome_iff_exists,
    find_eq_some]
  constructor
  · rintro ⟨⟨k, e⟩, ⟨hmem, hlive, hstart⟩, rfl⟩
    exact ⟨hstart, e, TreeMap.mem_toList_iff_getElem?_eq_some.1 hmem, hlive⟩
  · rintro ⟨hstart, e, hget, hlive⟩
    exact ⟨(key, e), ⟨TreeMap.mem_toList_iff_getElem?_eq_some.2 hget, hlive, hstart⟩, rfl⟩

/-! ### Writing to a hash -/

theorem eq_of_find_put {e' : Entry} (h : (r.put key e).find now key = some e') : e' = e := by
  obtain ⟨hget, -⟩ := find_eq_some.1 h
  rw [put, TreeMap.getElem?_insert_self] at hget
  cases hget
  rfl

/-- The key is free, or it is a hash with the fields `old`. -/
def IsHash (r : Redis) (now : Nat) (key : String) (old : List (String × String)) (deadline : Option Nat) : Prop :=
  (r.find now key = none ∧ old = [] ∧ deadline = none) ∨ r.find now key = some { value := .hash old, deadline }

theorem IsHash.isLive {old : List (String × String)} {deadline : Option Nat} (h : r.IsHash now key old deadline)
    (v : Value) : Entry.isLive now { value := v, deadline } = true := by
  rcases h with ⟨-, -, rfl⟩ | h
  · rfl
  · exact (find_eq_some.1 h).2

theorem IsHash.hset_fst {old fields : List (String × String)} {deadline : Option Nat}
    (h : r.IsHash now key old deadline) :
    (r.hset now key fields).1 = r.put key { value := .hash (fields.foldl setField old), deadline } := by
  rcases h with ⟨h, rfl, rfl⟩ | h
  · rw [hset, h]
  · rw [hset, h]

theorem IsHash.hmset {old fields : List (String × String)} {deadline : Option Nat}
    (h : r.IsHash now key old deadline) :
    r.hmset now key fields = (r.put key { value := .hash (fields.foldl setField old), deadline }, .status) := by
  rcases h with ⟨h, rfl, rfl⟩ | h
  · rw [Redis.hmset, hset, h]
  · rw [Redis.hmset, hset, h]

/-! ### What a command leaves alone -/

theorem find_setex_of_ne {seconds : Int} {text : String} {at' : Nat} (h : key' ≠ key) :
    (r.setex at' key seconds text).1.find now key' = r.find now key' := by
  unfold setex
  split
  · rfl
  · exact find_put_of_ne h

theorem find_hset_of_ne {fields : List (String × String)} {at' : Nat} (h : key' ≠ key) :
    (r.hset at' key fields).1.find now key' = r.find now key' := by
  unfold hset
  split
  · exact find_put_of_ne h
  · exact find_put_of_ne h
  · rfl

theorem hmset_fst (fields : List (String × String)) : (r.hmset now key fields).1 = (r.hset now key fields).1 := by
  unfold hmset
  split
  · rename_i heq
    rw [heq]
  · rename_i heq
    rw [heq]

theorem find_expire_of_ne {seconds : Int} {at' : Nat} (h : key' ≠ key) :
    (r.expire at' key seconds).1.find now key' = r.find now key' := by
  unfold expire
  split
  · rfl
  · split
    · exact find_erase_of_ne h
    · exact find_put_of_ne h

end Redis
end Portfolio
