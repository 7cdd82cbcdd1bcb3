import Mathlib.Tactic.Common
import Std.Data.TreeMap.Lemmas

/-!
# Maps filled pair by pair

A list of pairs is written into a map one after the other, so of the pairs with one key the last one
stays. `lastFor` is that value, read from the list itself.
-/

namespace Portfolio
open Std

section
variable {κ β : Type} [DecidableEq κ]

/-- The value of the last pair with the key `k`. -/
def lastFor (k : κ) (pairs : List (κ × β)) : Option β := pairs.reverse.lookup k

@[simp] theorem lastFor_nil (k : κ) : lastFor k ([] : List (κ × β)) = none := rfl

theorem lastFor_append (k : κ) (l l' : List (κ × β)) :
    lastFor k (l ++ l') = (lastFor k l').or (lastFor k l) := by
  rw [lastFor, List.reverse_append, List.lookup_append, lastFor, lastFor]

theorem lastFor_singleton (k : κ) (p : κ × β) : lastFor k [p] = if p.1 = k then some p.2 else none := by
  obtain ⟨j, v⟩ := p
  by_cases h : j = k
  · simp [lastFor, h]
  · simp [lastFor, List.lookup_cons, h, beq_false_of_ne (Ne.symm h)]

theorem lastFor_cons (k : κ) (p : κ × β) (l : List (κ × β)) :
    lastFor k (p :: l) = (lastFor k l).or (if p.1 = k then some p.2 else none) := by
  rw [← List.singleton_append, lastFor_append, lastFor_singleton]

theorem lastFor_eq_none {k : κ} {l : List (κ × β)} : lastFor k l = none ↔ ∀ p ∈ l, p.1 ≠ k := by
  rw [lastFor, List.lookup_eq_none_iff]
  refine ⟨fun h p hp hkey => ?_, fun h p hp => ?_⟩
  · simpa [hkey] using h p (List.mem_reverse.2 hp)
  · simpa using Ne.symm (h p (List.mem_reverse.1 hp))

theorem mem_of_lastFor {k : κ} {l : List (κ × β)} {v : β} (h : lastFor k l = some v) : (k, v) ∈ l := by
  obtain ⟨l₁, l₂, hl, -⟩ := List.lookup_eq_some_iff.1 h
  have hmem : (k, v) ∈ l.reverse := by
    rw [hl]
    simp
  exact List.mem_reverse.1 hmem

variable [Ord κ] [TransOrd κ] [LawfulEqOrd κ]

def insertPairs (m : TreeMap κ β) (pairs : List (κ × β)) : TreeMap κ β :=
  pairs.foldl (fun m p => m.insert p.1 p.2) m

theorem getElem?_insertPairs (m : TreeMap κ β) (pairs : List (κ × β)) (k : κ) :
    (insertPairs m pairs)[k]? = (lastFor k pairs).or m[k]? := by
  unfold insertPairs
  induction pairs generalizing m with
  | nil => rfl
  | cons p pairs ih =>
    rw [List.foldl_cons, ih, lastFor_cons, TreeMap.getElem?_insert]
    by_cases h : p.1 = k
    · simp [h]
    · simp [h]

/-- Every pair can be read back if and only if no key stands with two values. -/
theorem insertPairs_keeps_iff (pairs : List (κ × β)) :
    (∀ p ∈ pairs, (insertPairs ∅ pairs)[p.1]? = some p.2) ↔
      ∀ p ∈ pairs, ∀ q ∈ pairs, p.1 = q.1 → p.2 = q.2 := by
  constructor
  · intro h p hp q hq hkey
    have hvalue := h p hp
    rw [hkey, h q hq] at hvalue
    exact (Option.some.inj hvalue).symm
  · intro h p hp
    rw [getElem?_insertPairs]
    cases hlast : lastFor p.1 pairs with
    | none => exact absurd rfl (lastFor_eq_none.1 hlast p hp)
    | some v =>
      rw [h p hp (p.1, v) (mem_of_lastFor hlast) rfl]
      rfl

end

end Portfolio
