import Mathlib.Data.List.Sort

/-!
# Reorder buffers

Items arrive in one order and leave in the order of their keys. A buffer of `delay` places gives out
its least item as soon as an item arrives for which it has no place; what never leaves is what is in
it when no more items arrive.
-/

namespace Portfolio.ReorderBuffer

variable {α κ : Type} [LinearOrder κ] (key : α → κ) (delay : Nat)

/-- The order in which items leave. -/
abbrev Before (a b : α) : Prop := key a ≤ key b

def send (pending : List α) (x : α) : List α := pending.orderedInsert (Before key) x

def receive (pending : List α) : List α × Option α :=
  if delay < pending.length then (pending.tail, pending.head?) else (pending, none)

/-- What leaves, when after each item that is sent one is received if there is one. -/
def outputs : List α → List α → List α
  | _, [] => []
  | pending, x :: xs =>
    let r := receive delay (send key pending x)
    r.2.toList ++ outputs r.1 xs

/-! ### One item -/

section
variable {key delay} {pending xs : List α} {x : α}

theorem mem_send {a : α} : a ∈ send key pending x ↔ a = x ∨ a ∈ pending := by
  rw [send, List.mem_orderedInsert]

theorem length_send : (send key pending x).length = pending.length + 1 := by
  rw [send, List.orderedInsert_length]

theorem pairwise_send (h : pending.Pairwise (Before key)) :
    (send key pending x).Pairwise (Before key) :=
  List.Pairwise.orderedInsert x pending h

theorem outputs_cons_of_lt (h : pending.length < delay) :
    outputs key delay pending (x :: xs) = outputs key delay (send key pending x) xs := by
  have hlen : ¬ delay < (send key pending x).length := by
    rw [length_send]
    omega
  rw [outputs, receive, if_neg hlen]
  rfl

/-- An item that leaves is the least one of the buffer. -/
theorem outputs_cons_of_eq (x : α) (xs : List α) (hs : pending.Pairwise (Before key)) (h : pending.length = delay) :
    ∃ m rest, send key pending x = m :: rest ∧ (∀ a ∈ rest, key m ≤ key a) ∧
      rest.Pairwise (Before key) ∧ rest.length = delay ∧
      outputs key delay pending (x :: xs) = m :: outputs key delay rest xs := by
  have hsorted := pairwise_send (x := x) hs
  have hlen : (send key pending x).length = pending.length + 1 := length_send
  cases hsend : send key pending x with
  | nil =>
    rw [hsend] at hlen
    cases hlen
  | cons m rest =>
    rw [hsend] at hsorted hlen
    obtain ⟨hleast, hrest⟩ := List.pairwise_cons.1 hsorted
    have hlen' : rest.length = delay := by
      rw [List.length_cons] at hlen
      omega
    have hfull : delay < (m :: rest).length := by
      rw [List.length_cons]
      omega
    refine ⟨m, rest, rfl, hleast, hrest, hlen', ?_⟩
    rw [outputs, hsend, receive, if_pos hfull]
    rfl

/-! ### The first item that leaves -/

theorem outputs_eq_nil (h : pending.length + xs.length ≤ delay) :
    outputs key delay pending xs = [] := by
  induction xs generalizing pending with
  | nil => rfl
  | cons x xs ih =>
    rw [List.length_cons] at h
    rw [outputs_cons_of_lt (by omega)]
    refine ih ?_
    rw [length_send]
    omega

/-- The first item that leaves is the least one of the first `delay + 1`. -/
theorem head?_outputs (xs : List α) (hs : pending.Pairwise (Before key)) (hlen : pending.length ≤ delay)
    (h : delay < pending.length + xs.length) :
    ∃ m, (outputs key delay pending xs).head? = some m ∧
      (m ∈ pending ∨ m ∈ xs.take (delay + 1 - pending.length)) ∧
      (∀ a ∈ pending, key m ≤ key a) ∧
      ∀ a ∈ xs.take (delay + 1 - pending.length), key m ≤ key a := by
  induction xs generalizing pending with
  | nil => exact absurd h (by simpa using hlen)
  | cons x xs ih =>
    rw [List.length_cons] at h
    rcases Nat.lt_or_eq_of_le hlen with hlt | heq
    · obtain ⟨m, hm, hmem, hpending, hxs⟩ := ih (pairwise_send (x := x) hs)
        (by rw [length_send]; omega) (by rw [length_send]; omega)
      rw [length_send] at hmem hxs
      have htake : (x :: xs).take (delay + 1 - pending.length) =
          x :: xs.take (delay + 1 - (pending.length + 1)) := by
        rw [← List.take_succ_cons]
        congr 1
        omega
      rw [outputs_cons_of_lt hlt, htake]
      refine ⟨m, hm, ?_, fun a ha => hpending a (mem_send.2 (.inr ha)), fun a ha => ?_⟩
      · rcases hmem with hmem | hmem
        · rcases mem_send.1 hmem with rfl | hmem
          · exact .inr List.mem_cons_self
          · exact .inl hmem
        · exact .inr (List.mem_cons_of_mem x hmem)
      · rcases List.mem_cons.1 ha with rfl | ha
        · exact hpending a (mem_send.2 (.inl rfl))
        · exact hxs a ha
    · obtain ⟨m, rest, hsend, hleast, -, -, hout⟩ := outputs_cons_of_eq x xs hs heq
      have hall : ∀ a, a ∈ send key pending x → key m ≤ key a := by
        intro a ha
        rw [hsend] at ha
        rcases List.mem_cons.1 ha with rfl | ha
        · exact le_rfl
        · exact hleast a ha
      have htake : (x :: xs).take (delay + 1 - pending.length) = [x] := by
        rw [heq, Nat.add_sub_cancel_left]
        rfl
      rw [hout, htake]
      refine ⟨m, rfl, ?_, fun a ha => hall a (mem_send.2 (.inr ha)), fun a ha => ?_⟩
      · have hm : m ∈ send key pending x := hsend ▸ List.mem_cons_self
        rcases mem_send.1 hm with rfl | hm
        · exact .inr (List.mem_singleton.2 rfl)
        · exact .inl hm
      · rw [List.mem_singleton.1 ha]
        exact hall x (mem_send.2 (.inl rfl))

/-! ### The order of all that leave -/

theorem mem_of_mem_outputs {a : α} (h : a ∈ outputs key delay pending xs) :
    a ∈ pending ∨ a ∈ xs := by
  induction xs generalizing pending with
  | nil => cases h
  | cons x xs ih =>
    have hreceive : ∀ b, b ∈ (receive delay (send key pending x)).1 ∨
        b ∈ (receive delay (send key pending x)).2.toList → b ∈ send key pending x := by
      intro b hb
      rw [receive] at hb
      split at hb
      · rcases hb with hb | hb
        · exact List.mem_of_mem_tail hb
        · exact List.mem_of_mem_head? (Option.mem_toList.1 hb)
      · exact hb.resolve_right List.not_mem_nil
    have hpending : ∀ b, b ∈ send key pending x → b ∈ pending ∨ b ∈ x :: xs := by
      intro b hb
      rcases mem_send.1 hb with rfl | hb
      · exact .inr List.mem_cons_self
      · exact .inl hb
    rcases List.mem_append.1 h with h | h
    · exact hpending a (hreceive a (.inr h))
    · rcases ih h with h | h
      · exact hpending a (hreceive a (.inl h))
      · exact .inr (List.mem_cons_of_mem x h)

end

/-- Each item arrives after at most `delay` of those that leave later; `pending` came first. -/
def Bounded (pending xs : List α) : Prop :=
  ∀ before x after, xs = before ++ x :: after →
    (pending ++ before).countP (fun a => decide (key x < key a)) ≤ delay

/-- A buffer that is as long as items are late gives them out in order. -/
theorem pairwise_outputs {pending xs : List α} (hs : pending.Pairwise (Before key))
    (hlen : pending.length ≤ delay) (hbound : Bounded key delay pending xs) :
    (outputs key delay pending xs).Pairwise (Before key) := by
  induction xs generalizing pending with
  | nil => exact .nil
  | cons x xs ih =>
    -- the items that came before those of `xs`
    have hnext : ∀ before z after, xs = before ++ z :: after →
        (send key pending x ++ before).countP (fun a => decide (key z < key a)) ≤ delay := by
      intro before z after hxs
      have hperm : (send key pending x ++ before).Perm (pending ++ x :: before) :=
        ((List.perm_orderedInsert _ x pending).append_right before).trans
          List.perm_middle.symm
      rw [hperm.countP_eq]
      exact hbound (x :: before) z after (by rw [hxs]; rfl)
    rcases Nat.lt_or_eq_of_le hlen with hlt | heq
    · rw [outputs_cons_of_lt hlt]
      exact ih (pairwise_send hs) (by rw [length_send]; omega) hnext
    · obtain ⟨m, rest, hsend, hleast, hrest, hlen', hout⟩ :=
        outputs_cons_of_eq x xs hs heq
      rw [hout]
      refine List.pairwise_cons.2 ⟨fun a ha => ?_, ih hrest hlen'.le fun before z after hxs => ?_⟩
      · rcases mem_of_mem_outputs ha with ha | ha
        · exact hleast a ha
        · -- otherwise all of the full buffer would leave after `a`
          by_contra hlt
          obtain ⟨before, after, hxs⟩ := List.append_of_mem ha
          have hcount := hnext before a after hxs
          have hfull : (m :: rest).countP (fun b => decide (key a < key b)) = (m :: rest).length := by
            rw [List.countP_eq_length]
            intro b hb
            rcases List.mem_cons.1 hb with rfl | hb
            · exact decide_eq_true (not_le.1 hlt)
            · exact decide_eq_true ((not_le.1 hlt).trans_le (hleast b hb))
          rw [hsend, List.countP_append, hfull, List.length_cons] at hcount
          omega
      · refine le_trans ?_ (hnext before z after hxs)
        rw [hsend]
        exact ((List.sublist_cons_self m rest).append_right before).countP_le

end Portfolio.ReorderBuffer
