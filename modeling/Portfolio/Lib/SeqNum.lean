import Mathlib.Data.BitVec

/-!
# Sequence numbers modulo `2 ^ w`

A sender counts its packets with a natural number and puts the low `w` bits on the wire. As long
as two numbers are less than `2 ^ (w - 1)` apart, the wrapped difference read as a signed word is
the true difference. The second half is the algebra of one-bit masks on a sliding bit window.
-/

namespace Portfolio.SeqNum
variable {w : Nat}

theorem toInt_sub_ofNat {n m : Nat} (h1 : -(2 ^ w : Int) ≤ 2 * ((n : Int) - m))
    (h2 : 2 * ((n : Int) - m) < 2 ^ w) :
    (BitVec.ofNat w n - BitVec.ofNat w m).toInt = (n : Int) - m := by
  rw [BitVec.toInt_sub, BitVec.toInt_ofNat', BitVec.toInt_ofNat', Int.bmod_sub_bmod, Int.sub_bmod_bmod]
  refine Int.bmod_eq_of_le ?_ ?_ <;> push_cast <;> omega

theorem toNat_sub_ofNat {n m : Nat} (hle : m ≤ n) (hlt : n - m < 2 ^ w) :
    (BitVec.ofNat w n - BitVec.ofNat w m).toNat = n - m := by
  have h : BitVec.ofNat w n - BitVec.ofNat w m = BitVec.ofNat w (n - m) := by
    conv_lhs => rw [← Nat.sub_add_cancel hle]
    rw [BitVec.ofNat_add, BitVec.add_sub_cancel]
  rw [h, BitVec.toNat_ofNat, Nat.mod_eq_of_lt hlt]

theorem ofNat_inj_of_near {n m : Nat} (h1 : n < m + 2 ^ w) (h2 : m < n + 2 ^ w) :
    BitVec.ofNat w n = BitVec.ofNat w m ↔ n = m := by
  refine ⟨fun h => ?_, fun h => by rw [h]⟩
  rcases Nat.le_total m n with hle | hle
  · have := toNat_sub_ofNat (w := w) hle (by omega)
    rw [h, BitVec.sub_self, BitVec.toNat_zero] at this
    omega
  · have := toNat_sub_ofNat (w := w) hle (by omega)
    rw [h, BitVec.sub_self, BitVec.toNat_zero] at this
    omega

theorem toInt_pos {x : BitVec w} : 0 < x.toInt ↔ 0 < x.toNat ∧ 2 * x.toNat < 2 ^ w := by
  rw [BitVec.toInt_eq_toNat_cond]
  have := x.isLt
  split <;> omega

/-! ### One-bit masks -/

theorem getLsbD_one_shiftLeft (k i : Nat) :
    (1#w <<< k).getLsbD i = (decide (i < w) && decide (i = k)) := by
  rw [← BitVec.twoPow_eq, BitVec.getLsbD_twoPow]
  by_cases hk : i = k
  · simp [hk]
  · simp [hk, Ne.symm hk]

theorem and_mask_ne_zero (x : BitVec w) {k : Nat} (hk : k < w) :
    x &&& (1#w <<< k) ≠ 0#w ↔ x.getLsbD k = true := by
  rw [← BitVec.twoPow_eq, BitVec.and_twoPow]
  split
  · rename_i h
    refine ⟨fun _ => h, fun _ h0 => ?_⟩
    have := congrArg (fun y => y.getLsbD k) h0
    simp [hk] at this
  · rename_i h
    simp [h]

/-- Sliding the window by `d` and marking position `d - 1`. -/
theorem getLsbD_slide (x : BitVec w) {d i : Nat} (hd : 0 < d) (hi : i < w) :
    (x <<< d ||| 1#w <<< (d - 1)).getLsbD i =
      (if i < d then decide (i = d - 1) else x.getLsbD (i - d)) := by
  rw [BitVec.getLsbD_or, BitVec.getLsbD_shiftLeft, getLsbD_one_shiftLeft]
  by_cases hid : i < d
  · simp [hid, hi]
  · have h : ¬ i = d - 1 := by omega
    simp [hid, hi, h]

theorem getLsbD_mark (x : BitVec w) (k : Nat) {i : Nat} (hi : i < w) :
    (x ||| 1#w <<< k).getLsbD i = (x.getLsbD i || decide (i = k)) := by
  rw [BitVec.getLsbD_or, getLsbD_one_shiftLeft]
  simp [hi]

end Portfolio.SeqNum
