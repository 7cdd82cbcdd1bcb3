import Portfolio.Lib.ByteCodec

/-!
# Varint fields of the protobuf wire format

A proto3 message whose fields are all varints is written field by field, in the order of the field
numbers: the tag and the value of every field that is not zero. `decodeFields` reads such a message
back. Only the last byte of a varint is below 128, so a byte below 128 that is no tag stands at the
end of a field: `encodeFields_drop` cuts the message there.
-/

namespace Portfolio

/-- `n` in base 128, lowest digit first, with the high bit set on every byte but the last. -/
def varintBytes : Nat → Nat → List Byte
  | 0, n => [.ofNat 8 n]
  | k + 1, n =>
    if n < 128 then [.ofNat 8 n] else .ofNat 8 (n % 128 + 128) :: varintBytes k (n / 128)

/-- The varint of a 64-bit word: up to ten bytes. -/
def varint (v : BitVec 64) : List Byte := varintBytes 9 v.toNat

/-- A varint of at most `k` bytes at the start of `bytes`, and what follows it. -/
def readVarintBytes : Nat → List Byte → Option (Nat × List Byte)
  | 0, _ => none
  | _, [] => none
  | k + 1, b :: rest =>
    if b.toNat < 128 then some (b.toNat, rest)
    else (readVarintBytes k rest).map fun r => (b.toNat % 128 + 128 * r.1, r.2)

def readVarint (bytes : List Byte) : Option (Nat × List Byte) := readVarintBytes 10 bytes

/-- The tag of a varint field; one byte, for field numbers below 16. -/
def fieldTag (number : Nat) : Byte := .ofNat 8 (8 * number)

/-- A varint field; the default value is not written. -/
def encodeField (number : Nat) (value : BitVec 64) : List Byte :=
  if value = 0 then [] else fieldTag number :: varint value

def encodeFields (fields : List (Nat × BitVec 64)) : List Byte :=
  fields.flatMap fun f => encodeField f.1 f.2

/-- The fields of a message of varints, `fuel` of them at most. -/
def decodeFields : Nat → List Byte → Option (List (Nat × BitVec 64))
  | _, [] => some []
  | 0, _ => none
  | fuel + 1, bytes =>
    (readVarint bytes).bind fun (tag, rest) =>
      if tag % 8 = 0 ∧ 0 < tag / 8 then
        (readVarint rest).bind fun (value, rest) =>
          (decodeFields fuel rest).map fun fields => (tag / 8, .ofNat 64 value) :: fields
      else none

/-! ### Varints -/

/-- A byte below 128 is the last one. -/
theorem varintBytes_low {k n p : Nat} {b : Byte} (hb : (varintBytes k n)[p]? = some b)
    (hlow : b.toNat < 128) : p + 1 = (varintBytes k n).length := by
  induction k generalizing n p with
  | zero =>
    have hp := (List.getElem?_eq_some_iff.1 hb).1
    simp only [varintBytes, List.length_singleton] at hp ⊢
    omega
  | succ k ih =>
    unfold varintBytes at hb ⊢
    split at hb
    · next hn =>
      have hp := (List.getElem?_eq_some_iff.1 hb).1
      rw [if_pos hn]
      simp only [List.length_singleton] at hp ⊢
      omega
    · next hn =>
      rw [if_neg hn]
      cases p with
      | zero =>
        rw [List.getElem?_cons_zero] at hb
        rw [← Option.some.inj hb, BitVec.toNat_ofNat] at hlow
        omega
      | succ p =>
        rw [List.getElem?_cons_succ] at hb
        rw [List.length_cons, ← ih hb]

theorem readVarintBytes_append (k n : Nat) (h : n < 128 ^ (k + 1)) (rest : List Byte) :
    readVarintBytes (k + 1) (varintBytes k n ++ rest) = some (n, rest) := by
  induction k generalizing n with
  | zero =>
    have hn : n < 128 := by simpa using h
    have hbyte : n % 256 = n := Nat.mod_eq_of_lt (by omega)
    simp [varintBytes, readVarintBytes, hbyte, hn]
  | succ k ih =>
    unfold varintBytes
    split
    · next hn =>
      have hbyte : n % 256 = n := Nat.mod_eq_of_lt (by omega)
      simp [readVarintBytes, hbyte, hn]
    · next hn =>
      have hdiv : n / 128 < 128 ^ (k + 1) := by
        rw [Nat.div_lt_iff_lt_mul (by decide), ← Nat.pow_succ]
        exact h
      have hbyte : (n % 128 + 128) % 256 = n % 128 + 128 := Nat.mod_eq_of_lt (by omega)
      have hhigh : ¬ n % 128 + 128 < 128 := by omega
      have hvalue : (n % 128 + 128) % 128 + 128 * (n / 128) = n := by omega
      rw [List.cons_append, readVarintBytes, BitVec.toNat_ofNat, hbyte, if_neg hhigh, ih _ hdiv,
        Option.map_some, hvalue]

theorem readVarint_varint (v : BitVec 64) (rest : List Byte) :
    readVarint (varint v ++ rest) = some (v.toNat, rest) := by
  have hv := v.isLt
  exact readVarintBytes_append 9 v.toNat (by omega) rest

/-! ### Fields -/

@[simp] theorem encodeField_zero (number : Nat) : encodeField number 0 = [] :=
  if_pos rfl

theorem encodeFields_cons (f : Nat × BitVec 64) (fields : List (Nat × BitVec 64)) :
    encodeFields (f :: fields) = encodeField f.1 f.2 ++ encodeFields fields :=
  List.flatMap_cons

theorem encodeFields_append_of_zero {front back : List (Nat × BitVec 64)} (h : ∀ f ∈ front, f.2 = 0) :
    encodeFields (front ++ back) = encodeFields back := by
  induction front with
  | nil => rfl
  | cons f front ih =>
    rw [List.cons_append, encodeFields_cons, h f List.mem_cons_self, encodeField_zero, List.nil_append,
      ih fun f' hf' => h f' (List.mem_cons_of_mem _ hf')]

/-- A byte of a message that is below 128 and no tag ends a field, and what follows is the message
of the later fields. -/
theorem encodeFields_drop {fields : List (Nat × BitVec 64)} {p : Nat} {b : Byte}
    (hb : (encodeFields fields)[p]? = some b) (hlow : b.toNat < 128)
    (htag : ∀ f ∈ fields, b ≠ fieldTag f.1) :
    ∃ front f back, fields = front ++ f :: back ∧ f.2 ≠ 0 ∧
      (encodeFields fields).drop (p + 1) = encodeFields back := by
  induction fields generalizing p with
  | nil => simp [encodeFields] at hb
  | cons f fields ih =>
    rw [encodeFields_cons] at hb ⊢
    have hrest : ∀ f' ∈ fields, b ≠ fieldTag f'.1 := fun f' hf' => htag f' (List.mem_cons_of_mem _ hf')
    rcases Nat.lt_or_ge p (encodeField f.1 f.2).length with hlt | hge
    · rw [List.getElem?_append_left hlt] at hb
      unfold encodeField at hb hlt ⊢
      split at hb
      · simp at hb
      · next hne =>
        cases p with
        | zero => exact absurd (Option.some.inj hb).symm (htag f List.mem_cons_self)
        | succ p =>
          rw [List.getElem?_cons_succ] at hb
          have hlen := varintBytes_low hb hlow
          refine ⟨[], f, fields, rfl, hne, ?_⟩
          rw [if_neg hne]
          refine List.drop_left' ?_
          rw [List.length_cons, varint, ← hlen]
    · rw [List.getElem?_append_right hge] at hb
      obtain ⟨front, g, back, rfl, hne, hdrop⟩ := ih hb hrest
      refine ⟨f :: front, g, back, rfl, hne, ?_⟩
      have hpos : p + 1 - (encodeField f.1 f.2).length = p - (encodeField f.1 f.2).length + 1 := by omega
      rw [List.drop_append, List.drop_eq_nil_of_le (by omega), hpos, hdrop, List.nil_append]

theorem readVarint_fieldTag {number : Nat} (h : number < 16) (rest : List Byte) :
    readVarint (fieldTag number :: rest) = some (8 * number, rest) := by
  have hbyte : 8 * number % 256 = 8 * number := Nat.mod_eq_of_lt (by omega)
  have hlow : 8 * number < 128 := by omega
  simp [readVarint, readVarintBytes, fieldTag, hbyte, hlow]

theorem decodeFields_encodeFields (fuel : Nat) (fields : List (Nat × BitVec 64))
    (hnum : ∀ f ∈ fields, 0 < f.1 ∧ f.1 < 16) (hfuel : (encodeFields fields).length ≤ fuel) :
    decodeFields fuel (encodeFields fields) = some (fields.filter fun f => f.2 ≠ 0) := by
  induction fields generalizing fuel with
  | nil => cases fuel <;> rfl
  | cons f fields ih =>
    have hnum' : ∀ f' ∈ fields, 0 < f'.1 ∧ f'.1 < 16 := fun f' hf' => hnum f' (List.mem_cons_of_mem _ hf')
    obtain ⟨hpos, hsmall⟩ := hnum f List.mem_cons_self
    rw [encodeFields_cons] at hfuel ⊢
    unfold encodeField at hfuel ⊢
    split
    · next hzero =>
      rw [if_pos hzero] at hfuel
      rw [List.nil_append, ih fuel hnum' hfuel, List.filter_cons_of_neg (by simp [hzero])]
    · next hne =>
      rw [if_neg hne, List.cons_append, List.length_cons, List.length_append] at hfuel
      obtain ⟨fuel, rfl⟩ : ∃ n, fuel = n + 1 := ⟨fuel - 1, by omega⟩
      have htag : 8 * f.1 / 8 = f.1 := by omega
      have hguard : 8 * f.1 % 8 = 0 ∧ 0 < 8 * f.1 / 8 := by omega
      rw [List.cons_append, decodeFields, readVarint_fieldTag hsmall, Option.bind_some]
      · dsimp only
        rw [if_pos hguard, readVarint_varint, Option.bind_some]
        dsimp only
        rw [ih fuel hnum' (by omega), Option.map_some, List.filter_cons_of_pos (by simpa using hne), htag,
          BitVec.ofNat_toNat, BitVec.setWidth_eq]
      · simp

end Portfolio
