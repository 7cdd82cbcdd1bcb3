import Mathlib.Tactic.Common
import Mathlib.Data.BitVec

/-!
# Readers of byte buffers

A `Reader` takes a buffer and an offset to a value and the offset behind it, or fails with a
message. `Reads r bytes v` says that `r` turns the bytes `bytes`, wherever they stand in a buffer,
into `v`; it composes along `>>=`, which is how a field-by-field reader is compared with its writer.
Words go to bytes lowest first, highest first, or as the memory of a host has them.
-/

namespace Portfolio

abbrev Byte := BitVec 8

abbrev Reader := ReaderT (List Byte) (StateT Nat (Except String))

/-- Wherever `bytes` stand, `r` reads `v` from them and stops behind them. -/
def Reads {β : Type} (r : Reader β) (bytes : List Byte) (v : β) : Prop :=
  ∀ pre post : List Byte,
    r (pre ++ bytes ++ post) pre.length = .ok (v, pre.length + bytes.length)

namespace Reads
variable {β γ : Type}

theorem pure (v : β) : Reads (Pure.pure v) [] v := by
  intro pre post
  rfl

theorem bind {r : Reader β} {k : β → Reader γ} {bs cs : List Byte} {v : β} {w : γ}
    (h : Reads r bs v) (hk : Reads (k v) cs w) : Reads (r >>= k) (bs ++ cs) w := by
  intro pre post
  have h1 := h pre (cs ++ post)
  have h2 := hk (pre ++ bs) post
  simp only [List.append_assoc, List.length_append] at h1 h2 ⊢
  show (r (pre ++ (bs ++ (cs ++ post))) pre.length).bind _ = _
  rw [h1]
  show k v (pre ++ (bs ++ (cs ++ post))) (pre.length + bs.length) = _
  rw [h2, Nat.add_assoc]

theorem map {r : Reader β} {bs : List Byte} {v : β} (h : Reads r bs v) (f : β → γ) :
    Reads (f <$> r) bs (f v) := by
  intro pre post
  show (r (pre ++ bs ++ post) pre.length).bind _ = _
  rw [h pre post]
  rfl

end Reads

/-- `r` takes `n` bytes, and fails exactly when fewer are left. -/
def FixedWidth {β : Type} (r : Reader β) (n : Nat) : Prop :=
  ∀ (buffer : List Byte) (offset : Nat), offset ≤ buffer.length →
    (offset + n ≤ buffer.length ∧ ∃ v, r buffer offset = .ok (v, offset + n)) ∨
      (buffer.length < offset + n ∧ ∃ e, r buffer offset = .error e)

namespace FixedWidth
variable {β γ : Type} {r : Reader β} {n m : Nat}

theorem pure (v : β) : FixedWidth (Pure.pure v) 0 := by
  intro buffer offset h
  exact .inl ⟨h, v, rfl⟩

theorem bind {k : β → Reader γ} (h : FixedWidth r n) (hk : ∀ v, FixedWidth (k v) m) :
    FixedWidth (r >>= k) (n + m) := by
  intro buffer offset hoff
  have hbind : (r >>= k) buffer offset = (r buffer offset).bind fun p => k p.1 buffer p.2 := rfl
  rw [hbind, ← Nat.add_assoc]
  rcases h buffer offset hoff with ⟨hn, v, hv⟩ | ⟨hn, e, he⟩
  · rw [hv]
    exact hk v buffer (offset + n) hn
  · rw [he]
    exact .inr ⟨Nat.lt_add_right m hn, e, rfl⟩

theorem map (h : FixedWidth r n) (f : β → γ) : FixedWidth (f <$> r) n :=
  h.bind fun v => FixedWidth.pure (f v)

/-- A reader that starts at the beginning of the buffer. -/
theorem error_iff (h : FixedWidth r n) (buffer : List Byte) :
    (∃ e, r buffer 0 = .error e) ↔ buffer.length < n := by
  have h0 := h buffer 0 (Nat.zero_le _)
  rw [Nat.zero_add] at h0
  rcases h0 with ⟨hn, v, hv⟩ | ⟨hn, he⟩
  · rw [hv]
    exact iff_of_false (fun ⟨e, he⟩ => nomatch he) (Nat.not_lt.2 hn)
  · exact iff_of_true he hn

end FixedWidth

/-! ### Little-endian words -/

/-- The bytes of a word, lowest first. -/
def leBytes (n : Nat) {w : Nat} (value : BitVec w) : List Byte :=
  (List.range n).map fun i => (value >>> (i * 8)).setWidth 8

/-- A word from its bytes, lowest first: byte `i` is or-ed in at bit `8 * i`. -/
def ofLeBytes (w : Nat) (bytes : List Byte) : BitVec w :=
  (List.range bytes.length).foldl
    (fun value i => value ||| (bytes.getD i 0).setWidth w <<< (i * 8)) 0

@[simp] theorem length_leBytes (n : Nat) {w : Nat} (value : BitVec w) :
    (leBytes n value).length = n := by
  simp [leBytes]

theorem getLsbD_foldl_bytes (w n : Nat) (f : Nat → Byte) (j : Nat) (hj : j < w) :
    ((List.range n).foldl (fun value i => value ||| (f i).setWidth w <<< (i * 8)) (0 : BitVec w)).getLsbD j =
      (decide (j / 8 < n) && (f (j / 8)).getLsbD (j % 8)) := by
  induction n with
  | zero => simp
  | succ n ih =>
    rw [List.range_succ, List.foldl_append, List.foldl_cons, List.foldl_nil, BitVec.getLsbD_or, ih,
      BitVec.getLsbD_shiftLeft, BitVec.getLsbD_setWidth]
    rcases Nat.lt_trichotomy (j / 8) n with h | h | h
    · have hlt : j < n * 8 := by omega
      simp [h, hlt, Nat.lt_succ_of_lt h]
    · have hnlt : ¬ j < n * 8 := by omega
      have hmod : j - n * 8 = j % 8 := by omega
      subst h
      simp [hj, hnlt, hmod]
      omega
    · have hge : 8 ≤ j - n * 8 := by omega
      have hz : (f n).getLsbD (j - n * 8) = false := BitVec.getLsbD_of_ge _ _ hge
      simp [hz, Nat.not_lt.2 h.le, Nat.not_lt.2 (Nat.succ_le_of_lt h)]

theorem getLsbD_ofLeBytes {n j : Nat} {bytes : List Byte} (hj : j < 8 * n) :
    (ofLeBytes (8 * n) bytes).getLsbD j =
      (decide (j / 8 < bytes.length) && (bytes.getD (j / 8) 0).getLsbD (j % 8)) := by
  rw [ofLeBytes, getLsbD_foldl_bytes _ _ _ _ hj]

theorem ofLeBytes_leBytes (n : Nat) (value : BitVec (8 * n)) :
    ofLeBytes (8 * n) (leBytes n value) = value := by
  apply BitVec.eq_of_getLsbD_eq
  intro j hj
  rw [getLsbD_ofLeBytes hj, length_leBytes]
  have hdiv : j / 8 < n := by omega
  simp [leBytes, hdiv, Nat.mod_lt]
  congr 1
  omega

theorem leBytes_ofLeBytes {n : Nat} {bytes : List Byte} (h : bytes.length = n) :
    leBytes n (ofLeBytes (8 * n) bytes) = bytes := by
  refine List.ext_getElem (by simp [h]) fun i hi hi' => ?_
  apply BitVec.eq_of_getLsbD_eq
  intro j hj
  have hdiv : (i * 8 + j) / 8 = i := by omega
  have hmod : (i * 8 + j) % 8 = j := by omega
  simp only [leBytes, List.getElem_map, List.getElem_range, BitVec.getLsbD_setWidth,
    BitVec.getLsbD_ushiftRight]
  rw [getLsbD_ofLeBytes (by omega), hdiv, hmod]
  simp [hj, hi']

/-! ### The byte order of a host

A word goes over the network highest byte first. A host turns it into that order, copies its memory
into the buffer and, at the other end, the other way round; its own order plays no part in the result.
-/

inductive ByteOrder where
  | little
  | big
  deriving DecidableEq, Repr

/-- The bytes of a word, highest first. -/
def beBytes (n : Nat) {w : Nat} (value : BitVec w) : List Byte := (leBytes n value).reverse

/-- The memory of a word. -/
def objectBytes (order : ByteOrder) (n : Nat) (value : BitVec (8 * n)) : List Byte :=
  match order with
  | .little => leBytes n value
  | .big => beBytes n value

/-- The word in these bytes of memory. -/
def ofObjectBytes (order : ByteOrder) (n : Nat) (bytes : List Byte) : BitVec (8 * n) :=
  match order with
  | .little => ofLeBytes (8 * n) bytes
  | .big => ofLeBytes (8 * n) bytes.reverse

def endianReverse (n : Nat) (value : BitVec (8 * n)) : BitVec (8 * n) :=
  ofLeBytes (8 * n) (beBytes n value)

def nativeToBig (order : ByteOrder) (n : Nat) (value : BitVec (8 * n)) : BitVec (8 * n) :=
  match order with
  | .little => endianReverse n value
  | .big => value

def bigToNative (order : ByteOrder) (n : Nat) (value : BitVec (8 * n)) : BitVec (8 * n) :=
  match order with
  | .little => endianReverse n value
  | .big => value

@[simp] theorem length_beBytes (n : Nat) {w : Nat} (value : BitVec w) :
    (beBytes n value).length = n := by
  simp [beBytes]

theorem ofLeBytes_reverse_beBytes (n : Nat) (value : BitVec (8 * n)) :
    ofLeBytes (8 * n) (beBytes n value).reverse = value := by
  rw [beBytes, List.reverse_reverse, ofLeBytes_leBytes]

theorem objectBytes_nativeToBig (order : ByteOrder) (n : Nat) (value : BitVec (8 * n)) :
    objectBytes order n (nativeToBig order n value) = beBytes n value := by
  cases order with
  | little => exact leBytes_ofLeBytes (by simp)
  | big => rfl

theorem bigToNative_ofObjectBytes (order : ByteOrder) {n : Nat} {bytes : List Byte}
    (h : bytes.length = n) :
    bigToNative order n (ofObjectBytes order n bytes) = ofLeBytes (8 * n) bytes.reverse := by
  cases order with
  | little =>
    show ofLeBytes (8 * n) (leBytes n (ofLeBytes (8 * n) bytes)).reverse = _
    rw [leBytes_ofLeBytes h]
  | big => rfl

end Portfolio
