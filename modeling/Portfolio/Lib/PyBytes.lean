import Mathlib.Algebra.Ring.Int.Defs
import Mathlib.Algebra.Ring.Nat
import Mathlib.Data.List.Basic

/-!
# Bytes of Python

A binary stream is the bytes that are still to be read. `readline` and `read` are the methods of a
buffered reader, `latin1` and `decodeUtf8` two codecs of `bytes.decode`. A text comes back from its
UTF-8 encoding (`decodeUtf8_utf8`); of ASCII the two codecs make the same (`latin1_utf8`).
-/

namespace Portfolio.Py

abbrev Bytes := List UInt8

/-! ### Reading -/

/-- A line with its line feed, or what is left where there is none; then the rest. -/
def readline : Bytes → Bytes × Bytes
  | [] => ([], [])
  | b :: bs => if b = 10 then ([b], bs) else (b :: (readline bs).1, (readline bs).2)

theorem readline_append (s : Bytes) : (readline s).1 ++ (readline s).2 = s := by
  induction s with
  | nil => rfl
  | cons b bs ih =>
    rw [readline]
    split
    · rfl
    · rw [List.cons_append, ih]

theorem length_readline {s : Bytes} (h : (readline s).1 ≠ []) :
    (readline s).2.length < s.length := by
  conv_rhs => rw [← readline_append s]
  have := List.length_pos_iff.2 h
  simp only [List.length_append]
  omega

/-- A line feed at the end, and nowhere else. -/
def IsLine (line : Bytes) : Prop := ∃ text, 10 ∉ text ∧ line = text ++ [10]

theorem IsLine.ne_nil {line : Bytes} (h : IsLine line) : line ≠ [] := by
  obtain ⟨text, _, rfl⟩ := h
  exact List.append_ne_nil_of_right_ne_nil _ (List.cons_ne_nil _ _)

theorem readline_line {line : Bytes} (h : IsLine line) (s : Bytes) :
    readline (line ++ s) = (line, s) := by
  obtain ⟨text, hlf, rfl⟩ := h
  induction text with
  | nil => rfl
  | cons b bs ih =>
    rw [List.mem_cons, not_or] at hlf
    obtain ⟨hb, hbs⟩ := hlf
    rw [List.cons_append, List.cons_append, readline, if_neg (Ne.symm hb), ih hbs]

/-- What is read is a line, unless the stream ended. -/
theorem isLine_readline {s : Bytes} (h : (readline s).2 ≠ []) : IsLine (readline s).1 := by
  induction s with
  | nil => exact absurd rfl h
  | cons b bs ih =>
    rw [readline] at h ⊢
    split at h
    · next hb =>
      subst hb
      exact ⟨[], List.not_mem_nil, rfl⟩
    · next hb =>
      obtain ⟨text, hlf, htext⟩ := ih h
      rw [if_neg hb]
      refine ⟨b :: text, ?_, by rw [htext, List.cons_append]⟩
      rw [List.mem_cons, not_or]
      exact ⟨Ne.symm hb, hlf⟩

inductive ReadError where
  /-- `ValueError` -/
  | negative
  /-- `OverflowError`: the number is no `Py_ssize_t`. -/
  | overflow
  deriving DecidableEq, Repr

/-- `read(n)`: what is there where it is less, and all of it for −1. -/
def read (n : Int) (s : Bytes) : Except ReadError (Bytes × Bytes) :=
  if n < -2 ^ 63 ∨ 2 ^ 63 ≤ n then .error .overflow
  else if n < -1 then .error .negative
  else if n = -1 then .ok (s, [])
  else .ok (s.splitAt n.toNat)

theorem read_nat {n : Nat} (h : n < 2 ^ 63) (s : Bytes) :
    read n s = .ok (s.take n, s.drop n) := by
  rw [read, if_neg (by omega), if_neg (by omega), if_neg (by omega), List.splitAt_eq,
    Int.toNat_natCast]

/-! ### Codecs -/

/-- `decode("iso-8859-1")` -/
def latin1 (s : Bytes) : List Char := s.map fun b => Char.ofNat b.toNat

@[simp] theorem latin1_append (s t : Bytes) : latin1 (s ++ t) = latin1 s ++ latin1 t :=
  List.map_append

theorem latin1_injective : Function.Injective latin1 := by
  have hchar : ∀ b : UInt8, (Char.ofNat b.toNat).toNat = b.toNat := by
    intro b
    have := b.toNat_lt
    rw [Char.ofNat, dif_pos (.inl (by omega))]
    rfl
  refine List.map_injective_iff.2 fun a b h => UInt8.toNat_inj.1 ?_
  rw [← hchar, ← hchar b, h]

/-- `encode("utf-8")` -/
def utf8 (cs : List Char) : Bytes := cs.flatMap String.utf8EncodeChar

@[simp] theorem utf8_append (cs ds : List Char) : utf8 (cs ++ ds) = utf8 cs ++ utf8 ds :=
  List.flatMap_append

/-- A second byte that can follow this first one of a character of three or four bytes. -/
def secondByte (first b : UInt8) : Bool :=
  if first = 0xE0 then 0xA0 ≤ b && b ≤ 0xBF
  else if first = 0xED then 0x80 ≤ b && b ≤ 0x9F
  else if first = 0xF0 then 0x90 ≤ b && b ≤ 0xBF
  else if first = 0xF4 then 0x80 ≤ b && b ≤ 0x8F
  else 0xE0 ≤ first && first ≤ 0xF4 && 0x80 ≤ b && b ≤ 0xBF

/-- How many bytes one replacement stands for, where no character can be decoded: the longest start
of one that there is. -/
def invalidLength : Bytes → Nat
  | first :: b :: rest =>
    if secondByte first b then
      match rest with
      | c :: _ => if 0xF0 ≤ first && 0x80 ≤ c && c ≤ 0xBF then 3 else 2
      | [] => 2
    else 1
  | _ => 1

/-- `decode("utf-8", errors="replace")` after `skip` more bytes, which are of the character before. -/
def decodeUtf8From : Nat → Bytes → List Char
  | _, [] => []
  | skip + 1, _ :: bs => decodeUtf8From skip bs
  | 0, b :: bs => match (b :: bs).toByteArray.utf8DecodeChar? 0 with
    | some c => c :: decodeUtf8From (c.utf8Size - 1) bs
    | none => '\uFFFD' :: decodeUtf8From (invalidLength (b :: bs) - 1) bs

def decodeUtf8 (s : Bytes) : List Char := decodeUtf8From 0 s

theorem decodeUtf8From_length (t s : Bytes) : decodeUtf8From t.length (t ++ s) = decodeUtf8 s := by
  induction t with
  | nil => rfl
  | cons b t ih => rw [List.length_cons, List.cons_append, decodeUtf8From, ih]

theorem decodeUtf8_utf8EncodeChar (c : Char) (s : Bytes) :
    decodeUtf8 (String.utf8EncodeChar c ++ s) = c :: decodeUtf8 s := by
  have hsize := String.length_utf8EncodeChar c
  have hchar : (String.utf8EncodeChar c ++ s).toByteArray.utf8DecodeChar? 0 = some c := by
    rw [List.toByteArray_append]
    exact ByteArray.utf8DecodeChar?_utf8EncodeChar_append
  rcases hbytes : String.utf8EncodeChar c with _ | ⟨b, t⟩
  · exact absurd hbytes String.utf8EncodeChar_ne_nil
  · rw [hbytes, List.length_cons] at hsize
    rw [hbytes, List.cons_append] at hchar
    rw [decodeUtf8, List.cons_append, decodeUtf8From, hchar]
    show c :: decodeUtf8From (c.utf8Size - 1) (t ++ s) = _
    rw [← hsize, Nat.add_sub_cancel, decodeUtf8From_length]

theorem decodeUtf8_utf8 (cs : List Char) : decodeUtf8 (utf8 cs) = cs := by
  induction cs with
  | nil => rfl
  | cons c cs ih => rw [utf8, List.flatMap_cons, decodeUtf8_utf8EncodeChar, ← utf8, ih]

example : decodeUtf8 [0xF0, 0x80, 0xE2, 0x82, 0x41] = ['\uFFFD', '\uFFFD', '\uFFFD', 'A'] := by decide

theorem utf8EncodeChar_ascii {c : Char} (h : c.toNat < 128) :
    String.utf8EncodeChar c = [c.toNat.toUInt8] := by
  rw [String.utf8EncodeChar_eq_singleton (Char.utf8Size_eq_one_iff.2 (by
    rw [UInt32.le_iff_toNat_le]; exact Nat.le_of_lt_succ h))]
  rfl

theorem high_of_mem_utf8EncodeChar {c : Char} (h : 128 ≤ c.toNat) {b : UInt8}
    (hb : b ∈ String.utf8EncodeChar c) : 128 ≤ b.toNat := by
  have hv : c.val.toNat = c.toNat := rfl
  unfold String.utf8EncodeChar at hb
  simp only [hv] at hb
  rw [if_neg (by omega)] at hb
  split at hb
  · simp only [List.mem_cons, List.not_mem_nil, or_false] at hb
    rcases hb with rfl | rfl <;> rw [UInt8.toNat_ofNat'] <;> omega
  · split at hb
    · simp only [List.mem_cons, List.not_mem_nil, or_false] at hb
      rcases hb with rfl | rfl | rfl <;> rw [UInt8.toNat_ofNat'] <;> omega
    · simp only [List.mem_cons, List.not_mem_nil, or_false] at hb
      rcases hb with rfl | rfl | rfl | rfl <;> rw [UInt8.toNat_ofNat'] <;> omega

/-- The byte of a line feed is in no other character. -/
theorem ten_mem_utf8 {cs : List Char} : 10 ∈ utf8 cs ↔ '\n' ∈ cs := by
  rw [utf8, List.mem_flatMap]
  constructor
  · rintro ⟨c, hc, hb⟩
    by_cases hascii : c.toNat < 128
    · rw [utf8EncodeChar_ascii hascii, List.mem_singleton] at hb
      have hten : (10 : UInt8).toNat = c.toNat % 256 := congrArg UInt8.toNat hb
      have hchar : c = '\n' := by
        rw [← Char.ofNat_toNat c, show c.toNat = 10 by
          have : (10 : UInt8).toNat = 10 := rfl
          omega]
      exact hchar ▸ hc
    · have := high_of_mem_utf8EncodeChar (Nat.le_of_not_lt hascii) hb
      exact absurd this (by decide)
  · intro h
    exact ⟨'\n', h, by decide⟩

theorem utf8_ne_nil {cs : List Char} (h : cs ≠ []) : utf8 cs ≠ [] := by
  obtain ⟨c, hc⟩ := List.exists_mem_of_ne_nil cs h
  obtain ⟨b, hb⟩ := List.exists_mem_of_ne_nil _ (String.utf8EncodeChar_ne_nil (c := c))
  exact List.ne_nil_of_mem (List.mem_flatMap.2 ⟨c, hc, hb⟩)

theorem latin1_utf8 {cs : List Char} (h : ∀ c ∈ cs, c.toNat < 128) : latin1 (utf8 cs) = cs := by
  induction cs with
  | nil => rfl
  | cons c cs ih =>
    obtain ⟨hc, hcs⟩ := List.forall_mem_cons.1 h
    rw [utf8, List.flatMap_cons, utf8EncodeChar_ascii hc, ← utf8, latin1_append, ih hcs]
    have hbyte : c.toNat.toUInt8.toNat = c.toNat := Nat.mod_eq_of_lt (by omega)
    rw [latin1, List.map_singleton, hbyte, Char.ofNat_toNat, List.singleton_append]

end Portfolio.Py
