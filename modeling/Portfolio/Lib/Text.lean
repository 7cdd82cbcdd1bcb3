import Mathlib.Algebra.Group.Int.Defs
import Mathlib.Algebra.GroupWithZero.Nat
import Mathlib.Data.List.TakeWhile
import Mathlib.Tactic.Common

/-!
# Texts of the C++ and Java libraries

White space, and decimal numbers as `operator<<` writes them and `std::stoi` and `std::stoll` read
them. A `char` is a `Char`: bytes are the characters below 256, and nothing here needs that bound.
Of a Java string only the length is needed.
-/

namespace Portfolio

/-- `isspace` of the classic locale. -/
def isSpace (c : Char) : Bool := c ∈ [' ', '\t', '\n', '\x0b', '\x0c', '\r']

/-- `std::string(s.c_str())`: the text before the first NUL. -/
def cStr (s : String) : String := String.ofList (s.toList.takeWhile (· ≠ '\x00'))

theorem cStr_append {s : String} (h : '\x00' ∉ s.toList) (t : String) : cStr (s ++ t) = s ++ cStr t := by
  have hall : ∀ c ∈ s.toList, decide (c ≠ '\x00') = true := by
    intro c hc
    simp only [ne_eq, decide_eq_true_eq]
    rintro rfl
    exact h hc
  rw [cStr, String.toList_append, List.takeWhile_append_of_pos hall, String.ofList_append,
    String.ofList_toList, cStr]

theorem cStr_of_noNul {s : String} (h : '\x00' ∉ s.toList) : cStr s = s := by
  have happend := cStr_append h ""
  simpa [cStr] using happend

theorem noNul_cStr (s : String) : '\x00' ∉ (cStr s).toList := by
  intro h
  rw [cStr, String.toList_ofList] at h
  simpa using List.mem_takeWhile_imp h

@[simp] theorem cStr_cStr (s : String) : cStr (cStr s) = cStr s := cStr_of_noNul (noNul_cStr s)

/-- `length` of a Java string. -/
def javaLength (text : String) : Nat := (text.toList.map fun c => if c.toNat < 65536 then 1 else 2).sum

/-! ### Decimal numbers -/

/-- The number that the digits at the front stand for; `none` when there are none. -/
def readDigits (cs : List Char) : Option Int :=
  let ds := cs.takeWhile Char.isDigit
  if ds.isEmpty then none else some (Nat.ofDigitChars 10 ds 0)

/-- What `strtol` converts: white space and a sign may stand before the digits, any text after them. -/
def strtol (cs : List Char) : Option Int :=
  match cs.dropWhile isSpace with
  | '-' :: cs => (readDigits cs).map (- ·)
  | '+' :: cs => readDigits cs
  | cs => readDigits cs

/-- `std::stoi` and `std::stoll`, for numbers of `bits` bits; `none` is an exception. -/
def sto (bits : Nat) (cs : List Char) : Option Int :=
  (strtol cs).filter fun n => -2 ^ (bits - 1) ≤ n ∧ n < 2 ^ (bits - 1)

theorem isDigit_toDigits {n : Nat} {c : Char} (h : c ∈ Nat.toDigits 10 n) : c.isDigit = true :=
  Nat.isDigit_of_mem_toDigits (by decide) (by decide) h

theorem takeWhile_isDigit_toDigits (n : Nat) {rest : List Char} (hrest : ∀ c ∈ rest.head?, c.isDigit = false) :
    (Nat.toDigits 10 n ++ rest).takeWhile Char.isDigit = Nat.toDigits 10 n := by
  rw [List.takeWhile_append_of_pos fun c hc => isDigit_toDigits hc]
  cases rest with
  | nil => simp
  | cons c rest =>
    have hc := hrest c rfl
    simp [hc]

theorem toList_toString_int (n : Int) : (toString n).toList =
    if n < 0 then '-' :: Nat.toDigits 10 n.natAbs else Nat.toDigits 10 n.natAbs := by
  cases n with
  | ofNat n =>
    show (Nat.repr n).toList = _
    rw [Nat.toList_repr, if_neg (by simp)]
    rfl
  | negSucc n =>
    show ("-" ++ Nat.repr (n + 1)).toList = _
    rw [String.toList_append, Nat.toList_repr, if_pos (Int.negSucc_lt_zero n)]
    rfl

@[simp] theorem cStr_toString_int (n : Int) : cStr (toString n) = toString n := by
  refine cStr_of_noNul fun h => ?_
  rw [toList_toString_int] at h
  have hdigits : '\x00' ∉ Nat.toDigits 10 n.natAbs := fun h => by cases isDigit_toDigits h
  split at h
  · rcases List.mem_cons.1 h with h | h
    · cases h
    · exact hdigits h
  · exact hdigits h

theorem isSpace_of_isDigit {c : Char} (h : c.isDigit = true) : isSpace c = false := by
  rw [Bool.eq_false_iff]
  intro hs
  simp only [isSpace, List.mem_cons, List.not_mem_nil, or_false, decide_eq_true_eq] at hs
  rcases hs with rfl | rfl | rfl | rfl | rfl | rfl <;> cases h

theorem readDigits_toDigits (n : Nat) {rest : List Char} (hrest : ∀ c ∈ rest.head?, c.isDigit = false) :
    readDigits (Nat.toDigits 10 n ++ rest) = some (n : Int) := by
  have hne : (Nat.toDigits 10 n).isEmpty = false := by
    rw [List.isEmpty_eq_false_iff]
    exact Nat.toDigits_ne_nil
  unfold readDigits
  dsimp only
  rw [takeWhile_isDigit_toDigits n hrest, hne, Nat.ofDigitChars_ten_toDigits]
  rfl

theorem strtol_toDigits (n : Nat) {rest : List Char} (hrest : ∀ c ∈ rest.head?, c.isDigit = false) :
    strtol (Nat.toDigits 10 n ++ rest) = some (n : Int) := by
  have hread := readDigits_toDigits n hrest
  cases hd : Nat.toDigits 10 n with
  | nil => exact absurd hd Nat.toDigits_ne_nil
  | cons c ds =>
    have hc : c.isDigit = true := isDigit_toDigits (n := n) (by rw [hd]; simp)
    have hminus : c ≠ '-' := by
      rintro rfl
      cases hc
    have hplus : c ≠ '+' := by
      rintro rfl
      cases hc
    rw [hd] at hread
    rw [strtol, List.cons_append, List.dropWhile_cons_of_neg (by rw [isSpace_of_isDigit hc]; decide)]
    split
    · rename_i heq
      cases heq
      exact absurd rfl hminus
    · rename_i heq
      cases heq
      exact absurd rfl hplus
    · exact hread

theorem strtol_toString (n : Int) {rest : List Char} (hrest : ∀ c ∈ rest.head?, c.isDigit = false) :
    strtol ((toString n).toList ++ rest) = some n := by
  rw [toList_toString_int]
  split
  · rename_i hneg
    rw [strtol, List.cons_append, List.dropWhile_cons_of_neg (by decide)]
    show (readDigits (Nat.toDigits 10 n.natAbs ++ rest)).map (- ·) = some n
    rw [readDigits_toDigits n.natAbs hrest, Option.map_some]
    congr 1
    omega
  · rename_i hpos
    rw [strtol_toDigits n.natAbs hrest]
    congr 1
    omega

/-- A number in range is read back, whatever follows it. -/
theorem sto_toString {bits : Nat} {n : Int} (hlow : -2 ^ (bits - 1) ≤ n) (hhigh : n < 2 ^ (bits - 1))
    {rest : List Char} (hrest : ∀ c ∈ rest.head?, c.isDigit = false) :
    sto bits ((toString n).toList ++ rest) = some n := by
  rw [sto, strtol_toString n hrest]
  simp [Option.filter, hlow, hhigh]

end Portfolio
