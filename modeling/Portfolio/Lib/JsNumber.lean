import Mathlib.Data.Int.Log
import Mathlib.Data.Rat.Floor
import Portfolio.Lib.JsonReads
import Portfolio.Lib.PyText

/-!
# Numbers of JavaScript

`Number(text)`: white space at the ends, decimal literals with fraction and exponent, `Infinity`, and
integers in base 16, 8 and 2. A Number value is the rational it stands for, so the two zeros are one;
the value of a literal is rounded to 53 bits. Safe integers survive their decimal text.
-/

namespace Portfolio.Js

inductive Number where
  | nan
  | finite (value : ℚ)
  | infinity
  | negInfinity
  deriving DecidableEq, Repr

namespace Number

def isNaN : Number → Bool
  | nan => true
  | _ => false

def neg : Number → Number
  | nan => nan
  | finite value => finite (-value)
  | infinity => negInfinity
  | negInfinity => infinity

end Number

/-! ### Rounding -/

/-- The nearest integer, the even one of two. -/
def roundTiesToEven (q : ℚ) : ℤ :=
  if q - ⌊q⌋ < 1 / 2 then ⌊q⌋
  else if 1 / 2 < q - ⌊q⌋ then ⌊q⌋ + 1
  else if ⌊q⌋ % 2 = 0 then ⌊q⌋
  else ⌊q⌋ + 1

/-- The Number value for a rational: 53 bits, with exponents from -1074. -/
def Number.ofRat (q : ℚ) : Number :=
  if q = 0 then finite 0
  else
    let unit : ℚ := 2 ^ max (Int.log 2 |q| - 52) (-1074)
    let value := roundTiesToEven (q / unit) * unit
    if 2 ^ 1024 ≤ value then infinity
    else if value ≤ -2 ^ 1024 then negInfinity
    else finite value

theorem roundTiesToEven_intCast (n : ℤ) : roundTiesToEven n = n := by
  simp [roundTiesToEven]

/-- `Number.isSafeInteger` -/
def IsSafeInteger (n : ℤ) : Prop := |n| ≤ 2 ^ 53 - 1

instance (n : ℤ) : Decidable (IsSafeInteger n) := inferInstanceAs (Decidable (_ ≤ _))

theorem Number.ofRat_intCast {n : ℤ} (h : IsSafeInteger n) : Number.ofRat n = finite n := by
  unfold IsSafeInteger at h
  unfold ofRat
  by_cases hn : (n : ℚ) = 0
  · rw [if_pos hn, hn]
  · rw [if_neg hn]
    have habs : |(n : ℚ)| ≤ 2 ^ 53 - 1 := by exact_mod_cast h
    have hlog : Int.log 2 |(n : ℚ)| < 53 := by
      rw [← Int.lt_zpow_iff_log_lt one_lt_two (abs_pos.2 hn)]
      exact lt_of_le_of_lt habs (by norm_num)
    obtain ⟨k, hk⟩ : ∃ k : ℕ, max (Int.log 2 |(n : ℚ)| - 52) (-1074) = -(k : ℤ) :=
      ⟨(-max (Int.log 2 |(n : ℚ)| - 52) (-1074)).toNat, by omega⟩
    have hquotient : (n : ℚ) / 2 ^ (-(k : ℤ)) = ((n * 2 ^ k : ℤ) : ℚ) := by
      rw [zpow_neg, zpow_natCast, div_inv_eq_mul]
      push_cast
      rfl
    have hvalue : ((n * 2 ^ k : ℤ) : ℚ) * 2 ^ (-(k : ℤ)) = n := by
      rw [zpow_neg, zpow_natCast]
      push_cast
      rw [mul_assoc, mul_inv_cancel₀ (by positivity), mul_one]
    have hlarge : (2 : ℚ) ^ 53 ≤ 2 ^ 1024 := pow_le_pow_right₀ one_le_two (by norm_num)
    obtain ⟨hlow, hhigh⟩ := abs_lt.1 ((habs.trans_lt (sub_one_lt _)).trans_le hlarge)
    dsimp only
    rw [hk, hquotient, roundTiesToEven_intCast, hvalue, if_neg (not_le.2 hhigh),
      if_neg (not_le.2 hlow)]

/-! ### Literals -/

/-- `StrWhiteSpaceChar` -/
def isStrWhiteSpace (c : Char) : Bool :=
  (9 ≤ c.toNat && c.toNat ≤ 13) || (0x2000 ≤ c.toNat && c.toNat ≤ 0x200A) ||
    c.toNat ∈ [0x20, 0xA0, 0x1680, 0x2028, 0x2029, 0x202F, 0x205F, 0x3000, 0xFEFF]

/-- The digits behind the point, if there is one, and what follows. -/
def fractionDigits : List Char → List Char × List Char
  | '.' :: cs => Json.digitsOf cs
  | cs => ([], cs)

/-- `StrUnsignedDecimalLiteral` without `Infinity`. -/
def decimalLiteral (cs : List Char) : Option ℚ :=
  let whole := Json.digitsOf cs
  let fraction := fractionDigits whole.2
  if whole.1 = [] ∧ fraction.1 = [] then none
  else
    match Json.scanExp fraction.2 with
    | some (factor, []) =>
      some ((Json.natOf (whole.1 ++ fraction.1) : ℚ) / 10 ^ fraction.1.length * factor)
    | _ => none

/-- The digits of a literal in base `radix`, behind its prefix. -/
def radixLiteral (radix : ℕ) (cs : List Char) : Option ℕ :=
  if cs = [] then none
  else cs.foldlM (fun n c => (Json.hexValue c).bind fun d =>
    if d < radix then some (n * radix + d) else none) 0

def Number.ofLiteral : Option ℚ → Number
  | some q => .ofRat q
  | none => .nan

def unsignedNumber (cs : List Char) : Number :=
  if cs = "Infinity".toList then .infinity else .ofLiteral (decimalLiteral cs)

def signedNumber : List Char → Number
  | '-' :: cs => (unsignedNumber cs).neg
  | '+' :: cs => unsignedNumber cs
  | cs => unsignedNumber cs

/-- `StringToNumber` of a text with no white space at its ends. -/
def trimmedNumber : List Char → Number
  | [] => .finite 0
  | '0' :: c :: digits =>
    if c = 'x' ∨ c = 'X' then .ofLiteral ((radixLiteral 16 digits).map fun n => (n : ℚ))
    else if c = 'o' ∨ c = 'O' then .ofLiteral ((radixLiteral 8 digits).map fun n => (n : ℚ))
    else if c = 'b' ∨ c = 'B' then .ofLiteral ((radixLiteral 2 digits).map fun n => (n : ℚ))
    else signedNumber ('0' :: c :: digits)
  | cs => signedNumber cs

/-- `Number(text)` -/
def stringToNumber (text : String) : Number := trimmedNumber (Py.strip isStrWhiteSpace text.toList)

/-! ### Integers and their text -/

theorem digitsOf_toDigits (n : ℕ) : Json.digitsOf (Nat.toDigits 10 n) = (Nat.toDigits 10 n, []) := by
  have h : Json.digitsOf (Nat.toDigits 10 n ++ []) = (Nat.toDigits 10 n, []) :=
    Json.digitsOf_append (fun c hc => isDigit_toDigits hc) (by simp)
  rwa [List.append_nil] at h

theorem decimalLiteral_toDigits (n : ℕ) : decimalLiteral (Nat.toDigits 10 n) = some (n : ℚ) := by
  have hvalue : Json.natOf (Nat.toDigits 10 n) = n := Nat.ofDigitChars_ten_toDigits
  simp [decimalLiteral, digitsOf_toDigits, fractionDigits, Json.scanExp, hvalue]

theorem unsignedNumber_toDigits (n : ℕ) : unsignedNumber (Nat.toDigits 10 n) = .ofRat n := by
  have hne : Nat.toDigits 10 n ≠ "Infinity".toList := by
    intro h
    have hdigit : 'I'.isDigit = true := isDigit_toDigits (n := n) (h ▸ by decide)
    exact absurd hdigit (by decide)
  rw [unsignedNumber, if_neg hne, decimalLiteral_toDigits]
  rfl

theorem trimmedNumber_toDigits (n : ℕ) : trimmedNumber (Nat.toDigits 10 n) = .ofRat n := by
  have hunsigned := unsignedNumber_toDigits n
  cases hd : Nat.toDigits 10 n with
  | nil => exact absurd hd Nat.toDigits_ne_nil
  | cons d ds =>
    have hdigit : d.isDigit = true := isDigit_toDigits (n := n) (hd ▸ List.mem_cons_self)
    have hsigned : signedNumber (d :: ds) = .ofRat n := by
      rw [← hunsigned, hd]
      unfold signedNumber
      split
      · next heq =>
        cases heq
        exact absurd hdigit (by decide)
      · next heq =>
        cases heq
        exact absurd hdigit (by decide)
      · rfl
    rw [← hsigned]
    unfold trimmedNumber
    split
    · next heq => cases heq
    · next heq =>
      -- No digit follows a leading zero.
      cases heq
      cases Json.toDigits_leading hd
    · rfl

theorem isStrWhiteSpace_of_isDigit {c : Char} (h : c.isDigit = true) : isStrWhiteSpace c = false := by
  have hrange : 48 ≤ c.toNat ∧ c.toNat ≤ 57 := by
    rw [Char.isDigit, Bool.and_eq_true, decide_eq_true_eq, decide_eq_true_eq] at h
    exact ⟨UInt32.le_iff_toNat_le.1 h.1, UInt32.le_iff_toNat_le.1 h.2⟩
  rw [Bool.eq_false_iff]
  intro hspace
  simp only [isStrWhiteSpace, Bool.or_eq_true, Bool.and_eq_true, decide_eq_true_eq, List.mem_cons,
    List.not_mem_nil, or_false] at hspace
  omega

theorem strip_toString (n : ℤ) :
    Py.strip isStrWhiteSpace (toString n).toList = (toString n).toList := by
  have htrimmed : Py.Trimmed isStrWhiteSpace (toString n).toList := by
    refine Py.Trimmed.of_forall fun c hc => ?_
    rw [toList_toString_int] at hc
    split at hc
    · rcases List.mem_cons.1 hc with rfl | hc
      · decide
      · exact isStrWhiteSpace_of_isDigit (isDigit_toDigits hc)
    · exact isStrWhiteSpace_of_isDigit (isDigit_toDigits hc)
  have h := Py.strip_surrounded (l := []) (r := []) (by simp) (by simp) htrimmed
  rwa [List.append_nil, List.nil_append] at h

/-- A safe integer comes back from its text. -/
theorem stringToNumber_toString {n : ℤ} (h : IsSafeInteger n) : stringToNumber (toString n) = .finite n := by
  rw [stringToNumber, strip_toString, toList_toString_int]
  split
  · next hneg =>
    have habs : IsSafeInteger n.natAbs := by
      rwa [IsSafeInteger, Int.natCast_natAbs, abs_abs]
    have hvalue : unsignedNumber (Nat.toDigits 10 n.natAbs) = .finite (n.natAbs : ℤ) := by
      rw [unsignedNumber_toDigits, ← Number.ofRat_intCast habs]
      rfl
    show (unsignedNumber _).neg = _
    rw [hvalue, Number.neg, Int.ofNat_natAbs_of_nonpos hneg.le]
    simp
  · next hnonneg =>
    rw [trimmedNumber_toDigits, ← Number.ofRat_intCast h]
    congr 1
    rw [← Int.cast_natCast, Int.natAbs_of_nonneg (not_lt.1 hnonneg)]

end Portfolio.Js
