import Portfolio.Lib.JsNumber

/-!
# Arithmetic of JavaScript

`+`, the operators `/`, `*` and `%` with a positive literal on the right, `Math.floor`, and the text of
an integer. A result is rounded to 53 bits; a remainder and a floor are exact as they are.
-/

namespace Portfolio.Js
namespace Number

def add : Number → Number → Number
  | finite a, finite b => ofRat (a + b)
  | nan, _ | _, nan | infinity, negInfinity | negInfinity, infinity => nan
  | infinity, _ | _, infinity => infinity
  | negInfinity, _ | _, negInfinity => negInfinity

def divBy (d : ℚ) : Number → Number
  | finite a => ofRat (a / d)
  | x => x

def mulBy (d : ℚ) : Number → Number
  | finite a => ofRat (a * d)
  | x => x

/-- The remainder has the sign of the dividend. -/
def modBy (d : ℚ) : Number → Number
  | finite a => finite (a - d * if 0 ≤ a then ⌊a / d⌋ else ⌈a / d⌉)
  | _ => nan

def floor : Number → Number
  | finite a => finite ⌊a⌋
  | x => x

/-! ### Texts of integers -/

/-- The nearer of the multiples of `10 ^ j` around `n` that have the value `n`; of two that are as near
the one with the even digit. -/
def shortestTo (n j : ℕ) : Option ℕ :=
  let low := n / 10 ^ j * 10 ^ j
  let high := low + 10 ^ j
  if ofRat low = finite n ∧
      (ofRat high ≠ finite n ∨ n - low < high - n ∨ (n - low = high - n ∧ n / 10 ^ j % 2 = 0)) then
    some low
  else if ofRat high = finite n then some high
  else none

/-- The number with the fewest digits in front of its zeros that has the value `n`. -/
def shortest (n : ℕ) : ℕ :=
  ((List.range (Nat.toDigits 10 n).length).reverse.findSome? (shortestTo n)).getD n

/-- `1.5e+21`, for the digits of a number. -/
def exponentText : List Char → List Char
  | [] => []
  | d :: rest =>
    let fraction := rest.rdropWhile (· = '0')
    d :: (if fraction = [] then [] else '.' :: fraction) ++ 'e' :: '+' :: Nat.toDigits 10 rest.length

def naturalText (n : ℕ) : List Char :=
  if shortest n < 10 ^ 21 then Nat.toDigits 10 (shortest n)
  else exponentText (Nat.toDigits 10 (shortest n))

/-- `toString`, for an integer. -/
def integerText : Number → String
  | finite a =>
    String.ofList (if a < 0 then '-' :: naturalText ⌊a⌋.natAbs else naturalText ⌊a⌋.natAbs)
  | nan => "NaN"
  | infinity => "Infinity"
  | negInfinity => "-Infinity"

/-- The natural number that the text of an integer is the decimal notation of. -/
def printed : Number → Option ℕ
  | finite a => if 0 ≤ a ∧ shortest ⌊a⌋.natAbs < 10 ^ 21 then some (shortest ⌊a⌋.natAbs) else none
  | _ => none

example : (ofRat (2 ^ 60)).integerText = "1152921504606847000" := by decide +kernel

theorem integerText_of_printed {x : Number} {n : ℕ} (h : x.printed = some n) :
    x.integerText.toList = Nat.toDigits 10 n := by
  cases x with
  | finite a =>
    rw [printed, Option.ite_none_right_eq_some, Option.some.injEq] at h
    obtain ⟨⟨hpos, hlt⟩, rfl⟩ := h
    rw [integerText, String.toList_ofList, if_neg (not_lt.2 hpos), naturalText, if_pos hlt]
  | nan | infinity | negInfinity => cases h

/-- A text that is no number in digits: a sign or a letter stands in it, after one digit at most. -/
def Broken (text : List Char) : Prop :=
  ∃ front c rest, text = front ++ c :: rest ∧ c.isDigit = false ∧ front.length ≤ 1 ∧
    front.length + 2 ≤ text.length

theorem broken_exponentText {digits : List Char} (h : digits ≠ []) : Broken (exponentText digits) := by
  obtain ⟨d, rest, rfl⟩ := List.exists_cons_of_ne_nil h
  rw [exponentText]
  split
  · exact ⟨[d], 'e', _, rfl, by decide, le_rfl, by simp⟩
  · refine ⟨[d], '.', _, rfl, by decide, le_rfl, ?_⟩
    simp only [List.length_append, List.length_cons, List.length_nil]
    omega

theorem naturalText_ne_nil (n : ℕ) : naturalText n ≠ [] := by
  unfold naturalText
  split
  · exact Nat.toDigits_ne_nil
  · obtain ⟨front, c, rest, h, -⟩ := broken_exponentText (Nat.toDigits_ne_nil (b := 10) (n := shortest n))
    rw [h]
    simp

theorem broken_of_not_printed {x : Number} (h : x.printed = none) : Broken x.integerText.toList := by
  cases x with
  | finite a =>
    rw [integerText, String.toList_ofList]
    by_cases hneg : a < 0
    · rw [if_pos hneg]
      refine ⟨[], '-', _, rfl, by decide, Nat.zero_le 1, ?_⟩
      have hlen := List.length_pos_iff.2 (naturalText_ne_nil ⌊a⌋.natAbs)
      rw [List.length_cons, List.length_nil]
      omega
    · have hlarge : ¬ shortest ⌊a⌋.natAbs < 10 ^ 21 := by
        intro hlt
        rw [printed, if_pos ⟨not_lt.1 hneg, hlt⟩] at h
        cases h
      rw [if_neg hneg, naturalText, if_neg hlarge]
      exact broken_exponentText Nat.toDigits_ne_nil
  | nan => exact ⟨[], 'N', _, rfl, by decide, by decide, by decide⟩
  | infinity => exact ⟨[], 'I', _, rfl, by decide, by decide, by decide⟩
  | negInfinity => exact ⟨[], '-', _, rfl, by decide, by decide, by decide⟩

/-! ### Characters -/

/-- A character that does not end a line. -/
def Plain (c : Char) : Prop := c ≠ '\n' ∧ c ≠ '\r'

instance (c : Char) : Decidable (Plain c) := inferInstanceAs (Decidable (c ≠ '\n' ∧ c ≠ '\r'))

/-- For texts that are given. -/
theorem plain_of_all {text : List Char} (h : (text.all fun c => decide (Plain c)) = true) :
    ∀ c ∈ text, Plain c :=
  fun c hc => of_decide_eq_true (List.all_eq_true.1 h c hc)

theorem plain_of_isDigit {c : Char} (h : c.isDigit = true) : Plain c := by
  constructor
  · rintro rfl
    cases h
  · rintro rfl
    cases h

theorem plain_exponentText {digits : List Char} (h : ∀ c ∈ digits, Plain c) :
    ∀ c ∈ exponentText digits, Plain c := by
  cases digits with
  | nil => exact h
  | cons d rest =>
    intro c hc
    have hfraction : ∀ c ∈ (if rest.rdropWhile (· = '0') = [] then [] else
        '.' :: rest.rdropWhile (· = '0')), Plain c := by
      intro c hc
      split at hc
      · cases hc
      · rcases List.mem_cons.1 hc with rfl | hc
        · decide
        · exact h c (List.mem_cons_of_mem d ((List.rdropWhile_prefix _ rest).subset hc))
    rw [exponentText, List.cons_append, List.mem_cons, List.mem_append, List.mem_cons, List.mem_cons] at hc
    rcases hc with rfl | hc | rfl | rfl | hc
    · exact h c List.mem_cons_self
    · exact hfraction c hc
    · decide
    · decide
    · exact plain_of_isDigit (isDigit_toDigits hc)

theorem plain_integerText (x : Number) : ∀ c ∈ x.integerText.toList, Plain c := by
  have hnatural : ∀ n, ∀ c ∈ naturalText n, Plain c := by
    intro n c hc
    have hdigits : ∀ c ∈ Nat.toDigits 10 (shortest n), Plain c :=
      fun c hc => plain_of_isDigit (isDigit_toDigits hc)
    unfold naturalText at hc
    split at hc
    · exact hdigits c hc
    · exact plain_exponentText hdigits c hc
  intro c hc
  cases x with
  | finite a =>
    rw [integerText, String.toList_ofList] at hc
    split at hc
    · rcases List.mem_cons.1 hc with rfl | hc
      · decide
      · exact hnatural _ c hc
    · exact hnatural _ c hc
  | nan => exact plain_of_all (by decide) c hc
  | infinity => exact plain_of_all (by decide) c hc
  | negInfinity => exact plain_of_all (by decide) c hc

end Number
end Portfolio.Js
