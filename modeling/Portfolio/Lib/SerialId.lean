import Mathlib.Tactic.Common

/-!
# Serial ids

Ids made of a fixed text and a counter are different for different counters.
-/

namespace Portfolio

theorem append_toString_inj {text : String} {m n : Nat} (h : text ++ toString m = text ++ toString n) :
    m = n := by
  have hrepr : Nat.repr m = Nat.repr n := (String.append_right_inj text).1 h
  have hdigits : Nat.toDigits 10 m = Nat.toDigits 10 n := by
    rw [← Nat.toList_repr, ← Nat.toList_repr, hrepr]
  calc m = Nat.ofDigitChars 10 (Nat.toDigits 10 m) 0 := Nat.ofDigitChars_ten_toDigits.symm
    _ = Nat.ofDigitChars 10 (Nat.toDigits 10 n) 0 := by rw [hdigits]
    _ = n := Nat.ofDigitChars_ten_toDigits

end Portfolio
