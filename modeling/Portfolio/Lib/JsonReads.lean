import Mathlib.Data.List.DropRight
import Portfolio.Lib.Json

/-!
# Reading hand-made JSON

Strings that are written between quotes as they are, numbers as `operator<<` writes them, and objects
and arrays of such values. A string between quotes is read back exactly when no character of it needs
an escape.
-/

namespace Portfolio.Json

/-- No character needs an escape in a string. -/
def Plain (s : List Char) : Prop := ∀ c ∈ s, c ≠ '"' ∧ c ≠ '\\' ∧ 0x20 ≤ c.toNat

/-- What may follow a value. -/
def EndsValue (rest : List Char) : Prop := ∀ c ∈ rest.head?, c = ',' ∨ c = ']' ∨ c = '\x7d'

/-- The text `t` is read as `v` wherever a value may stand. -/
def Reads (t : List Char) (v : Json) : Prop :=
  ∀ fuel rest, t.length < fuel → EndsValue rest → parseValue fuel (t ++ rest) = some (v, rest)

theorem skipWs_cons {c : Char} {cs : List Char} (h : isWs c = false) : skipWs (c :: cs) = c :: cs :=
  List.dropWhile_cons_of_neg (by simp [h])

/-! ### Strings -/

theorem Plain.of_cons {c : Char} {s : List Char} (h : Plain (c :: s)) : Plain s := fun d hd => h d (by simp [hd])

theorem scanString_cons {c : Char} (fuel : Nat) (cs : List Char) (h : c ≠ '"' ∧ c ≠ '\\' ∧ 0x20 ≤ c.toNat) :
    scanString (fuel + 1) (c :: cs) = (scanString fuel cs).map fun r => (c :: r.1, r.2) := by
  rw [scanString, if_neg h.1, if_neg h.2.1, if_neg (by omega)]

theorem scanString_quote (fuel : Nat) (cs : List Char) : scanString (fuel + 1) ('"' :: cs) = some ([], cs) := rfl

theorem scanString_plain {s : List Char} (hs : Plain s) {fuel : Nat} (hfuel : s.length < fuel) (rest : List Char) :
    scanString fuel (s ++ '"' :: rest) = some (s, rest) := by
  induction s generalizing fuel with
  | nil =>
    obtain ⟨fuel, rfl⟩ := Nat.exists_eq_succ_of_ne_zero (by omega : fuel ≠ 0)
    exact scanString_quote fuel rest
  | cons c s ih =>
    obtain ⟨fuel, rfl⟩ := Nat.exists_eq_succ_of_ne_zero (by omega : fuel ≠ 0)
    rw [List.length_cons] at hfuel
    rw [List.cons_append, scanString_cons fuel _ (hs c (by simp)), ih hs.of_cons (by omega)]
    rfl

/-- Whatever the fuel, nothing else can be read. -/
theorem eq_of_scanString_plain {s : List Char} (hs : Plain s) {fuel : Nat} {rest : List Char}
    {r : List Char × List Char} (h : scanString fuel (s ++ '"' :: rest) = some r) : r = (s, rest) := by
  induction s generalizing fuel r with
  | nil =>
    cases fuel with
    | zero => cases h
    | succ fuel =>
      rw [List.nil_append, scanString_quote] at h
      exact (Option.some_inj.1 h).symm
  | cons c s ih =>
    cases fuel with
    | zero => cases h
    | succ fuel =>
      rw [List.cons_append, scanString_cons fuel _ (hs c (by simp))] at h
      obtain ⟨r', hr', rfl⟩ := Option.map_eq_some_iff.1 h
      rw [ih hs.of_cons hr']

/-! ### Strings that need an escape -/

theorem hexValue_quote : hexValue '"' = none := by decide

/-- Hexadecimal digits cannot reach over a quote. -/
theorem scanHex_append {s x : List Char} {n : Nat} {rest : List Char}
    (h : scanHex (s ++ '"' :: x) = some (n, rest)) :
    ∃ pre s', s = pre ++ s' ∧ pre.length = 4 ∧ rest = s' ++ '"' :: x := by
  match s with
  | [] =>
    match x with
    | [] | [_] | [_, _] => cases h
    | _ :: _ :: _ :: _ => simp [scanHex, hexValue_quote] at h
  | [a] =>
    match x with
    | [] | [_] => cases h
    | _ :: _ :: _ => simp [scanHex, hexValue_quote] at h
  | [a, b] =>
    match x with
    | [] => cases h
    | _ :: _ => simp [scanHex, hexValue_quote] at h
  | [a, b, c] => simp [scanHex, hexValue_quote] at h
  | a :: b :: c :: d :: s' =>
    refine ⟨[a, b, c, d], s', rfl, rfl, ?_⟩
    simp only [List.cons_append, scanHex, Option.bind_eq_bind, Option.bind_eq_some_iff] at h
    obtain ⟨_, -, _, -, _, -, _, -, h⟩ := h
    cases h
    rfl

theorem scanLowSurrogate_append {high : Nat} {s x : List Char} {ch : Char} {rest : List Char}
    (h : scanLowSurrogate high (s ++ '"' :: x) = some (ch, rest)) :
    ∃ pre s', s = pre ++ s' ∧ 0 < pre.length ∧ rest = s' ++ '"' :: x := by
  unfold scanLowSurrogate at h
  split at h
  · rename_i cs heq
    match s with
    | [] => cases heq
    | [c] => cases heq
    | c :: d :: s' =>
      cases heq
      simp only [Option.bind_eq_bind, Option.bind_eq_some_iff] at h
      obtain ⟨⟨n, rest'⟩, hhex, h⟩ := h
      obtain ⟨pre, s'', rfl, hlen, rfl⟩ := scanHex_append hhex
      dsimp only at h
      split at h
      · simp only [Option.some.injEq, Prod.mk.injEq] at h
        obtain ⟨-, rfl⟩ := h
        exact ⟨'\\' :: 'u' :: pre, s'', rfl, by simp, rfl⟩
      · cases h
  · cases h

theorem scanUnicode_append {s x : List Char} {ch : Char} {rest : List Char}
    (h : scanUnicode (s ++ '"' :: x) = some (ch, rest)) :
    ∃ pre s', s = pre ++ s' ∧ 0 < pre.length ∧ rest = s' ++ '"' :: x := by
  simp only [scanUnicode, Option.bind_eq_bind, Option.bind_eq_some_iff] at h
  obtain ⟨⟨n, rest'⟩, hhex, h⟩ := h
  obtain ⟨pre, s', rfl, hlen, rfl⟩ := scanHex_append hhex
  dsimp only at h
  split at h
  · obtain ⟨pre', s'', rfl, -, rfl⟩ := scanLowSurrogate_append h
    exact ⟨pre ++ pre', s'', by simp, by simp; omega, rfl⟩
  · split at h
    · cases h
    · cases h
      exact ⟨pre, s', rfl, by omega, rfl⟩

/-- An escape takes a part of `s`, or it is the quote that follows. -/
theorem scanEscape_append {s x : List Char} {ch : Char} {rest : List Char}
    (h : scanEscape (s ++ '"' :: x) = some (ch, rest)) :
    (s = [] ∧ ch = '"' ∧ rest = x) ∨ ∃ pre s', s = pre ++ s' ∧ 0 < pre.length ∧ rest = s' ++ '"' :: x := by
  cases s with
  | nil =>
    cases h
    exact .inl ⟨rfl, rfl, rfl⟩
  | cons c s =>
    rw [List.cons_append, scanEscape] at h
    split at h
    · obtain ⟨pre, s', rfl, -, rfl⟩ := scanUnicode_append h
      exact .inr ⟨c :: pre, s', rfl, by simp, rfl⟩
    · obtain ⟨_, -, heq⟩ := Option.map_eq_some_iff.1 h
      cases heq
      exact .inr ⟨[c], s, rfl, by simp, rfl⟩

/-- What can be read of `s` and a quote that stands before `,"`: the string itself, something shorter,
or `s` ends in a backslash and the value in the comma. -/
theorem scanString_append {fuel : Nat} {s tail v rest : List Char}
    (h : scanString fuel (s ++ '"' :: ',' :: '"' :: tail) = some (v, rest)) :
    (Plain s ∧ v = s) ∨ v.length < s.length ∨ (∃ s', s = s' ++ ['\\']) ∧ ∃ v', v = v' ++ [','] := by
  induction fuel generalizing s v rest with
  | zero => cases h
  | succ fuel ih =>
    cases s with
    | nil =>
      cases h
      exact .inl ⟨fun c hc => by simp at hc, rfl⟩
    | cons c s =>
      rw [List.cons_append, scanString] at h
      split at h
      · cases h
        exact .inr (.inl (by simp))
      · rename_i hquote
        split at h
        · rename_i hslash
          simp only [Option.bind_eq_bind, Option.bind_eq_some_iff] at h
          obtain ⟨⟨ch, cs⟩, hesc, h⟩ := h
          obtain ⟨⟨v', rest'⟩, hstr, heq⟩ := Option.map_eq_some_iff.1 h
          cases heq
          rcases scanEscape_append hesc with ⟨rfl, rfl, rfl⟩ | ⟨pre, s', rfl, hpre, rfl⟩
          · -- the closing quote is escaped and the comma is the last character
            refine .inr (.inr ⟨⟨[], by rw [hslash]; rfl⟩, ?_⟩)
            match fuel with
            | 0 => cases hstr
            | 1 => cases hstr
            | fuel + 2 =>
              cases hstr
              exact ⟨['"'], rfl⟩
          · rcases ih hstr with ⟨-, rfl⟩ | hlt | ⟨⟨s'', rfl⟩, v'', rfl⟩
            · exact .inr (.inl (by simp; omega))
            · exact .inr (.inl (by simp; omega))
            · exact .inr (.inr ⟨⟨c :: pre ++ s'', by simp⟩, ch :: v'', rfl⟩)
        · rename_i hslash
          split at h
          · cases h
          · rename_i hcontrol
            obtain ⟨⟨v', rest'⟩, hstr, heq⟩ := Option.map_eq_some_iff.1 h
            cases heq
            rcases ih hstr with ⟨hplain, rfl⟩ | hlt | ⟨⟨s', rfl⟩, v'', rfl⟩
            · refine .inl ⟨fun d hd => ?_, rfl⟩
              rcases List.mem_cons.1 hd with rfl | hd
              · exact ⟨hquote, hslash, by omega⟩
              · exact hplain d hd
            · exact .inr (.inl (by simpa using hlt))
            · exact .inr (.inr ⟨⟨c :: s', rfl⟩, c :: v'', rfl⟩)

/-- A string that is read back has no character that needs an escape. -/
theorem plain_of_scanString {fuel : Nat} {s tail rest : List Char}
    (h : scanString fuel (s ++ '"' :: ',' :: '"' :: tail) = some (s, rest)) : Plain s := by
  rcases scanString_append h with ⟨hplain, -⟩ | hlt | ⟨⟨s', hs'⟩, v', hv'⟩
  · exact hplain
  · exact absurd hlt (Nat.lt_irrefl _)
  · have hlast := List.append_inj_right' (hs'.symm.trans hv') rfl
    cases hlast

/-! ### Numbers -/

theorem digitsOf_append {ds rest : List Char} (hds : ∀ c ∈ ds, c.isDigit = true)
    (hrest : ∀ c ∈ rest.head?, c.isDigit = false) : digitsOf (ds ++ rest) = (ds, rest) := by
  rw [digitsOf, List.takeWhile_append_of_pos hds, List.dropWhile_append_of_pos hds]
  cases rest with
  | nil => simp
  | cons c rest =>
    have hc := hrest c rfl
    simp [hc]

/-- There is no zero in front. -/
theorem toDigits_leading {n : Nat} {ds : List Char} (h : Nat.toDigits 10 n = '0' :: ds) : ds = [] := by
  induction n using Nat.strongRecOn generalizing ds with
  | ind n ih =>
    rw [Nat.toDigits_eq_if (by decide)] at h
    split at h
    · exact (List.cons.inj h).2.symm
    · rename_i hn
      cases hd : Nat.toDigits 10 (n / 10) with
      | nil => exact absurd hd Nat.toDigits_ne_nil
      | cons c cs =>
        rw [hd] at h
        cases h
        have hzero : Nat.toDigits 10 (n / 10) = ['0'] := by rw [hd, ih (n / 10) (by omega) hd]
        have hval := congrArg (Nat.ofDigitChars 10 · 0) hzero
        simp only [Nat.ofDigitChars_ten_toDigits] at hval
        have : n / 10 = 0 := hval
        omega

theorem scanInt_toDigits (n : Nat) {rest : List Char} (hrest : ∀ c ∈ rest.head?, c.isDigit = false) :
    scanInt (Nat.toDigits 10 n ++ rest) = some ((n : ℚ), rest) := by
  rw [scanInt, digitsOf_append (fun c hc => isDigit_toDigits hc) hrest]
  cases hd : Nat.toDigits 10 n with
  | nil => exact absurd hd Nat.toDigits_ne_nil
  | cons d ds =>
    have hlead : ¬ (d = '0' ∧ ds ≠ []) := by
      rintro ⟨rfl, hds⟩
      exact hds (toDigits_leading hd)
    have hval : natOf (d :: ds) = n := by rw [← hd, natOf, Nat.ofDigitChars_ten_toDigits]
    dsimp only
    rw [if_neg hlead, hval]

theorem EndsValue.not_isDigit {rest : List Char} (h : EndsValue rest) : ∀ c ∈ rest.head?, c.isDigit = false := by
  intro c hc
  rcases h c hc with rfl | rfl | rfl <;> decide

theorem EndsValue.scanFrac {rest : List Char} (h : EndsValue rest) : scanFrac rest = some (0, rest) := by
  cases rest with
  | nil => rfl
  | cons c rest => rcases h c rfl with rfl | rfl | rfl <;> rfl

theorem EndsValue.scanExp {rest : List Char} (h : EndsValue rest) : scanExp rest = some (1, rest) := by
  cases rest with
  | nil => rfl
  | cons c rest => rcases h c rfl with rfl | rfl | rfl <;> rfl

theorem scanUnsigned_toDigits (n : Nat) {rest : List Char} (hrest : EndsValue rest) :
    scanUnsigned (Nat.toDigits 10 n ++ rest) = some ((n : ℚ), rest) := by
  simp [scanUnsigned, scanInt_toDigits n hrest.not_isDigit, hrest.scanFrac, hrest.scanExp]

/-- A number with a fraction, as `std::fixed` writes it. -/
theorem scanUnsigned_fixed (n : Nat) {frac rest : List Char} (hne : frac ≠ [])
    (hfrac : ∀ c ∈ frac, c.isDigit = true) (hrest : EndsValue rest) :
    scanUnsigned (Nat.toDigits 10 n ++ '.' :: frac ++ rest) =
      some ((n : ℚ) + (natOf frac : ℚ) / 10 ^ frac.length, rest) := by
  have hscan : Json.scanFrac ('.' :: (frac ++ rest)) = some ((natOf frac : ℚ) / 10 ^ frac.length, rest) := by
    rw [Json.scanFrac, digitsOf_append hfrac hrest.not_isDigit]
    cases frac with
    | nil => exact absurd rfl hne
    | cons d ds => rfl
  rw [List.append_assoc, List.cons_append, scanUnsigned, scanInt_toDigits n (by simp)]
  simp [hscan, hrest.scanExp]

theorem scanNumber_of_isDigit {c : Char} {cs : List Char} (h : c.isDigit = true) :
    scanNumber (c :: cs) = scanUnsigned (c :: cs) := by
  unfold scanNumber
  split
  · rename_i heq
    cases heq
    cases h
  · rfl

theorem parseValue_number {c : Char} {cs : List Char} (fuel : Nat) (h : c.isDigit = true ∨ c = '-') :
    parseValue (fuel + 1) (c :: cs) = (scanNumber (c :: cs)).map fun r => (.number r.1, r.2) := by
  have hws : isWs c = false := by
    rcases h with h | rfl
    · rw [Bool.eq_false_iff]
      intro hw
      simp only [isWs, List.mem_cons, List.not_mem_nil, or_false, decide_eq_true_eq] at hw
      rcases hw with rfl | rfl | rfl | rfl <;> cases h
    · rfl
  rw [parseValue, skipWs_cons hws]
  split
  case h_7 => rfl
  all_goals
    rename_i heq
    cases heq
    rcases h with h | h <;> cases h

/-! ### Reading values -/

theorem EndsValue.comma (rest : List Char) : EndsValue (',' :: rest) := by
  intro c hc
  cases hc
  exact .inl rfl

theorem EndsValue.bracket (rest : List Char) : EndsValue (']' :: rest) := by
  intro c hc
  cases hc
  exact .inr (.inl rfl)

theorem EndsValue.brace (rest : List Char) : EndsValue ('\x7d' :: rest) := by
  intro c hc
  cases hc
  exact .inr (.inr rfl)

theorem reads_string {s : String} (h : Plain s.toList) : Reads ('"' :: (s.toList ++ ['"'])) (.string s) := by
  intro fuel rest hfuel _
  obtain ⟨fuel, rfl⟩ := Nat.exists_eq_succ_of_ne_zero (by omega : fuel ≠ 0)
  simp only [List.length_cons, List.length_append, List.length_nil] at hfuel
  show (scanString fuel (s.toList ++ ['"'] ++ rest)).map _ = _
  rw [List.append_assoc, List.singleton_append, scanString_plain h (by omega)]
  simp

/-- A text of digits, with or without a sign. -/
theorem reads_number {c : Char} {cs : List Char} {q : ℚ} (hc : c.isDigit = true ∨ c = '-')
    (h : ∀ rest, EndsValue rest → scanNumber (c :: cs ++ rest) = some (q, rest)) : Reads (c :: cs) (.number q) := by
  intro fuel rest hfuel hrest
  obtain ⟨fuel, rfl⟩ := Nat.exists_eq_succ_of_ne_zero (by omega : fuel ≠ 0)
  rw [List.cons_append, parseValue_number fuel hc, ← List.cons_append, h rest hrest]
  rfl

theorem reads_int (n : Int) : Reads (toString n).toList (.number n) := by
  rw [toList_toString_int]
  split
  · rename_i hneg
    refine reads_number (.inr rfl) fun rest hrest => ?_
    show (scanUnsigned (Nat.toDigits 10 n.natAbs ++ rest)).map _ = _
    rw [scanUnsigned_toDigits n.natAbs hrest, Option.map_some]
    have hcast : -(n.natAbs : ℚ) = (n : ℚ) := by
      have habs : n = -(n.natAbs : Int) := by omega
      rw [← Int.cast_natCast, ← Int.cast_neg, ← habs]
    rw [hcast]
  · rename_i hpos
    cases hd : Nat.toDigits 10 n.natAbs with
    | nil => exact absurd hd Nat.toDigits_ne_nil
    | cons d ds =>
      have hdigit : d.isDigit = true := isDigit_toDigits (n := n.natAbs) (by simp [hd])
      refine reads_number (.inl hdigit) fun rest hrest => ?_
      rw [List.cons_append, scanNumber_of_isDigit hdigit, ← List.cons_append, ← hd,
        scanUnsigned_toDigits n.natAbs hrest]
      have hcast : ((n.natAbs : Nat) : ℚ) = (n : ℚ) := by
        have habs : n = (n.natAbs : Int) := by omega
        rw [← Int.cast_natCast, ← habs]
      rw [hcast]

theorem reads_fixed (n : Nat) {frac : List Char} (hne : frac ≠ []) (hfrac : ∀ c ∈ frac, c.isDigit = true) :
    Reads (Nat.toDigits 10 n ++ '.' :: frac) (.number ((n : ℚ) + (natOf frac : ℚ) / 10 ^ frac.length)) := by
  cases hd : Nat.toDigits 10 n with
  | nil => exact absurd hd Nat.toDigits_ne_nil
  | cons d ds =>
    have hdigit : d.isDigit = true := isDigit_toDigits (n := n) (by simp [hd])
    refine reads_number (.inl hdigit) fun rest hrest => ?_
    show scanNumber (d :: (ds ++ '.' :: frac ++ rest)) = _
    rw [scanNumber_of_isDigit hdigit]
    show scanUnsigned (d :: ds ++ '.' :: frac ++ rest) = _
    rw [← hd, scanUnsigned_fixed n hne hfrac hrest]

/-! ### Reading objects and arrays -/

/-- `"key":` and the text of a value. -/
def memberText (key : String) (t : List Char) : List Char := '"' :: (key.toList ++ '"' :: ':' :: t)

theorem parseMember_memberText {key : String} {t : List Char} {v : Json} (hkey : Plain key.toList)
    (ht : Reads t v) {n fuel : Nat} (hn : t.length < n) (hfuel : key.toList.length < fuel) {rest : List Char}
    (hrest : EndsValue rest) :
    parseMember (parseValue n) fuel (memberText key t ++ rest) = some ((key, v), rest) := by
  rw [memberText, List.cons_append, parseMember, skipWs_cons (by decide)]
  simp only [List.append_assoc, List.cons_append]
  rw [scanString_plain hkey hfuel]
  simp only [Option.bind_eq_bind, Option.bind_some]
  rw [skipWs_cons (by decide)]
  show (parseValue n (t ++ rest)).map _ = _
  rw [ht n rest hn hrest, Option.map_some, String.ofList_toList]

/-- Members and what they are read as. -/
abbrev Members := List (String × List Char × Json)

def Members.text (ms : Members) : List Char := [','].intercalate (ms.map fun m => memberText m.1 m.2.1)

def Members.values (ms : Members) : List (String × Json) := ms.map fun m => (m.1, m.2.2)

theorem parseMembers_text {ms : Members} (hne : ms ≠ []) (hms : ∀ m ∈ ms, Plain m.1.toList ∧ Reads m.2.1 m.2.2)
    {n fuel : Nat} (hn : ms.text.length ≤ n) (hfuel : ms.text.length ≤ fuel) (rest : List Char) :
    parseMembers (parseValue n) fuel (ms.text ++ '\x7d' :: rest) = some (ms.values, rest) := by
  induction ms generalizing fuel with
  | nil => exact absurd rfl hne
  | cons m ms ih =>
    obtain ⟨hkey, hread⟩ := hms m (by simp)
    cases ms with
    | nil =>
      have htext : Members.text [m] = memberText m.1 m.2.1 := by simp [Members.text]
      rw [htext] at hn hfuel ⊢
      simp only [memberText, List.length_cons, List.length_append] at hn hfuel
      obtain ⟨fuel, rfl⟩ := Nat.exists_eq_succ_of_ne_zero (by omega : fuel ≠ 0)
      rw [parseMembers, parseMember_memberText hkey hread (by omega) (by omega) (.brace rest)]
      simp only [Option.bind_eq_bind, Option.bind_some]
      rw [skipWs_cons (by decide)]
      rfl
    | cons m' ms =>
      have htext : Members.text (m :: m' :: ms) = memberText m.1 m.2.1 ++ ',' :: Members.text (m' :: ms) := by
        simp [Members.text]
      rw [htext] at hn hfuel ⊢
      simp only [memberText, List.length_cons, List.length_append] at hn hfuel
      obtain ⟨fuel, rfl⟩ := Nat.exists_eq_succ_of_ne_zero (by omega : fuel ≠ 0)
      rw [List.append_assoc, List.cons_append, parseMembers,
        parseMember_memberText hkey hread (by omega) (by omega) (.comma _)]
      simp only [Option.bind_eq_bind, Option.bind_some]
      rw [skipWs_cons (by decide)]
      show (parseMembers (parseValue n) fuel (Members.text (m' :: ms) ++ '\x7d' :: rest)).map _ = _
      rw [ih (by simp) (fun m hm => hms m (by simp [hm])) (by omega) (by omega)]
      rfl

theorem reads_object {ms : Members} (hne : ms ≠ []) (hms : ∀ m ∈ ms, Plain m.1.toList ∧ Reads m.2.1 m.2.2) :
    Reads ('\x7b' :: (ms.text ++ ['\x7d'])) (.object ms.values) := by
  intro fuel rest hfuel _
  obtain ⟨fuel, rfl⟩ := Nat.exists_eq_succ_of_ne_zero (by omega : fuel ≠ 0)
  simp only [List.length_cons, List.length_append, List.length_nil] at hfuel
  have hparse : parseMembers (parseValue fuel) fuel (ms.text ++ '\x7d' :: rest) = some (ms.values, rest) :=
    parseMembers_text hne hms (by omega) (by omega) rest
  obtain ⟨cs, hcs⟩ : ∃ cs, ms.text = '"' :: cs := by
    cases ms with
    | nil => exact absurd rfl hne
    | cons m ms => exact ⟨_, List.intercalate_cons_cons_left⟩
  rw [hcs] at hparse ⊢
  simp only [List.cons_append, List.append_assoc, List.nil_append] at hparse ⊢
  show (parseMembers (parseValue fuel) fuel ('"' :: (cs ++ '\x7d' :: rest))).map _ = _
  rw [hparse]
  rfl

abbrev Elements := List (List Char × Json)

def Elements.text (es : Elements) : List Char := [','].intercalate (es.map Prod.fst)

theorem parseElements_text {es : Elements} (hne : es ≠ []) (hes : ∀ e ∈ es, Reads e.1 e.2) {n fuel : Nat}
    (hn : es.text.length < n) (hfuel : es.text.length < fuel) (rest : List Char) :
    parseElements (parseValue n) fuel (es.text ++ ']' :: rest) = some (es.map Prod.snd, rest) := by
  induction es generalizing fuel with
  | nil => exact absurd rfl hne
  | cons e es ih =>
    have hread := hes e (by simp)
    obtain ⟨fuel, rfl⟩ := Nat.exists_eq_succ_of_ne_zero (by omega : fuel ≠ 0)
    cases es with
    | nil =>
      have htext : Elements.text [e] = e.1 := by simp [Elements.text]
      rw [htext] at hn ⊢
      rw [parseElements, hread n _ hn (.bracket rest)]
      simp only [Option.bind_eq_bind, Option.bind_some]
      rw [skipWs_cons (by decide)]
      rfl
    | cons e' es =>
      have htext : Elements.text (e :: e' :: es) = e.1 ++ ',' :: Elements.text (e' :: es) := by
        simp [Elements.text]
      rw [htext] at hn hfuel ⊢
      simp only [List.length_cons, List.length_append] at hn hfuel
      rw [List.append_assoc, List.cons_append, parseElements, hread n _ (by omega) (.comma _)]
      simp only [Option.bind_eq_bind, Option.bind_some]
      rw [skipWs_cons (by decide)]
      show (parseElements (parseValue n) fuel (Elements.text (e' :: es) ++ ']' :: rest)).map _ = _
      rw [ih (by simp) (fun e he => hes e (by simp [he])) (by omega) (by omega)]
      rfl

theorem parseValue_skipWs (fuel : Nat) (cs : List Char) : parseValue fuel (skipWs cs) = parseValue fuel cs := by
  cases fuel with
  | zero => rfl
  | succ fuel =>
    have hidem : skipWs (skipWs cs) = skipWs cs := List.dropWhile_idempotent ..
    rw [parseValue, parseValue, hidem]

theorem parseElements_skipWs (n fuel : Nat) (cs : List Char) :
    parseElements (parseValue n) fuel (skipWs cs) = parseElements (parseValue n) fuel cs := by
  cases fuel with
  | zero => rfl
  | succ fuel => rw [parseElements, parseElements, parseValue_skipWs]

theorem parseValue_array {fuel : Nat} {cs : List Char} (h : ∀ cs', skipWs cs ≠ ']' :: cs') :
    parseValue (fuel + 1) ('[' :: cs) =
      (parseElements (parseValue fuel) fuel cs).map fun r => (.array r.1, r.2) := by
  rw [← parseElements_skipWs, parseValue, skipWs_cons (by decide)]
  split
  case h_2 heq =>
    obtain rfl := (List.cons.inj heq).2
    split
    · rename_i hclose
      exact absurd hclose (h _)
    · rfl
  -- no other kind of value starts with a bracket
  all_goals simp_all

/-- A text that is read does not start with a bracket that closes. -/
theorem Reads.skipWs_ne {t : List Char} {v : Json} (h : Reads t v) {rest : List Char} (hrest : EndsValue rest)
    (cs : List Char) : skipWs (t ++ rest) ≠ ']' :: cs := by
  intro heq
  have hread := h (t.length + 1) rest (by omega) hrest
  rw [parseValue, heq] at hread
  cases hread

theorem reads_array {es : Elements} (hes : ∀ e ∈ es, Reads e.1 e.2) :
    Reads ('[' :: (es.text ++ [']'])) (.array (es.map Prod.snd)) := by
  intro fuel rest hfuel _
  obtain ⟨fuel, rfl⟩ := Nat.exists_eq_succ_of_ne_zero (by omega : fuel ≠ 0)
  simp only [List.length_cons, List.length_append, List.length_nil] at hfuel
  rw [List.cons_append, List.append_assoc, List.singleton_append]
  cases es with
  | nil => rfl
  | cons e es =>
    have hstart : ∀ cs, skipWs (Elements.text (e :: es) ++ ']' :: rest) ≠ ']' :: cs := by
      have hread := hes e (by simp)
      cases es with
      | nil => simpa [Elements.text] using hread.skipWs_ne (.bracket rest)
      | cons e' es => simpa [Elements.text] using hread.skipWs_ne (.comma _)
    rw [parseValue_array hstart, parseElements_text (by simp) hes (by omega) (by omega)]
    rfl

/-! ### Arrays of written values -/

section
variable {α : Type} {text : α → List Char} {D : α → Json → Prop}

def arrayText (text : α → List Char) (xs : List α) : List Char := '[' :: ([','].intercalate (xs.map text) ++ [']'])

/-- Values that are read one by one are read as an array. -/
theorem reads_arrayText {xs : List α} (h : ∀ x ∈ xs, ∃ v, Reads (text x) v ∧ D x v) :
    ∃ vs, Reads (arrayText text xs) (.array vs) ∧ List.Forall₂ D xs vs := by
  have helements : ∃ es : Elements, es.map Prod.fst = xs.map text ∧ (∀ e ∈ es, Reads e.1 e.2) ∧
      List.Forall₂ D xs (es.map Prod.snd) := by
    induction xs with
    | nil => exact ⟨[], rfl, by simp, .nil⟩
    | cons x xs ih =>
      obtain ⟨v, hv, hD⟩ := h x (by simp)
      obtain ⟨es, htexts, hes, hall⟩ := ih fun x hx => h x (by simp [hx])
      refine ⟨(text x, v) :: es, by simp [htexts], ?_, .cons hD hall⟩
      intro e he
      rcases List.mem_cons.1 he with rfl | he
      · exact hv
      · exact hes e he
  obtain ⟨es, htexts, hes, hall⟩ := helements
  refine ⟨_, ?_, hall⟩
  rw [arrayText, ← htexts]
  exact reads_array hes

/-- The first element of an array that is read. -/
theorem parseElements_first {n fuel : Nat} {cs rest : List Char} {vs : List Json}
    (h : parseElements (parseValue n) fuel cs = some (vs, rest)) :
    ∃ v vs' cs' fuel', vs = v :: vs' ∧ parseValue n cs = some (v, cs') ∧
      ∀ cs'', cs' = ',' :: cs'' → parseElements (parseValue n) fuel' cs'' = some (vs', rest) := by
  cases fuel with
  | zero => cases h
  | succ fuel =>
    simp only [parseElements, Option.bind_eq_bind, Option.bind_eq_some_iff] at h
    obtain ⟨⟨v, cs'⟩, hv, h⟩ := h
    dsimp only at h
    split at h
    · rename_i cs₂ heq
      obtain ⟨⟨vs', rest'⟩, hvs, heq'⟩ := Option.map_eq_some_iff.1 h
      cases heq'
      refine ⟨v, vs', cs', fuel, rfl, hv, fun cs'' hcs => ?_⟩
      rw [hcs, skipWs_cons (by decide)] at heq
      cases heq
      exact hvs
    · rename_i cs₂ heq
      cases h
      refine ⟨v, [], cs', fuel, rfl, hv, fun cs'' hcs => ?_⟩
      rw [hcs, skipWs_cons (by decide)] at heq
      cases heq
    · cases h

/-- Texts that are read with `D` are readable on their own, one after the other. -/
theorem forall_of_parseElements {G : α → Prop} {n : Nat}
    (hG : ∀ x tail v rest, parseValue n (text x ++ tail) = some (v, rest) → D x v → G x) {xs : List α}
    (hreads : ∀ x ∈ xs, G x → ∃ v, Reads (text x) v) {fuel : Nat} {tail rest : List Char} {vs : List Json}
    (hn : ([','].intercalate (xs.map text)).length < n)
    (h : parseElements (parseValue n) fuel ([','].intercalate (xs.map text) ++ ']' :: tail) = some (vs, rest))
    (hD : List.Forall₂ D xs vs) : ∀ x ∈ xs, G x := by
  induction xs generalizing fuel vs with
  | nil => simp
  | cons x xs ih =>
    obtain ⟨v, vs', cs', fuel', rfl, hv, hnext⟩ := parseElements_first h
    cases hD with
    | cons hDx hDxs =>
      cases xs with
      | nil =>
        simp only [List.map_cons, List.map_nil, List.intercalate_singleton] at hv
        simpa using hG x _ v cs' hv hDx
      | cons y ys =>
        have htext : [','].intercalate ((x :: y :: ys).map text) ++ ']' :: tail =
            text x ++ ',' :: ([','].intercalate ((y :: ys).map text) ++ ']' :: tail) := by simp
        have hlen : ([','].intercalate ((x :: y :: ys).map text)).length =
            (text x).length + (([','].intercalate ((y :: ys).map text)).length + 1) := by simp
        rw [htext] at hv
        have hGx := hG x _ v cs' hv hDx
        -- the first text is read up to the comma
        obtain ⟨w, hw⟩ := hreads x (by simp) hGx
        rw [hw n _ (by omega) (.comma _)] at hv
        cases hv
        intro z hz
        rcases List.mem_cons.1 hz with rfl | hz
        · exact hGx
        · exact ih (fun x hx => hreads x (by simp [hx])) (by omega) (hnext _ rfl) hDxs z hz

theorem forall_of_parse_arrayText {G : α → Prop}
    (hG : ∀ n x tail v rest, parseValue n (text x ++ tail) = some (v, rest) → D x v → G x) {xs : List α}
    (hreads : ∀ x ∈ xs, G x → ∃ v, Reads (text x) v)
    (hstart : ∀ x ∈ xs, ∃ c cs, text x = c :: cs ∧ isWs c = false ∧ c ≠ ']') {s : String} {vs : List Json}
    (hs : s.toList = arrayText text xs) (h : parse s = some (.array vs)) (hD : List.Forall₂ D xs vs) :
    ∀ x ∈ xs, G x := by
  cases xs with
  | nil => simp
  | cons x xs =>
    simp only [parse, Option.bind_eq_bind, Option.bind_eq_some_iff] at h
    obtain ⟨⟨v, rest⟩, hvalue, hv⟩ := h
    have hvs : v = .array vs := by
      dsimp only at hv
      split at hv
      · exact Option.some_inj.1 hv
      · cases hv
    subst hvs
    have hne : ∀ cs, skipWs ([','].intercalate ((x :: xs).map text) ++ [']']) ≠ ']' :: cs := by
      intro cs
      obtain ⟨c, cs', hx, hws, hc⟩ := hstart x (by simp)
      rw [List.map_cons, hx, List.intercalate_cons_cons_left, List.cons_append, skipWs_cons hws]
      intro heq
      exact hc (List.cons.inj heq).1
    rw [hs, arrayText, parseValue_array hne] at hvalue
    obtain ⟨⟨vs', rest'⟩, helements, heq⟩ := Option.map_eq_some_iff.1 hvalue
    simp only [Prod.mk.injEq, Json.array.injEq] at heq
    obtain ⟨rfl, rfl⟩ := heq
    refine forall_of_parseElements (hG _) hreads ?_ helements hD
    simp only [List.length_cons, List.length_append, List.length_nil]
    omega

end

/-- An object whose first value is a string. -/
theorem parseValue_first_string {fuel : Nat} {key : String} (hkey : Plain key.toList) {cs rest : List Char} {v : Json}
    (h : parseValue fuel ('\x7b' :: memberText key ('"' :: cs)) = some (v, rest)) :
    ∃ fuel' s rest' more, scanString fuel' cs = some (s, rest') ∧
      v = .object ((key, .string (String.ofList s)) :: more) := by
  match fuel with
  | 0 => cases h
  | 1 => cases h
  | fuel + 2 =>
    have hmembers : parseValue (fuel + 2) ('\x7b' :: memberText key ('"' :: cs)) =
        (parseMembers (parseValue (fuel + 1)) (fuel + 1) (memberText key ('"' :: cs))).map
          fun r => (.object r.1, r.2) := rfl
    rw [hmembers] at h
    obtain ⟨⟨members, rest₁⟩, hms, heq⟩ := Option.map_eq_some_iff.1 h
    cases heq
    rw [parseMembers] at hms
    simp only [Option.bind_eq_bind, Option.bind_eq_some_iff] at hms
    obtain ⟨⟨member, rest₂⟩, hm, hms⟩ := hms
    have hfirst : ∃ more, members = member :: more := by
      dsimp only at hms
      split at hms
      · obtain ⟨r, -, heq⟩ := Option.map_eq_some_iff.1 hms
        cases heq
        exact ⟨_, rfl⟩
      · cases hms
        exact ⟨_, rfl⟩
      · cases hms
    obtain ⟨more, rfl⟩ := hfirst
    rw [memberText, parseMember, skipWs_cons (by decide)] at hm
    simp only [Option.bind_eq_bind, Option.bind_eq_some_iff] at hm
    obtain ⟨r, hkeyscan, hm⟩ := hm
    obtain rfl := eq_of_scanString_plain hkey hkeyscan
    dsimp only at hm
    rw [skipWs_cons (by decide)] at hm
    obtain ⟨⟨w, rest₃⟩, hvalue, heq⟩ := Option.map_eq_some_iff.1 hm
    cases heq
    have hstring : parseValue (fuel + 1) ('"' :: cs) =
        (scanString fuel cs).map fun r => (.string (String.ofList r.1), r.2) := rfl
    rw [hstring] at hvalue
    obtain ⟨⟨s, rest₄⟩, hs, heq⟩ := Option.map_eq_some_iff.1 hvalue
    cases heq
    exact ⟨fuel, s, _, more, hs, by rw [String.ofList_toList]⟩

theorem eq_of_member?_first {key : String} {v w : Json} {more : List (String × Json)}
    (h : member? key (.object ((key, v) :: more)) = some w) : w = v := by
  rw [member?, List.filter_cons_of_pos (by simp)] at h
  cases hmore : more.filter (·.1 = key) with
  | nil =>
    rw [hmore] at h
    exact (Option.some_inj.1 h).symm
  | cons m ms =>
    rw [hmore] at h
    cases h

theorem parse_of_reads {text : String} {v : Json} (h : Reads text.toList v) : parse text = some v := by
  have hread := h (text.toList.length + 1) [] (by omega) (by intro c hc; cases hc)
  rw [List.append_nil] at hread
  rw [parse, hread]
  rfl

end Portfolio.Json
