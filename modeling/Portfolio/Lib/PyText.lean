import Mathlib.Data.List.DropRight
import Portfolio.Lib.Paths

/-!
# Texts of Python

Methods of `str` on lists of characters, and `int` of a text. Case is that of the characters below 256,
which is what ISO-8859-1 decodes to.
-/

namespace Portfolio.Py

/-- `strip`, where `p` says which characters go. -/
def strip (p : Char → Bool) (cs : List Char) : List Char := (cs.dropWhile p).rdropWhile p

/-- Nothing for `strip` at the ends. -/
def Trimmed (p : Char → Bool) (cs : List Char) : Prop :=
  (∀ c ∈ cs.head?, p c = false) ∧ ∀ c ∈ cs.getLast?, p c = false

theorem Trimmed.of_forall {p : Char → Bool} {cs : List Char} (h : ∀ c ∈ cs, p c = false) :
    Trimmed p cs :=
  ⟨fun c hc => h c (List.mem_of_mem_head? hc), fun c hc => h c (List.mem_of_mem_getLast? hc)⟩

theorem Trimmed.append {p : Char → Bool} {a b : List Char} (ha : Trimmed p a) (hb : Trimmed p b)
    (hane : a ≠ []) (hbne : b ≠ []) (mid : List Char) : Trimmed p (a ++ (mid ++ b)) := by
  constructor <;> intro c hc
  · rw [List.head?_append_of_ne_nil _ hane] at hc
    exact ha.1 c hc
  · rw [← List.append_assoc, List.getLast?_append_of_ne_nil _ hbne] at hc
    exact hb.2 c hc

theorem strip_surrounded {p : Char → Bool} {l cs r : List Char} (hl : ∀ c ∈ l, p c)
    (hr : ∀ c ∈ r, p c) (h : Trimmed p cs) : strip p (l ++ (cs ++ r)) = cs := by
  obtain ⟨hfirst, hlast⟩ := h
  have hback : (cs ++ r).rdropWhile p = cs := by
    rw [List.rdropWhile, List.reverse_append,
      List.dropWhile_append_of_pos fun c hc => hr c (List.mem_reverse.1 hc)]
    refine List.rdropWhile_eq_self_iff.2 fun hne => ?_
    rw [hlast _ (List.getLast_mem_getLast? hne)]
    exact Bool.false_ne_true
  rw [strip, List.dropWhile_append_of_pos hl]
  rcases cs with _ | ⟨c, cs⟩
  · rw [List.nil_append, List.dropWhile_eq_nil_iff.2 hr]
    rfl
  · rw [List.cons_append, List.dropWhile_cons_of_neg (by simp [hfirst c rfl]), ← List.cons_append,
      hback]

/-! ### Parts of a path -/

/-- `[segment for segment in path.strip("/").split("/") if segment]` -/
def pathParts (path : String) : List String :=
  (Path.segments (String.ofList (strip (· = '/') path.toList))).filter (· ≠ "")

/-- The segments of a path that are not empty. -/
def nonempty (path : String) : List String := (Path.segments path).filter (· ≠ "")

theorem nonempty_append (a b : String) : nonempty (a ++ "/" ++ b) = nonempty a ++ nonempty b := by
  rw [nonempty, Path.segments_append, List.filter_append]
  rfl

theorem nonempty_empty : nonempty "" = [] := by decide

theorem nonempty_slash_cons (cs : List Char) :
    nonempty (String.ofList ('/' :: cs)) = nonempty (String.ofList cs) := by
  have h := nonempty_append "" (String.ofList cs)
  rw [nonempty_empty, List.nil_append, String.empty_append] at h
  rw [← h, ← List.singleton_append, String.ofList_append]

theorem nonempty_concat_slash (cs : List Char) :
    nonempty (String.ofList (cs ++ ['/'])) = nonempty (String.ofList cs) := by
  have h := nonempty_append (String.ofList cs) ""
  rw [nonempty_empty, List.append_nil, String.append_empty] at h
  rw [← h, String.ofList_append]

/-- Slashes at the ends make no difference. -/
theorem pathParts_eq (path : String) : pathParts path = nonempty path := by
  have hfront : ∀ cs : List Char,
      nonempty (String.ofList (cs.dropWhile (· = '/'))) = nonempty (String.ofList cs) := by
    intro cs
    induction cs with
    | nil => rfl
    | cons c cs ih =>
      rw [List.dropWhile_cons]
      split
      · next hc =>
        obtain rfl : c = '/' := by simpa using hc
        rw [ih, nonempty_slash_cons]
      · rfl
  have hback : ∀ cs : List Char,
      nonempty (String.ofList (cs.rdropWhile (· = '/'))) = nonempty (String.ofList cs) := by
    intro cs
    induction cs using List.reverseRecOn with
    | nil => rfl
    | append_singleton cs c ih =>
      rw [List.rdropWhile_concat]
      split
      · next hc =>
        obtain rfl : c = '/' := by simpa using hc
        rw [ih, nonempty_concat_slash]
      · rfl
  show nonempty (String.ofList (strip _ path.toList)) = _
  rw [strip, hback, hfront, String.ofList_toList]

theorem nonempty_intercalate {l : List String} (h : ∀ name ∈ l, '/' ∉ name.toList) :
    nonempty ("/".intercalate l) = l.filter (· ≠ "") := by
  by_cases hl : l = []
  · subst hl
    decide
  · rw [nonempty, Path.segments_intercalate_of_noSlash h hl]

/-! ### Words -/

/-- `str.isspace` of a character. -/
def isSpace (c : Char) : Bool :=
  (9 ≤ c.toNat && c.toNat ≤ 13) || (28 ≤ c.toNat && c.toNat ≤ 32) ||
    (0x2000 ≤ c.toNat && c.toNat ≤ 0x200A) ||
    c.toNat ∈ [0x85, 0xA0, 0x1680, 0x2028, 0x2029, 0x202F, 0x205F, 0x3000]

/-- `split()` -/
def split (cs : List Char) : List (List Char) := (cs.splitOnP isSpace).filter (· ≠ [])

theorem split_word {w : List Char} (hw : w ≠ []) (h : ∀ c ∈ w, isSpace c = false) :
    split w = [w] := by
  rw [split, List.splitOnP_eq_singleton h, List.filter_cons_of_pos (by simpa using hw),
    List.filter_nil]

theorem split_word_cons {w : List Char} (hw : w ≠ []) (h : ∀ c ∈ w, isSpace c = false)
    {s : Char} (hs : isSpace s) (cs : List Char) : split (w ++ s :: cs) = w :: split cs := by
  rw [split, List.splitOnP_append_cons_of_forall_mem h s hs,
    List.filter_cons_of_pos (by simpa using hw), split]

/-- The part before the first separator. -/
theorem headD_splitOn (sep : Char) (cs : List Char) :
    (cs.splitOn sep).headD [] = cs.takeWhile (· ≠ sep) := by
  induction cs with
  | nil => rfl
  | cons c cs ih =>
    rw [List.splitOn_eq_splitOnP] at ih ⊢
    rw [List.splitOnP_cons_eq_if_modifyHead, List.takeWhile_cons]
    by_cases hc : c = sep
    · simp [hc]
    · obtain ⟨first, parts, hparts⟩ := List.exists_cons_of_ne_nil
        (List.splitOnP_ne_nil (· == sep) cs)
      rw [hparts] at ih ⊢
      simpa [hc] using ih

/-! ### Case -/

/-- `str.lower` of a character below 256. -/
def lowerChar (c : Char) : Char :=
  if (0x41 ≤ c.toNat ∧ c.toNat ≤ 0x5A) ∨ (0xC0 ≤ c.toNat ∧ c.toNat ≤ 0xDE ∧ c.toNat ≠ 0xD7) then
    Char.ofNat (c.toNat + 32)
  else c

/-- `str.upper` of a character below 256. -/
def upperChar (c : Char) : List Char :=
  if (0x61 ≤ c.toNat ∧ c.toNat ≤ 0x7A) ∨ (0xE0 ≤ c.toNat ∧ c.toNat ≤ 0xFE ∧ c.toNat ≠ 0xF7) then
    [Char.ofNat (c.toNat - 32)]
  else if c.toNat = 0xDF then ['S', 'S']
  else if c.toNat = 0xB5 then ['\u039C']
  else if c.toNat = 0xFF then ['\u0178']
  else [c]

def lower (s : String) : String := s.map lowerChar

def upper (s : String) : String := String.ofList (s.toList.flatMap upperChar)

theorem lowerChar_ascii {c : Char} (h : c.toNat < 128) : lowerChar c = c.toLower := by
  obtain ⟨n, hn, rfl⟩ : ∃ n < 128, c = Char.ofNat n := ⟨c.toNat, h, (Char.ofNat_toNat c).symm⟩
  revert n
  decide +kernel

theorem upperChar_ascii {c : Char} (h : c.toNat < 128) : upperChar c = [c.toUpper] := by
  obtain ⟨n, hn, rfl⟩ : ∃ n < 128, c = Char.ofNat n := ⟨c.toNat, h, (Char.ofNat_toNat c).symm⟩
  revert n
  decide +kernel

theorem lower_ascii {s : String} (h : ∀ c ∈ s.toList, c.toNat < 128) : lower s = s.toLower := by
  show s.map lowerChar = s.map Char.toLower
  rw [← String.toList_inj, String.toList_map, String.toList_map]
  exact List.map_congr_left fun c hc => lowerChar_ascii (h c hc)

theorem upper_ascii {s : String} (h : ∀ c ∈ s.toList, c.toNat < 128) : upper s = s.toUpper := by
  have hchars : s.toList.flatMap upperChar = s.toList.map Char.toUpper := by
    rw [List.map_eq_flatMap]
    exact List.flatMap_congr fun c hc => upperChar_ascii (h c hc)
  show String.ofList (s.toList.flatMap upperChar) = s.map Char.toUpper
  rw [hchars, ← String.toList_inj, String.toList_ofList, String.toList_map]

/-! ### Integers -/

/-- The number a text of decimal digits stands for. -/
def decimal (cs : List Char) : Nat := cs.foldl (fun n c => 10 * n + (c.toNat - '0'.toNat)) 0

/-- A text of decimal digits. -/
def Digits (cs : List Char) : Prop := cs ≠ [] ∧ ∀ c ∈ cs, c.isDigit

instance (cs : List Char) : Decidable (Digits cs) :=
  @instDecidableAnd _ _ _ (List.decidableBAll (fun c => c.isDigit = true) cs)

/-- `sys.get_int_max_str_digits()` -/
def maxStrDigits : Nat := 4300

/-- The digits of `int(text)`, which single underscores may separate. -/
def natLiteral (cs : List Char) : Option Nat :=
  let groups := cs.splitOn '_'
  if (∀ group ∈ groups, Digits group) ∧ groups.flatten.length ≤ maxStrDigits then
    some (decimal groups.flatten)
  else none

/-- `int(text)` of a text with no white space at its ends; `none` is `ValueError`. -/
def int : List Char → Option Int
  | '-' :: cs => (natLiteral cs).map fun n => -(n : Int)
  | '+' :: cs => (natLiteral cs).map fun n => (n : Int)
  | cs => (natLiteral cs).map fun n => (n : Int)

theorem int_digits {cs : List Char} (h : Digits cs) :
    int cs = if cs.length ≤ maxStrDigits then some (decimal cs : Int) else none := by
  have hgroups : cs.splitOn '_' = [cs] := by
    rw [List.splitOn_eq_splitOnP]
    refine List.splitOnP_eq_singleton fun c hc => ?_
    by_contra hu
    obtain rfl : c = '_' := by simpa using hu
    exact absurd (h.2 _ hc) (by decide)
  have hlit : natLiteral cs = if cs.length ≤ maxStrDigits then some (decimal cs) else none := by
    simp [natLiteral, hgroups, h]
  rcases cs with _ | ⟨c, cs⟩
  · exact absurd rfl h.1
  · have hc := h.2 c (List.mem_cons_self ..)
    -- the sign is no digit
    rw [int, hlit]
    · split <;> rfl
    all_goals
      rintro cs' ⟨⟩
      exact absurd hc (by decide)

end Portfolio.Py
