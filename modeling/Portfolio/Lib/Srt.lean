import Mathlib.Data.List.DropRight
import Portfolio.Lib.Text

/-!
# SubRip subtitles

A file has cues that are separated by blank lines; a cue is a line with its number, a line with its
times and any lines of text. A line ends with `\n`, carriage returns before it belong to its end.

A text comes back from a file if it is empty or has neither blank lines nor lines that end with a
carriage return (`parse_print`), and no other text ever comes out of one (`clean_of_parse`).
-/

namespace Portfolio

section Splits
variable {α : Type}

theorem mapM_eq_some_iff {β : Type} {f : α → Option β} {l : List α} {r : List β} :
    l.mapM f = some r ↔ l.map f = r.map some := by
  induction l generalizing r with
  | nil => cases r <;> simp
  | cons a l ih =>
    cases r with
    | nil => simp [Option.bind_eq_some_iff]
    | cons b r =>
      simp only [List.mapM_cons, Option.bind_eq_bind, Option.bind_eq_some_iff, Option.pure_def,
        Option.some.injEq, List.cons.injEq, List.map_cons, ← ih]
      constructor
      · rintro ⟨b', hb, r', hr, rfl, rfl⟩
        exact ⟨hb, hr⟩
      · rintro ⟨hb, hr⟩
        exact ⟨b, hb, r, hr, rfl, rfl⟩

theorem exists_eq_map_some {l : List (Option α)} (h : ∀ a ∈ l, a ≠ none) :
    ∃ r : List α, l = r.map some := by
  induction l with
  | nil => exact ⟨[], rfl⟩
  | cons a l ih =>
    obtain ⟨b, rfl⟩ := Option.ne_none_iff_exists'.1 (h a List.mem_cons_self)
    obtain ⟨r, rfl⟩ := ih fun a ha => h a (List.mem_cons_of_mem _ ha)
    exact ⟨b :: r, rfl⟩

theorem mem_intercalate_of_mem {sep part : List α} {ls : List (List α)} (h : part ∈ ls) {a : α}
    (ha : a ∈ part) : a ∈ sep.intercalate ls := by
  induction ls with
  | nil => cases h
  | cons l ls ih =>
    rcases eq_or_ne ls [] with rfl | hne
    · rw [List.intercalate_singleton]
      rwa [List.mem_singleton.1 h] at ha
    · rw [List.intercalate_cons_of_ne_nil hne, List.mem_append, List.mem_append]
      rcases List.mem_cons.1 h with rfl | h
      · exact .inl (.inl ha)
      · exact .inr (ih h)

theorem intercalate_append {sep : List α} {ls ms : List (List α)} (hls : ls ≠ []) (hms : ms ≠ []) :
    sep.intercalate (ls ++ ms) = sep.intercalate ls ++ sep ++ sep.intercalate ms := by
  induction ls with
  | nil => exact absurd rfl hls
  | cons l ls ih =>
    rcases eq_or_ne ls [] with rfl | hne
    · rw [List.singleton_append, List.intercalate_cons_of_ne_nil hms, List.intercalate_singleton]
    · have happend : ls ++ ms ≠ [] := by simp [hne]
      rw [List.cons_append, List.intercalate_cons_of_ne_nil happend,
        List.intercalate_cons_of_ne_nil hne, ih hne]
      simp only [List.append_assoc]

/-- Blocks that are joined like their lines. -/
theorem intercalate_map_intercalate (sep : List α) {lss : List (List (List α))}
    (h : ∀ ls ∈ lss, ls ≠ []) :
    sep.intercalate (lss.map sep.intercalate) = sep.intercalate lss.flatten := by
  induction lss with
  | nil => rfl
  | cons ls lss ih =>
    rcases eq_or_ne lss [] with rfl | hne
    · simp
    · have hls : ls ≠ [] := h ls List.mem_cons_self
      have hrest : ∀ ls ∈ lss, ls ≠ [] := fun l hl => h l (List.mem_cons_of_mem ls hl)
      have hflatten : lss.flatten ≠ [] := by
        obtain ⟨l, lss', rfl⟩ := List.exists_cons_of_ne_nil hne
        rw [List.flatten_cons]
        exact List.append_ne_nil_of_left_ne_nil (hrest l List.mem_cons_self) _
      rw [List.map_cons, List.intercalate_cons_of_ne_nil (by simpa using hne), ih hrest,
        List.flatten_cons, intercalate_append hls hflatten]

variable [BEq α] [LawfulBEq α]

theorem not_mem_of_mem_splitOn {a : α} {l part : List α} (h : part ∈ l.splitOn a) : a ∉ part := by
  induction l generalizing part with
  | nil =>
    rw [List.splitOn_nil, List.mem_singleton] at h
    rw [h]
    exact List.not_mem_nil
  | cons x l ih =>
    rw [List.splitOn_cons_eq_if_modifyHead] at h
    split at h
    · rcases List.mem_cons.1 h with rfl | h
      · exact List.not_mem_nil
      · exact ih h
    · rename_i hne
      cases hl : l.splitOn a with
      | nil => exact absurd hl (List.splitOn_ne_nil a l)
      | cons first rest =>
        rw [hl, List.modifyHead_cons] at h
        rcases List.mem_cons.1 h with rfl | h
        · intro hmem
          rcases List.mem_cons.1 hmem with rfl | hmem
          · exact hne (beq_self_eq_true _)
          · exact ih (hl ▸ List.mem_cons_self) hmem
        · exact ih (hl ▸ List.mem_cons_of_mem first h)

end Splits

namespace Srt

/-! ### Lines and paragraphs -/

def dropReturns (line : List Char) : List Char := line.rdropWhile (· = '\r')

def lines (file : List Char) : List (List Char) := (file.splitOn '\n').map dropReturns

/-- What lies between blank lines. -/
def paragraphs (lines : List (List Char)) : List (List (List Char)) :=
  (lines.splitOn []).filter (· ≠ [])

/-- A line that is read as it is. -/
structure CleanLine (line : List Char) : Prop where
  ne_nil : line ≠ []
  newline : '\n' ∉ line
  getLast : line.getLast? ≠ some '\r'

/-- A text that is read as it is. -/
def CleanText (text : List Char) : Prop :=
  text = [] ∨ ∀ line ∈ text.splitOn '\n', line ≠ [] ∧ line.getLast? ≠ some '\r'

theorem dropReturns_eq_self {line : List Char} (h : line.getLast? ≠ some '\r') :
    dropReturns line = line := by
  refine List.rdropWhile_eq_self_iff.2 fun hne heq => h ?_
  rw [List.getLast?_eq_some_getLast hne, of_decide_eq_true heq]

theorem getLast?_dropReturns (line : List Char) : (dropReturns line).getLast? ≠ some '\r' := by
  intro h
  by_cases hne : dropReturns line = []
  · rw [hne] at h
    cases h
  · rw [List.getLast?_eq_some_getLast hne] at h
    exact List.rdropWhile_last_not _ line hne (decide_eq_true (Option.some.inj h))

/-- The lines of a paragraph are clean. -/
theorem cleanLine_of_mem_paragraphs {file : List Char} {paragraph : List (List Char)}
    (h : paragraph ∈ paragraphs (lines file)) {line : List Char} (hline : line ∈ paragraph) :
    CleanLine line := by
  have hsplit := List.mem_of_mem_filter h
  have hmem : line ∈ lines file := by
    have hjoin : [[]].intercalate ((lines file).splitOn []) = lines file := List.intercalate_splitOn []
    rw [← hjoin]
    exact mem_intercalate_of_mem hsplit hline
  obtain ⟨part, hpart, rfl⟩ := List.mem_map.1 hmem
  refine ⟨?_, fun hnewline => ?_, getLast?_dropReturns part⟩
  · rintro hnil
    exact not_mem_of_mem_splitOn hsplit (hnil ▸ hline)
  · exact not_mem_of_mem_splitOn hpart ((List.rdropWhile_prefix _ part).subset hnewline)

/-- What clean lines are joined to is a clean text. -/
theorem cleanText_intercalate {ls : List (List Char)} (h : ∀ line ∈ ls, CleanLine line) :
    CleanText (['\n'].intercalate ls) := by
  rcases eq_or_ne ls [] with rfl | hne
  · exact .inl rfl
  · refine .inr fun line hline => ?_
    rw [List.splitOn_intercalate '\n' (fun l hl => (h l hl).newline) hne] at hline
    exact ⟨(h line hline).ne_nil, (h line hline).getLast⟩

/-! ### Cues -/

/-- Times are in milliseconds. -/
structure Cue where
  number : Nat
  start : Nat
  stop : Nat
  text : List Char
  deriving DecidableEq, Repr

/-- A number of `width` digits, and what follows it. -/
def field (width : Nat → Bool) (cs : List Char) : Option (Nat × List Char) :=
  let digits := cs.takeWhile Char.isDigit
  if width digits.length then some (Nat.ofDigitChars 10 digits 0, cs.dropWhile Char.isDigit) else none

def expect (text cs : List Char) : Option (List Char) :=
  if text.isPrefixOf cs then some (cs.drop text.length) else none

/-- `hh:mm:ss,mmm`, with more digits for the hours if there are as many. -/
def stamp (cs : List Char) : Option (Nat × List Char) := do
  let (hours, cs) ← field (2 ≤ ·) cs
  let cs ← expect [':'] cs
  let (minutes, cs) ← field (· = 2) cs
  let cs ← expect [':'] cs
  let (seconds, cs) ← field (· = 2) cs
  let cs ← expect [','] cs
  let (millis, cs) ← field (· = 3) cs
  if minutes < 60 ∧ seconds < 60 then
    some (((hours * 60 + minutes) * 60 + seconds) * 1000 + millis, cs)
  else none

def timeLine (cs : List Char) : Option (Nat × Nat) := do
  let (start, cs) ← stamp cs
  let cs ← expect [' ', '-', '-', '>', ' '] cs
  let (stop, cs) ← stamp cs
  if cs = [] then some (start, stop) else none

def numberLine (cs : List Char) : Option Nat := do
  let (number, cs) ← field (1 ≤ ·) cs
  if cs = [] then some number else none

def cue : List (List Char) → Option Cue
  | number :: times :: text => do
    let number ← numberLine number
    let (start, stop) ← timeLine times
    some ⟨number, start, stop, ['\n'].intercalate text⟩
  | _ => none

def parse (file : List Char) : Option (List Cue) := (paragraphs (lines file)).mapM cue

/-! ### Fields -/

section Fields
variable {width : Nat → Bool} {digits rest : List Char}

theorem takeWhile_digits (hdigits : ∀ c ∈ digits, c.isDigit)
    (hrest : ∀ c ∈ rest.head?, c.isDigit = false) :
    (digits ++ rest).takeWhile Char.isDigit = digits ∧
      (digits ++ rest).dropWhile Char.isDigit = rest := by
  rw [List.takeWhile_append_of_pos hdigits, List.dropWhile_append_of_pos hdigits]
  cases rest with
  | nil => exact ⟨List.append_nil _, rfl⟩
  | cons c rest =>
    have hc : ¬ c.isDigit = true := by
      rw [hrest c rfl]
      exact Bool.false_ne_true
    rw [List.takeWhile_cons_of_neg hc, List.dropWhile_cons_of_neg hc]
    exact ⟨List.append_nil _, rfl⟩

theorem field_digits (hdigits : ∀ c ∈ digits, c.isDigit)
    (hrest : ∀ c ∈ rest.head?, c.isDigit = false) (hwidth : width digits.length) :
    field width (digits ++ rest) = some (Nat.ofDigitChars 10 digits 0, rest) := by
  obtain ⟨htake, hdrop⟩ := takeWhile_digits hdigits hrest
  simp only [field, htake, hdrop, if_pos hwidth]

theorem expect_append (text cs : List Char) : expect text (text ++ cs) = some cs := by
  rw [expect, if_pos (List.isPrefixOf_iff_prefix.2 (List.prefix_append text cs)), List.drop_left]

/-- The digits of a stamp. -/
structure StampDigits (hours minutes seconds millis : List Char) : Prop where
  digits : ∀ c, c ∈ hours ∨ c ∈ minutes ∨ c ∈ seconds ∨ c ∈ millis → c.isDigit
  hours : 2 ≤ hours.length
  minutes : minutes.length = 2 ∧ Nat.ofDigitChars 10 minutes 0 < 60
  seconds : seconds.length = 2 ∧ Nat.ofDigitChars 10 seconds 0 < 60
  millis : millis.length = 3

theorem stamp_digits {hours minutes seconds millis : List Char}
    (h : StampDigits hours minutes seconds millis) (hrest : ∀ c ∈ rest.head?, c.isDigit = false) :
    stamp (hours ++ ([':'] ++ (minutes ++ ([':'] ++ (seconds ++ ([','] ++ (millis ++ rest))))))) =
      some (((Nat.ofDigitChars 10 hours 0 * 60 + Nat.ofDigitChars 10 minutes 0) * 60 +
        Nat.ofDigitChars 10 seconds 0) * 1000 + Nat.ofDigitChars 10 millis 0, rest) := by
  have hcolon : ∀ cs : List Char, ∀ c ∈ ([':'] ++ cs).head?, c.isDigit = false := by
    rintro cs c hc
    obtain rfl := Option.some.inj hc
    rfl
  have hcomma : ∀ cs : List Char, ∀ c ∈ ([','] ++ cs).head?, c.isDigit = false := by
    rintro cs c hc
    obtain rfl := Option.some.inj hc
    rfl
  rw [stamp, field_digits (fun c hc => h.digits c (.inl hc)) (hcolon _) (decide_eq_true h.hours)]
  simp only [Option.bind_eq_bind, Option.bind_some, expect_append]
  rw [field_digits (fun c hc => h.digits c (.inr (.inl hc))) (hcolon _) (decide_eq_true h.minutes.1)]
  simp only [Option.bind_some, expect_append]
  rw [field_digits (fun c hc => h.digits c (.inr (.inr (.inl hc)))) (hcomma _)
    (decide_eq_true h.seconds.1)]
  simp only [Option.bind_some, expect_append]
  rw [field_digits (fun c hc => h.digits c (.inr (.inr (.inr hc)))) hrest (decide_eq_true h.millis)]
  simp only [Option.bind_some, if_pos (And.intro h.minutes.2 h.seconds.2)]

end Fields

theorem text_of_cue {paragraph : List (List Char)} {c : Cue} (h : cue paragraph = some c) :
    ∃ number times text, paragraph = number :: times :: text ∧ c.text = ['\n'].intercalate text := by
  match paragraph, h with
  | number :: times :: text, h =>
    simp only [cue, Option.bind_eq_bind, Option.bind_eq_some_iff, Option.some.injEq] at h
    obtain ⟨_, -, _, -, rfl⟩ := h
    exact ⟨number, times, text, rfl, rfl⟩
  | [_], h => cases h
  | [], h => cases h

/-- No other texts come out of a file. -/
theorem clean_of_parse {file : List Char} {cues : List Cue} (h : parse file = some cues) :
    ∀ c ∈ cues, CleanText c.text := by
  intro c hc
  have hmem : some c ∈ (paragraphs (lines file)).map cue := by
    rw [mapM_eq_some_iff.1 h]
    exact List.mem_map_of_mem hc
  obtain ⟨paragraph, hparagraph, hcue⟩ := List.mem_map.1 hmem
  obtain ⟨number, times, text, rfl, htext⟩ := text_of_cue hcue
  rw [htext]
  exact cleanText_intercalate fun line hline =>
    cleanLine_of_mem_paragraphs hparagraph (by simp [hline])

/-! ### Files -/

/-- What a file is made of: the first two lines of a cue, and its text. -/
structure Block where
  number : List Char
  times : List Char
  text : List Char

/-- A cue with the end of its last line. -/
def Block.lines (block : Block) : List (List Char) :=
  block.number :: block.times :: (block.text.splitOn '\n' ++ [[]])

def print (blocks : List Block) : List Char :=
  ['\n'].intercalate (blocks.map fun block => ['\n'].intercalate block.lines)

/-- The lines of a cue that are not blank. -/
def Block.paragraph (block : Block) : List (List Char) :=
  block.number :: block.times :: if block.text = [] then [] else block.text.splitOn '\n'

/-- The paragraphs of a cue, up to its last blank line: without a text there are two such lines. -/
def Block.parts (block : Block) : List (List (List Char)) :=
  if block.text = [] then [block.paragraph, []] else [block.paragraph]

structure Block.Clean (block : Block) : Prop where
  number : CleanLine block.number
  times : CleanLine block.times
  text : CleanText block.text

theorem Block.lines_eq (block : Block) : block.lines = [[]].intercalate block.parts ++ [[]] := by
  rw [lines, parts]
  by_cases htext : block.text = []
  · rw [if_pos htext, htext, List.splitOn_nil, List.intercalate_cons_cons, List.intercalate_singleton,
      paragraph, if_pos htext]
    rfl
  · rw [if_neg htext, List.intercalate_singleton, paragraph, if_neg htext]
    rfl

theorem flatMap_lines (blocks : List Block) :
    blocks.flatMap Block.lines = [[]].intercalate (blocks.flatMap Block.parts ++ [[]]) := by
  induction blocks with
  | nil => rfl
  | cons block blocks ih =>
    have hparts : block.parts ≠ [] := by
      rw [Block.parts]
      split <;> exact List.cons_ne_nil _ _
    rw [List.flatMap_cons, List.flatMap_cons, ih, Block.lines_eq, List.append_assoc _ [[]],
      List.append_assoc block.parts, intercalate_append hparts (by simp), List.append_assoc]

namespace Block.Clean
variable {block : Block} (h : block.Clean)
include h

/-- The lines of a clean cue are blank or clean. -/
theorem lines {line : List Char} (hline : line ∈ block.lines) : line = [] ∨ CleanLine line := by
  rw [Block.lines, List.mem_cons, List.mem_cons, List.mem_append, List.mem_singleton] at hline
  rcases hline with rfl | rfl | hline | rfl
  · exact .inr h.number
  · exact .inr h.times
  · rcases h.text with htext | htext
    · rw [htext, List.splitOn_nil, List.mem_singleton] at hline
      exact .inl hline
    · exact .inr ⟨(htext line hline).1, not_mem_of_mem_splitOn hline, (htext line hline).2⟩
  · exact .inl rfl

theorem paragraph {line : List Char} (hline : line ∈ block.paragraph) : line ≠ [] := by
  rw [Block.paragraph, List.mem_cons, List.mem_cons] at hline
  rcases hline with rfl | rfl | hline
  · exact h.number.ne_nil
  · exact h.times.ne_nil
  · split at hline
    · cases hline
    · rename_i hne
      exact (h.text.resolve_left hne line hline).1

theorem parts {part : List (List Char)} (hpart : part ∈ block.parts) : [] ∉ part := by
  rw [Block.parts] at hpart
  intro hnil
  split at hpart
  · rcases List.mem_cons.1 hpart with rfl | hpart
    · exact h.paragraph hnil rfl
    · rw [List.mem_singleton.1 hpart] at hnil
      cases hnil
  · rw [List.mem_singleton.1 hpart] at hnil
    exact h.paragraph hnil rfl

end Block.Clean

theorem filter_flatMap_parts (blocks : List Block) :
    (blocks.flatMap Block.parts).filter (· ≠ []) = blocks.map Block.paragraph := by
  induction blocks with
  | nil => rfl
  | cons block blocks ih =>
    have hpart : block.parts.filter (· ≠ []) = [block.paragraph] := by
      rw [Block.parts]
      split <;> rfl
    rw [List.flatMap_cons, List.filter_append, hpart, ih]
    rfl

/-- The lines of a file are those of its cues. -/
theorem lines_print {blocks : List Block} (h : ∀ block ∈ blocks, block.Clean) (hne : blocks ≠ []) :
    lines (print blocks) = blocks.flatMap Block.lines := by
  have hclean : ∀ line ∈ blocks.flatMap Block.lines, line = [] ∨ CleanLine line := by
    intro line hline
    obtain ⟨block, hblock, hline⟩ := List.mem_flatMap.1 hline
    exact (h block hblock).lines hline
  have hprint : print blocks = ['\n'].intercalate (blocks.flatMap Block.lines) := by
    have hmap : (blocks.map fun block => ['\n'].intercalate block.lines) =
        (blocks.map Block.lines).map ['\n'].intercalate := by
      rw [List.map_map]
      rfl
    rw [print, hmap, intercalate_map_intercalate, List.flatMap_def]
    intro ls hls
    obtain ⟨block, -, rfl⟩ := List.mem_map.1 hls
    exact List.cons_ne_nil _ _
  have hflat : blocks.flatMap Block.lines ≠ [] := by
    obtain ⟨block, rest, rfl⟩ := List.exists_cons_of_ne_nil hne
    rw [List.flatMap_cons]
    exact List.append_ne_nil_of_left_ne_nil (List.cons_ne_nil _ _) _
  rw [lines, hprint, List.splitOn_intercalate '\n' (fun line hline => ?_) hflat]
  · refine (List.map_congr_left fun line hline => ?_).trans (List.map_id _)
    rcases hclean line hline with rfl | hclean
    · rfl
    · exact dropReturns_eq_self hclean.getLast
  · rcases hclean line hline with rfl | hclean
    · exact List.not_mem_nil
    · exact hclean.newline

/-- Clean cues come back from a file one by one. -/
theorem parse_print {blocks : List Block} (h : ∀ block ∈ blocks, block.Clean) :
    parse (print blocks) = (blocks.map Block.paragraph).mapM cue := by
  rcases eq_or_ne blocks [] with rfl | hne
  · rfl
  · have hparts : ∀ part ∈ blocks.flatMap Block.parts ++ [[]], [] ∉ part := by
      intro part hpart
      rcases List.mem_append.1 hpart with hpart | hpart
      · obtain ⟨block, hblock, hpart⟩ := List.mem_flatMap.1 hpart
        exact (h block hblock).parts hpart
      · rw [List.mem_singleton.1 hpart]
        exact List.not_mem_nil
    rw [parse, lines_print h hne, flatMap_lines, paragraphs,
      List.splitOn_intercalate [] hparts (by simp), List.filter_append, filter_flatMap_parts]
    congr 1
    exact List.append_nil _

end Srt

end Portfolio
