import Mathlib.Data.Rat.Floor
import Portfolio.Lib.Srt
import Portfolio.VideoEditor.SubtitleJobs

/-!
# The subtitles that are read back

What a reader of SubRip files makes of the text of `FFmpegService.generateSRT` (`video-editor`). The
times come back to the millisecond. The text of a subtitle is put into the file as it is, and comes
back if it has no blank line in it and no carriage return at the end of a line
(`parse_generateSRT_iff`).
-/

namespace Portfolio.VideoEditor

/-! ### Times -/

/-- A time that is cut to whole milliseconds. -/
def wholeMillis (seconds : Rat) : Nat := (seconds * 1000).floor.toNat

section Floors
variable {seconds : Rat}

theorem wholeMillis_eq (h : 0 ≤ seconds) : (wholeMillis seconds : Int) = (seconds * 1000).floor := by
  have hnonneg : 0 ≤ ⌊seconds * 1000⌋ := Int.floor_nonneg.2 (by positivity)
  exact Int.toNat_of_nonneg hnonneg

/-- A longer unit has a quotient of the milliseconds. -/
theorem floor_div (h : 0 ≤ seconds) (n : Nat) :
    (seconds * 1000 / n).floor = (wholeMillis seconds : Int) / n := by
  rw [wholeMillis_eq h]
  exact Int.floor_div_natCast (seconds * 1000) n

theorem rem_of_nonneg {a b : Rat} (ha : 0 ≤ a) (hb : 0 < b) : rem a b = a - b * (a / b).floor := by
  rw [rem, if_pos (div_nonneg ha hb.le)]

theorem floor_hours (h : 0 ≤ seconds) :
    (seconds / 3600).floor = ((wholeMillis seconds / 3600000 : Nat) : Int) := by
  have hunit : seconds / 3600 = seconds * 1000 / (3600000 : Nat) := by
    push_cast
    ring
  rw [hunit, floor_div h, Int.natCast_ediv]

theorem floor_minutes (h : 0 ≤ seconds) :
    (rem seconds 3600 / 60).floor = ((wholeMillis seconds % 3600000 / 60000 : Nat) : Int) := by
  have hunit : rem seconds 3600 / 60 =
      seconds * 1000 / (60000 : Nat) - ((60 * (seconds / 3600).floor : Int) : Rat) := by
    rw [rem_of_nonneg h (by norm_num)]
    push_cast
    ring
  have hfloor : (rem seconds 3600 / 60).floor =
      (seconds * 1000 / (60000 : Nat)).floor - 60 * (seconds / 3600).floor := by
    rw [hunit]
    exact Int.floor_sub_intCast (_ : Rat) _
  rw [hfloor, floor_div h, floor_hours h]
  omega

theorem floor_secs (h : 0 ≤ seconds) :
    (rem seconds 60).floor = ((wholeMillis seconds % 60000 / 1000 : Nat) : Int) := by
  have hunit : seconds / 60 = seconds * 1000 / (60000 : Nat) := by
    push_cast
    ring
  have hrem : rem seconds 60 =
      seconds * 1000 / (1000 : Nat) - ((60 * (seconds / 60).floor : Int) : Rat) := by
    rw [rem_of_nonneg h (by norm_num)]
    push_cast
    ring
  have hfloor : (rem seconds 60).floor =
      (seconds * 1000 / (1000 : Nat)).floor - 60 * (seconds / 60).floor := by
    rw [hrem]
    exact Int.floor_sub_intCast (_ : Rat) _
  rw [hfloor, floor_div h, hunit, floor_div h]
  omega

theorem floor_millis (h : 0 ≤ seconds) :
    (rem seconds 1 * 1000).floor = ((wholeMillis seconds % 1000 : Nat) : Int) := by
  have hunit : seconds / 1 = seconds * 1000 / (1000 : Nat) := by
    push_cast
    ring
  have hrem : rem seconds 1 * 1000 =
      seconds * 1000 - ((1000 * (seconds / 1).floor : Int) : Rat) := by
    rw [rem_of_nonneg h one_pos]
    push_cast
    ring
  have hfloor : (rem seconds 1 * 1000).floor =
      (seconds * 1000).floor - 1000 * (seconds / 1).floor := by
    rw [hrem]
    exact Int.floor_sub_intCast (_ : Rat) _
  rw [hfloor, ← wholeMillis_eq h, hunit, floor_div h]
  omega

end Floors

/-! ### Stamps -/

/-- A number with zeros in front. -/
def padded (width n : Nat) : List Char :=
  List.replicate (width - (Nat.toDigits 10 n).length) '0' ++ Nat.toDigits 10 n

theorem toList_padStart (width n : Nat) :
    (padStart width (toString (n : Int))).toList = padded width n := by
  have hdigits : (toString (n : Int)).toList = Nat.toDigits 10 n := by
    rw [toList_toString_int, if_neg (by omega), Int.natAbs_natCast]
  rw [padStart, String.toList_append, String.toList_ofList, ← String.length_toList, hdigits, padded]

theorem isDigit_padded {width n : Nat} {c : Char} (h : c ∈ padded width n) : c.isDigit = true := by
  rcases List.mem_append.1 h with h | h
  · rw [List.eq_of_mem_replicate h]
    rfl
  · exact isDigit_toDigits h

theorem ofDigitChars_padded (width n : Nat) : Nat.ofDigitChars 10 (padded width n) 0 = n := by
  rw [padded, Nat.ofDigitChars_append, Nat.ofDigitChars_replicate_zero, Nat.mul_zero,
    Nat.ofDigitChars_ten_toDigits]

theorem le_length_padded (width n : Nat) : width ≤ (padded width n).length := by
  rw [padded, List.length_append, List.length_replicate]
  omega

theorem length_padded {width n : Nat} (hwidth : 0 < width) (h : n < 10 ^ width) :
    (padded width n).length = width := by
  have hlen := (Nat.length_toDigits_le_iff (b := 10) (n := n) (by decide) hwidth).2 h
  rw [padded, List.length_append, List.length_replicate]
  omega

theorem toList_formatSRTTime {seconds : Rat} (h : 0 ≤ seconds) (rest : List Char) :
    (formatSRTTime seconds).toList ++ rest =
      padded 2 (wholeMillis seconds / 3600000) ++ ([':'] ++
        (padded 2 (wholeMillis seconds % 3600000 / 60000) ++ ([':'] ++
          (padded 2 (wholeMillis seconds % 60000 / 1000) ++ ([','] ++
            (padded 3 (wholeMillis seconds % 1000) ++ rest)))))) := by
  have hcolon : ":".toList = [':'] := rfl
  have hcomma : ",".toList = [','] := rfl
  rw [formatSRTTime]
  simp only [floor_hours h, floor_minutes h, floor_secs h, floor_millis h, String.toList_append,
    toList_padStart, hcolon, hcomma, List.append_assoc]

/-- The stamp of a time stands for its whole milliseconds. -/
theorem stamp_formatSRTTime {seconds : Rat} (h : 0 ≤ seconds) {rest : List Char}
    (hrest : ∀ c ∈ rest.head?, c.isDigit = false) :
    Srt.stamp ((formatSRTTime seconds).toList ++ rest) = some (wholeMillis seconds, rest) := by
  generalize hn : wholeMillis seconds = n
  have hdigits : Srt.StampDigits (padded 2 (n / 3600000)) (padded 2 (n % 3600000 / 60000))
      (padded 2 (n % 60000 / 1000)) (padded 3 (n % 1000)) := by
    refine ⟨fun c hc => ?_, le_length_padded 2 _, ⟨length_padded (by decide) (by omega), ?_⟩,
      ⟨length_padded (by decide) (by omega), ?_⟩, length_padded (by decide) (by omega)⟩
    · rcases hc with hc | hc | hc | hc
      all_goals exact isDigit_padded hc
    · rw [ofDigitChars_padded]
      omega
    · rw [ofDigitChars_padded]
      omega
  have hsum : ((n / 3600000 * 60 + n % 3600000 / 60000) * 60 + n % 60000 / 1000) * 1000 + n % 1000 =
      n := by omega
  rw [toList_formatSRTTime h, hn, Srt.stamp_digits hdigits hrest]
  simp only [ofDigitChars_padded, hsum]

/-- The time line of a subtitle. -/
def timesOf (sub : Subtitle) : List Char :=
  (formatSRTTime sub.startTime).toList ++ ([' ', '-', '-', '>', ' '] ++
    (formatSRTTime (sub.startTime + sub.duration)).toList)

theorem timeLine_timesOf {sub : Subtitle} (hstart : 0 ≤ sub.startTime)
    (hstop : 0 ≤ sub.startTime + sub.duration) :
    Srt.timeLine (timesOf sub) =
      some (wholeMillis sub.startTime, wholeMillis (sub.startTime + sub.duration)) := by
  have hblank : ∀ c ∈ ([' ', '-', '-', '>', ' '] ++
      (formatSRTTime (sub.startTime + sub.duration)).toList).head?, c.isDigit = false := by
    rintro c hc
    obtain rfl := Option.some.inj hc
    rfl
  have hnil : ∀ c ∈ ([] : List Char).head?, c.isDigit = false := by rintro c ⟨⟩
  have hend := stamp_formatSRTTime hstop hnil
  rw [List.append_nil] at hend
  rw [Srt.timeLine, timesOf, stamp_formatSRTTime hstart hblank]
  simp only [Option.bind_eq_bind, Option.bind_some, Srt.expect_append, hend, if_true]

/-! ### Files -/

/-- The lines of a subtitle that is number `index` from 0 on. -/
def blockOf (index : Nat) (sub : Subtitle) : Srt.Block where
  number := (toString (index + 1)).toList
  times := timesOf sub
  text := sub.text.toList

/-- The cue of a subtitle. -/
def cueOf (index : Nat) (sub : Subtitle) : Srt.Cue where
  number := index + 1
  start := wholeMillis sub.startTime
  stop := wholeMillis (sub.startTime + sub.duration)
  text := sub.text.toList

theorem map_mapIdx {α β γ : Type} (g : β → γ) (f : Nat → α → β) (l : List α) :
    (l.mapIdx f).map g = l.mapIdx fun i a => g (f i a) := by
  refine List.ext_getElem? fun i => ?_
  rw [List.getElem?_map, List.getElem?_mapIdx, List.getElem?_mapIdx, Option.map_map]
  rfl

theorem toList_cueText (number start stop text : String) :
    (number ++ "\n" ++ start ++ " --> " ++ stop ++ "\n" ++ text ++ "\n").toList =
      ['\n'].intercalate (Srt.Block.lines ⟨number.toList,
        start.toList ++ ([' ', '-', '-', '>', ' '] ++ stop.toList), text.toList⟩) := by
  have hline : "\n".toList = ['\n'] := rfl
  have harrow : " --> ".toList = [' ', '-', '-', '>', ' '] := rfl
  have htext : ['\n'].intercalate (text.toList.splitOn '\n' ++ [[]]) = text.toList ++ ['\n'] := by
    rw [intercalate_append (List.splitOn_ne_nil _ _) (List.cons_ne_nil _ _),
      List.intercalate_splitOn, List.intercalate_singleton, List.append_nil]
  have hne : text.toList.splitOn '\n' ++ [[]] ≠ [] := by simp
  rw [Srt.Block.lines, List.intercalate_cons_cons, List.intercalate_cons_of_ne_nil hne]
  show _ = _ ++ ['\n'] ++ (_ ++ ['\n'] ++ ['\n'].intercalate (text.toList.splitOn '\n' ++ [[]]))
  rw [htext]
  simp only [String.toList_append, hline, harrow, List.append_assoc]

/-- A cue of the file is a cue of lines. -/
theorem toList_block (index : Nat) (sub : Subtitle) :
    (toString (index + 1) ++ "\n" ++ formatSRTTime sub.startTime ++ " --> " ++
        formatSRTTime (sub.startTime + sub.duration) ++ "\n" ++ sub.text ++ "\n").toList =
      ['\n'].intercalate (blockOf index sub).lines :=
  toList_cueText ..

theorem toList_generateSRT (subtitles : List Subtitle) :
    (generateSRT subtitles).toList = Srt.print (subtitles.mapIdx blockOf) := by
  have hline : "\n".toList = ['\n'] := rfl
  rw [generateSRT, String.toList_intercalate, Srt.print, hline, map_mapIdx, map_mapIdx]
  simp only [toList_block]

theorem numberLine_toString (n : Nat) : Srt.numberLine (toString n).toList = some n := by
  have hdigits : (toString n).toList = Nat.toDigits 10 n := Nat.toList_repr
  have hfield : Srt.field (1 ≤ ·) (Nat.toDigits 10 n ++ []) = _ := Srt.field_digits
    (fun c hc => isDigit_toDigits (n := n) hc) (by simp)
    (decide_eq_true (Nat.length_toDigits_pos (b := 10) (n := n)))
  rw [List.append_nil, Nat.ofDigitChars_ten_toDigits] at hfield
  rw [Srt.numberLine, hdigits, hfield]
  rfl

theorem cleanLine_of_digits {line : List Char} (hne : line ≠ []) (h : ∀ c ∈ line, c.isDigit) :
    Srt.CleanLine line := by
  refine ⟨hne, fun hmem => absurd (h '\n' hmem) (by decide), fun hlast => ?_⟩
  exact absurd (h '\r' (List.mem_of_getLast? hlast)) (by decide)

/-- What stands in a stamp. -/
theorem mem_formatSRTTime {seconds : Rat} (h : 0 ≤ seconds) {c : Char}
    (hc : c ∈ (formatSRTTime seconds).toList) : c.isDigit = true ∨ c = ':' ∨ c = ',' := by
  have htext := toList_formatSRTTime h []
  rw [List.append_nil] at htext
  rw [htext] at hc
  simp only [List.mem_append, List.mem_singleton, List.not_mem_nil, or_false] at hc
  rcases hc with hc | rfl | hc | rfl | hc | rfl | hc
  · exact .inl (isDigit_padded hc)
  · exact .inr (.inl rfl)
  · exact .inl (isDigit_padded hc)
  · exact .inr (.inl rfl)
  · exact .inl (isDigit_padded hc)
  · exact .inr (.inr rfl)
  · exact .inl (isDigit_padded hc)

theorem cleanLine_timesOf {sub : Subtitle} (hstart : 0 ≤ sub.startTime)
    (hstop : 0 ≤ sub.startTime + sub.duration) : Srt.CleanLine (timesOf sub) := by
  have hchars : ∀ c ∈ timesOf sub, c.isDigit = true ∨ c = ':' ∨ c = ',' ∨ c ∈ [' ', '-', '>'] := by
    intro c hc
    rw [timesOf, List.mem_append, List.mem_append] at hc
    rcases hc with hc | hc | hc
    · rcases mem_formatSRTTime hstart hc with hc | hc | hc
      exacts [.inl hc, .inr (.inl hc), .inr (.inr (.inl hc))]
    · refine .inr (.inr (.inr ?_))
      simp only [List.mem_cons, List.not_mem_nil, or_false] at hc ⊢
      rcases hc with rfl | rfl | rfl | rfl | rfl
      all_goals decide
    · rcases mem_formatSRTTime hstop hc with hc | hc | hc
      exacts [.inl hc, .inr (.inl hc), .inr (.inr (.inl hc))]
  refine ⟨?_, fun hmem => absurd (hchars _ hmem) (by decide), fun hlast => ?_⟩
  · rw [timesOf]
    simp
  · exact absurd (hchars _ (List.mem_of_getLast? hlast)) (by decide)

theorem cleanLine_number (index : Nat) : Srt.CleanLine (toString (index + 1)).toList := by
  refine cleanLine_of_digits ?_ fun c hc => ?_
  · show (Nat.repr (index + 1)).toList ≠ []
    rw [Nat.toList_repr]
    exact Nat.toDigits_ne_nil
  · have hc : c ∈ (Nat.repr (index + 1)).toList := hc
    rw [Nat.toList_repr] at hc
    exact isDigit_toDigits hc

/-- The lines of a text make the text. -/
theorem intercalate_textLines (text : List Char) :
    ['\n'].intercalate (if text = [] then [] else text.splitOn '\n') = text := by
  split
  · rename_i hnil
    rw [hnil]
    rfl
  · exact List.intercalate_splitOn '\n'

section RoundTrip
variable {index : Nat} {sub : Subtitle}

theorem clean_blockOf (hstart : 0 ≤ sub.startTime) (hstop : 0 ≤ sub.startTime + sub.duration)
    (htext : Srt.CleanText sub.text.toList) : (blockOf index sub).Clean :=
  ⟨cleanLine_number index, cleanLine_timesOf hstart hstop, htext⟩

/-- The paragraph of a subtitle is read as its cue. -/
theorem cue_blockOf (hstart : 0 ≤ sub.startTime) (hstop : 0 ≤ sub.startTime + sub.duration) :
    Srt.cue (blockOf index sub).paragraph = some (cueOf index sub) := by
  show Srt.cue ((toString (index + 1)).toList :: timesOf sub ::
    if sub.text.toList = [] then [] else sub.text.toList.splitOn '\n') = _
  simp only [Srt.cue, numberLine_toString, timeLine_timesOf hstart hstop,
    intercalate_textLines, Option.bind_eq_bind, Option.bind_some, cueOf]

end RoundTrip

/-- The file is read as one cue for each subtitle, with its text and its times, if and only if no text
but an empty one has a blank line or a carriage return at the end of a line. -/
theorem parse_generateSRT_iff (subtitles : List Subtitle)
    (htimes : ∀ sub ∈ subtitles, 0 ≤ sub.startTime ∧ 0 ≤ sub.duration) :
    Srt.parse (generateSRT subtitles).toList = some (subtitles.mapIdx cueOf) ↔
      ∀ sub ∈ subtitles, sub.text = "" ∨
        ∀ line ∈ sub.text.toList.splitOn '\n', line ≠ [] ∧ line.getLast? ≠ some '\r' := by
  have hempty : ∀ sub : Subtitle, sub.text = "" ↔ sub.text.toList = [] := by
    intro sub
    rw [← String.toList_inj]
    rfl
  simp only [hempty]
  show _ ↔ ∀ sub ∈ subtitles, Srt.CleanText sub.text.toList
  have hstop : ∀ sub ∈ subtitles, 0 ≤ sub.startTime + sub.duration :=
    fun sub hsub => add_nonneg (htimes sub hsub).1 (htimes sub hsub).2
  constructor
  · intro hparse sub hsub
    obtain ⟨index, hlt, rfl⟩ := List.getElem_of_mem hsub
    exact Srt.clean_of_parse hparse (cueOf index subtitles[index])
      (List.mem_mapIdx.2 ⟨index, hlt, rfl⟩)
  · intro hclean
    have hblocks : ∀ block ∈ subtitles.mapIdx blockOf, block.Clean := by
      intro block hblock
      obtain ⟨index, hlt, rfl⟩ := List.mem_mapIdx.1 hblock
      have hmem := List.getElem_mem hlt
      exact clean_blockOf (htimes _ hmem).1 (hstop _ hmem) (hclean _ hmem)
    rw [toList_generateSRT, Srt.parse_print hblocks, mapM_eq_some_iff, map_mapIdx, map_mapIdx,
      map_mapIdx, List.mapIdx_eq_mapIdx_iff]
    intro index hlt
    have hmem := List.getElem_mem hlt
    exact cue_blockOf (htimes _ hmem).1 (hstop _ hmem)

/-- Two subtitles, of two lines and of none. -/
theorem parse_generateSRT_iff_hello :
    Srt.parse (generateSRT [⟨"Hello\nworld", 1, 2⟩, ⟨"", 4, 1⟩]).toList =
        some ([⟨"Hello\nworld", 1, 2⟩, ⟨"", 4, 1⟩].mapIdx cueOf) ↔
      ∀ sub ∈ [(⟨"Hello\nworld", 1, 2⟩ : Subtitle), ⟨"", 4, 1⟩], sub.text = "" ∨
        ∀ line ∈ sub.text.toList.splitOn '\n', line ≠ [] ∧ line.getLast? ≠ some '\r' :=
  parse_generateSRT_iff [⟨"Hello\nworld", 1, 2⟩, ⟨"", 4, 1⟩] (by decide +kernel)

/-- A text with a blank line, after which there is what looks like a cue. -/
def forged : List Subtitle := [⟨"Hello\n\n7\n00:00:09,000 --> 00:00:10,000\nworld", 1, 2⟩]

theorem forged_cue :
    ¬ ∀ subtitles : List Subtitle, (∀ sub ∈ subtitles, 0 ≤ sub.startTime ∧ 0 ≤ sub.duration) →
      Srt.parse (generateSRT subtitles).toList = some (subtitles.mapIdx cueOf) := by
  intro h
  have hparse := h forged (by decide +kernel)
  revert hparse
  decide +kernel

end Portfolio.VideoEditor
