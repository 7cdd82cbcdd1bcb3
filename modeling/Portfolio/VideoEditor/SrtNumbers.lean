import Portfolio.Lib.JsArith
import Portfolio.VideoEditor.SrtRoundTrip

/-!
# Subtitles with numbers for times

`formatSRTTime` and `generateSRT` of `FFmpegService` (`video-editor`) in the arithmetic of JavaScript,
which `SrtRoundTrip` takes to be exact. A stamp stands for the milliseconds that its four floors make
(`stampMillis`); these can be one less than the time.
-/

namespace Portfolio.VideoEditor
open Js (Number)

/-! ### `generateSRT` -/

structure NumberSubtitle where
  text : String
  startTime : Number
  duration : Number
  deriving DecidableEq, Repr

def NumberSubtitle.endTime (sub : NumberSubtitle) : Number := sub.startTime.add sub.duration

def formatSRTNumber (seconds : Number) : String :=
  let hours := (seconds.divBy 3600).floor
  let minutes := ((seconds.modBy 3600).divBy 60).floor
  let secs := (seconds.modBy 60).floor
  let millis := ((seconds.modBy 1).mulBy 1000).floor
  padStart 2 hours.integerText ++ ":" ++ padStart 2 minutes.integerText ++ ":" ++
    padStart 2 secs.integerText ++ "," ++ padStart 3 millis.integerText

def generateSRTNumbers (subtitles : List NumberSubtitle) : String :=
  "\n".intercalate (subtitles.mapIdx fun index sub =>
    toString (index + 1) ++ "\n" ++ formatSRTNumber sub.startTime ++ " --> " ++
      formatSRTNumber sub.endTime ++ "\n" ++ sub.text ++ "\n")

/-! ### Stamps -/

/-- The milliseconds that the stamp of a time stands for; `none` when it is no stamp. -/
def stampMillis (seconds : Number) : Option Nat := do
  let hours ← (seconds.divBy 3600).floor.printed
  let minutes ← ((seconds.modBy 3600).divBy 60).floor.printed
  let secs ← (seconds.modBy 60).floor.printed
  let millis ← ((seconds.modBy 1).mulBy 1000).floor.printed
  if minutes < 60 ∧ secs < 60 ∧ millis < 1000 then
    some (((hours * 60 + minutes) * 60 + secs) * 1000 + millis)
  else none

example : stampMillis (.ofRat (435 / 100)) = some 4349 := by decide +kernel

theorem length_padded_eq_iff {width n : Nat} (hwidth : 0 < width) :
    (padded width n).length = width ↔ n < 10 ^ width := by
  rw [← Nat.length_toDigits_le_iff (b := 10) (by decide) hwidth, padded, List.length_append,
    List.length_replicate]
  omega

/-- A field of a stamp is read as the number that was printed. -/
theorem field_padStart {x : Number} {width : Nat} (hwidth : width ≤ 3) {accepts : Nat → Bool}
    (haccepts : ∀ k, accepts k = true → 2 ≤ k) {rest : List Char}
    (hrest : ∀ c ∈ rest.head?, c.isDigit = false) :
    Srt.field accepts ((padStart width x.integerText).toList ++ rest) =
      x.printed.bind fun n => if accepts (padded width n).length then some (n, rest) else none := by
  rw [padStart, String.toList_append, String.toList_ofList, ← String.length_toList]
  cases hx : x.printed with
  | none =>
    obtain ⟨front, c, tail, htext, hc, hfront, hlen⟩ := Number.broken_of_not_printed hx
    have hnot : ¬ c.isDigit = true := by
      rw [hc]
      exact Bool.false_ne_true
    generalize hzeros : width - x.integerText.toList.length = zeros
    have hshort : zeros + front.length ≤ 1 := by omega
    have htake : ((List.replicate zeros '0' ++ x.integerText.toList ++ rest).takeWhile
        Char.isDigit).length ≤ 1 := by
      have hsplit : List.replicate zeros '0' ++ x.integerText.toList ++ rest =
          (List.replicate zeros '0' ++ front) ++ c :: (tail ++ rest) := by
        rw [htext]
        simp
      rw [hsplit, List.takeWhile_append]
      split
      · rw [List.takeWhile_cons_of_neg hnot, List.append_nil, List.length_append, List.length_replicate]
        exact hshort
      · refine le_trans (List.takeWhile_prefix _).length_le ?_
        rw [List.length_append, List.length_replicate]
        exact hshort
    rw [Srt.field, if_neg fun h => absurd (haccepts _ h) (by omega)]
    rfl
  | some n =>
    rw [Number.integerText_of_printed hx]
    show Srt.field accepts (padded width n ++ rest) = _
    by_cases hw : accepts (padded width n).length = true
    · rw [Srt.field_digits (fun c hc => isDigit_padded hc) hrest hw, ofDigitChars_padded,
        Option.bind_some, if_pos hw]
    · obtain ⟨htake, -⟩ := Srt.takeWhile_digits (fun c hc => isDigit_padded hc) hrest
      rw [Srt.field, htake, if_neg hw, Option.bind_some, if_neg hw]

/-- A field of two or three digits. -/
theorem field_exact {x : Number} {width : Nat} (hwidth : 2 ≤ width ∧ width ≤ 3) {rest : List Char}
    (hrest : ∀ c ∈ rest.head?, c.isDigit = false) :
    Srt.field (· = width) ((padStart width x.integerText).toList ++ rest) =
      x.printed.bind fun n => if n < 10 ^ width then some (n, rest) else none := by
  have haccepts : ∀ k, decide (k = width) = true → 2 ≤ k := by
    intro k hk
    rw [of_decide_eq_true hk]
    exact hwidth.1
  rw [field_padStart hwidth.2 haccepts hrest]
  congr 1
  funext n
  simp only [decide_eq_true_eq, length_padded_eq_iff (show 0 < width by omega)]

theorem stamp_formatSRTNumber (seconds : Number) {rest : List Char}
    (hrest : ∀ c ∈ rest.head?, c.isDigit = false) :
    Srt.stamp ((formatSRTNumber seconds).toList ++ rest) = (stampMillis seconds).map (·, rest) := by
  have hcolon : ∀ cs : List Char, ∀ c ∈ ([':'] ++ cs).head?, c.isDigit = false := by
    rintro cs c hc
    obtain rfl := Option.some.inj hc
    rfl
  have hcomma : ∀ cs : List Char, ∀ c ∈ ([','] ++ cs).head?, c.isDigit = false := by
    rintro cs c hc
    obtain rfl := Option.some.inj hc
    rfl
  have hcolons : ":".toList = [':'] := rfl
  have hcommas : ",".toList = [','] := rfl
  unfold formatSRTNumber stampMillis
  generalize (seconds.divBy 3600).floor = hours
  generalize ((seconds.modBy 3600).divBy 60).floor = minutes
  generalize (seconds.modBy 60).floor = secs
  generalize ((seconds.modBy 1).mulBy 1000).floor = millis
  simp only [String.toList_append, hcolons, hcommas, List.append_assoc, Option.bind_eq_bind]
  rw [Srt.stamp, field_padStart (by decide) (fun k hk => of_decide_eq_true hk) (hcolon _)]
  cases hours.printed with
  | none => rfl
  | some h =>
    have hwide : decide (2 ≤ (padded 2 h).length) = true := decide_eq_true (le_length_padded 2 h)
    simp only [Option.bind_eq_bind, Option.bind_some, if_pos hwide, Srt.expect_append]
    rw [field_exact (by decide) (hcolon _)]
    cases minutes.printed with
    | none => rfl
    | some m =>
      by_cases hm : m < 10 ^ 2
      · simp only [Option.bind_some, if_pos hm, Srt.expect_append]
        rw [field_exact (by decide) (hcomma _)]
        cases secs.printed with
        | none => rfl
        | some s =>
          by_cases hs : s < 10 ^ 2
          · simp only [Option.bind_some, if_pos hs, Srt.expect_append]
            rw [field_exact (by decide) hrest]
            cases millis.printed with
            | none => rfl
            | some ms =>
              -- the reader takes three digits, and no more than 59 minutes and seconds
              by_cases hm : m < 60 <;> by_cases hs : s < 60 <;> by_cases hms : ms < 1000 <;>
                simp [hm, hs, hms]
          · have hs' : ¬ s < 60 := by omega
            rw [Option.bind_some, if_neg hs]
            cases millis.printed <;> simp [hs']
      · have hm' : ¬ m < 60 := by omega
        rw [Option.bind_some, if_neg hm]
        cases secs.printed <;> cases millis.printed <;> simp [hm']

/-! ### Files -/

/-- The time line of a subtitle. -/
def numberTimes (sub : NumberSubtitle) : List Char :=
  (formatSRTNumber sub.startTime).toList ++ ([' ', '-', '-', '>', ' '] ++ (formatSRTNumber sub.endTime).toList)

/-- The lines of a subtitle that is number `index` from 0 on. -/
def numberBlock (index : Nat) (sub : NumberSubtitle) : Srt.Block where
  number := (toString (index + 1)).toList
  times := numberTimes sub
  text := sub.text.toList

/-- The cue of a subtitle, if its stamps can be read. -/
def numberCue (index : Nat) (sub : NumberSubtitle) : Option Srt.Cue := do
  let start ← stampMillis sub.startTime
  let stop ← stampMillis sub.endTime
  some ⟨index + 1, start, stop, sub.text.toList⟩

theorem timeLine_numberTimes (sub : NumberSubtitle) :
    Srt.timeLine (numberTimes sub) =
      (stampMillis sub.startTime).bind fun start => (stampMillis sub.endTime).map fun stop => (start, stop) := by
  have hblank : ∀ c ∈ ([' ', '-', '-', '>', ' '] ++ (formatSRTNumber sub.endTime).toList).head?,
      c.isDigit = false := by
    rintro c hc
    obtain rfl := Option.some.inj hc
    rfl
  have hend : Srt.stamp (formatSRTNumber sub.endTime).toList = (stampMillis sub.endTime).map (·, []) := by
    have hempty : ∀ c ∈ ([] : List Char).head?, c.isDigit = false := by
      rintro c ⟨⟩
    rw [← stamp_formatSRTNumber sub.endTime hempty, List.append_nil]
  rw [Srt.timeLine, numberTimes, stamp_formatSRTNumber sub.startTime hblank]
  cases stampMillis sub.startTime with
  | none => rfl
  | some start =>
    simp only [Option.bind_eq_bind, Option.map_some, Option.bind_some, Srt.expect_append, hend]
    cases stampMillis sub.endTime <;> rfl

theorem toList_generateSRTNumbers (subtitles : List NumberSubtitle) :
    (generateSRTNumbers subtitles).toList = Srt.print (subtitles.mapIdx numberBlock) := by
  have hline : "\n".toList = ['\n'] := rfl
  rw [generateSRTNumbers, String.toList_intercalate, Srt.print, hline, map_mapIdx, map_mapIdx]
  simp only [toList_cueText]
  rfl

theorem plain_formatSRTNumber (seconds : Number) : ∀ c ∈ (formatSRTNumber seconds).toList, Number.Plain c := by
  have hpad : ∀ (width : Nat) (x : Number), ∀ c ∈ (padStart width x.integerText).toList, Number.Plain c := by
    intro width x c hc
    rw [padStart, String.toList_append, String.toList_ofList, List.mem_append] at hc
    rcases hc with hc | hc
    · rw [List.eq_of_mem_replicate hc]
      decide
    · exact Number.plain_integerText x c hc
  intro c hc
  have hcolon : ∀ c ∈ ":".toList, Number.Plain c := Number.plain_of_all (by decide)
  have hcomma : ∀ c ∈ ",".toList, Number.Plain c := Number.plain_of_all (by decide)
  simp only [formatSRTNumber, String.toList_append, List.mem_append] at hc
  rcases hc with (((((hc | hc) | hc) | hc) | hc) | hc) | hc
  · exact hpad _ _ c hc
  · exact hcolon c hc
  · exact hpad _ _ c hc
  · exact hcolon c hc
  · exact hpad _ _ c hc
  · exact hcomma c hc
  · exact hpad _ _ c hc

theorem cleanLine_numberTimes (sub : NumberSubtitle) : Srt.CleanLine (numberTimes sub) := by
  have hplain : ∀ c ∈ numberTimes sub, Number.Plain c := by
    intro c hc
    rw [numberTimes, List.mem_append, List.mem_append] at hc
    rcases hc with hc | hc | hc
    · exact plain_formatSRTNumber _ c hc
    · exact Number.plain_of_all (by decide) c hc
    · exact plain_formatSRTNumber _ c hc
  refine ⟨?_, fun hmem => (hplain _ hmem).1 rfl, fun hlast => ?_⟩
  · rw [numberTimes]
    simp
  · exact (hplain _ (List.mem_of_getLast? hlast)).2 rfl

theorem cue_numberBlock (index : Nat) (sub : NumberSubtitle) :
    Srt.cue (numberBlock index sub).paragraph = numberCue index sub := by
  show Srt.cue ((toString (index + 1)).toList :: numberTimes sub ::
    if sub.text.toList = [] then [] else sub.text.toList.splitOn '\n') = _
  simp only [Srt.cue, numberLine_toString, timeLine_numberTimes, intercalate_textLines, numberCue,
    Option.bind_eq_bind, Option.bind_some]
  cases stampMillis sub.startTime with
  | none => rfl
  | some start => cases stampMillis sub.endTime <;> rfl

/-- With clean texts the file is read cue by cue. -/
theorem parse_generateSRTNumbers {subtitles : List NumberSubtitle}
    (hclean : ∀ sub ∈ subtitles, Srt.CleanText sub.text.toList) (cues : List Srt.Cue) :
    Srt.parse (generateSRTNumbers subtitles).toList = some cues ↔
      subtitles.mapIdx numberCue = cues.map some := by
  have hblocks : ∀ block ∈ subtitles.mapIdx numberBlock, block.Clean := by
    intro block hblock
    obtain ⟨index, hlt, rfl⟩ := List.mem_mapIdx.1 hblock
    exact ⟨cleanLine_number index, cleanLine_numberTimes _, hclean _ (List.getElem_mem hlt)⟩
  rw [toList_generateSRTNumbers, Srt.parse_print hblocks, mapM_eq_some_iff, map_mapIdx, map_mapIdx]
  simp only [cue_numberBlock]

end Portfolio.VideoEditor
