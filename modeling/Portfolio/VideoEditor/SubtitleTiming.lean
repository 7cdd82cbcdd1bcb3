import Mathlib.Tactic.Linarith
import Portfolio.VideoEditor.SrtNumbers

/-!
# Subtitles and speed

The filters of `FFmpegService.addSubtitlesAndSpeed` (`video-editor`) and the file that they read.
`setpts` comes first and scales the timestamps, so `subtitles` compares the times of the original with
those of the result (`in_sync_iff`).
-/

namespace Portfolio.VideoEditor
open Js (Number)

/-! ### The filters -/

inductive VideoFilter where
  /-- `setpts=${factor}*PTS` -/
  | setpts (factor : Rat)
  | subtitles (escapedPath : String)
  deriving DecidableEq, Repr

def escapedPath (subtitlePath : String) : String :=
  String.ofList (subtitlePath.toList.flatMap fun c =>
    if c = '\\' then ['/'] else if c = ':' then ['\\', ':'] else [c])

/-- `speed` counts as not given if it is 0. -/
def videoFilters (subtitlePath : Option String) (speed : Option Rat) : List VideoFilter :=
  (match speed with
    | none => []
    | some speed => if speed ≠ 0 ∧ speed ≠ 1 then [.setpts (1 / speed)] else []) ++
  (match subtitlePath with
    | none => []
    | some path => [.subtitles (escapedPath path)])

/-- A subtitle whose times are whole milliseconds. -/
structure MillisSubtitle where
  text : String
  start : Int
  duration : Int
  deriving DecidableEq, Repr

/-- The subtitle as the request has it, with its times in seconds. -/
def MillisSubtitle.numbers (sub : MillisSubtitle) : NumberSubtitle where
  text := sub.text
  startTime := .ofRat (sub.start / 1000)
  duration := .ofRat (sub.duration / 1000)

/-- The text of the subtitle file. -/
def subtitleFile (subtitles : List MillisSubtitle) : String :=
  generateSRTNumbers (subtitles.map MillisSubtitle.numbers)

/-- The filters of a call; there is no subtitle file without subtitles. -/
def filtersFor (subtitles : List MillisSubtitle) (subtitlePath : String) (speed : Rat) :
    List VideoFilter :=
  videoFilters (if subtitles = [] then none else some subtitlePath) (some speed)

/-! ### What should hold -/

/-- Whether a cue of the subtitle file is shown on a frame with the timestamp `pts`, in seconds. -/
def ShownOn (cue : Srt.Cue) : List VideoFilter → Rat → Prop
  | [], _ => False
  | .setpts factor :: filters, pts => ShownOn cue filters (factor * pts)
  | .subtitles _ :: filters, pts =>
    (cue.start ≤ pts * 1000 ∧ pts * 1000 < cue.stop) ∨ ShownOn cue filters pts

/-- The file is read as one cue for each subtitle, with its text, and the filters show it on the frames
of the source that lie in the interval of the subtitle and on no others. -/
def InSync (subtitles : List MillisSubtitle) (filters : List VideoFilter) : Prop :=
  ∃ cues, Srt.parse (subtitleFile subtitles).toList = some cues ∧ cues.length = subtitles.length ∧
    ∀ (index : Nat) (sub : MillisSubtitle) (cue : Srt.Cue),
      subtitles[index]? = some sub → cues[index]? = some cue →
      cue.text = sub.text.toList ∧ ∀ pts : Rat, 0 ≤ pts →
        (ShownOn cue filters pts ↔
          sub.start ≤ pts * 1000 ∧ pts * 1000 < (sub.start + sub.duration : Int))

/-- There is a time from 0 on at which the subtitle is to be shown. -/
def MillisSubtitle.Visible (sub : MillisSubtitle) : Prop :=
  0 < sub.duration ∧ 0 < sub.start + sub.duration

instance (sub : MillisSubtitle) : Decidable sub.Visible := inferInstanceAs (Decidable (_ ∧ _))

/-- The stamps of the subtitle can be read. If it is ever to be seen, their times are those of the
subtitle when they are multiplied with the speed (without a change of speed: no millisecond is lost),
and a start before the video is stamped 0; otherwise there is nothing between them. -/
def MillisSubtitle.Timed (speed : Rat) (sub : MillisSubtitle) : Prop :=
  ∃ start ∈ stampMillis sub.numbers.startTime, ∃ stop ∈ stampMillis sub.numbers.endTime,
    if sub.Visible then
      start * speed = (max sub.start 0 : Int) ∧ stop * speed = (sub.start + sub.duration : Int)
    else stop ≤ start

/-! ### Intervals -/

/-- Two intervals with the same times from 0 on. -/
theorem interval_iff {a b c d : Rat} (ha : 0 ≤ a) (hb : 0 ≤ b) :
    (∀ t : Rat, 0 ≤ t → (a ≤ t ∧ t < b ↔ c ≤ t ∧ t < d)) ↔
      if max c 0 < d then a = max c 0 ∧ b = d else b ≤ a := by
  split
  · rename_i hvisible
    constructor
    · intro h
      have hstart := (h (max c 0) (le_max_right c 0)).2 ⟨le_max_left c 0, hvisible⟩
      have hin := (h a ha).1 ⟨le_rfl, hstart.1.trans_lt hstart.2⟩
      have heq : a = max c 0 := le_antisymm hstart.1 (max_le hin.1 ha)
      refine ⟨heq, ?_⟩
      rcases lt_trichotomy b d with hlt | rfl | hgt
      · have hlast := (h b hb).2 ⟨(le_max_left c 0).trans hstart.2.le, hlt⟩
        exact absurd hlast.2 (lt_irrefl b)
      · rfl
      · have hpos : 0 ≤ d := (le_max_right c 0).trans hvisible.le
        have hlast := (h d hpos).1 ⟨heq ▸ hvisible.le, hgt⟩
        exact absurd hlast.2 (lt_irrefl d)
    · rintro ⟨rfl, rfl⟩ t ht
      rw [max_le_iff, and_iff_left ht]
  · rename_i hnever
    constructor
    · intro h
      by_contra hlt
      obtain ⟨hc, hd⟩ := (h a ha).1 ⟨le_rfl, not_le.1 hlt⟩
      exact hnever ((max_le hc ha).trans_lt hd)
    · intro hle t ht
      refine iff_of_false (fun h => ?_) fun h => hnever ((max_le h.1 ht).trans_lt h.2)
      exact absurd (h.1.trans_lt h.2) (not_lt.2 hle)

theorem visible_iff (sub : MillisSubtitle) :
    max (sub.start : Rat) 0 < (sub.start + sub.duration : Int) ↔ sub.Visible := by
  rw [max_lt_iff, MillisSubtitle.Visible]
  norm_cast
  omega

section Shown
variable {cue : Srt.Cue} {path : String} {speed : Rat}

/-- With a change of speed the cue is looked up at the time of the result. -/
theorem shownOn_videoFilters (hspeed : 0 < speed) (pts : Rat) :
    ShownOn cue (videoFilters (some path) (some speed)) pts ↔
      cue.start * speed ≤ pts * 1000 ∧ pts * 1000 < cue.stop * speed := by
  have hlookup : ShownOn cue (videoFilters (some path) (some speed)) pts ↔
      cue.start ≤ pts / speed * 1000 ∧ pts / speed * 1000 < cue.stop := by
    by_cases hone : speed = 1
    · have hfilters : videoFilters (some path) (some speed) = [.subtitles (escapedPath path)] := by
        rw [hone]
        rfl
      rw [hfilters, hone, div_one]
      simp only [ShownOn, or_false]
    · have hfilters : videoFilters (some path) (some speed) =
          [.setpts (1 / speed), .subtitles (escapedPath path)] := by
        rw [videoFilters, if_pos ⟨hspeed.ne', hone⟩]
        rfl
      have hpts : 1 / speed * pts = pts / speed := by ring
      rw [hfilters]
      simp only [ShownOn, hpts, or_false]
  have hscale : pts / speed * 1000 = pts * 1000 / speed := by ring
  rw [hlookup, hscale, le_div_iff₀ hspeed, div_lt_iff₀ hspeed]

theorem shown_iff (hspeed : 0 < speed) (sub : MillisSubtitle) :
    (∀ pts : Rat, 0 ≤ pts → (ShownOn cue (videoFilters (some path) (some speed)) pts ↔
        sub.start ≤ pts * 1000 ∧ pts * 1000 < (sub.start + sub.duration : Int))) ↔
      if sub.Visible then
        cue.start * speed = (max sub.start 0 : Int) ∧ cue.stop * speed = (sub.start + sub.duration : Int)
      else cue.stop ≤ cue.start := by
  have hmillis : (∀ pts : Rat, 0 ≤ pts → (ShownOn cue (videoFilters (some path) (some speed)) pts ↔
        sub.start ≤ pts * 1000 ∧ pts * 1000 < (sub.start + sub.duration : Int))) ↔
      ∀ t : Rat, 0 ≤ t → (cue.start * speed ≤ t ∧ t < cue.stop * speed ↔
        sub.start ≤ t ∧ t < (sub.start + sub.duration : Int)) := by
    simp only [shownOn_videoFilters hspeed]
    constructor
    · intro h t ht
      have hpts : t / 1000 * 1000 = t := div_mul_cancel₀ t (by norm_num)
      simpa only [hpts] using h (t / 1000) (by positivity)
    · intro h pts hpts
      exact h (pts * 1000) (by positivity)
  have hstop : (cue.stop : Rat) * speed ≤ cue.start * speed ↔ cue.stop ≤ cue.start := by
    rw [mul_le_mul_iff_left₀ hspeed]
    exact Nat.cast_le
  rw [hmillis, interval_iff (by positivity) (by positivity)]
  by_cases hvisible : sub.Visible
  · rw [if_pos ((visible_iff sub).2 hvisible), if_pos hvisible, Int.cast_max, Int.cast_zero]
  · rw [if_neg (mt (visible_iff sub).1 hvisible), if_neg hvisible, hstop]

end Shown

/-! ### Files -/

theorem numberCue_eq_some {index : Nat} {sub : MillisSubtitle} {cue : Srt.Cue} :
    numberCue index sub.numbers = some cue ↔
      ∃ start ∈ stampMillis sub.numbers.startTime, ∃ stop ∈ stampMillis sub.numbers.endTime,
        cue = ⟨index + 1, start, stop, sub.text.toList⟩ := by
  simp only [numberCue, Option.bind_eq_bind, Option.bind_eq_some_iff, Option.some.injEq, Option.mem_def,
    eq_comm (b := cue)]
  rfl

theorem cleanText_iff (text : String) :
    Srt.CleanText text.toList ↔ text = "" ∨
      ∀ line ∈ text.toList.splitOn '\n', line ≠ [] ∧ line.getLast? ≠ some '\r' := by
  have hempty : text = "" ↔ text.toList = [] := by
    rw [← String.toList_inj]
    rfl
  rw [hempty]
  rfl

/-- With clean texts the cues of the file are those of its subtitles. -/
theorem parse_subtitleFile {subtitles : List MillisSubtitle}
    (hclean : ∀ sub ∈ subtitles, Srt.CleanText sub.text.toList) (cues : List Srt.Cue) :
    Srt.parse (subtitleFile subtitles).toList = some cues ↔
      subtitles.mapIdx (fun index sub => numberCue index sub.numbers) = cues.map some := by
  have hclean' : ∀ sub ∈ subtitles.map MillisSubtitle.numbers, Srt.CleanText sub.text.toList := by
    intro sub hsub
    obtain ⟨millis, hmillis, rfl⟩ := List.mem_map.1 hsub
    exact hclean millis hmillis
  have hmap : (subtitles.map MillisSubtitle.numbers).mapIdx numberCue =
      subtitles.mapIdx fun index sub => numberCue index sub.numbers := by
    refine List.ext_getElem? fun i => ?_
    rw [List.getElem?_mapIdx, List.getElem?_mapIdx, List.getElem?_map, Option.map_map]
    rfl
  rw [subtitleFile, parse_generateSRTNumbers hclean', hmap]

theorem numberCue_of_mapIdx {subtitles : List MillisSubtitle} {cues : List Srt.Cue}
    (h : subtitles.mapIdx (fun index sub => numberCue index sub.numbers) = cues.map some) {index : Nat}
    {sub : MillisSubtitle} {cue : Srt.Cue} (hsub : subtitles[index]? = some sub)
    (hcue : cues[index]? = some cue) : numberCue index sub.numbers = some cue := by
  have heq := congrArg (·[index]?) h
  simpa [List.getElem?_mapIdx, hsub, hcue] using heq

/-- Where no millisecond is lost, a subtitle that is ever to be seen needs the original speed. -/
theorem timed_iff_of_exact {sub : MillisSubtitle} {start stop : Nat} {speed : Rat}
    (hstart : stampMillis sub.numbers.startTime = some start)
    (hstop : stampMillis sub.numbers.endTime = some stop) (heq : (start : Int) = sub.start)
    (heq' : (stop : Int) = sub.start + sub.duration) :
    sub.Timed speed ↔ (sub.Visible → speed = 1) := by
  have htimed : sub.Timed speed ↔ if sub.Visible then
      start * speed = (max sub.start 0 : Int) ∧ stop * speed = (sub.start + sub.duration : Int)
      else stop ≤ start := by
    simp only [MillisSubtitle.Timed, hstart, hstop, Option.mem_def, Option.some.injEq, exists_eq_left']
  have hmax : max sub.start 0 = start := by omega
  rw [htimed, hmax, ← heq', Int.cast_natCast, Int.cast_natCast]
  by_cases hvisible : sub.Visible
  · rw [if_pos hvisible, imp_iff_right hvisible]
    have hpos : (stop : Rat) ≠ 0 := by
      have hend := hvisible.2
      exact_mod_cast (by omega : stop ≠ 0)
    constructor
    · rintro ⟨-, hspeed⟩
      exact (mul_eq_left₀ hpos).1 hspeed
    · rintro rfl
      exact ⟨mul_one _, mul_one _⟩
  · rw [if_neg hvisible]
    refine iff_of_true ?_ fun h => absurd h hvisible
    unfold MillisSubtitle.Visible at hvisible
    omega

/-- A subtitle of one second. -/
def helloMillis : List MillisSubtitle := [⟨"Hello", 0, 1000⟩]

end Portfolio.VideoEditor
