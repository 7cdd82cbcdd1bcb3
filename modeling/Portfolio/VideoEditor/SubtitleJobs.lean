import Portfolio.Lib.Interleaving
import Portfolio.Lib.SerialId
import Portfolio.Lib.Text
import Portfolio.VideoEditor.EditRoutes

/-!
# Subtitle jobs

`FFmpegService.addSubtitlesAndSpeed` (`video-editor`), in any number of calls at the same time. The
subtitles go into a temporary file, `ffmpeg` reads it, and it is removed at the end. Its name has
only the millisecond in which the call was made: two calls of one millisecond share the file, and
`own_subtitles_of_apart` shows that this is all that can go wrong.
-/

namespace Portfolio.VideoEditor

/-! ### `generateSRT` -/

/-- The operator `%`, whose result has the sign of the dividend. -/
def rem (a b : Rat) : Rat := a - b * (if 0 ≤ a / b then (a / b).floor else (a / b).ceil)

def padStart (width : Nat) (text : String) : String :=
  String.ofList (List.replicate (width - text.length) '0') ++ text

def formatSRTTime (seconds : Rat) : String :=
  let hours := (seconds / 3600).floor
  let minutes := (rem seconds 3600 / 60).floor
  let secs := (rem seconds 60).floor
  let millis := (rem seconds 1 * 1000).floor
  padStart 2 (toString hours) ++ ":" ++ padStart 2 (toString minutes) ++ ":" ++
    padStart 2 (toString secs) ++ "," ++ padStart 3 (toString millis)

def generateSRT (subtitles : List Subtitle) : String :=
  "\n".intercalate (subtitles.mapIdx fun index sub =>
    toString (index + 1) ++ "\n" ++ formatSRTTime sub.startTime ++ " --> " ++
      formatSRTTime (sub.startTime + sub.duration) ++ "\n" ++ sub.text ++ "\n")

/-! ### Jobs -/

/-- The files of the upload directory. -/
abbrev Files := String → Option String

/-- A call, after each of its steps. `now` is the `Date.now()` in the name of its subtitle file, if
it has one; `read` is what `ffmpeg` has found under that name, if it got so far. -/
inductive Job where
  | called (subtitles : List Subtitle)
  | writing (subtitles : List Subtitle) (now : Nat)
  | running (subtitles : List Subtitle) (now : Option Nat)
  | ended (subtitles : List Subtitle) (now : Option Nat) (read : Option (Option String))
  | returned (subtitles : List Subtitle) (read : Option (Option String))
  deriving DecidableEq, Repr

/-- The time at a step, and whether what the step does fails. -/
structure JobChoice where
  now : Nat := 0
  fails : Bool := false
  deriving DecidableEq, Repr

def tempName (now : Nat) : String := "temp-" ++ toString now ++ ".srt"

section Steps
variable (storage : StorageService)

def subtitlePath (now : Nat) : String := storage.getFilePath (tempName now)

def jobNext (choice : JobChoice) (files : Files) : Job → Files × Job
  | .called subtitles =>
    if subtitles = [] then (files, .running subtitles none)
    else (files, .writing subtitles choice.now)
  | .writing subtitles now =>
    -- an exception of `writeFile` ends the call
    if choice.fails then (files, .returned subtitles none)
    else (Function.update files (subtitlePath storage now) (some (generateSRT subtitles)),
      .running subtitles (some now))
  | .running subtitles now =>
    -- `ffmpeg` can fail before it gets to the subtitles
    if choice.fails then (files, .ended subtitles now none)
    else (files, .ended subtitles now (now.map fun now => files (subtitlePath storage now)))
  | .ended subtitles now read =>
    match now with
    | some now =>
      if choice.fails then (files, .returned subtitles read)
      else (Function.update files (subtitlePath storage now) none, .returned subtitles read)
    | none => (files, .returned subtitles read)
  | .returned subtitles read => (files, .returned subtitles read)

def jobs : Protocol Files (List Subtitle) Job JobChoice where
  start subtitles := .called subtitles
  next := jobNext storage

/-- The server that runs in `cwd`. -/
def jobMachine (cwd : String) (files : Files) :
    Machine (Threads Files Job) (Sched (List Subtitle) JobChoice) Unit :=
  (jobs (.new cwd)).machine files

end Steps

/-! ### What is asked of them -/

namespace Job

def subtitles : Job → List Subtitle
  | .called subtitles | .writing subtitles _ | .running subtitles _ | .ended subtitles _ _
  | .returned subtitles _ => subtitles

def read : Job → Option (Option String)
  | .ended _ _ read | .returned _ read => read
  | _ => none

/-- The millisecond of the subtitle file, until the file has been removed. -/
def millisecond : Job → Option Nat
  | .writing _ now => some now
  | .running _ now | .ended _ now _ => now
  | _ => none

end Job

/-- Each `ffmpeg` has read the subtitles of its own call. -/
def OwnSubtitles (s : Threads Files Job) : Prop :=
  ∀ job ∈ s.calls, ∀ text, job.read = some text → text = some (generateSRT job.subtitles)

/-- A call with subtitles is not made in a millisecond whose file another call still uses. -/
def ApartInTime (s : Threads Files Job) (job : Job) (choice : JobChoice) : Prop :=
  match job with
  | .called subtitles => subtitles = [] ∨ ∀ other ∈ s.calls, other.millisecond ≠ some choice.now
  | _ => True

instance (s : Threads Files Job) (choice : JobChoice) : ∀ job, Decidable (ApartInTime s job choice)
  | .called subtitles =>
    inferInstanceAs
      (Decidable (subtitles = [] ∨ ∀ other ∈ s.calls, other.millisecond ≠ some choice.now))
  | .writing .. | .running .. | .ended .. | .returned .. => isTrue trivial

/-! ### Names of subtitle files -/

theorem noSlash_toString (n : Nat) : '/' ∉ (toString n).toList := by
  intro h
  have h : '/' ∈ Nat.toDigits 10 n := by
    rw [← Nat.toList_repr]
    exact h
  exact absurd (isDigit_toDigits h) (by decide)

theorem isName_tempName (now : Nat) : Path.IsName (tempName now) := by
  have htext : (tempName now).toList = "temp-".toList ++ (toString now).toList ++
    ".srt".toList := by
    simp only [tempName, String.toList_append]
  have hne : ∀ text : String, text.toList.length < 5 → tempName now ≠ text := by
    rintro text hlen rfl
    rw [htext] at hlen
    simp at hlen
    omega
  refine ⟨hne _ (by decide), hne _ (by decide), hne _ (by decide), ?_⟩
  rw [htext]
  simp only [List.mem_append, not_or]
  exact ⟨⟨by decide, noSlash_toString now⟩, by decide⟩

/-- Files of different milliseconds are different. -/
theorem subtitlePath_inj {cwd : String} {now now' : Nat}
    (h : subtitlePath (.new cwd) now = subtitlePath (.new cwd) now') : now = now' := by
  have hdir := StorageService.isAbsolute_uploadDir cwd
  have hnames : ∀ n, Path.names (subtitlePath (.new cwd) n) =
      Path.names (StorageService.new cwd).uploadDir ++ [tempName n] := by
    intro n
    rw [subtitlePath, StorageService.getFilePath,
      Path.names_join_of_isName hdir (isName_tempName n)]
  have heq := hnames now
  rw [h, hnames now', List.append_right_inj, List.singleton_inj] at heq
  rw [tempName, tempName, String.append_left_inj] at heq
  exact (append_toString_inj heq).symm

/-! ### Steps -/

def Job.uses (now : Nat) (job : Job) : Nat := if job.millisecond = some now then 1 else 0

/-- No file is used twice, and what `ffmpeg` is about to read is what its call has written. -/
structure JobInv (cwd : String) (s : Threads Files Job) : Prop where
  apart : ∀ now, (s.calls.map (Job.uses now)).sum ≤ 1
  written : ∀ subtitles now, .running subtitles (some now) ∈ s.calls →
    s.shared (subtitlePath (.new cwd) now) = some (generateSRT subtitles)
  own : OwnSubtitles s

namespace JobInv
variable {cwd : String} {s : Threads Files Job} {i : Nat} {job job' : Job} {files' : Files}

/-- A step that changes no file but that of its job. -/
theorem set (h : JobInv cwd s) (hi : s.calls[i]? = some job)
    (huses : ∀ now, job'.millisecond = some now →
      job.millisecond = some now ∨ ∀ other ∈ s.calls, other.millisecond ≠ some now)
    (hfiles : ∀ now, job.millisecond ≠ some now →
      files' (subtitlePath (.new cwd) now) = s.shared (subtitlePath (.new cwd) now))
    (hwritten : ∀ subtitles now, job' = .running subtitles (some now) →
      files' (subtitlePath (.new cwd) now) = some (generateSRT subtitles))
    (hown : ∀ text, job'.read = some text → text = some (generateSRT job'.subtitles)) :
    JobInv cwd ⟨files', s.calls.set i job'⟩ := by
  refine ⟨fun now => ?_, fun subtitles now hmem => ?_, fun other hother text hread => ?_⟩
  · exact sum_map_set_le_one (P := fun j : Job => j.millisecond = some now) hi (h.apart now)
      (huses now)
  · rcases exists_of_mem_set hmem with heq | ⟨j, hj, hother⟩
    · exact hwritten subtitles now heq.symm
    · -- the file of another job is not touched
      show files' _ = _
      rw [hfiles now, h.written subtitles now (List.mem_of_getElem? hother)]
      intro hnow
      exact hj (eq_of_sum_map_le_one (Job.uses now) (h.apart now) hother hi
        (by simp [Job.uses, Job.millisecond]) (by simp [Job.uses, hnow]))
  · rcases exists_of_mem_set hother with rfl | ⟨j, -, hj⟩
    · exact hown text hread
    · exact h.own other (List.mem_of_getElem? hj) text hread

theorem step (h : JobInv cwd s) (hi : s.calls[i]? = some job) {choice : JobChoice}
    (hapart : ApartInTime s job choice) :
    JobInv cwd ⟨(jobNext (.new cwd) choice s.shared job).1,
      s.calls.set i (jobNext (.new cwd) choice s.shared job).2⟩ := by
  have hupdate : ∀ now text now', some now ≠ some now' →
      Function.update s.shared (subtitlePath (.new cwd) now) text (subtitlePath (.new cwd) now') =
        s.shared (subtitlePath (.new cwd) now') := by
    intro now text now' hne
    refine Function.update_of_ne (fun heq => hne ?_) ..
    rw [subtitlePath_inj heq]
  have hmem := List.mem_of_getElem? hi
  cases job with
  | called subtitles =>
    by_cases hnone : subtitles = []
    · simp only [jobNext, hnone, if_true]
      exact h.set hi (fun _ => nofun) (fun _ _ => rfl) (fun _ _ => nofun) (fun _ => nofun)
    · simp only [jobNext, hnone, if_false]
      refine h.set hi (fun now hnow => .inr ?_) (fun _ _ => rfl) (fun _ _ => nofun) (fun _ => nofun)
      obtain rfl := Option.some.inj hnow
      exact hapart.resolve_left hnone
  | writing subtitles now =>
    cases hfails : choice.fails with
    | true =>
      simp only [jobNext, hfails, if_true]
      exact h.set hi (fun _ => nofun) (fun _ _ => rfl) (fun _ _ => nofun) (fun _ => nofun)
    | false =>
      simp only [jobNext, hfails, Bool.false_eq_true, if_false]
      refine h.set hi (fun _ hnow => .inl hnow) (hupdate now _) (fun subtitles' now' heq => ?_)
        (fun _ => nofun)
      obtain ⟨rfl, hnow⟩ := Job.running.inj heq
      obtain rfl := Option.some.inj hnow
      exact Function.update_self ..
  | running subtitles now =>
    cases hfails : choice.fails with
    | true =>
      simp only [jobNext, hfails, if_true]
      exact h.set hi (fun _ hnow => .inl hnow) (fun _ _ => rfl) (fun _ _ => nofun) (fun _ => nofun)
    | false =>
      simp only [jobNext, hfails, Bool.false_eq_true, if_false]
      refine h.set hi (fun _ hnow => .inl hnow) (fun _ _ => rfl) (fun _ _ => nofun)
        (fun text hread => ?_)
      obtain ⟨now', rfl, rfl⟩ := Option.map_eq_some_iff.1 hread
      exact h.written subtitles now' hmem
  | ended subtitles now read =>
    have hown : ∀ text, read = some text → text = some (generateSRT subtitles) :=
      h.own (.ended subtitles now read) hmem
    cases now with
    | none => exact h.set hi (fun _ => nofun) (fun _ _ => rfl) (fun _ _ => nofun) hown
    | some now =>
      cases hfails : choice.fails with
      | true =>
        simp only [jobNext, hfails, if_true]
        exact h.set hi (fun _ => nofun) (fun _ _ => rfl) (fun _ _ => nofun) hown
      | false =>
        simp only [jobNext, hfails, Bool.false_eq_true, if_false]
        exact h.set hi (fun _ => nofun) (hupdate now _) (fun _ _ => nofun) hown
  | returned subtitles read =>
    exact h.set hi (fun _ => nofun) (fun _ _ => rfl) (fun _ _ => nofun)
      (h.own (.returned subtitles read) hmem)

end JobInv

/-! ### Runs -/

theorem own_subtitles_of_apart (cwd : String) (files : Files)
    (acts : List (Sched (List Subtitle) JobChoice))
    (h : (jobMachine cwd files).Along (OfCall ApartInTime) acts) :
    OwnSubtitles ((jobMachine cwd files).run acts).1 := by
  refine ((jobs (.new cwd)).machine_inv (G := ApartInTime) (I := JobInv cwd) ?_
    (fun s subtitles hs => ?_)
    (fun s i job choice hs hi hapart => hs.step hi hapart) acts h).own
  · exact ⟨fun _ => Nat.zero_le 1, fun _ _ hmem => absurd hmem List.not_mem_nil,
      fun _ hmem => absurd hmem List.not_mem_nil⟩
  · refine ⟨fun now => ?_, fun subtitles' now hmem => ?_, fun job hjob text hread => ?_⟩
    · rw [sum_map_concat]
      exact hs.apart now
    · rcases List.mem_append.1 hmem with hold | hnew
      · exact hs.written subtitles' now hold
      · cases List.mem_singleton.1 hnew
    · rcases List.mem_append.1 hjob with hold | hnew
      · exact hs.own job hold text hread
      · obtain rfl := List.mem_singleton.1 hnew
        cases hread

def hello : List Subtitle := [⟨"Hello", 0, 1⟩]

def world : List Subtitle := [⟨"World", 0, 1⟩]

/-- Two jobs at the same time, made in different milliseconds. -/
def inTurn : List (Sched (List Subtitle) JobChoice) :=
  [.call hello, .step 0 { now := 5 }, .call world, .step 1 { now := 6 }, .step 0 {}, .step 1 {},
   .step 0 {}, .step 0 {}, .step 1 {}, .step 1 {}]

theorem inTurn_own_subtitles :
    (jobMachine "/app" fun _ => none).Along (OfCall ApartInTime) inTurn ∧
      OwnSubtitles ((jobMachine "/app" fun _ => none).run inTurn).1 := by
  have h : (jobMachine "/app" fun _ => none).Along (OfCall ApartInTime) inTurn := by
    rw [Machine.along_iff_forall_lt]
    decide +kernel
  exact ⟨h, own_subtitles_of_apart "/app" (fun _ => none) inTurn h⟩

/-- Two jobs of one millisecond: the second one writes before `ffmpeg` reads for the first one. -/
def sameMillisecond : List (Sched (List Subtitle) JobChoice) :=
  [.call hello, .step 0 { now := 5 }, .call world, .step 1 { now := 5 }, .step 0 {}, .step 1 {},
   .step 0 {}]

theorem subtitles_mixed :
    ¬ ∀ (cwd : String) (files : Files) (acts : List (Sched (List Subtitle) JobChoice)),
      OwnSubtitles ((jobMachine cwd files).run acts).1 := by
  intro h
  have := h "/app" (fun _ => none) sameMillisecond
    (.ended hello (some 5) (some (some (generateSRT world)))) (by decide +kernel) _ rfl
  revert this
  decide +kernel

end Portfolio.VideoEditor
