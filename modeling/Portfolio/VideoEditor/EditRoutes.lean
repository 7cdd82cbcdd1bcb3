import Mathlib.Algebra.Order.Ring.Rat
import Portfolio.Lib.Paths

/-!
# The edit routes

`edit.routes.ts` and `StorageService` (`video-editor`): the checks of each route, and the call of
`FFmpegService` it ends in. The name of the file comes from the request and goes into the path as it
is. `input_inside_iff` says for which names the path still lies in the upload directory.
-/

namespace Portfolio.VideoEditor

/-! ### `StorageService` -/

structure StorageService where
  uploadDir : String
  deriving DecidableEq, Repr

namespace StorageService

/-- The constructor, in the directory `process.cwd()`. -/
def new (cwd : String) : StorageService := ⟨Path.resolve cwd "uploads"⟩

def getFilePath (storage : StorageService) (filename : String) : String :=
  Path.join storage.uploadDir filename

/-- `access` says which paths `fs.access` finds. -/
def fileExists (storage : StorageService) (access : String → Bool) (filename : String) : Bool :=
  access (storage.getFilePath filename)

theorem isAbsolute_uploadDir (cwd : String) : Path.isAbsolute (new cwd).uploadDir = true :=
  Path.isAbsolute_resolve cwd "uploads"

end StorageService

/-! ### Requests -/

structure Subtitle where
  text : String
  startTime : Rat
  duration : Rat
  deriving DecidableEq, Repr

/-- The fields of the body; for `metadata`, the parameter of the route after decoding. -/
inductive EditRequest where
  | trim (filename : Option String) (startTime endTime : Option Rat)
  | split (filename : Option String) (splitTime : Option Rat)
  | metadata (filename : String)
  | process (filename : Option String) (subtitles : Option (List Subtitle)) (speed : Option Rat)
  deriving DecidableEq, Repr

inductive FFmpegCall where
  | trimVideo (inputPath : String) (startTime endTime : Rat)
  | splitVideo (inputPath : String) (splitTime : Rat)
  | getVideoMetadata (inputPath : String)
  | addSubtitlesAndSpeed (inputPath : String) (subtitles : List Subtitle) (speed : Option Rat)
  deriving DecidableEq, Repr

def FFmpegCall.inputPath : FFmpegCall → String
  | .trimVideo inputPath _ _ | .splitVideo inputPath _ | .getVideoMetadata inputPath
  | .addSubtitlesAndSpeed inputPath _ _ => inputPath

structure ErrorResponse where
  status : Nat
  error : String
  deriving DecidableEq, Repr

/-- A name that is there and not empty. -/
def given (filename : Option String) : Option String := filename.filter (· ≠ "")

/-- The checks of a route. They end in the name of the file and in what is called with its path. -/
def EditRequest.check : EditRequest → Except ErrorResponse (String × (String → FFmpegCall))
  | .trim filename startTime endTime => match given filename, startTime, endTime with
    | some filename, some startTime, some endTime =>
      if startTime < 0 ∨ endTime ≤ startTime then
        .error ⟨400, "Invalid time range: endTime must be greater than startTime"⟩
      else .ok (filename, (.trimVideo · startTime endTime))
    | _, _, _ => .error ⟨400, "Missing required fields: filename, startTime, endTime"⟩
  | .split filename splitTime => match given filename, splitTime with
    | some filename, some splitTime =>
      if splitTime ≤ 0 then .error ⟨400, "Invalid split time: must be greater than 0"⟩
      else .ok (filename, (.splitVideo · splitTime))
    | _, _ => .error ⟨400, "Missing required fields: filename, splitTime"⟩
  | .metadata filename =>
    -- without a name the route does not match
    if filename = "" then .error ⟨404, "Cannot GET /api/edit/metadata/"⟩
    else .ok (filename, .getVideoMetadata)
  | .process filename subtitles speed => match given filename with
    | none => .error ⟨400, "Missing required field: filename"⟩
    | some filename =>
      if subtitles = none ∧ speed.all (· = 0) then
        .error ⟨400, "At least one of subtitles or speed must be provided"⟩
      else if speed.any (fun speed => speed ≠ 0 ∧ (speed < 1 / 2 ∨ 2 < speed)) then
        .error ⟨400, "Speed must be between 0.5 and 2.0"⟩
      else .ok (filename, (.addSubtitlesAndSpeed · (subtitles.getD []) speed))

def edit (storage : StorageService) (access : String → Bool) (request : EditRequest) :
    Except ErrorResponse FFmpegCall :=
  match request.check with
  | .error response => .error response
  | .ok (filename, call) =>
    let inputPath := storage.getFilePath filename
    if storage.fileExists access filename then .ok (call inputPath)
    else .error ⟨404, "Video file not found"⟩

/-! ### Where the path leads -/

theorem given_eq_some {filename : Option String} {name : String} (h : given filename = some name) :
    name ≠ "" := by
  simpa using (Option.filter_eq_some_iff.1 h).2

/-- What gets through the checks: a name that is not empty, and a call with the path as it is. -/
theorem check_ok {request : EditRequest} {filename : String} {call : String → FFmpegCall}
    (h : request.check = .ok (filename, call)) :
    filename ≠ "" ∧ ∀ path, (call path).inputPath = path := by
  cases request with
  | trim name startTime endTime =>
    simp only [EditRequest.check] at h
    split at h
    · rename_i hname
      split at h
      · cases h
      · obtain ⟨rfl, rfl⟩ := Prod.mk.inj (Except.ok.inj h)
        exact ⟨given_eq_some hname, fun _ => rfl⟩
    · cases h
  | split name splitTime =>
    simp only [EditRequest.check] at h
    split at h
    · rename_i hname
      split at h
      · cases h
      · obtain ⟨rfl, rfl⟩ := Prod.mk.inj (Except.ok.inj h)
        exact ⟨given_eq_some hname, fun _ => rfl⟩
    · cases h
  | metadata name =>
    simp only [EditRequest.check] at h
    split at h
    · cases h
    · rename_i hname
      obtain ⟨rfl, rfl⟩ := Prod.mk.inj (Except.ok.inj h)
      exact ⟨hname, fun _ => rfl⟩
  | process name subtitles speed =>
    simp only [EditRequest.check] at h
    split at h
    · cases h
    · rename_i hname
      split at h
      · cases h
      · split at h
        · cases h
        · obtain ⟨rfl, rfl⟩ := Prod.mk.inj (Except.ok.inj h)
          exact ⟨given_eq_some hname, fun _ => rfl⟩

/-- Whatever files there are, the path lies in the upload directory exactly if the name, followed
from there, comes back into it. -/
theorem input_inside_iff (cwd : String) (request : EditRequest) :
    (∀ access call, edit (.new cwd) access request = .ok call →
      Path.StrictlyInside (StorageService.new cwd).uploadDir call.inputPath) ↔
    ∀ filename call, request.check = .ok (filename, call) →
      Path.StaysInside (StorageService.new cwd).uploadDir filename := by
  have hdir := StorageService.isAbsolute_uploadDir cwd
  constructor
  · intro h filename call hcheck
    obtain ⟨hname, hpath⟩ := check_ok hcheck
    have hedit : edit (.new cwd) (fun _ => true) request =
        .ok (call ((StorageService.new cwd).getFilePath filename)) := by
      simp [edit, hcheck, StorageService.fileExists]
    have hinside := h _ _ hedit
    rw [hpath] at hinside
    exact (Path.strictlyInside_join_iff hdir hname).1 hinside
  · intro h access call hedit
    unfold edit at hedit
    split at hedit
    · cases hedit
    · rename_i filename call' hcheck
      obtain ⟨hname, hpath⟩ := check_ok hcheck
      dsimp only at hedit
      split at hedit
      · obtain rfl := Except.ok.inj hedit
        rw [hpath]
        exact (Path.strictlyInside_join_iff hdir hname).2 (h filename call' hcheck)
      · cases hedit

/-- A file beside the upload directory. -/
theorem input_outside :
    ¬ ∀ (cwd : String) (access : String → Bool) (request : EditRequest) (call : FFmpegCall),
      edit (.new cwd) access request = .ok call →
        Path.StrictlyInside (StorageService.new cwd).uploadDir call.inputPath := by
  intro h
  have := h "/app" (· = "/app/package.json") (.trim (some "../package.json") (some 0) (some 1))
    (.trimVideo "/app/package.json" 0 1) (by decide +kernel)
  revert this
  decide +kernel

end Portfolio.VideoEditor
