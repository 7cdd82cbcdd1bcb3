import Portfolio.Lib.Interleaving

/-!
# The frame pool of the thumbnail extractor

`AVFramePool` and `ThumbnailExtractor::extract_thumbnail` (`video-editor/native`), in any number of
calls at the same time. What the FFmpeg libraries answer is an argument of each step. An `AVFrame` is
the number of its allocation; a frame whose owner goes out of scope is freed, which leaves no trace
in the pool.
-/

namespace Portfolio.VideoEditor

/-! ### `AVFramePool` -/

abbrev AVFrame := Nat

structure AVFramePool where
  availableFrames : List AVFrame := []
  totalAllocated : Nat := 0
  deriving DecidableEq, Repr

structure AVFramePool.Stats where
  totalAllocated : Nat
  available : Nat
  inUse : Nat
  deriving DecidableEq, Repr

namespace AVFramePool

/-- One round of the constructor's loop. -/
def preallocate (pool : AVFramePool) : Option AVFrame → AVFramePool
  | none => pool
  | some frame => ⟨pool.availableFrames ++ [frame], pool.totalAllocated + 1⟩

/-- The constructor; `alloc i` is the `i`-th result of `av_frame_alloc`. -/
def new (initialSize : Nat) (alloc : Nat → Option AVFrame) : AVFramePool :=
  (List.range initialSize).foldl (fun pool i => pool.preallocate (alloc i)) {}

/-- `alloc` is the result of `av_frame_alloc`, should it be called. -/
def acquire (pool : AVFramePool) (alloc : Option AVFrame) : AVFramePool × Option AVFrame :=
  match pool.availableFrames.getLast? with
  | none => match alloc with
    | none => (pool, none)
    | some frame => ({ pool with totalAllocated := pool.totalAllocated + 1 }, some frame)
  | some frame => ({ pool with availableFrames := pool.availableFrames.dropLast }, some frame)

def release (pool : AVFramePool) (frame : AVFrame) : AVFramePool :=
  { pool with availableFrames := pool.availableFrames ++ [frame] }

def getStats (pool : AVFramePool) : Stats where
  totalAllocated := pool.totalAllocated
  available := pool.availableFrames.length
  inUse := pool.totalAllocated - pool.availableFrames.length

end AVFramePool

/-! ### `ThumbnailExtractor` -/

structure ThumbnailExtractor where
  framePool : AVFramePool
  totalExtractions : Nat := 0
  cacheMisses : Nat := 0
  deriving DecidableEq, Repr

def ThumbnailExtractor.new (alloc : Nat → Option AVFrame) : ThumbnailExtractor where
  framePool := .new 10 alloc

/-- The checks of `open_video`. -/
inductive OpenFailure where
  | openInput
  | streamInfo
  | noVideoStream
  | unsupportedCodec
  | allocateCodecContext
  | copyParameters
  | openCodec
  deriving DecidableEq, Repr

def OpenFailure.what (videoPath : String) : OpenFailure → String
  | .openInput => "Failed to open video file: " ++ videoPath
  | .streamInfo => "Failed to find stream information"
  | .noVideoStream => "No video stream found"
  | .unsupportedCodec => "Unsupported codec"
  | .allocateCodecContext => "Failed to allocate codec context"
  | .copyParameters => "Failed to copy codec parameters"
  | .openCodec => "Failed to open codec"

/-- The checks of `frame_to_jpeg`. -/
inductive ConvertFailure where
  | scalingContext
  | allocateFrame
  | allocateBuffer
  deriving DecidableEq, Repr

def ConvertFailure.what : ConvertFailure → String
  | .scalingContext => "Failed to create scaling context"
  | .allocateFrame => "Failed to allocate RGB frame"
  | .allocateBuffer => "Failed to allocate RGB frame buffer"

/-- A packet that `av_read_frame` gives: whether it is of the video stream, and the results of
`avcodec_send_packet` and `avcodec_receive_frame` for it. -/
structure Packet where
  isVideo : Bool := true
  sent : Int := 0
  received : Int := 0
  deriving DecidableEq, Repr

/-- The loop of `seek_and_decode`, up to the end of the packets: `found_frame`. -/
def foundFrame : List Packet → Bool
  | [] => false
  | packet :: packets =>
    if packet.isVideo then
      if packet.sent < 0 then foundFrame packets
      else if packet.received = 0 then true
      else foundFrame packets
    else foundFrame packets

/-- What the libraries answer in a step. -/
structure Media where
  openFailure : Option OpenFailure := none
  sought : Bool := true
  packetAllocated : Bool := true
  alloc : Option AVFrame := none
  packets : List Packet := [{}]
  convertFailure : Option ConvertFailure := none
  /-- whether `push_back` of `release` gets its memory -/
  stored : Bool := true
  deriving DecidableEq, Repr

/-- A call of `extract_thumbnail`, before each of its steps. `failing` and `succeeding` are before the
update of the statistics. -/
inductive Extraction where
  | opening (videoPath : String)
  | seeking
  | acquiring
  | decoding (frame : AVFrame)
  | converting (frame : AVFrame)
  | releasing (frame : AVFrame)
  | failing (what : String)
  | succeeding
  | threw (what : String)
  | returned
  deriving DecidableEq, Repr

namespace Extraction

def next (media : Media) (x : ThumbnailExtractor) : Extraction → ThumbnailExtractor × Extraction
  | opening videoPath => match media.openFailure with
    | some failure => (x, failing (failure.what videoPath))
    | none => (x, seeking)
  | seeking =>
    if !media.sought then (x, failing "Failed to seek to timestamp")
    else if !media.packetAllocated then (x, failing "Failed to allocate packet")
    else (x, acquiring)
  | acquiring =>
    let r := x.framePool.acquire media.alloc
    match r.2 with
    | none => ({ x with framePool := r.1 }, failing "Failed to allocate frame")
    | some frame => ({ x with framePool := r.1 }, decoding frame)
  | decoding frame =>
    if foundFrame media.packets then (x, converting frame)
    else (x, failing "Failed to decode frame at timestamp")
  | converting frame => match media.convertFailure with
    | some failure => (x, failing failure.what)
    | none => (x, releasing frame)
  | releasing frame =>
    if media.stored then ({ x with framePool := x.framePool.release frame }, succeeding)
    else (x, failing "std::bad_alloc")
  | failing what => ({ x with totalExtractions := x.totalExtractions + 1 }, threw what)
  | succeeding =>
    ({ x with totalExtractions := x.totalExtractions + 1, cacheMisses := x.cacheMisses + 1 }, returned)
  | threw what => (x, threw what)
  | returned => (x, returned)

end Extraction

def extractions : Protocol ThumbnailExtractor String Extraction Media where
  start := .opening
  next := Extraction.next

/-- An extractor whose pool has been filled from `alloc`, and any number of calls. -/
def extractorMachine (alloc : Nat → Option AVFrame) :
    Machine (Threads ThumbnailExtractor Extraction) (Sched String Media) Unit :=
  extractions.machine (.new alloc)

end Portfolio.VideoEditor
