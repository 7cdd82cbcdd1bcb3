import Mathlib.Algebra.Order.Field.Rat
import Mathlib.Tactic.Ring
import Portfolio.Lib.ReorderBuffer
import Portfolio.Lib.Strided
import Portfolio.VideoEditor.FramePool

/-!
# Which frame a thumbnail shows, and how it is stored

`seek_and_decode` and `frame_to_jpeg` of `ThumbnailExtractor` (`video-editor/native`), whose failures
to allocate are in `FramePool`. A decoder is a reorder buffer that holds back `delay` frames.

The loop of `seek_and_decode` ends at the first frame that the decoder gives out, which is the least
one after the key frame and not the one that is asked for (`seekAndDecode_first_iff`). The bytes of
`frame_to_jpeg` have the padding of the rows of the scaled frame in them (`frameToJpeg_layout_iff`).
-/

namespace Portfolio.VideoEditor
open ReorderBuffer

/-- A decoded `AVFrame`. -/
structure VideoFrame where
  pts : Int
  width : Nat
  height : Nat
  width_pos : 0 < width
  height_pos : 0 < height
  deriving DecidableEq, Repr

/-- A packet of a file, with the frame that the decoder makes of it if it is one of the video. -/
structure AVPacket where
  streamIndex : Nat
  keyframe : Bool
  frame : VideoFrame
  deriving DecidableEq, Repr

/-- An open video, a `VideoContext` with what the libraries find in the file. -/
structure VideoContext where
  videoStreamIndex : Nat
  /-- in seconds -/
  timeBase : ℚ
  timeBase_pos : 0 < timeBase
  /-- the packets of all streams, in the order of the file -/
  packets : List AVPacket
  /-- the number of frames that the decoder holds back -/
  delay : Nat

namespace VideoContext
variable (ctx : VideoContext)

/-! ### `seek_and_decode` -/

/-- The cast to `int64_t` drops what is after the point. -/
def seekTarget (timestampSec : ℚ) : Int :=
  (timestampSec / ctx.timeBase).num.tdiv (timestampSec / ctx.timeBase).den

/-- `av_seek_frame` with `AVSEEK_FLAG_BACKWARD`: the packets from the last key frame on that is not
after `target`. -/
def seekFrame (target : Int) : List AVPacket → Option (List AVPacket)
  | [] => none
  | packet :: packets =>
    match seekFrame target packets with
    | some rest => some rest
    | none =>
      if packet.streamIndex = ctx.videoStreamIndex ∧ packet.keyframe ∧ packet.frame.pts ≤ target then
        some (packet :: packets)
      else none

/-- The loop over the packets; `pending` is what the decoder holds back. -/
def readFrames : List VideoFrame → List AVPacket → Option VideoFrame
  | _, [] => none
  | pending, packet :: packets =>
    if packet.streamIndex = ctx.videoStreamIndex then
      match receive ctx.delay (send VideoFrame.pts pending packet.frame) with
      | (_, some frame) => some frame
      | (pending, none) => readFrames pending packets
    else readFrames pending packets

def seekAndDecode (timestampSec : ℚ) : Except String VideoFrame :=
  match ctx.seekFrame (ctx.seekTarget timestampSec) ctx.packets with
  | none => .error "Failed to seek to timestamp"
  | some packets =>
    -- `avcodec_flush_buffers` leaves nothing in the decoder
    match ctx.readFrames [] packets with
    | none => .error "Failed to decode frame at timestamp"
    | some frame => .ok frame

/-- The frames of the video among `packets`, in the order in which the decoder gets them. -/
def frames (packets : List AVPacket) : List VideoFrame :=
  (packets.filter fun packet => packet.streamIndex = ctx.videoStreamIndex).map AVPacket.frame

/-- The first frame of the video that is not before `target`. -/
structure IsFirstFrom (target : Int) (frame : VideoFrame) : Prop where
  mem : frame ∈ ctx.frames ctx.packets
  le : target ≤ frame.pts
  first : ∀ other ∈ ctx.frames ctx.packets, target ≤ other.pts → frame.pts ≤ other.pts

variable {ctx}

theorem frames_cons_of_eq {packet : AVPacket} {packets : List AVPacket}
    (h : packet.streamIndex = ctx.videoStreamIndex) :
    ctx.frames (packet :: packets) = packet.frame :: ctx.frames packets := by
  rw [frames, List.filter_cons_of_pos (by simpa using h)]
  rfl

theorem frames_cons_of_ne {packet : AVPacket} {packets : List AVPacket}
    (h : packet.streamIndex ≠ ctx.videoStreamIndex) :
    ctx.frames (packet :: packets) = ctx.frames packets := by
  rw [frames, List.filter_cons_of_neg (by simpa using h)]
  rfl

/-- Where `av_seek_frame` goes, there is a key frame of the video that is not after the target. -/
theorem seekFrame_eq_some {target : Int} {packets rest : List AVPacket}
    (h : ctx.seekFrame target packets = some rest) :
    rest <:+ packets ∧ ∃ key after, rest = key :: after ∧
      key.streamIndex = ctx.videoStreamIndex ∧ key.keyframe ∧ key.frame.pts ≤ target := by
  induction packets with
  | nil => cases h
  | cons packet packets ih =>
    rw [seekFrame] at h
    cases hseek : ctx.seekFrame target packets with
    | some rest' =>
      rw [hseek] at h
      obtain rfl := Option.some.inj h
      obtain ⟨hsuffix, hkey⟩ := ih hseek
      exact ⟨hsuffix.trans (List.suffix_cons packet packets), hkey⟩
    | none =>
      simp only [hseek] at h
      split at h
      · rename_i hpacket
        obtain rfl := Option.some.inj h
        exact ⟨List.suffix_rfl, packet, packets, rfl, hpacket⟩
      · cases h

theorem mem_frames_of_suffix {packets rest : List AVPacket} (h : rest <:+ packets)
    {frame : VideoFrame} (hmem : frame ∈ ctx.frames rest) : frame ∈ ctx.frames packets :=
  ((h.sublist.filter _).map AVPacket.frame).subset hmem

/-- The loop ends at the first frame that leaves the decoder. -/
theorem readFrames_eq (pending : List VideoFrame) (packets : List AVPacket) :
    ctx.readFrames pending packets =
      (outputs VideoFrame.pts ctx.delay pending (ctx.frames packets)).head? := by
  induction packets generalizing pending with
  | nil => rfl
  | cons packet packets ih =>
    rw [readFrames]
    by_cases hvideo : packet.streamIndex = ctx.videoStreamIndex
    · rw [if_pos hvideo, frames_cons_of_eq hvideo, outputs]
      cases hreceive : receive ctx.delay (send VideoFrame.pts pending packet.frame) with
      | mk pending' frame =>
        cases frame with
        | some frame => rfl
        | none => exact ih pending'
    · rw [if_neg hvideo, frames_cons_of_ne hvideo]
      exact ih pending

/-- On a stream that its delay is made for, the decoder gives out the frames in order. -/
theorem pairwise_outputs_frames {packets : List AVPacket}
    (h : Bounded VideoFrame.pts ctx.delay [] (ctx.frames packets)) :
    (outputs VideoFrame.pts ctx.delay [] (ctx.frames packets)).Pairwise (Before VideoFrame.pts) :=
  pairwise_outputs VideoFrame.pts ctx.delay .nil (Nat.zero_le ctx.delay) h

/-! ### The frame that is asked for -/

def twoPixels (pts : Int) : VideoFrame := ⟨pts, 2, 1, Nat.zero_lt_succ 1, Nat.zero_lt_succ 0⟩

/-- One frame a second, and one key frame. -/
def threeFrames : VideoContext where
  videoStreamIndex := 0
  timeBase := 1
  timeBase_pos := one_pos
  packets := [⟨0, true, twoPixels 0⟩, ⟨0, false, twoPixels 1⟩, ⟨0, false, twoPixels 2⟩]
  delay := 0

/-- What the loop of `FramePool` is told about the packets. -/
def answers : List VideoFrame → List AVPacket → List Packet
  | _, [] => []
  | pending, packet :: packets =>
    if packet.streamIndex = ctx.videoStreamIndex then
      match receive ctx.delay (send VideoFrame.pts pending packet.frame) with
      | (pending, some _) => {} :: answers pending packets
      -- `AVERROR(EAGAIN)`
      | (pending, none) => { received := -11 } :: answers pending packets
    else { isVideo := false } :: answers pending packets

/-- `found_frame` is true if there is a frame. -/
theorem foundFrame_answers (pending : List VideoFrame) (packets : List AVPacket) :
    foundFrame (ctx.answers pending packets) = (ctx.readFrames pending packets).isSome := by
  induction packets generalizing pending with
  | nil => rfl
  | cons packet packets ih =>
    rw [answers, readFrames]
    split
    · cases hreceive : receive ctx.delay (send VideoFrame.pts pending packet.frame) with
      | mk pending' frame =>
        cases frame with
        | some frame => rfl
        | none => exact ih pending'
    · exact ih pending

end VideoContext

/-! ### `frame_to_jpeg` -/

/-- What the libraries answer in `frame_to_jpeg`: `image x y c` is the byte of colour `c` of a pixel
of the scaled frame, `padding y i` the byte that lies `i` bytes after the start of row `y`. -/
structure Scaling where
  failure : Option ConvertFailure := none
  image : Nat → Nat → Nat → UInt8
  padding : Nat → Nat → UInt8

/-- `out_width` and `out_height` -/
def outSize (target : Int) (size : Nat) : Nat := if 0 < target then target.toNat else size

/-- The rows of the scaled frame, which `av_frame_get_buffer` has aligned to 32 bytes. -/
def rgbFrame (scaling : Scaling) (outWidth outHeight : Nat) : Plane UInt8 where
  width := 3 * outWidth
  pitch := roundUp 32 (3 * outWidth)
  rows := outHeight
  cell y i := if i < 3 * outWidth then scaling.image (i / 3) y (i % 3) else scaling.padding y i
  width_le := le_roundUp (Nat.zero_lt_succ 31)

def frameToJpeg (scaling : Scaling) (frame : VideoFrame) (targetWidth targetHeight : Int) :
    Except String (List UInt8) :=
  match scaling.failure with
  | some failure => .error failure.what
  | none =>
    .ok (rgbFrame scaling (outSize targetWidth frame.width) (outSize targetHeight frame.height)).toList

/-- Three bytes for each pixel, row by row and with nothing between the rows. -/
structure PixelLayout (image : Nat → Nat → Nat → UInt8) (width height : Nat) (bytes : List UInt8) :
    Prop where
  size : bytes.length = 3 * width * height
  pixel : ∀ x < width, ∀ y < height, ∀ c < 3, bytes[3 * (y * width + x) + c]? = some (image x y c)

theorem outSize_pos {target : Int} {size : Nat} (h : 0 < size) : 0 < outSize target size := by
  rw [outSize]
  split <;> omega

theorem PixelLayout.of_packed {scaling : Scaling} {width height : Nat} {bytes : List UInt8}
    (h : Packed (rgbFrame scaling width height).cell (3 * width) height bytes) :
    PixelLayout scaling.image width height bytes := by
  refine ⟨h.length, fun x hx y hy c hc => ?_⟩
  have hlt : 3 * x + c < 3 * width := by omega
  have hindex : 3 * (y * width + x) + c = y * (3 * width) + (3 * x + c) := by ring
  have hcell : (rgbFrame scaling width height).cell y (3 * x + c) = scaling.image x y c := by
    have hdiv : (3 * x + c) / 3 = x := by omega
    have hmod : (3 * x + c) % 3 = c := by omega
    simp only [rgbFrame, if_pos hlt, hdiv, hmod]
  rw [hindex, h.get y hy _ hlt, hcell]

theorem frameToJpeg_layout_iff (frame : VideoFrame) (targetWidth targetHeight : Int) :
    (∀ scaling bytes, frameToJpeg scaling frame targetWidth targetHeight = .ok bytes →
        PixelLayout scaling.image (outSize targetWidth frame.width)
          (outSize targetHeight frame.height) bytes) ↔
      32 ∣ outSize targetWidth frame.width := by
  generalize hwidth : outSize targetWidth frame.width = outWidth
  generalize hheight : outSize targetHeight frame.height = outHeight
  have hpos : 0 < outHeight := hheight ▸ outSize_pos frame.height_pos
  have halign : roundUp 32 (3 * outWidth) = 3 * outWidth ↔ 32 ∣ outWidth := by
    rw [roundUp_eq_self_iff (by omega)]
    omega
  constructor
  · intro h
    let black : Scaling := { image := fun _ _ _ => 0, padding := fun _ _ => 0 }
    have hlayout := h black (rgbFrame black outWidth outHeight).toList
      (by rw [frameToJpeg, hwidth, hheight])
    have hsize := hlayout.size
    rw [Plane.length_toList] at hsize
    exact halign.1 (Nat.eq_of_mul_eq_mul_right hpos hsize)
  · intro hdvd scaling bytes hbytes
    rw [frameToJpeg] at hbytes
    cases hfailure : scaling.failure with
    | some failure =>
      rw [hfailure] at hbytes
      cases hbytes
    | none =>
      rw [hfailure, hwidth, hheight] at hbytes
      obtain rfl := Except.ok.inj hbytes
      exact .of_packed (((rgbFrame scaling outWidth outHeight).packed_toList_iff hpos).2
        (halign.2 hdvd))

/-- A row of two pixels takes 32 bytes. -/
theorem frameToJpeg_padded :
    ¬ ∀ (scaling : Scaling) (frame : VideoFrame) (targetWidth targetHeight : Int) (bytes : List UInt8),
      frameToJpeg scaling frame targetWidth targetHeight = .ok bytes →
      PixelLayout scaling.image (outSize targetWidth frame.width)
        (outSize targetHeight frame.height) bytes := by
  intro h
  have hsize := (h { image := fun _ _ _ => 0, padding := fun _ _ => 0 }
    ⟨0, 2, 1, Nat.zero_lt_succ 1, Nat.zero_lt_succ 0⟩ 0 0 _ rfl).size
  revert hsize
  decide

end Portfolio.VideoEditor
