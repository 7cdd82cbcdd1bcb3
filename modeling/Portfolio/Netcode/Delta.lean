import Portfolio.Lib.ByteCodec
import Portfolio.Netcode.World

/-!
# `sync::DeltaCodec`

The byte format of keyframes and deltas (`netcode-core/sync/delta.cpp`). The conversion between
`double` and the bits of a `float` is a parameter; a 16-bit score difference, 8-bit directions and
the underflow errors are as in the source.
-/

namespace Portfolio.Netcode

/-- `static_cast<float>` followed by the `memcpy` to 32 bits, and the way back. -/
structure FloatCodec (α : Type) where
  toBits : α → BitVec 32
  ofBits : BitVec 32 → α

/-! ### Fields -/

def appendU32 (value : BitVec 32) : List Byte := leBytes 4 value

def appendI16 (value : BitVec 16) : List Byte := leBytes 2 value

def appendI8 (value : BitVec 8) : List Byte := [value]

def readU32 : Reader (BitVec 32) := fun buffer offset =>
  if buffer.length < offset + 4 then .error "buffer underflow while reading u32"
  else .ok (ofLeBytes 32 ((buffer.drop offset).take 4), offset + 4)

def readI16 : Reader (BitVec 16) := fun buffer offset =>
  if buffer.length < offset + 2 then .error "buffer underflow while reading i16"
  else .ok (ofLeBytes 16 ((buffer.drop offset).take 2), offset + 2)

def readI8 : Reader (BitVec 8) := fun buffer offset =>
  if buffer.length ≤ offset then .error "buffer underflow while reading i8"
  else .ok (buffer.getD offset 0, offset + 1)

theorem take_drop_append (pre bytes post : List Byte) :
    ((pre ++ bytes ++ post).drop pre.length).take bytes.length = bytes := by
  rw [List.append_assoc, List.drop_left, List.take_left]

theorem reads_readU32 (value : BitVec 32) : Reads readU32 (appendU32 value) value := by
  intro pre post
  have hlen : (appendU32 value).length = 4 := length_leBytes 4 value
  have hval := take_drop_append pre (appendU32 value) post
  rw [hlen] at hval ⊢
  rw [readU32, hval, if_neg (by rw [List.length_append, List.length_append, hlen]; omega)]
  rw [appendU32, ofLeBytes_leBytes 4 value]

theorem reads_readI16 (value : BitVec 16) : Reads readI16 (appendI16 value) value := by
  intro pre post
  have hlen : (appendI16 value).length = 2 := length_leBytes 2 value
  have hval := take_drop_append pre (appendI16 value) post
  rw [hlen] at hval ⊢
  rw [readI16, hval, if_neg (by rw [List.length_append, List.length_append, hlen]; omega)]
  rw [appendI16, ofLeBytes_leBytes 2 value]

theorem reads_readI8 (value : BitVec 8) : Reads readI8 (appendI8 value) value := by
  intro pre post
  simp [readI8, appendI8]

section
variable {α : Type} (fc : FloatCodec α)

def appendF32 (value : α) : List Byte := appendU32 (fc.toBits value)

def readF32 : Reader α := fc.ofBits <$> readU32

theorem reads_readF32 (value : α) :
    Reads (readF32 fc) (appendF32 fc value) (fc.ofBits (fc.toBits value)) :=
  (reads_readU32 (fc.toBits value)).map fc.ofBits

/-! ### Keyframes -/

def writeState (state : WorldState α) : List Byte :=
  appendF32 fc state.ballX ++ appendF32 fc state.ballY ++ appendF32 fc state.ballVx ++
    appendF32 fc state.ballVy ++ appendF32 fc state.leftPaddleY ++ appendF32 fc state.rightPaddleY ++
    appendU32 state.leftScore ++ appendU32 state.rightScore ++
    appendI8 (.ofInt 8 state.leftDirection) ++ appendI8 (.ofInt 8 state.rightDirection)

def readState : Reader (WorldState α) := do
  let ballX ← readF32 fc
  let ballY ← readF32 fc
  let ballVx ← readF32 fc
  let ballVy ← readF32 fc
  let leftPaddleY ← readF32 fc
  let rightPaddleY ← readF32 fc
  let leftScore ← readU32
  let rightScore ← readU32
  let leftDirection ← readI8
  let rightDirection ← readI8
  return {
    ballX := ballX, ballY := ballY, ballVx := ballVx, ballVy := ballVy
    leftPaddleY := leftPaddleY, rightPaddleY := rightPaddleY
    leftScore := leftScore, rightScore := rightScore
    leftDirection := leftDirection.toInt, rightDirection := rightDirection.toInt }

/-- Runs a reader from offset 0 and sets the tick, which is not part of the payload. -/
def decodeWith (r : Reader (WorldState α)) (data : List Byte) (tick : Nat) :
    Except String (WorldState α) :=
  match r data 0 with
  | .ok (state, _) => .ok { state with tick := tick }
  | .error e => .error e

def encodeKeyframe (state : WorldState α) : List Byte := writeState fc state

def decodeKeyframe (data : List Byte) (tick : Nat) : Except String (WorldState α) :=
  decodeWith (readState fc) data tick

theorem decodeWith_of_reads {r : Reader (WorldState α)} {data : List Byte} {state : WorldState α}
    (h : Reads r data state) (tick : Nat) : decodeWith r data tick = .ok { state with tick := tick } := by
  have h0 := h [] []
  rw [List.nil_append, List.append_nil] at h0
  unfold decodeWith
  rw [show r data 0 = _ from h0]

/-- What a receiver makes of a keyframe of `state`. -/
def keyframeImage (state : WorldState α) : WorldState α :=
  { ballX := fc.ofBits (fc.toBits state.ballX)
    ballY := fc.ofBits (fc.toBits state.ballY)
    ballVx := fc.ofBits (fc.toBits state.ballVx)
    ballVy := fc.ofBits (fc.toBits state.ballVy)
    leftPaddleY := fc.ofBits (fc.toBits state.leftPaddleY)
    rightPaddleY := fc.ofBits (fc.toBits state.rightPaddleY)
    leftScore := state.leftScore
    rightScore := state.rightScore
    tick := state.tick
    leftDirection := (BitVec.ofInt 8 state.leftDirection).toInt
    rightDirection := (BitVec.ofInt 8 state.rightDirection).toInt }

theorem decodeKeyframe_encodeKeyframe (state : WorldState α) :
    decodeKeyframe fc (encodeKeyframe fc state) state.tick = .ok (keyframeImage fc state) := by
  have h : Reads (readState fc) (encodeKeyframe fc state) { keyframeImage fc state with tick := 0 } := by
    unfold encodeKeyframe writeState
    rw [← List.append_nil (appendI8 (.ofInt 8 state.rightDirection))]
    simp only [List.append_assoc]
    exact (reads_readF32 fc _).bind <| (reads_readF32 fc _).bind <| (reads_readF32 fc _).bind <|
      (reads_readF32 fc _).bind <| (reads_readF32 fc _).bind <| (reads_readF32 fc _).bind <|
      (reads_readU32 _).bind <| (reads_readU32 _).bind <| (reads_readI8 _).bind <|
      (reads_readI8 _).bind <| Reads.pure _
  exact decodeWith_of_reads h state.tick

/-! ### Deltas -/

/-- `static_cast<uint32_t>(static_cast<int64_t>(base) + difference)` -/
def addScore (base : BitVec 32) (difference : BitVec 16) : BitVec 32 :=
  .ofInt 32 ((base.toNat : Int) + difference.toInt)

/-- `static_cast<int16_t>(score - base)` -/
def scoreDifference (score base : BitVec 32) : BitVec 16 := (score - base).setWidth 16

variable [Add α] [Sub α]

def writeDelta (base state : WorldState α) : List Byte :=
  appendF32 fc (state.ballX - base.ballX) ++ appendF32 fc (state.ballY - base.ballY) ++
    appendF32 fc (state.ballVx - base.ballVx) ++ appendF32 fc (state.ballVy - base.ballVy) ++
    appendF32 fc (state.leftPaddleY - base.leftPaddleY) ++
    appendF32 fc (state.rightPaddleY - base.rightPaddleY) ++
    appendI16 (scoreDifference state.leftScore base.leftScore) ++
    appendI16 (scoreDifference state.rightScore base.rightScore) ++
    appendI8 (.ofInt 8 state.leftDirection) ++ appendI8 (.ofInt 8 state.rightDirection)

def applyDeltaToState (base : WorldState α) : Reader (WorldState α) := do
  let ballX ← readF32 fc
  let ballY ← readF32 fc
  let ballVx ← readF32 fc
  let ballVy ← readF32 fc
  let leftPaddleY ← readF32 fc
  let rightPaddleY ← readF32 fc
  let leftScore ← readI16
  let rightScore ← readI16
  let leftDirection ← readI8
  let rightDirection ← readI8
  return { base with
    ballX := base.ballX + ballX, ballY := base.ballY + ballY
    ballVx := base.ballVx + ballVx, ballVy := base.ballVy + ballVy
    leftPaddleY := base.leftPaddleY + leftPaddleY, rightPaddleY := base.rightPaddleY + rightPaddleY
    leftScore := addScore base.leftScore leftScore, rightScore := addScore base.rightScore rightScore
    leftDirection := leftDirection.toInt, rightDirection := rightDirection.toInt }

def encodeDelta (base state : WorldState α) : List Byte := writeDelta fc base state

def applyDelta (base : WorldState α) (delta : List Byte) (tick : Nat) :
    Except String (WorldState α) :=
  decodeWith (applyDeltaToState fc base) delta tick

/-- What a receiver that holds `base` makes of the delta from `key` to `state`. -/
def deltaImage (base key state : WorldState α) : WorldState α :=
  { ballX := base.ballX + fc.ofBits (fc.toBits (state.ballX - key.ballX))
    ballY := base.ballY + fc.ofBits (fc.toBits (state.ballY - key.ballY))
    ballVx := base.ballVx + fc.ofBits (fc.toBits (state.ballVx - key.ballVx))
    ballVy := base.ballVy + fc.ofBits (fc.toBits (state.ballVy - key.ballVy))
    leftPaddleY := base.leftPaddleY + fc.ofBits (fc.toBits (state.leftPaddleY - key.leftPaddleY))
    rightPaddleY := base.rightPaddleY + fc.ofBits (fc.toBits (state.rightPaddleY - key.rightPaddleY))
    leftScore := addScore base.leftScore (scoreDifference state.leftScore key.leftScore)
    rightScore := addScore base.rightScore (scoreDifference state.rightScore key.rightScore)
    tick := state.tick
    leftDirection := (BitVec.ofInt 8 state.leftDirection).toInt
    rightDirection := (BitVec.ofInt 8 state.rightDirection).toInt }

theorem applyDelta_encodeDelta (base key state : WorldState α) :
    applyDelta fc base (encodeDelta fc key state) state.tick = .ok (deltaImage fc base key state) := by
  have h : Reads (applyDeltaToState fc base) (encodeDelta fc key state)
      { deltaImage fc base key state with tick := base.tick } := by
    unfold encodeDelta writeDelta
    rw [← List.append_nil (appendI8 (.ofInt 8 state.rightDirection))]
    simp only [List.append_assoc]
    exact (reads_readF32 fc _).bind <| (reads_readF32 fc _).bind <| (reads_readF32 fc _).bind <|
      (reads_readF32 fc _).bind <| (reads_readF32 fc _).bind <| (reads_readF32 fc _).bind <|
      (reads_readI16 _).bind <| (reads_readI16 _).bind <| (reads_readI8 _).bind <|
      (reads_readI8 _).bind <| Reads.pure _
  exact decodeWith_of_reads h state.tick

end

/-- Directions survive the 8-bit field. -/
theorem toInt_direction {d : Int} (h : -128 ≤ d ∧ d ≤ 127) : (BitVec.ofInt 8 d).toInt = d := by
  rw [BitVec.toInt_ofInt]
  exact Int.bmod_eq_of_le (by omega) (by omega)

/-- A score within `2 ^ 15` of its base survives the 16-bit difference. -/
theorem addScore_scoreDifference {score base : BitVec 32}
    (h : |(score.toNat : Int) - base.toNat| < 2 ^ 15) :
    addScore base (scoreDifference score base) = score := by
  have hd : scoreDifference score base = .ofInt 16 ((score.toNat : Int) - base.toNat) := by
    apply BitVec.eq_of_toNat_eq
    simp only [scoreDifference, BitVec.toNat_setWidth, BitVec.toNat_sub, BitVec.toNat_ofInt]
    omega
  rw [abs_lt] at h
  rw [addScore, hd, BitVec.toInt_ofInt, Int.bmod_eq_of_le (by omega) (by omega)]
  apply BitVec.eq_of_toNat_eq
  rw [BitVec.toNat_ofInt]
  omega

end Portfolio.Netcode
