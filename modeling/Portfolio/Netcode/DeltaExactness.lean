import Portfolio.Netcode.SnapshotStream

/-!
# Exactness of `sync::DeltaCodec`

Every field reader takes a fixed number of bytes, so a payload is refused exactly when it is too
short. A score comes back from a delta if and only if its distance from the base, as a signed 32-bit
number, fits into the 16 bits of the field.
-/

namespace Portfolio.Netcode

/-! ### Too short a payload -/

theorem fixedWidth_readU32 : FixedWidth readU32 4 := by
  intro buffer offset _
  unfold readU32
  by_cases h : buffer.length < offset + 4
  · exact .inr ⟨h, _, by rw [if_pos h]⟩
  · exact .inl ⟨Nat.le_of_not_lt h, _, by rw [if_neg h]⟩

theorem fixedWidth_readI16 : FixedWidth readI16 2 := by
  intro buffer offset _
  unfold readI16
  by_cases h : buffer.length < offset + 2
  · exact .inr ⟨h, _, by rw [if_pos h]⟩
  · exact .inl ⟨Nat.le_of_not_lt h, _, by rw [if_neg h]⟩

theorem fixedWidth_readI8 : FixedWidth readI8 1 := by
  intro buffer offset _
  unfold readI8
  by_cases h : buffer.length ≤ offset
  · exact .inr ⟨Nat.lt_succ_of_le h, _, by rw [if_pos h]⟩
  · exact .inl ⟨Nat.lt_of_not_le h, _, by rw [if_neg h]⟩

section
variable {α : Type} (fc : FloatCodec α)

theorem fixedWidth_readF32 : FixedWidth (readF32 fc) 4 := fixedWidth_readU32.map fc.ofBits

theorem fixedWidth_readState : FixedWidth (readState fc) 34 :=
  (fixedWidth_readF32 fc).bind fun _ => (fixedWidth_readF32 fc).bind fun _ =>
    (fixedWidth_readF32 fc).bind fun _ => (fixedWidth_readF32 fc).bind fun _ =>
    (fixedWidth_readF32 fc).bind fun _ => (fixedWidth_readF32 fc).bind fun _ =>
    fixedWidth_readU32.bind fun _ => fixedWidth_readU32.bind fun _ =>
    fixedWidth_readI8.bind fun _ => fixedWidth_readI8.bind fun _ => FixedWidth.pure _

theorem fixedWidth_applyDeltaToState [Add α] (base : WorldState α) :
    FixedWidth (applyDeltaToState fc base) 30 :=
  (fixedWidth_readF32 fc).bind fun _ => (fixedWidth_readF32 fc).bind fun _ =>
    (fixedWidth_readF32 fc).bind fun _ => (fixedWidth_readF32 fc).bind fun _ =>
    (fixedWidth_readF32 fc).bind fun _ => (fixedWidth_readF32 fc).bind fun _ =>
    fixedWidth_readI16.bind fun _ => fixedWidth_readI16.bind fun _ =>
    fixedWidth_readI8.bind fun _ => fixedWidth_readI8.bind fun _ => FixedWidth.pure _

theorem decodeWith_error_iff {r : Reader (WorldState α)} {n : Nat} (h : FixedWidth r n)
    (data : List Byte) (tick : Nat) :
    (∃ e, decodeWith r data tick = .error e) ↔ data.length < n := by
  rw [← h.error_iff data]
  unfold decodeWith
  cases r data 0 with
  | ok p => exact iff_of_false (fun ⟨e, he⟩ => nomatch he) (fun ⟨e, he⟩ => nomatch he)
  | error e => exact iff_of_true ⟨e, rfl⟩ ⟨e, rfl⟩

/-! ### Lengths and bit patterns -/

@[simp] theorem length_appendU32 (value : BitVec 32) : (appendU32 value).length = 4 :=
  length_leBytes 4 value

@[simp] theorem length_appendI16 (value : BitVec 16) : (appendI16 value).length = 2 :=
  length_leBytes 2 value

@[simp] theorem length_appendF32 (value : α) : (appendF32 fc value).length = 4 :=
  length_appendU32 _

theorem length_encodeKeyframe (state : WorldState α) : (encodeKeyframe fc state).length = 34 := by
  simp [encodeKeyframe, writeState, appendI8]

theorem length_encodeDelta [Sub α] (base state : WorldState α) :
    (encodeDelta fc base state).length = 30 := by
  simp [encodeDelta, writeDelta, appendI8]

theorem readU32_flatMap (words : List (BitVec 32)) (rest : List Byte) (i : Nat) (h : i < words.length) :
    readU32 (words.flatMap appendU32 ++ rest) (4 * i) = .ok (words[i], 4 * i + 4) := by
  have hlen : ∀ ws : List (BitVec 32), (ws.flatMap appendU32).length = 4 * ws.length := by
    intro ws
    induction ws with
    | nil => rfl
    | cons w ws ih =>
      rw [List.flatMap_cons, List.length_append, ih, length_appendU32, List.length_cons]
      omega
  have hread := reads_readU32 words[i] ((words.take i).flatMap appendU32)
    ((words.drop (i + 1)).flatMap appendU32 ++ rest)
  rw [hlen, List.length_take, Nat.min_eq_left h.le, length_appendU32] at hread
  have hsplit : words.flatMap appendU32 ++ rest = (words.take i).flatMap appendU32 ++
      appendU32 words[i] ++ ((words.drop (i + 1)).flatMap appendU32 ++ rest) := by
    have hcons := congrArg (List.flatMap appendU32) (List.take_append_drop i words)
    rw [List.flatMap_append, ← List.getElem_cons_drop h, List.flatMap_cons] at hcons
    rw [← hcons]
    simp only [List.append_assoc]
  rw [hsplit, hread]

/-- The six floats of a keyframe are read back bit by bit. -/
theorem readU32_encodeKeyframe (state : WorldState α) (i : Nat) (h : i < (coords state).length) :
    readU32 (encodeKeyframe fc state) (4 * i) = .ok (fc.toBits (coords state)[i], 4 * i + 4) := by
  have hread := readU32_flatMap ((coords state).map fc.toBits)
    (appendU32 state.leftScore ++ (appendU32 state.rightScore ++
      (appendI8 (.ofInt 8 state.leftDirection) ++ appendI8 (.ofInt 8 state.rightDirection)))) i
    (by rwa [List.length_map])
  have hdata : encodeKeyframe fc state = ((coords state).map fc.toBits).flatMap appendU32 ++
      (appendU32 state.leftScore ++ (appendU32 state.rightScore ++
      (appendI8 (.ofInt 8 state.leftDirection) ++ appendI8 (.ofInt 8 state.rightDirection)))) := by
    simp [encodeKeyframe, writeState, coords, appendF32]
  rw [hdata, hread, List.getElem_map]

end

/-! ### Scores -/

theorem addScore_eq (base : BitVec 32) (difference : BitVec 16) :
    addScore base difference = base + difference.signExtend 32 := by
  apply BitVec.eq_of_toInt_eq
  rw [addScore, BitVec.toInt_ofInt, BitVec.toInt_add, BitVec.toInt_signExtend_of_le (by decide),
    BitVec.toInt_eq_toNat_bmod base, Int.bmod_add_bmod]

/-- Sixteen bits keep exactly the numbers of the signed 16-bit range. -/
theorem signExtend_setWidth_iff (x : BitVec 32) :
    (x.setWidth 16).signExtend 32 = x ↔ -32768 ≤ x.toInt ∧ x.toInt ≤ 32767 := by
  have hnarrow : ((x.setWidth 16).signExtend 32).toInt = (x.toInt).bmod (2 ^ 16) := by
    rw [BitVec.toInt_signExtend_of_le (by decide), BitVec.toInt_setWidth, BitVec.toInt_eq_toNat_bmod,
      Int.bmod_bmod_of_dvd (by decide)]
  rw [← BitVec.toInt_inj, hnarrow]
  constructor
  · intro h
    have hlo := Int.le_bmod (x := x.toInt) (m := 2 ^ 16) (by decide)
    have hhi := Int.bmod_lt (x := x.toInt) (m := 2 ^ 16) (by decide)
    omega
  · rintro ⟨hlo, hhi⟩
    exact Int.bmod_eq_of_le (by omega) (by omega)

theorem addScore_scoreDifference_iff (score base : BitVec 32) :
    addScore base (scoreDifference score base) = score ↔
      -32768 ≤ (score - base).toInt ∧ (score - base).toInt ≤ 32767 := by
  rw [← signExtend_setWidth_iff, addScore_eq, scoreDifference, BitVec.eq_sub_iff_add_eq, BitVec.add_comm]

/-! ### The codec -/

/-- Both directions fit into their bytes. -/
def DirectionsFit {α : Type} (state : WorldState α) : Prop :=
  (-128 ≤ state.leftDirection ∧ state.leftDirection ≤ 127) ∧
    (-128 ≤ state.rightDirection ∧ state.rightDirection ≤ 127)

/-- The difference of two scores, as a signed 32-bit number, fits into 16 bits. -/
def ScoreFits (score base : BitVec 32) : Prop :=
  -32768 ≤ (score - base).toInt ∧ (score - base).toInt ≤ 32767

section
variable {α : Type} (fc : FloatCodec α)

theorem keyframe_exact (state : WorldState α) (h : DirectionsFit state) (tick : Nat) :
    ∃ decoded, decodeKeyframe fc (encodeKeyframe fc state) tick = .ok decoded ∧
      Agrees { state with tick := tick } decoded ∧
      coords decoded = (coords state).map fun c => fc.ofBits (fc.toBits c) := by
  refine ⟨keyframeImage fc { state with tick := tick }, ?_, ?_, rfl⟩
  · exact decodeKeyframe_encodeKeyframe fc { state with tick := tick }
  · exact ⟨rfl, rfl, rfl, toInt_direction h.1, toInt_direction h.2⟩

theorem delta_exact [Add α] [Sub α] (base state : WorldState α) (tick : Nat) :
    ∃ applied, applyDelta fc base (encodeDelta fc base state) tick = .ok applied ∧
      (applied.leftScore = state.leftScore ↔ ScoreFits state.leftScore base.leftScore) ∧
      (applied.rightScore = state.rightScore ↔ ScoreFits state.rightScore base.rightScore) := by
  refine ⟨deltaImage fc base base { state with tick := tick }, ?_, ?_, ?_⟩
  · exact applyDelta_encodeDelta fc base base { state with tick := tick }
  · exact addScore_scoreDifference_iff _ _
  · exact addScore_scoreDifference_iff _ _

/-- Keyframes keep scores, directions and the bits of the floats; a delta keeps the scores whose
difference fits; and payloads are refused exactly when they are too short. -/
theorem deltaCodec_exact [Add α] [Sub α] :
    (∀ state : WorldState α, DirectionsFit state → ∀ tick,
      (encodeKeyframe fc state).length = 34 ∧
      (∀ i (h : i < (coords state).length),
        readU32 (encodeKeyframe fc state) (4 * i) = .ok (fc.toBits (coords state)[i], 4 * i + 4)) ∧
      ∃ decoded, decodeKeyframe fc (encodeKeyframe fc state) tick = .ok decoded ∧
        Agrees { state with tick := tick } decoded ∧
        coords decoded = (coords state).map fun c => fc.ofBits (fc.toBits c)) ∧
    (∀ (base state : WorldState α) (tick : Nat),
      (encodeDelta fc base state).length = 30 ∧
      ∃ applied, applyDelta fc base (encodeDelta fc base state) tick = .ok applied ∧
        (applied.leftScore = state.leftScore ↔ ScoreFits state.leftScore base.leftScore) ∧
        (applied.rightScore = state.rightScore ↔ ScoreFits state.rightScore base.rightScore)) ∧
    (∀ data tick, (∃ e, decodeKeyframe fc data tick = .error e) ↔ data.length < 34) ∧
    ∀ base data tick, (∃ e, applyDelta fc base data tick = .error e) ↔ data.length < 30 := by
  refine ⟨fun state h tick => ?_, fun base state tick => ?_, fun data tick => ?_, fun base data tick => ?_⟩
  · exact ⟨length_encodeKeyframe fc state, readU32_encodeKeyframe fc state, keyframe_exact fc state h tick⟩
  · exact ⟨length_encodeDelta fc base state, delta_exact fc base state tick⟩
  · exact decodeWith_error_iff (fixedWidth_readState fc) data tick
  · exact decodeWith_error_iff (fixedWidth_applyDeltaToState fc base) data tick

end

def served : WorldState ℤ :=
  { ballX := 0, ballY := 1, ballVx := 1, ballVy := 0, leftPaddleY := 0, rightPaddleY := 0
    leftScore := 3, leftDirection := -1 }

/-- A keyframe, and a delta that carries the largest difference of a score. -/
theorem deltaCodec_exact_served :
    (∃ decoded, decodeKeyframe smallFloats (encodeKeyframe smallFloats served) 7 = .ok decoded ∧
      Agrees { served with tick := 7 } decoded) ∧
    ∃ applied, applyDelta smallFloats served
        (encodeDelta smallFloats served { served with leftScore := 32770 }) 8 = .ok applied ∧
      applied.leftScore = 32770 := by
  obtain ⟨hkey, hdelta, -⟩ := deltaCodec_exact smallFloats
  have hfit : DirectionsFit served := by unfold DirectionsFit; decide
  have hscore : ScoreFits 32770 served.leftScore := by unfold ScoreFits; decide
  obtain ⟨-, -, decoded, hdecoded, hagrees, -⟩ := hkey served hfit 7
  obtain ⟨-, applied, happlied, hleft, -⟩ := hdelta served { served with leftScore := 32770 } 8
  exact ⟨⟨decoded, hdecoded, hagrees⟩, applied, happlied, hleft.2 hscore⟩

end Portfolio.Netcode
