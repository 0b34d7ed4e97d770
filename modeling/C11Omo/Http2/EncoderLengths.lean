import C11Omo.Http2.RoundTrip
import C11Omo.Lib.Sizes

set_option autoImplicit false

/-! # The lengths in the frame encoders

The encoders of `frame.c` once more, with the lengths instead of the bytes: the `size_t` sums and
products, the stores into the local payload arrays and into the caller's buffer, and the tests, in
the order in which C makes them. Of a pointer the encoders only ask whether it is NULL, and a length
is any number: the data behind the pointer need not be there, as long as the encoder does not reach
for it. Where the data is there, the result is the number of bytes that the encoder of bytes writes
(`encode_written`).

Every encoder compares with a sum or product that cannot wrap, but for GOAWAY
(`encoder_lengths_right`).
-/

namespace C11Omo.Http2

open C11Omo.Lib
open C11Omo.Lib.Sizes

namespace Lengths

/-- What an encoder asks of a pointer. -/
inductive Pointer
  | null
  | valid
  deriving DecidableEq, Repr

/-! ## The encoders -/

/-- `if (len > 0u) { memcpy(array + off, …, len); }`. -/
def copy (cap off len : Nat) : Metered Unit := if len > 0 then store cap off len else pure ()

/-- `h2_frame_write_header`: the five single bytes and the stream id. -/
def writeHeader (wire : Pointer) (cap length : Nat) : Metered Bool :=
  if wire = .null ∨ cap < frameHeaderLen ∨ length > maxFrameSizeLimit then pure false
  else do
    store cap 0 5
    store cap 5 4
    pure true

/-- `h2_frame_encode_raw`. The sum is there only if the tests before it pass. -/
def encodeRaw (wire : Pointer) (cap : Nat) (payload : Pointer) (payloadLen : Nat) : Metered Nat :=
  if wire = .null ∨ payloadLen > maxFrameSizeLimit then pure 0
  else do
    let wireLen ← add frameHeaderLen payloadLen
    if cap < wireLen then pure 0
    else if payloadLen > 0 ∧ payload = .null then pure 0
    else do
      -- `(uint32_t)payload_len`
      let written ← writeHeader wire cap (payloadLen % 2 ^ 32)
      if written = false then pure 0
      else do
        copy cap frameHeaderLen payloadLen
        add frameHeaderLen payloadLen

/-- `h2_frame_encode_data`. -/
def encodeData (wire : Pointer) (cap streamId : Nat) (flags : UInt8) (data : Pointer)
    (dataLen : Nat) : Metered Nat :=
  if streamId = 0 ∨ hasFlag flags flagPadded then pure 0 else encodeRaw wire cap data dataLen

/-- `h2_frame_encode_headers`. -/
def encodeHeaders (wire : Pointer) (cap streamId : Nat) (flags : UInt8) (headerBlock : Pointer)
    (headerBlockLen : Nat) : Metered Nat :=
  if streamId = 0 ∨ hasFlag flags (flagPadded ||| flagPriority) then pure 0
  else encodeRaw wire cap headerBlock headerBlockLen

/-- `h2_frame_encode_priority`, with `uint8_t payload[5]`. -/
def encodePriority (wire : Pointer) (cap streamId : Nat) (priority : Pointer) : Metered Nat :=
  if priority = .null ∨ streamId = 0 then pure 0
  else do
    store 5 0 4
    store 5 4 1
    encodeRaw wire cap .valid 5

/-- `h2_frame_encode_rst_stream`, with `uint8_t payload[4]`. -/
def encodeRstStream (wire : Pointer) (cap streamId : Nat) : Metered Nat :=
  if streamId = 0 then pure 0
  else do
    store 4 0 4
    encodeRaw wire cap .valid 4

/-- The loop of `h2_frame_encode_settings`, from an index on. -/
def encodeSettingsLoop : (remaining settingIndex : Nat) → Metered Unit
  | 0, _ => pure ()
  | remaining + 1, settingIndex => do
      let entry ← mul settingIndex 6
      store 96 entry 2
      let entry ← mul settingIndex 6
      let value ← add entry 2
      store 96 value 4
      encodeSettingsLoop remaining (settingIndex + 1)

/-- `h2_frame_encode_settings`, with `uint8_t payload[96]`. -/
def encodeSettings (wire : Pointer) (cap : Nat) (flags : UInt8) (settings : Pointer)
    (settingsLen : Nat) : Metered Nat :=
  if hasFlag flags flagAck then
    if settingsLen = 0 then encodeRaw wire cap .null 0 else pure 0
  else if settingsLen > 96 / 6 ∨ (settingsLen > 0 ∧ settings = .null) then pure 0
  else do
    encodeSettingsLoop settingsLen 0
    let payloadLen ← mul settingsLen 6
    encodeRaw wire cap .valid payloadLen

/-- `h2_frame_encode_push_promise`, with `uint8_t payload[H2_DEFAULT_MAX_FRAME_SIZE]`. -/
def encodePushPromise (wire : Pointer) (cap streamId : Nat) (flags : UInt8)
    (promisedStreamId : Nat) (headerBlock : Pointer) (headerBlockLen : Nat) : Metered Nat :=
  if streamId = 0 ∨ promisedStreamId = 0 ∨ hasFlag flags flagPadded
      ∨ headerBlockLen > 18446744073709551615 - 4
      ∨ headerBlockLen > defaultMaxFrameSize - 4
      ∨ (headerBlockLen > 0 ∧ headerBlock = .null) then pure 0
  else do
    store defaultMaxFrameSize 0 4
    copy defaultMaxFrameSize 4 headerBlockLen
    let payloadLen ← add headerBlockLen 4
    encodeRaw wire cap .valid payloadLen

/-- `h2_frame_encode_ping`. -/
def encodePing (wire : Pointer) (cap : Nat) (opaqueData : Pointer) : Metered Nat :=
  if opaqueData = .null then pure 0 else encodeRaw wire cap opaqueData 8

/-- `h2_frame_encode_goaway`, with `uint8_t payload[H2_DEFAULT_MAX_FRAME_SIZE]`. -/
def encodeGoaway (wire : Pointer) (cap : Nat) (debugData : Pointer) (debugLen : Nat) :
    Metered Nat := do
  let payloadLen ← add debugLen 8
  if payloadLen > defaultMaxFrameSize ∨ (debugLen > 0 ∧ debugData = .null) then pure 0
  else do
    store defaultMaxFrameSize 0 4
    store defaultMaxFrameSize 4 4
    copy defaultMaxFrameSize 8 debugLen
    let payloadLen ← add debugLen 8
    encodeRaw wire cap .valid payloadLen

/-- `h2_frame_encode_window_update`, with `uint8_t payload[4]`. -/
def encodeWindowUpdate (wire : Pointer) (cap increment : Nat) : Metered Nat :=
  if increment = 0 ∨ increment &&& 0x80000000 ≠ 0 then pure 0
  else do
    store 4 0 4
    encodeRaw wire cap .valid 4

/-- `h2_frame_encode_continuation`. -/
def encodeContinuation (wire : Pointer) (cap streamId : Nat) (headerBlock : Pointer)
    (headerBlockLen : Nat) : Metered Nat :=
  if streamId = 0 then pure 0 else encodeRaw wire cap headerBlock headerBlockLen

/-- A call of an encoder, without the buffer: the arguments that its lengths depend on. -/
inductive Call
  | raw (payload : Pointer) (payloadLen : Nat)
  | data (streamId : Nat) (flags : UInt8) (data : Pointer) (dataLen : Nat)
  | headers (streamId : Nat) (flags : UInt8) (headerBlock : Pointer) (headerBlockLen : Nat)
  | priority (streamId : Nat) (priority : Pointer)
  | rstStream (streamId : Nat)
  | settings (flags : UInt8) (settings : Pointer) (settingsLen : Nat)
  | pushPromise (streamId : Nat) (flags : UInt8) (promisedStreamId : Nat) (headerBlock : Pointer)
      (headerBlockLen : Nat)
  | ping (opaqueData : Pointer)
  | goaway (debugData : Pointer) (debugLen : Nat)
  | windowUpdate (increment : Nat)
  | continuation (streamId : Nat) (headerBlock : Pointer) (headerBlockLen : Nat)
  deriving DecidableEq, Repr

namespace Call

def encode (wire : Pointer) (cap : Nat) : Call → Metered Nat
  | raw payload payloadLen => encodeRaw wire cap payload payloadLen
  | data streamId flags bytes dataLen => encodeData wire cap streamId flags bytes dataLen
  | headers streamId flags headerBlock headerBlockLen =>
      encodeHeaders wire cap streamId flags headerBlock headerBlockLen
  | priority streamId fields => encodePriority wire cap streamId fields
  | rstStream streamId => encodeRstStream wire cap streamId
  | settings flags entries settingsLen => encodeSettings wire cap flags entries settingsLen
  | pushPromise streamId flags promised headerBlock headerBlockLen =>
      encodePushPromise wire cap streamId flags promised headerBlock headerBlockLen
  | ping opaqueData => encodePing wire cap opaqueData
  | goaway debugData debugLen => encodeGoaway wire cap debugData debugLen
  | windowUpdate increment => encodeWindowUpdate wire cap increment
  | continuation streamId headerBlock headerBlockLen =>
      encodeContinuation wire cap streamId headerBlock headerBlockLen

/-- The true length of the payload of the frame. -/
def payloadLength : Call → Nat
  | raw _ payloadLen => payloadLen
  | data _ _ _ dataLen => dataLen
  | headers _ _ _ headerBlockLen => headerBlockLen
  | priority .. => 5
  | rstStream .. => 4
  | settings _ _ settingsLen => 6 * settingsLen
  | pushPromise _ _ _ _ headerBlockLen => 4 + headerBlockLen
  | ping .. => 8
  | goaway _ debugLen => 8 + debugLen
  | windowUpdate .. => 4
  | continuation _ _ headerBlockLen => headerBlockLen

end Call

/-- No sum or product wraps, no store leaves its array, and the result is 0 or the length of a frame
with the given payload length, which is in the buffer. -/
def Right (cap payloadLen : Nat) (x : Metered Nat) : Prop :=
  x.Safe ∧ (x.value = 0 ∨ x.value = frameHeaderLen + payloadLen ∧ x.value ≤ cap)

instance (cap payloadLen : Nat) : DecidablePred (Right cap payloadLen) :=
  fun _ => inferInstanceAs (Decidable (_ ∧ _))

/-- The call gets its lengths right. -/
def Call.LengthsRight (wire : Pointer) (cap : Nat) (c : Call) : Prop :=
  Right cap c.payloadLength (c.encode wire cap)

instance (wire : Pointer) (cap : Nat) : DecidablePred (Call.LengthsRight wire cap) :=
  fun c => inferInstanceAs (Decidable (Right cap c.payloadLength (c.encode wire cap)))

/-- The debug data of a GOAWAY frame leaves no room for the eight octets in front of it. -/
def Call.Wraps : Call → Prop
  | .goaway _ debugLen => sizeValues ≤ debugLen + 8
  | _ => False

/-! ## The raw encoder -/

theorem copy_safe {cap off len : Nat} : (copy cap off len).Safe ↔ len = 0 ∨ off + len ≤ cap := by
  rw [copy]
  split_ifs with hlen
  · simp [hlen.ne']
  · simp [Nat.eq_zero_of_not_pos hlen]

section

variable {wire payload : Pointer} {cap payloadLen : Nat}

/-- A header that fits is written within the buffer. -/
theorem writeHeader_safe (wire : Pointer) (cap length : Nat) :
    (writeHeader wire cap length).Safe := by
  rw [writeHeader, safe_ite]
  refine ⟨fun _ => safe_pure false, fun hguard => ?_⟩
  have hcap : 9 ≤ cap := not_lt.mp (not_or.mp (not_or.mp hguard).2).1
  simp only [safe_bind, safe_store, safe_pure, and_true]
  omega

theorem writeHeader_value (wire : Pointer) (cap length : Nat) :
    (writeHeader wire cap length).value
      = decide (wire = .valid ∧ frameHeaderLen ≤ cap ∧ length ≤ maxFrameSizeLimit) := by
  rw [writeHeader, value_ite]
  cases wire with
  | null => simp
  | valid =>
      by_cases hguard : cap < frameHeaderLen ∨ length > maxFrameSizeLimit
      · rw [if_pos (.inr hguard), eq_comm]
        simp only [value_pure, decide_eq_false_iff_not]
        omega
      · rw [if_neg (by simp [hguard]), eq_comm]
        simp only [value_bind, value_pure, decide_eq_true_eq, true_and]
        omega

theorem header_sum_lt (h : payloadLen ≤ maxFrameSizeLimit) :
    frameHeaderLen + payloadLen < sizeValues := by
  rw [maxFrameSizeLimit] at h
  rw [frameHeaderLen, sizeValues]
  omega

/-- **The raw encoder** wraps nowhere and stays in the buffer, whatever the length. -/
theorem encodeRaw_safe (wire payload : Pointer) (cap payloadLen : Nat) :
    (encodeRaw wire cap payload payloadLen).Safe := by
  rw [encodeRaw, safe_ite]
  refine ⟨fun _ => safe_pure 0, fun hguard => ?_⟩
  have hsum := header_sum_lt (not_lt.mp (not_or.mp hguard).2)
  rw [safe_bind, safe_add, value_add, Nat.mod_eq_of_lt hsum, safe_ite, safe_ite]
  refine ⟨hsum, fun _ => safe_pure 0, fun hcap => ⟨fun _ => safe_pure 0, fun _ => ?_⟩⟩
  rw [safe_bind, safe_ite, safe_bind, copy_safe, safe_add]
  exact ⟨writeHeader_safe _ _ _, fun _ => safe_pure 0, fun _ => ⟨.inr (not_lt.mp hcap), hsum⟩⟩

/-- **What the raw encoder returns**: the length of the frame, if the frame has a length and there is
room for it. -/
theorem encodeRaw_value (wire payload : Pointer) (cap payloadLen : Nat) :
    (encodeRaw wire cap payload payloadLen).value
      = if wire = .valid ∧ payloadLen ≤ maxFrameSizeLimit ∧ frameHeaderLen + payloadLen ≤ cap
          ∧ (payloadLen = 0 ∨ payload = .valid) then frameHeaderLen + payloadLen else 0 := by
  have hnull : ∀ p : Pointer, p = .null ↔ ¬ p = .valid := by
    intro p
    cases p <;> simp
  rw [encodeRaw, value_ite]
  -- the guards one after the other; behind the first one no sum wraps
  by_cases hguard : wire = .null ∨ payloadLen > maxFrameSizeLimit
  · rw [if_pos hguard, if_neg]
    · rfl
    · rintro ⟨hwire, hlen, -⟩
      rcases hguard with hnone | hlong
      · rw [hwire] at hnone
        cases hnone
      · omega
  · obtain ⟨hwire, hlen⟩ := not_or.mp hguard
    have hwire' : wire = .valid := by simpa [hnull] using hwire
    have hsum := header_sum_lt (not_lt.mp hlen)
    have hcut : payloadLen % 2 ^ 32 = payloadLen := by
      apply Nat.mod_eq_of_lt
      rw [maxFrameSizeLimit] at hlen
      omega
    rw [if_neg hguard, value_bind, value_add, Nat.mod_eq_of_lt hsum, value_ite, value_ite,
      value_bind, value_ite, value_bind, value_add, Nat.mod_eq_of_lt hsum, writeHeader_value, hcut]
    simp only [hwire', hnull, value_pure, not_lt.mp hlen, true_and, and_true]
    by_cases hcap : frameHeaderLen + payloadLen ≤ cap
    · have hheader : frameHeaderLen ≤ cap := le_trans (Nat.le_add_right _ _) hcap
      by_cases hdata : payloadLen = 0 ∨ payload = .valid
      · rw [if_neg (not_lt.mpr hcap), if_neg, if_neg (by simpa using hheader), if_pos ⟨hcap, hdata⟩]
        rintro ⟨hpos, hnone⟩
        rcases hdata with h0 | hvalid
        · omega
        · exact hnone hvalid
      · obtain ⟨hpos, hnone⟩ := not_or.mp hdata
        rw [if_neg (not_lt.mpr hcap), if_pos ⟨Nat.pos_of_ne_zero hpos, hnone⟩,
          if_neg (fun h => hdata h.2)]
    · rw [if_pos (not_le.mp hcap), if_neg (fun h => hcap h.1)]

end

/-- A result of the raw encoder is 0 or the length of the frame. -/
theorem encodeRaw_result (wire payload : Pointer) (cap payloadLen : Nat) :
    (encodeRaw wire cap payload payloadLen).value = 0
      ∨ (encodeRaw wire cap payload payloadLen).value = frameHeaderLen + payloadLen
        ∧ (encodeRaw wire cap payload payloadLen).value ≤ cap := by
  rw [encodeRaw_value]
  split_ifs with h
  · exact .inr ⟨rfl, h.2.2.1⟩
  · exact .inl rfl

/-! ## The encoders -/

section

variable {wire : Pointer} {cap len : Nat} {x y : Metered Nat}

theorem Right.refused : Right cap len (pure 0) := ⟨safe_pure 0, .inl rfl⟩

theorem Right.raw (wire payload : Pointer) : Right cap len (encodeRaw wire cap payload len) :=
  ⟨encodeRaw_safe _ _ _ _, encodeRaw_result _ _ _ _⟩

/-- A guard in front of an encoder. -/
theorem Right.guard {c : Prop} [Decidable c] (h : ¬ c → Right cap len y) :
    Right cap len (if c then pure 0 else y) := by
  by_cases hc : c
  · rw [if_pos hc]
    exact Right.refused
  · rw [if_neg hc]
    exact h hc

/-- A safe step in front of an encoder. -/
theorem Right.after {α : Type} {x : Metered α} {f : α → Metered Nat} (hx : x.Safe)
    (hf : Right cap len (f x.value)) : Right cap len (x >>= f) :=
  ⟨(safe_bind x f).mpr ⟨hx, hf.1⟩, hf.2⟩

/-- The loop over the settings stays within the 96 bytes. -/
theorem encodeSettingsLoop_safe {remaining settingIndex : Nat}
    (h : settingIndex + remaining ≤ 16) : (encodeSettingsLoop remaining settingIndex).Safe := by
  induction remaining generalizing settingIndex with
  | zero => exact safe_pure ()
  | succ remaining ih =>
      have hentry : settingIndex * 6 < sizeValues := by
        rw [sizeValues]
        omega
      have hvalue : settingIndex * 6 + 2 < sizeValues := by
        rw [sizeValues]
        omega
      have hrest := ih (show settingIndex + 1 + remaining ≤ 16 by omega)
      simp only [encodeSettingsLoop, safe_bind, safe_mul, safe_store, safe_add, value_mul,
        value_add, Nat.mod_eq_of_lt hentry, Nat.mod_eq_of_lt hvalue]
      refine ⟨hentry, ?_, hentry, hvalue, ?_, hrest⟩
      · omega
      · omega

theorem encodeSettings_right (flags : UInt8) (settings : Pointer) (settingsLen : Nat) :
    Right cap (6 * settingsLen) (encodeSettings wire cap flags settings settingsLen) := by
  rw [encodeSettings]
  by_cases hack : hasFlag flags flagAck
  · rw [if_pos hack]
    by_cases hzero : settingsLen = 0
    · rw [if_pos hzero, hzero]
      exact Right.raw wire .null
    · rw [if_neg hzero]
      exact Right.refused
  · rw [if_neg hack]
    apply Right.guard
    intro hguard
    have hlen : settingsLen ≤ 16 := not_lt.mp (not_or.mp hguard).1
    have hproduct : settingsLen * 6 < sizeValues := by
      rw [sizeValues]
      omega
    apply Right.after (encodeSettingsLoop_safe (by omega))
    apply Right.after ((safe_mul _ _).mpr hproduct)
    rw [value_mul, Nat.mod_eq_of_lt hproduct, Nat.mul_comm]
    exact Right.raw wire .valid

theorem encodePushPromise_right (streamId : Nat) (flags : UInt8) (promisedStreamId : Nat)
    (headerBlock : Pointer) (headerBlockLen : Nat) :
    Right cap (4 + headerBlockLen) (encodePushPromise wire cap streamId flags promisedStreamId
      headerBlock headerBlockLen) := by
  rw [encodePushPromise]
  apply Right.guard
  intro hguard
  simp only [not_or, defaultMaxFrameSize, not_lt] at hguard
  have hlen : headerBlockLen ≤ 16380 := hguard.2.2.2.2.1
  have hsum : headerBlockLen + 4 < sizeValues := by
    rw [sizeValues]
    omega
  apply Right.after ((safe_store _ _ _).mpr (by decide))
  apply Right.after (copy_safe.mpr (.inr (by rw [defaultMaxFrameSize]; omega)))
  apply Right.after ((safe_add _ _).mpr hsum)
  rw [value_add, Nat.mod_eq_of_lt hsum, Nat.add_comm]
  exact Right.raw wire .valid

theorem encodeGoaway_right (debugData : Pointer) {debugLen : Nat}
    (h : debugLen + 8 < sizeValues) :
    Right cap (8 + debugLen) (encodeGoaway wire cap debugData debugLen) := by
  rw [encodeGoaway]
  apply Right.after ((safe_add _ _).mpr h)
  rw [value_add, Nat.mod_eq_of_lt h]
  apply Right.guard
  intro hguard
  have hlen : debugLen + 8 ≤ 16384 := not_lt.mp (not_or.mp hguard).1
  apply Right.after ((safe_store _ _ _).mpr (by decide))
  apply Right.after ((safe_store _ _ _).mpr (by decide))
  apply Right.after (copy_safe.mpr (.inr (by rw [defaultMaxFrameSize]; omega)))
  apply Right.after ((safe_add _ _).mpr h)
  rw [value_add, Nat.mod_eq_of_lt h, Nat.add_comm]
  exact Right.raw wire .valid

/-- **A call that does not wrap** gets its lengths right. -/
theorem lengthsRight_of_not_wraps {c : Call} (h : ¬ c.Wraps) : c.LengthsRight wire cap := by
  cases c with
  | raw payload payloadLen => exact Right.raw wire payload
  | data | headers | continuation => exact Right.guard fun _ => Right.raw _ _
  | priority =>
      refine Right.guard fun _ => ?_
      apply Right.after ((safe_store _ _ _).mpr (by decide))
      apply Right.after ((safe_store _ _ _).mpr (by decide))
      exact Right.raw wire .valid
  | rstStream | windowUpdate =>
      refine Right.guard fun _ => ?_
      apply Right.after ((safe_store _ _ _).mpr (by decide))
      exact Right.raw wire .valid
  | settings flags entries settingsLen => exact encodeSettings_right flags entries settingsLen
  | pushPromise streamId flags promised headerBlock headerBlockLen =>
      exact encodePushPromise_right streamId flags promised headerBlock headerBlockLen
  | ping opaqueData => exact Right.guard fun _ => Right.raw wire opaqueData
  | goaway debugData debugLen => exact encodeGoaway_right debugData (not_le.mp h)

/-- **Encoder lengths do not wrap**, but for the debug data of a GOAWAY frame that leaves no room
for eight octets more. There the sum in the guard wraps. -/
theorem encoder_lengths_right (wire : Pointer) (cap : Nat) (c : Call) :
    c.LengthsRight wire cap ↔ ¬ c.Wraps := by
  refine ⟨fun hright hwraps => ?_, lengthsRight_of_not_wraps⟩
  cases c with
  | goaway debugData debugLen =>
      have hsafe : (encodeGoaway wire cap debugData debugLen).Safe := hright.1
      rw [encodeGoaway, safe_bind, safe_add] at hsafe
      exact absurd hsafe.1 (not_lt.mpr hwraps)
  | _ => exact hwraps

/-- Debug data of `SIZE_MAX` bytes: the sum in the guard is 7, all of them are copied into the array
of 16384 bytes, and the result is 16. -/
theorem goaway_length_wraps : ¬ (Call.goaway .valid 18446744073709551615).LengthsRight .valid 64
    ∧ Event.store 16384 8 18446744073709551615
      ∈ ((Call.goaway .valid 18446744073709551615).encode .valid 64).events
    ∧ ((Call.goaway .valid 18446744073709551615).encode .valid 64).value = 16 := by
  decide +kernel

end

/-! ## The bytes -/

/-- The lengths of a call of an encoder of bytes. -/
def callOf : EncodeCall → Call
  | .data streamId flags bytes => .data streamId flags .valid bytes.length
  | .headers streamId flags headerBlock => .headers streamId flags .valid headerBlock.length
  | .priority streamId _ => .priority streamId .valid
  | .rstStream streamId _ => .rstStream streamId
  | .settings flags settings => .settings flags .valid settings.length
  | .pushPromise streamId flags promised headerBlock =>
      .pushPromise streamId flags promised .valid headerBlock.length
  | .ping _ _ => .ping .valid
  | .goaway _ _ debugData => .goaway .valid debugData.length
  | .windowUpdate _ increment => .windowUpdate increment
  | .continuation streamId _ headerBlock => .continuation streamId .valid headerBlock.length

/-- The number of bytes written, 0 if the encoder fails. -/
def written (wire : Option (List UInt8)) : Nat := (wire.map List.length).getD 0

/-- A guard in front of both encoders. -/
theorem written_guard {c : Prop} [Decidable c] {x : Metered Nat} {wire : Option (List UInt8)}
    (h : ¬ c → x.value = written wire) :
    (if c then pure 0 else x).value = written (if c then none else wire) := by
  by_cases hc : c
  · rw [if_pos hc, if_pos hc]
    rfl
  · rw [if_neg hc, if_neg hc]
    exact h hc

theorem encodeRaw_written {payload : List UInt8} {payloadLen : Nat}
    (hlen : payload.length = payloadLen) (cap : Nat) (type : FrameType) (flags : UInt8)
    (streamId : Nat) :
    (encodeRaw .valid cap .valid payloadLen).value
      = written (Http2.encodeRaw cap type flags streamId payload) := by
  subst hlen
  rw [encodeRaw_value]
  by_cases h : payload.length ≤ maxFrameSizeLimit ∧ frameHeaderLen + payload.length ≤ cap
  · rw [encodeRaw_eq_wire h.1 h.2, if_pos ⟨rfl, h.1, h.2, .inr rfl⟩, written, Option.map_some,
      Option.getD_some, Frame.wire_length, Frame.of_payload h.1]
  · rw [if_neg (fun hr => h ⟨hr.2.1, hr.2.2.1⟩), Http2.encodeRaw, if_pos (by omega)]
    rfl

theorem encodeRaw_null (wire : Pointer) (cap : Nat) :
    encodeRaw wire cap .null 0 = encodeRaw wire cap .valid 0 := by
  simp [encodeRaw]

/-- **The result is the number of bytes written**, 0 if the encoder fails. -/
theorem encode_written {c : EncodeCall} (h : c.InRange) (cap : Nat) :
    ((callOf c).encode .valid cap).value = written (c.run cap) := by
  cases c with
  | data | headers | continuation => exact written_guard fun _ => encodeRaw_written rfl _ _ _ _
  | priority streamId fields =>
      rw [callOf, Call.encode, encodePriority, EncodeCall.run, Http2.encodePriority]
      simp only [reduceCtorEq, false_or]
      apply written_guard
      intro _
      rw [value_bind, value_bind]
      apply encodeRaw_written
      rfl
  | rstStream streamId errorCode =>
      apply written_guard
      intro _
      rw [value_bind]
      apply encodeRaw_written
      rfl
  | windowUpdate streamId increment =>
      apply written_guard
      intro _
      rw [value_bind]
      apply encodeRaw_written
      rfl
  -- at most 16 entries pass the guard, so the product does not wrap
  | settings flags entries =>
      rw [callOf, Call.encode, encodeSettings, EncodeCall.run, Http2.encodeSettings]
      by_cases hack : hasFlag flags flagAck
      · rw [if_pos hack, if_pos hack]
        by_cases hzero : entries.length = 0
        · rw [if_pos hzero, if_pos hzero, encodeRaw_null]
          apply encodeRaw_written
          rfl
        · rw [if_neg hzero, if_neg hzero]
          rfl
      · rw [if_neg hack, if_neg hack]
        simp only [reduceCtorEq, and_false, or_false]
        apply written_guard
        intro hguard
        have hlen : entries.length ≤ 16 := not_lt.mp hguard
        have hproduct : entries.length * 6 < sizeValues := by
          rw [sizeValues]
          omega
        rw [value_bind, value_bind, value_mul, Nat.mod_eq_of_lt hproduct]
        apply encodeRaw_written
        rw [EncodeCall.settings_payload_length, Nat.mul_comm]
  -- the guard bounds the block, so the sum does not wrap
  | pushPromise streamId flags promised headerBlock =>
      rw [callOf, Call.encode, encodePushPromise, EncodeCall.run, Http2.encodePushPromise]
      simp only [reduceCtorEq, and_false, or_false]
      apply written_guard
      intro hguard
      simp only [not_or, defaultMaxFrameSize, not_lt] at hguard
      have hlen : headerBlock.length ≤ 16380 := hguard.2.2.2.2
      have hsum : headerBlock.length + 4 < sizeValues := by
        rw [sizeValues]
        omega
      rw [value_bind, value_bind, value_bind, value_add, Nat.mod_eq_of_lt hsum]
      apply encodeRaw_written
      rw [List.length_append, writeU32_length, Nat.add_comm]
  | ping flags opaqueData =>
      rw [callOf, Call.encode, encodePing, if_neg (by simp)]
      exact encodeRaw_written h cap .ping flags 0
  -- the sum is formed before it is tested, and may wrap
  | goaway lastStreamId errorCode debugData =>
      rw [callOf, Call.encode, encodeGoaway, EncodeCall.run, Http2.encodeGoaway, value_bind,
        value_add]
      simp only [reduceCtorEq, and_false, or_false]
      apply written_guard
      intro hguard
      rw [value_bind, value_bind, value_bind, value_bind, value_add]
      apply encodeRaw_written
      rw [List.length_take, List.length_append, List.length_append, writeU32_length,
        writeU32_length]
      have hle : (debugData.length + 8) % sizeValues ≤ debugData.length + 8 := Nat.mod_le _ _
      rw [sizeValues] at hle ⊢
      omega

end Lengths

end C11Omo.Http2
