import C11Omo.Http2.Codec

set_option autoImplicit false

/-! # What is encoded is parsed again

The ten frame encoders and the ten payload parsers as one encoder of calls (`EncodeCall.run`) and
one parser (`parsePayload`). An encoder that accepts its arguments writes the frame of the call
(`EncodeCall.run_eq_some`), with the ids cut to the 31 bits they have on the wire; the parsers read
exactly these back (`parsePayload_payload`).

So arguments within the format are read back as they are (`frame_codec_roundtrip`). The encoders
compare the ids with zero before they cut them, and so write frames that the parsers refuse
(`encoded_frame_accepted`).
-/

namespace C11Omo.Http2

open C11Omo.Lib

/-! ## What the header has to say -/

/-- The stream id and the length that a frame type asks for. -/
def HeaderAllowed (header : FrameHeader) : FrameType → Prop
  | .data | .headers | .continuation => header.streamId ≠ 0
  | .priority => header.streamId ≠ 0 ∧ header.length = 5
  | .rstStream => header.streamId ≠ 0 ∧ header.length = 4
  | .settings =>
      header.streamId = 0
        ∧ if hasFlag header.flags flagAck then header.length = 0 else header.length % 6 = 0
  | .pushPromise =>
      header.streamId ≠ 0 ∧ (if hasFlag header.flags flagPadded then 5 else 4) ≤ header.length
  | .ping => header.streamId = 0 ∧ header.length = 8
  | .goaway => header.streamId = 0 ∧ 8 ≤ header.length
  | .windowUpdate => header.length = 4

theorem validatePayload_ok_iff {header : FrameHeader} {t : FrameType}
    (htype : header.type = t.toByte) (hlen : header.length ≤ maxFrameSizeLimit) :
    validatePayload header = .ok ↔ HeaderAllowed header t := by
  rw [validatePayload, if_neg (not_lt.mpr hlen), htype, FrameType.ofByte?_toByte]
  cases t <;> simp only [HeaderAllowed, validateStreamNonzero] <;> split_ifs <;> simp_all

/-! ## Calls -/

/-- A call of a frame encoder, without the buffer. -/
inductive EncodeCall
  | data (streamId : Nat) (flags : UInt8) (data : List UInt8)
  | headers (streamId : Nat) (flags : UInt8) (headerBlock : List UInt8)
  | priority (streamId : Nat) (priority : PriorityPayload)
  | rstStream (streamId errorCode : Nat)
  | settings (flags : UInt8) (settings : List Setting)
  | pushPromise (streamId : Nat) (flags : UInt8) (promisedStreamId : Nat)
      (headerBlock : List UInt8)
  | ping (flags : UInt8) (opaqueData : List UInt8)
  | goaway (lastStreamId errorCode : Nat) (debugData : List UInt8)
  | windowUpdate (streamId increment : Nat)
  | continuation (streamId : Nat) (flags : UInt8) (headerBlock : List UInt8)
  deriving DecidableEq

/-- What the parser of a frame type returns. -/
inductive ParsedPayload
  | data (payload : DataPayload)
  | headers (payload : HeadersPayload)
  | priority (payload : PriorityPayload)
  | rstStream (errorCode : Nat)
  | settings (settings : List Setting)
  | pushPromise (payload : PushPromisePayload)
  | ping (opaqueData : List UInt8)
  | goaway (payload : GoawayPayload)
  | windowUpdate (increment : Nat)
  | continuation (headerBlock : List UInt8)
  deriving DecidableEq

/-- The parser of a frame type; `maxSettings` is the size of the array for settings. -/
def parsePayload (maxSettings : Nat) (type : FrameType) (header : FrameHeader)
    (payload : List UInt8) : Except ErrorCode ParsedPayload :=
  match type with
  | .data => (parseData header payload).map .data
  | .headers => (parseHeaders header payload).map .headers
  | .priority => (parsePriority header payload).map .priority
  | .rstStream => (parseRstStream header payload).map .rstStream
  | .settings => (parseSettings header payload maxSettings).map .settings
  | .pushPromise => (parsePushPromise header payload).map .pushPromise
  | .ping => (parsePing header payload).map .ping
  | .goaway => (parseGoaway header payload).map .goaway
  | .windowUpdate => (parseWindowUpdate header payload).map .windowUpdate
  | .continuation => (parseContinuation header payload).map .continuation

namespace EncodeCall

/-- The encoder of the call. -/
def run (cap : Nat) : EncodeCall → Option (List UInt8)
  | data streamId flags bytes => encodeData cap streamId flags bytes
  | headers streamId flags headerBlock => encodeHeaders cap streamId flags headerBlock
  | priority streamId fields => encodePriority cap streamId fields
  | rstStream streamId errorCode => encodeRstStream cap streamId errorCode
  | settings flags entries => encodeSettings cap flags entries
  | pushPromise streamId flags promised headerBlock =>
      encodePushPromise cap streamId flags promised headerBlock
  | ping flags opaqueData => encodePing cap flags opaqueData
  | goaway lastStreamId errorCode debugData => encodeGoaway cap lastStreamId errorCode debugData
  | windowUpdate streamId increment => encodeWindowUpdate cap streamId increment
  | continuation streamId flags headerBlock => encodeContinuation cap streamId flags headerBlock

def type : EncodeCall → FrameType
  | data .. => .data
  | headers .. => .headers
  | priority .. => .priority
  | rstStream .. => .rstStream
  | settings .. => .settings
  | pushPromise .. => .pushPromise
  | ping .. => .ping
  | goaway .. => .goaway
  | windowUpdate .. => .windowUpdate
  | continuation .. => .continuation

def flags : EncodeCall → UInt8
  | data _ flags _ | headers _ flags _ | settings flags _ | pushPromise _ flags _ _
  | ping flags _ | continuation _ flags _ => flags
  | priority .. | rstStream .. | goaway .. | windowUpdate .. => 0

def streamId : EncodeCall → Nat
  | data streamId .. | headers streamId .. | priority streamId _ | rstStream streamId _
  | pushPromise streamId .. | windowUpdate streamId _ | continuation streamId .. => streamId
  | settings .. | ping .. | goaway .. => 0

/-- The dependency of a PRIORITY frame, below the exclusive bit. -/
def dependencyOctets (fields : PriorityPayload) : List UInt8 :=
  writeU32 (if fields.exclusive then (fields.streamDependency &&& 0x7fffffff) ||| 0x80000000
    else fields.streamDependency &&& 0x7fffffff)

/-- The payload that the encoder writes. -/
def payload : EncodeCall → List UInt8
  | data _ _ bytes => bytes
  | headers _ _ headerBlock => headerBlock
  | priority _ fields => dependencyOctets fields ++ [UInt8.ofNat fields.weight]
  | rstStream _ errorCode => writeU32 errorCode
  | settings _ entries => entries.flatMap fun s => writeU16 s.id ++ writeU32 s.value
  | pushPromise _ _ promised headerBlock => writeU32 (promised &&& 0x7fffffff) ++ headerBlock
  | ping _ opaqueData => opaqueData
  | goaway lastStreamId errorCode debugData =>
      (writeU32 (lastStreamId &&& 0x7fffffff) ++ writeU32 errorCode ++ debugData).take
        ((debugData.length + 8) % 18446744073709551616)
  | windowUpdate _ increment => writeU32 increment
  | continuation _ _ headerBlock => headerBlock

/-- The length of the payload in the caller's terms. -/
def payloadLength : EncodeCall → Nat
  | data _ _ bytes => bytes.length
  | headers _ _ headerBlock => headerBlock.length
  | priority .. => 5
  | rstStream .. => 4
  | settings _ entries => 6 * entries.length
  | pushPromise _ _ _ headerBlock => 4 + headerBlock.length
  | ping .. => 8
  | goaway _ _ debugData => 8 + debugData.length
  | windowUpdate .. => 4
  | continuation _ _ headerBlock => headerBlock.length

/-- The arguments are values of their C types. -/
def InRange : EncodeCall → Prop
  | data streamId _ bytes => streamId < 2 ^ 32 ∧ bytes.length < 2 ^ 64
  | headers streamId _ headerBlock => streamId < 2 ^ 32 ∧ headerBlock.length < 2 ^ 64
  | priority streamId fields =>
      streamId < 2 ^ 32 ∧ fields.streamDependency < 2 ^ 32 ∧ fields.weight < 2 ^ 8
  | rstStream streamId errorCode => streamId < 2 ^ 32 ∧ errorCode < 2 ^ 32
  | settings _ entries =>
      entries.length < 2 ^ 64 ∧ ∀ s ∈ entries, s.id < 2 ^ 16 ∧ s.value < 2 ^ 32
  | pushPromise streamId _ promised headerBlock =>
      streamId < 2 ^ 32 ∧ promised < 2 ^ 32 ∧ headerBlock.length < 2 ^ 64
  | ping _ opaqueData => opaqueData.length = 8
  | goaway lastStreamId errorCode debugData =>
      lastStreamId < 2 ^ 32 ∧ errorCode < 2 ^ 32 ∧ debugData.length < 2 ^ 64
  | windowUpdate streamId increment => streamId < 2 ^ 32 ∧ increment < 2 ^ 32
  | continuation streamId _ headerBlock => streamId < 2 ^ 32 ∧ headerBlock.length < 2 ^ 64

/-- The arguments pass the guards of the encoder that come before the raw encoder. -/
def Accepted : EncodeCall → Prop
  | data streamId flags _ => streamId ≠ 0 ∧ hasFlag flags flagPadded = false
  | headers streamId flags _ =>
      streamId ≠ 0 ∧ hasFlag flags (flagPadded ||| flagPriority) = false
  | priority streamId _ => streamId ≠ 0
  | rstStream streamId _ => streamId ≠ 0
  | settings flags entries => if hasFlag flags flagAck then entries = [] else entries.length ≤ 16
  | pushPromise streamId flags promised headerBlock =>
      streamId ≠ 0 ∧ promised ≠ 0 ∧ hasFlag flags flagPadded = false
        ∧ headerBlock.length ≤ 16380
  | ping _ _ => True
  | goaway _ _ debugData => (debugData.length + 8) % 18446744073709551616 ≤ 16384
  | windowUpdate _ increment => increment ≠ 0 ∧ increment &&& 0x80000000 = 0
  | continuation streamId _ _ => streamId ≠ 0

/-- The flags on the wire: an acknowledgement of settings carries no other flag. -/
def wireFlags : EncodeCall → UInt8
  | settings flags _ => if hasFlag flags flagAck then flagAck else flags
  | c => c.flags

/-- The fields of the call as the parser returns them. -/
def content : EncodeCall → ParsedPayload
  | data _ _ bytes => .data { data := bytes, padLen := 0 }
  | headers _ _ headerBlock =>
      .headers { headerBlock := headerBlock, padLen := 0, priority := none }
  | priority _ fields => .priority fields
  | rstStream _ errorCode => .rstStream errorCode
  | settings _ entries => .settings entries
  | pushPromise _ _ promised headerBlock =>
      .pushPromise { promisedStreamId := promised, headerBlock := headerBlock, padLen := 0 }
  | ping _ opaqueData => .ping opaqueData
  | goaway lastStreamId errorCode debugData =>
      .goaway { lastStreamId := lastStreamId, errorCode := errorCode, debugData := debugData }
  | windowUpdate _ increment => .windowUpdate increment
  | continuation _ _ headerBlock => .continuation headerBlock

/-- The call with its ids cut to the 31 bits they have on the wire. -/
def cut : EncodeCall → EncodeCall
  | data streamId flags bytes => data (streamId % 2 ^ 31) flags bytes
  | headers streamId flags headerBlock => headers (streamId % 2 ^ 31) flags headerBlock
  | priority streamId fields =>
      priority (streamId % 2 ^ 31)
        { fields with streamDependency := fields.streamDependency % 2 ^ 31 }
  | rstStream streamId errorCode => rstStream (streamId % 2 ^ 31) errorCode
  | settings flags entries => settings flags entries
  | pushPromise streamId flags promised headerBlock =>
      pushPromise (streamId % 2 ^ 31) flags (promised % 2 ^ 31) headerBlock
  | ping flags opaqueData => ping flags opaqueData
  | goaway lastStreamId errorCode debugData =>
      goaway (lastStreamId % 2 ^ 31) errorCode debugData
  | windowUpdate streamId increment => windowUpdate (streamId % 2 ^ 31) increment
  | continuation streamId flags headerBlock => continuation (streamId % 2 ^ 31) flags headerBlock

/-- The number of settings that the parser has to hold. -/
def settingsCount : EncodeCall → Nat
  | settings _ entries => entries.length
  | _ => 0

/-! ## The frame of a call -/

theorem run_of_accepted {c : EncodeCall} (h : c.Accepted) (cap : Nat) :
    c.run cap = encodeRaw cap c.type c.wireFlags c.streamId c.payload := by
  cases c with
  | data streamId flags bytes =>
      obtain ⟨hid, hflags⟩ := h
      rw [run, encodeData, if_neg (by simp [hid, hflags])]
      rfl
  | headers streamId flags headerBlock =>
      obtain ⟨hid, hflags⟩ := h
      rw [run, encodeHeaders, if_neg (by simp [hid, hflags])]
      rfl
  | priority streamId fields =>
      rw [run, encodePriority, if_neg h]
      rfl
  | rstStream streamId errorCode =>
      rw [run, encodeRstStream, if_neg h]
      rfl
  -- the one encoder whose guard depends on a flag
  | settings flags entries =>
      rw [Accepted] at h
      rw [run, encodeSettings, wireFlags]
      split_ifs at h ⊢ with hack hlen hlen
      · rw [h]
        rfl
      · exact absurd (by rw [h]; rfl) hlen
      · omega
      · rfl
  -- the first half of the guard on the length only says that the sum does not wrap
  | pushPromise streamId flags promised headerBlock =>
      obtain ⟨hid, hpromised, hflags, hlen⟩ := h
      have hsize : ¬ (headerBlock.length > 18446744073709551615 - 4
          ∨ headerBlock.length > defaultMaxFrameSize - 4) := by
        simp only [defaultMaxFrameSize]
        omega
      rw [run, encodePushPromise, if_neg (by simp only [hid, hpromised, hflags]; simpa using hsize)]
      rfl
  | ping flags opaqueData => rfl
  | goaway lastStreamId errorCode debugData =>
      rw [run, encodeGoaway]
      exact if_neg (not_lt.mpr h)
  | windowUpdate streamId increment =>
      obtain ⟨hzero, htop⟩ := h
      rw [run, encodeWindowUpdate, if_neg (by simp [hzero, htop])]
      rfl
  | continuation streamId flags headerBlock =>
      rw [run, encodeContinuation, if_neg h]
      rfl

theorem accepted_of_run {c : EncodeCall} {cap : Nat} {wire : List UInt8}
    (h : c.run cap = some wire) : c.Accepted := by
  cases c with
  | data streamId flags bytes =>
      rw [run, encodeData] at h
      split_ifs at h with hguard
      rw [not_or, Bool.not_eq_true] at hguard
      exact hguard
  | headers streamId flags headerBlock =>
      rw [run, encodeHeaders] at h
      split_ifs at h with hguard
      rw [not_or, Bool.not_eq_true] at hguard
      exact hguard
  | priority streamId fields =>
      intro hid
      rw [run, encodePriority, if_pos hid] at h
      cases h
  | rstStream streamId errorCode =>
      rw [run, encodeRstStream] at h
      split_ifs at h with hguard
      exact hguard
  | settings flags entries =>
      rw [run, encodeSettings] at h
      rw [Accepted]
      split_ifs at h ⊢ with hack hlen hlen
      · exact List.eq_nil_of_length_eq_zero hlen
      · omega
  | pushPromise streamId flags promised headerBlock =>
      rw [run, encodePushPromise] at h
      split_ifs at h with hguard
      simp only [not_or, defaultMaxFrameSize, not_lt, Bool.not_eq_true] at hguard
      exact ⟨hguard.1, hguard.2.1, hguard.2.2.1, hguard.2.2.2.2⟩
  | ping flags opaqueData => trivial
  | goaway lastStreamId errorCode debugData =>
      refine not_lt.mp fun hguard => ?_
      rw [run, encodeGoaway] at h
      simp only [defaultMaxFrameSize, gt_iff_lt, if_pos hguard] at h
      cases h
  | windowUpdate streamId increment =>
      rw [run, encodeWindowUpdate] at h
      split_ifs at h with hguard
      rw [not_or, not_not] at hguard
      exact hguard
  | continuation streamId flags headerBlock =>
      rw [run, encodeContinuation] at h
      split_ifs at h with hguard
      exact hguard

/-- The frame of a call. -/
def frame (c : EncodeCall) : Frame := Frame.of c.type.toByte c.wireFlags c.streamId c.payload

theorem encodeRaw_some {cap : Nat} {type : FrameType} {flags : UInt8} {streamId : Nat}
    {payload wire : List UInt8} (h : encodeRaw cap type flags streamId payload = some wire) :
    payload.length ≤ maxFrameSizeLimit ∧ frameHeaderLen + payload.length ≤ cap
      ∧ wire = (Frame.of type.toByte flags streamId payload).wire := by
  have hguard : ¬ (payload.length > maxFrameSizeLimit
      ∨ cap < frameHeaderLen + payload.length) := by
    intro hguard
    rw [encodeRaw, if_pos hguard] at h
    cases h
  obtain ⟨hlen, hcap⟩ := not_or.mp hguard
  rw [encodeRaw_eq_wire (not_lt.mp hlen) (not_lt.mp hcap)] at h
  exact ⟨not_lt.mp hlen, not_lt.mp hcap, (Option.some.inj h).symm⟩

/-- **An encoder writes the frame of the call** if the call is accepted and fits. -/
theorem run_eq_some {c : EncodeCall} {cap : Nat} {wire : List UInt8} :
    c.run cap = some wire
      ↔ c.Accepted ∧ c.payload.length ≤ maxFrameSizeLimit
        ∧ frameHeaderLen + c.payload.length ≤ cap ∧ wire = c.frame.wire := by
  constructor
  · intro h
    have hacc := accepted_of_run h
    rw [run_of_accepted hacc] at h
    exact ⟨hacc, encodeRaw_some h⟩
  · rintro ⟨hacc, hlen, hcap, rfl⟩
    rw [run_of_accepted hacc]
    exact encodeRaw_eq_wire hlen hcap _ _ _

/-- The header of the frame of a call. -/
theorem frame_header {c : EncodeCall} (hlen : c.payload.length ≤ maxFrameSizeLimit) :
    c.frame.header
      = { length := c.payload.length
          type := c.type.toByte
          flags := c.wireFlags
          streamId := c.streamId % 2 ^ 31 } := by
  rw [frame, Frame.header, Frame.of_payload hlen]
  rfl

end EncodeCall

/-! ## The parsers on what was written

The header has the length of the payload, and any bytes may follow. -/

theorem hasFlag_or : ∀ flags : UInt8, hasFlag flags (flagPadded ||| flagPriority) = false →
    hasFlag flags flagPadded = false ∧ hasFlag flags flagPriority = false :=
  forall_octet (by decide +kernel)

theorem parseData_written {flags : UInt8} {streamId : Nat} {bytes : List UInt8}
    (hflags : hasFlag flags flagPadded = false) (hlen : bytes.length ≤ maxFrameSizeLimit)
    (tail : List UInt8) (p : DataPayload) :
    parseData ⟨bytes.length, FrameType.data.toByte, flags, streamId⟩ (bytes ++ tail) = .ok p
      ↔ streamId ≠ 0 ∧ p = { data := bytes, padLen := 0 } := by
  have hvalid := @validatePayload_ok_iff ⟨bytes.length, FrameType.data.toByte, flags, streamId⟩
    .data rfl hlen
  by_cases hid : streamId ≠ 0
  · rw [parseData, if_neg (by simpa using hvalid.mpr hid), if_neg (by simp [hflags]),
      List.take_left]
    simp [hid, eq_comm]
  · rw [parseData, if_pos (Or.inr (mt hvalid.mp hid))]
    simp [hid]

theorem parseHeaders_written {flags : UInt8} {streamId : Nat} {headerBlock : List UInt8}
    (hflags : hasFlag flags (flagPadded ||| flagPriority) = false)
    (hlen : headerBlock.length ≤ maxFrameSizeLimit) (tail : List UInt8) (p : HeadersPayload) :
    parseHeaders ⟨headerBlock.length, FrameType.headers.toByte, flags, streamId⟩
        (headerBlock ++ tail) = .ok p
      ↔ streamId ≠ 0 ∧ p = { headerBlock := headerBlock, padLen := 0, priority := none } := by
  have hvalid := @validatePayload_ok_iff
    ⟨headerBlock.length, FrameType.headers.toByte, flags, streamId⟩ .headers rfl hlen
  obtain ⟨hpadded, hpriority⟩ := hasFlag_or flags hflags
  by_cases hid : streamId ≠ 0
  · rw [parseHeaders, if_neg (by simpa using hvalid.mpr hid), if_neg (by simp [hpadded]),
      parseHeadersBlock, if_neg (by simp [hpriority]), List.drop_zero, List.take_left]
    simp [hid, eq_comm]
  · rw [parseHeaders, if_pos (Or.inr (mt hvalid.mp hid))]
    simp [hid]

/-- The dependency on the wire: the exclusive bit above 31 bits. -/
theorem dependencyOctets_read (fields : PriorityPayload) (rest : List UInt8) :
    readU31 (EncodeCall.dependencyOctets fields ++ rest) = fields.streamDependency % 2 ^ 31
      ∧ (byteAt (EncodeCall.dependencyOctets fields ++ rest) 0 &&& 0x80 ≠ 0 ↔ fields.exclusive)
      ∧ byteAt (EncodeCall.dependencyOctets fields ++ rest) 4 = byteAt rest 0 := by
  have hmask : fields.streamDependency &&& 0x7fffffff = fields.streamDependency % 2 ^ 31 :=
    Nat.and_two_pow_sub_one_eq_mod _ 31
  have hlt := Nat.mod_lt fields.streamDependency (by decide : 0 < 2 ^ 31)
  have htop : fields.streamDependency % 2 ^ 31 ||| 0x80000000
      = 2 ^ 31 + fields.streamDependency % 2 ^ 31 := by
    rw [Nat.or_comm]
    exact (shiftLeft_or hlt 1).trans (by omega)
  rw [EncodeCall.dependencyOctets, hmask, htop, readU31_writeU32]
  have hbyte : ∀ n : Nat, byteAt (writeU32 n ++ rest) 0 &&& 0x80 ≠ 0 ↔ 128 ≤ n / 2 ^ 24 % 256 := by
    intro n
    have hfirst : byteAt (writeU32 n ++ rest) 0 = n / 2 ^ 24 % 256 := by
      rw [writeU32, List.cons_append, byteAt_cons_zero, UInt8.toNat_ofNat',
        Nat.shiftRight_eq_div_pow]
    have hbits := and_128_eq_zero (byteAt_lt (writeU32 n ++ rest) 0)
    rw [← hfirst, Ne, hbits, not_lt]
  refine ⟨?_, ?_, rfl⟩
  · split <;> omega
  · rw [hbyte]
    cases fields.exclusive with
    | true =>
        simp only [if_true, iff_true]
        omega
    | false =>
        simp only [Bool.false_eq_true, if_false, iff_false]
        omega

theorem parsePriority_written {streamId : Nat} {fields : PriorityPayload}
    (hweight : fields.weight < 2 ^ 8) (tail : List UInt8) (p : PriorityPayload) :
    parsePriority ⟨5, FrameType.priority.toByte, 0, streamId⟩
        (EncodeCall.dependencyOctets fields ++ [UInt8.ofNat fields.weight] ++ tail) = .ok p
      ↔ (streamId ≠ 0 ∧ fields.streamDependency % 2 ^ 31 ≠ streamId)
        ∧ p = { fields with streamDependency := fields.streamDependency % 2 ^ 31 } := by
  have hvalid := @validatePayload_ok_iff ⟨5, FrameType.priority.toByte, 0, streamId⟩ .priority rfl
    (by simp [maxFrameSizeLimit])
  simp only [HeaderAllowed, and_true] at hvalid
  obtain ⟨hread, hexclusive, hlast⟩ :=
    dependencyOctets_read fields ([UInt8.ofNat fields.weight] ++ tail)
  have hw : byteAt ([UInt8.ofNat fields.weight] ++ tail) 0 = fields.weight := by
    rw [List.cons_append, byteAt_cons_zero, UInt8.toNat_ofNat', Nat.mod_eq_of_lt hweight]
  by_cases hid : streamId ≠ 0
  · rw [parsePriority, if_neg (by simpa using hvalid.mpr hid), List.append_assoc, hread, hlast, hw]
    by_cases hself : fields.streamDependency % 2 ^ 31 = streamId
    · rw [if_pos hself]
      exact iff_of_false (fun h => by cases h) fun h => h.1.2 hself
    · rw [if_neg hself, Except.ok.injEq]
      simp only [hexclusive, Bool.decide_eq_true]
      exact ⟨fun h => ⟨⟨hid, hself⟩, h.symm⟩, fun h => h.2.symm⟩
  · rw [parsePriority, if_pos (Or.inr (mt hvalid.mp hid))]
    simp [hid]

theorem parseRstStream_written {streamId errorCode : Nat} (hcode : errorCode < 2 ^ 32)
    (tail : List UInt8) (p : Nat) :
    parseRstStream ⟨4, FrameType.rstStream.toByte, 0, streamId⟩ (writeU32 errorCode ++ tail)
        = .ok p
      ↔ streamId ≠ 0 ∧ p = errorCode := by
  have hvalid := @validatePayload_ok_iff ⟨4, FrameType.rstStream.toByte, 0, streamId⟩ .rstStream
    rfl (by simp [maxFrameSizeLimit])
  simp only [HeaderAllowed, and_true] at hvalid
  rw [parseRstStream, if_neg (not_not.mpr rfl), readU32_writeU32, Nat.mod_eq_of_lt hcode]
  by_cases hid : streamId ≠ 0
  · rw [if_neg (not_not.mpr (hvalid.mpr hid))]
    simp [hid, eq_comm]
  · rw [if_pos (mt hvalid.mp hid)]
    simp [hid]

theorem readU16_writeU16 (value : Nat) (rest : List UInt8) :
    readU16 (writeU16 value ++ rest) = value % 2 ^ 16 := by
  have hhigh : (UInt8.ofNat (value >>> 8)).toNat = value / 2 ^ 8 % 256 := by
    rw [UInt8.toNat_ofNat', Nat.shiftRight_eq_div_pow]
  have hlow : (UInt8.ofNat value).toNat = value % 256 := UInt8.toNat_ofNat'
  rw [readU16, writeU16]
  simp only [List.cons_append, byteAt_cons_zero, byteAt_cons_succ]
  rw [shiftLeft_or (UInt8.toNat_lt _), hhigh, hlow]
  omega

/-- The entries are read back one by one. -/
theorem settings_read {entries : List Setting}
    (hrange : ∀ s ∈ entries, s.id < 2 ^ 16 ∧ s.value < 2 ^ 32) {wire tail : List UInt8}
    (hwire : wire = (entries.flatMap fun s => writeU16 s.id ++ writeU32 s.value) ++ tail) :
    ((List.range entries.length).map fun i =>
      (⟨readU16 (wire.drop (i * 6)), readU32 (wire.drop (i * 6 + 2))⟩ : Setting)) = entries := by
  induction entries generalizing wire with
  | nil => rfl
  | cons s entries ih =>
      obtain ⟨hid, hvalue⟩ := hrange s (List.mem_cons_self ..)
      have hrest := ih (fun s' hs' => hrange s' (List.mem_cons_of_mem _ hs')) rfl
      have hsplit : wire = writeU16 s.id ++ (writeU32 s.value
          ++ ((entries.flatMap fun s => writeU16 s.id ++ writeU32 s.value) ++ tail)) := by
        rw [hwire, List.flatMap_cons]
        simp only [List.append_assoc]
      have hreadId : readU16 (wire.drop (0 * 6)) = s.id := by
        rw [hsplit]
        exact (readU16_writeU16 _ _).trans (Nat.mod_eq_of_lt hid)
      have hreadValue : readU32 (wire.drop (0 * 6 + 2)) = s.value := by
        rw [hsplit]
        exact (readU32_writeU32 _ _).trans (Nat.mod_eq_of_lt hvalue)
      -- behind the first entry the offsets are those of the rest
      have hdrop : ∀ k, wire.drop (6 + k)
          = ((entries.flatMap fun s => writeU16 s.id ++ writeU32 s.value) ++ tail).drop k := by
        intro k
        rw [hsplit, ← List.drop_drop]
        rfl
      rw [List.length_cons, List.range_succ_eq_map, List.map_cons, List.map_map, hreadId,
        hreadValue]
      refine congrArg (s :: ·) ((List.map_congr_left fun i _ => ?_).trans hrest)
      have h1 : (i + 1) * 6 = 6 + i * 6 := by omega
      have h2 : (i + 1) * 6 + 2 = 6 + (i * 6 + 2) := by omega
      show (⟨readU16 (wire.drop ((i + 1) * 6)), readU32 (wire.drop ((i + 1) * 6 + 2))⟩ : Setting)
        = _
      rw [h2, h1, hdrop, hdrop]

theorem parseSettings_written {flags : UInt8} {entries : List Setting} {maxSettings : Nat}
    (hflags : if hasFlag flags flagAck then entries = [] else entries.length ≤ maxSettings)
    (hlen : 6 * entries.length ≤ maxFrameSizeLimit)
    (hrange : ∀ s ∈ entries, s.id < 2 ^ 16 ∧ s.value < 2 ^ 32) (tail : List UInt8)
    (p : List Setting) :
    parseSettings ⟨6 * entries.length, FrameType.settings.toByte, flags, 0⟩
        ((entries.flatMap fun s => writeU16 s.id ++ writeU32 s.value) ++ tail) maxSettings = .ok p
      ↔ p = entries := by
  have hvalid := @validatePayload_ok_iff ⟨6 * entries.length, FrameType.settings.toByte, flags, 0⟩
    .settings rfl hlen
  simp only [HeaderAllowed, true_and] at hvalid
  rw [parseSettings, if_neg (not_not.mpr rfl)]
  split_ifs at hflags with hack
  · subst hflags
    rw [if_neg (not_not.mpr (hvalid.mpr (by simp [hack]))), if_pos hack]
    simp [eq_comm]
  · have hcount : 6 * entries.length / 6 = entries.length := Nat.mul_div_cancel_left _ (by decide)
    rw [if_neg (not_not.mpr (hvalid.mpr (by simp [hack]))), if_neg hack]
    simp only [hcount]
    rw [if_neg (not_lt.mpr hflags), settings_read hrange rfl]
    simp [eq_comm]

theorem parsePushPromise_written {flags : UInt8} {streamId promised : Nat}
    {headerBlock : List UInt8} (hflags : hasFlag flags flagPadded = false)
    (hlen : headerBlock.length ≤ 16380) (tail : List UInt8) (p : PushPromisePayload) :
    parsePushPromise ⟨4 + headerBlock.length, FrameType.pushPromise.toByte, flags, streamId⟩
        (writeU32 (promised &&& 0x7fffffff) ++ headerBlock ++ tail) = .ok p
      ↔ streamId ≠ 0
        ∧ p = { promisedStreamId := promised % 2 ^ 31, headerBlock := headerBlock, padLen := 0 } := by
  have hmask : promised &&& 0x7fffffff = promised % 2 ^ 31 := Nat.and_two_pow_sub_one_eq_mod _ 31
  have hvalid := @validatePayload_ok_iff
    ⟨4 + headerBlock.length, FrameType.pushPromise.toByte, flags, streamId⟩ .pushPromise rfl
    (by simp only [maxFrameSizeLimit]; omega)
  simp only [HeaderAllowed, hflags] at hvalid
  have hlength : (if false = true then 5 else 4) ≤ 4 + headerBlock.length := by simp
  have hblock : ((writeU32 (promised % 2 ^ 31) ++ (headerBlock ++ tail)).drop 4).take
      headerBlock.length = headerBlock := by
    rw [List.drop_left' (writeU32_length _), List.take_left]
  by_cases hid : streamId ≠ 0
  · rw [parsePushPromise, if_neg (by simpa using hvalid.mpr ⟨hid, hlength⟩),
      if_neg (by simp [hflags]), parsePushPromiseBlock, if_neg (by simp), hmask, List.append_assoc,
      List.drop_zero, readU31_writeU32, Nat.mod_mod]
    simp only [Nat.zero_add, Nat.add_sub_cancel_left, hblock]
    simp [hid, eq_comm]
  · rw [parsePushPromise, if_pos (Or.inr (mt hvalid.mp fun h => hid h.1))]
    simp [hid]

theorem parsePing_written {flags : UInt8} {opaqueData : List UInt8} (hlen : opaqueData.length = 8)
    (tail : List UInt8) (p : List UInt8) :
    parsePing ⟨opaqueData.length, FrameType.ping.toByte, flags, 0⟩ (opaqueData ++ tail) = .ok p
      ↔ p = opaqueData := by
  have hvalid := @validatePayload_ok_iff ⟨opaqueData.length, FrameType.ping.toByte, flags, 0⟩ .ping
    rfl (by simp [hlen, maxFrameSizeLimit])
  rw [parsePing, if_neg (not_not.mpr rfl), if_neg (not_not.mpr (hvalid.mpr ⟨rfl, hlen⟩)), ← hlen,
    List.take_left]
  simp [eq_comm]

theorem parseGoaway_written {lastStreamId errorCode : Nat} {debugData : List UInt8}
    (hcode : errorCode < 2 ^ 32) (hlen : debugData.length ≤ 16376) (tail : List UInt8)
    (p : GoawayPayload) :
    parseGoaway ⟨8 + debugData.length, FrameType.goaway.toByte, 0, 0⟩
        (writeU32 (lastStreamId &&& 0x7fffffff) ++ writeU32 errorCode ++ debugData ++ tail) = .ok p
      ↔ p = { lastStreamId := lastStreamId % 2 ^ 31
              errorCode := errorCode
              debugData := debugData } := by
  have hmask : lastStreamId &&& 0x7fffffff = lastStreamId % 2 ^ 31 :=
    Nat.and_two_pow_sub_one_eq_mod _ 31
  have hvalid := @validatePayload_ok_iff ⟨8 + debugData.length, FrameType.goaway.toByte, 0, 0⟩
    .goaway rfl (by simp only [maxFrameSizeLimit]; omega)
  have hcut : ∀ rest : List UInt8,
      (writeU32 (lastStreamId % 2 ^ 31) ++ (writeU32 errorCode ++ rest)).drop 8 = rest :=
    fun _ => rfl
  rw [parseGoaway, if_neg (not_not.mpr rfl),
    if_neg (not_not.mpr (hvalid.mpr ⟨rfl, Nat.le_add_right _ _⟩)), hmask, List.append_assoc,
    List.append_assoc, readU31_writeU32, Nat.mod_mod, List.drop_left' (writeU32_length _),
    readU32_writeU32, Nat.mod_eq_of_lt hcode, hcut]
  simp [eq_comm]

/-- A debug length whose sum with the eight other bytes wraps gives a payload that is too short. -/
theorem parseGoaway_wrapped {payload : List UInt8} (hlen : payload.length < 8) (tail : List UInt8)
    (p : GoawayPayload) :
    parseGoaway ⟨payload.length, FrameType.goaway.toByte, 0, 0⟩ (payload ++ tail) ≠ .ok p := by
  have hvalid := @validatePayload_ok_iff ⟨payload.length, FrameType.goaway.toByte, 0, 0⟩
    .goaway rfl (by simp only [maxFrameSizeLimit]; omega)
  rw [parseGoaway, if_neg (not_not.mpr rfl),
    if_pos (mt hvalid.mp fun h => not_le.mpr hlen h.2)]
  intro h
  cases h

theorem parseWindowUpdate_written {streamId increment : Nat} (hpos : increment ≠ 0)
    (htop : increment < 2 ^ 31) (tail : List UInt8) (p : Nat) :
    parseWindowUpdate ⟨4, FrameType.windowUpdate.toByte, 0, streamId⟩
        (writeU32 increment ++ tail) = .ok p
      ↔ p = increment := by
  have hvalid := @validatePayload_ok_iff ⟨4, FrameType.windowUpdate.toByte, 0, streamId⟩
    .windowUpdate rfl (by simp [maxFrameSizeLimit])
  rw [parseWindowUpdate, if_neg (not_not.mpr rfl), if_neg (not_not.mpr (hvalid.mpr rfl)),
    readU31_writeU32, Nat.mod_eq_of_lt htop, if_neg hpos]
  simp [eq_comm]

theorem parseContinuation_written {flags : UInt8} {streamId : Nat} {headerBlock : List UInt8}
    (hlen : headerBlock.length ≤ maxFrameSizeLimit) (tail p : List UInt8) :
    parseContinuation ⟨headerBlock.length, FrameType.continuation.toByte, flags, streamId⟩
        (headerBlock ++ tail) = .ok p
      ↔ streamId ≠ 0 ∧ p = headerBlock := by
  have hvalid := @validatePayload_ok_iff
    ⟨headerBlock.length, FrameType.continuation.toByte, flags, streamId⟩ .continuation rfl hlen
  by_cases hid : streamId ≠ 0
  · rw [parseContinuation, if_neg (by simpa using hvalid.mpr hid), List.take_left]
    simp [hid, eq_comm]
  · rw [parseContinuation, if_pos (Or.inr (mt hvalid.mp hid))]
    simp [hid]

theorem map_ok_iff {α β : Type} {r : Except ErrorCode α} {P : Prop} {a : α}
    (h : ∀ x, r = .ok x ↔ P ∧ x = a) (f : α → β) (y : β) : r.map f = .ok y ↔ P ∧ y = f a := by
  rcases r with ret | b
  · refine iff_of_false (fun h' => by cases h') fun h' => ?_
    cases (h a).mpr ⟨h'.1, rfl⟩
  · obtain ⟨hP, rfl⟩ := (h b).mp rfl
    constructor
    · intro h'
      exact ⟨hP, (Except.ok.inj h').symm⟩
    · rintro ⟨-, rfl⟩
      rfl

namespace EncodeCall

/-- What the parser asks of the call as it stands on the wire. -/
def Readable : EncodeCall → Prop
  | data streamId .. | headers streamId .. | rstStream streamId _ | pushPromise streamId ..
  | continuation streamId .. => streamId % 2 ^ 31 ≠ 0
  | priority streamId fields =>
      streamId % 2 ^ 31 ≠ 0 ∧ fields.streamDependency % 2 ^ 31 ≠ streamId % 2 ^ 31
  | goaway _ _ debugData => debugData.length + 8 < 2 ^ 64
  | settings .. | ping .. | windowUpdate .. => True

theorem settings_payload_length (entries : List Setting) :
    (entries.flatMap fun s => writeU16 s.id ++ writeU32 s.value).length = 6 * entries.length := by
  induction entries with
  | nil => rfl
  | cons s entries ih =>
      have hone : (writeU16 s.id ++ writeU32 s.value).length = 6 := rfl
      rw [List.flatMap_cons, List.length_append, ih, hone, List.length_cons]
      omega

/-- **What is written is read back**, with the ids cut to 31 bits, if it is readable at all. -/
theorem parsePayload_payload {c : EncodeCall} (hacc : c.Accepted) (hrange : c.InRange)
    (hlen : c.payload.length ≤ maxFrameSizeLimit) {maxSettings : Nat}
    (hmax : c.settingsCount ≤ maxSettings) (tail : List UInt8) (p : ParsedPayload) :
    parsePayload maxSettings c.type c.frame.header (c.payload ++ tail) = .ok p
      ↔ c.Readable ∧ p = c.cut.content := by
  rw [frame_header hlen]
  cases c with
  | data streamId flags bytes => exact map_ok_iff (parseData_written hacc.2 hlen tail) _ p
  | headers streamId flags headerBlock =>
      exact map_ok_iff (parseHeaders_written hacc.2 hlen tail) _ p
  | priority streamId fields =>
      exact map_ok_iff (parsePriority_written hrange.2.2 tail) _ p
  | rstStream streamId errorCode => exact map_ok_iff (parseRstStream_written hrange.2 tail) _ p
  -- an acknowledgement is empty, and any other list fits the array of the reader
  | settings flags entries =>
      have hlength := settings_payload_length entries
      have hflags : if hasFlag (wireFlags (.settings flags entries)) flagAck then entries = []
          else entries.length ≤ maxSettings := by
        rw [Accepted] at hacc
        rw [wireFlags]
        split_ifs at hacc ⊢ with hack hself
        · exact hacc
        · exact absurd (by decide) hself
        · exact hmax
      refine map_ok_iff (fun x => ?_) _ p
      have hwritten := parseSettings_written hflags (by rwa [payload, hlength] at hlen) hrange.2
        tail x
      simp only [payload, hlength, Readable, true_and]
      exact hwritten
  | pushPromise streamId flags promised headerBlock =>
      refine map_ok_iff (fun x => ?_) _ p
      have hwritten := @parsePushPromise_written flags (streamId % 2 ^ 31) promised headerBlock
        hacc.2.2.1 hacc.2.2.2 tail x
      simp only [payload, List.length_append, writeU32_length]
      exact hwritten
  | ping flags opaqueData =>
      refine map_ok_iff (fun x => ?_) _ p
      rw [Readable, true_and]
      exact parsePing_written hrange tail x
  -- `8 + debug_len` may have wrapped, and then too little has been written to be read
  | goaway lastStreamId errorCode debugData =>
      have hbytes : (writeU32 (lastStreamId &&& 0x7fffffff) ++ writeU32 errorCode
          ++ debugData).length = 8 + debugData.length := by
        rw [List.length_append]
        rfl
      rw [Accepted] at hacc
      refine map_ok_iff (fun x => ?_) _ p
      by_cases hwrap : debugData.length + 8 < 2 ^ 64
      · have hwritten := @parseGoaway_written lastStreamId errorCode debugData hrange.2.1 (by omega)
          tail x
        have hall : (writeU32 (lastStreamId &&& 0x7fffffff) ++ writeU32 errorCode
            ++ debugData).length ≤ (debugData.length + 8) % 18446744073709551616 := by
          omega
        simp only [payload, List.take_of_length_le hall, hbytes, Readable, hwrap, true_and]
        exact hwritten
      · have hshort : (payload (.goaway lastStreamId errorCode debugData)).length < 8 := by
          have hreal := hrange.2.2
          rw [payload, List.length_take]
          omega
        refine iff_of_false (parseGoaway_wrapped hshort tail x) fun h => hwrap h.1
  -- the encoder has tested the reserved bit of the increment, so nothing is cut
  | windowUpdate streamId increment =>
      have htop : increment < 2 ^ 31 := by
        have hbits : increment < 2 ^ 32 := hrange.2
        have htop : increment &&& 2 ^ 31 = 0 := hacc.2
        refine not_le.mp fun hle => ?_
        have hone : increment.testBit 31 = true := by
          rw [Nat.testBit_eq_decide_div_mod_eq, decide_eq_true_eq]
          omega
        rw [Nat.and_two_pow, hone] at htop
        exact absurd htop (by decide)
      refine map_ok_iff (fun x => ?_) _ p
      rw [Readable, true_and]
      exact parseWindowUpdate_written hacc.1 htop tail x
  | continuation streamId flags headerBlock =>
      exact map_ok_iff (parseContinuation_written hlen tail) _ p

/-! ## The round trip -/

/-- The arguments stay within the format of their frame. -/
def Valid : EncodeCall → Prop
  | data streamId flags bytes =>
      (streamId ≠ 0 ∧ streamId < 2 ^ 31) ∧ hasFlag flags flagPadded = false
        ∧ bytes.length ≤ maxFrameSizeLimit
  | headers streamId flags headerBlock =>
      (streamId ≠ 0 ∧ streamId < 2 ^ 31) ∧ hasFlag flags (flagPadded ||| flagPriority) = false
        ∧ headerBlock.length ≤ maxFrameSizeLimit
  | priority streamId fields =>
      (streamId ≠ 0 ∧ streamId < 2 ^ 31) ∧ fields.streamDependency < 2 ^ 31
        ∧ fields.streamDependency ≠ streamId ∧ fields.weight < 2 ^ 8
  | rstStream streamId errorCode => (streamId ≠ 0 ∧ streamId < 2 ^ 31) ∧ errorCode < 2 ^ 32
  | settings flags entries =>
      (hasFlag flags flagAck = false ∧ entries.length ≤ 16 ∨ flags = flagAck ∧ entries = [])
        ∧ ∀ s ∈ entries, s.id < 2 ^ 16 ∧ s.value < 2 ^ 32
  | pushPromise streamId flags promised headerBlock =>
      (streamId ≠ 0 ∧ streamId < 2 ^ 31) ∧ (promised ≠ 0 ∧ promised < 2 ^ 31)
        ∧ hasFlag flags flagPadded = false ∧ headerBlock.length ≤ defaultMaxFrameSize - 4
  | ping _ opaqueData => opaqueData.length = 8
  | goaway lastStreamId errorCode debugData =>
      lastStreamId < 2 ^ 31 ∧ errorCode < 2 ^ 32 ∧ debugData.length ≤ defaultMaxFrameSize - 8
  | windowUpdate streamId increment =>
      streamId < 2 ^ 31 ∧ increment ≠ 0 ∧ increment < 2 ^ 31
  | continuation streamId _ headerBlock =>
      (streamId ≠ 0 ∧ streamId < 2 ^ 31) ∧ headerBlock.length ≤ maxFrameSizeLimit

theorem Valid.inRange {c : EncodeCall} (h : c.Valid) : c.InRange := by
  cases c with
  | settings flags entries =>
      obtain ⟨hflags, hrange⟩ := h
      refine ⟨?_, hrange⟩
      rcases hflags with ⟨-, hlen⟩ | ⟨-, rfl⟩
      · omega
      · exact Nat.two_pow_pos 64
  | ping flags opaqueData => exact h
  | _ =>
      simp only [Valid, InRange, maxFrameSizeLimit, defaultMaxFrameSize] at h ⊢
      omega

theorem Valid.accepted {c : EncodeCall} (h : c.Valid) : c.Accepted := by
  cases c with
  | data streamId flags bytes => exact ⟨h.1.1, h.2.1⟩
  | headers streamId flags headerBlock => exact ⟨h.1.1, h.2.1⟩
  | priority streamId fields => exact h.1.1
  | rstStream streamId errorCode => exact h.1.1
  | settings flags entries =>
      rw [Accepted]
      rcases h.1 with ⟨hack, hlen⟩ | ⟨rfl, hnil⟩
      · rw [if_neg (by simp [hack])]
        exact hlen
      · rw [if_pos (by decide)]
        exact hnil
  | pushPromise streamId flags promised headerBlock => exact ⟨h.1.1, h.2.1.1, h.2.2.1, h.2.2.2⟩
  | ping flags opaqueData => trivial
  | goaway lastStreamId errorCode debugData =>
      have hlen : debugData.length ≤ 16384 - 8 := h.2.2
      rw [Accepted]
      omega
  | windowUpdate streamId increment =>
      have hbit : increment.testBit 31 = false := Nat.testBit_lt_two_pow h.2.2
      have htop : increment &&& 2 ^ 31 = 0 := by
        rw [Nat.and_two_pow, hbit]
        rfl
      exact ⟨h.2.1, htop⟩
  | continuation streamId flags headerBlock => exact h.1.1

theorem Valid.readable {c : EncodeCall} (h : c.Valid) : c.Readable := by
  cases c with
  | settings flags entries => trivial
  | ping flags opaqueData => trivial
  | windowUpdate streamId increment => trivial
  | _ =>
      simp only [Valid, Readable, defaultMaxFrameSize] at h ⊢
      omega

theorem Valid.cut_eq {c : EncodeCall} (h : c.Valid) : c.cut = c := by
  cases c with
  | priority streamId fields => rw [cut, Nat.mod_eq_of_lt h.1.2, Nat.mod_eq_of_lt h.2.1]
  | pushPromise streamId flags promised headerBlock =>
      rw [cut, Nat.mod_eq_of_lt h.1.2, Nat.mod_eq_of_lt h.2.1.2]
  | settings flags entries => rfl
  | ping flags opaqueData => rfl
  | goaway lastStreamId errorCode debugData => rw [cut, Nat.mod_eq_of_lt h.1]
  | windowUpdate streamId increment => rw [cut, Nat.mod_eq_of_lt h.1]
  | _ => rw [cut, Nat.mod_eq_of_lt h.1.2]

theorem streamId_cut (c : EncodeCall) : c.cut.streamId = c.streamId % 2 ^ 31 := by
  cases c <;> rfl

theorem Valid.wireFlags_eq {c : EncodeCall} (h : c.Valid) : c.wireFlags = c.flags := by
  cases c with
  | settings flags entries =>
      rw [wireFlags]
      rcases h.1 with ⟨hack, -⟩ | ⟨rfl, -⟩
      · exact if_neg (by simp [hack])
      · exact if_pos (by decide)
  | _ => rfl

theorem Valid.payload_length {c : EncodeCall} (h : c.Valid) :
    c.payload.length = c.payloadLength ∧ c.payloadLength ≤ maxFrameSizeLimit := by
  cases c with
  | data streamId flags bytes => exact ⟨rfl, h.2.2⟩
  | headers streamId flags headerBlock => exact ⟨rfl, h.2.2⟩
  | priority streamId fields => exact ⟨rfl, by simp [payloadLength, maxFrameSizeLimit]⟩
  | rstStream streamId errorCode => exact ⟨rfl, by simp [payloadLength, maxFrameSizeLimit]⟩
  | settings flags entries =>
      refine ⟨settings_payload_length entries, ?_⟩
      simp only [payloadLength, maxFrameSizeLimit]
      rcases h.1 with ⟨-, hlen⟩ | ⟨-, rfl⟩
      · omega
      · simp
  | pushPromise streamId flags promised headerBlock =>
      have hlen := h.2.2.2
      simp only [payload, payloadLength, List.length_append, writeU32_length, true_and]
      simp only [defaultMaxFrameSize, maxFrameSizeLimit] at hlen ⊢
      omega
  | ping flags opaqueData => exact ⟨h, by simp [payloadLength, maxFrameSizeLimit]⟩
  | goaway lastStreamId errorCode debugData =>
      have hlen := h.2.2
      simp only [payload, payloadLength, List.length_take, List.length_append, writeU32_length]
      simp only [defaultMaxFrameSize, maxFrameSizeLimit] at hlen ⊢
      omega
  | windowUpdate streamId increment => exact ⟨rfl, by simp [payloadLength, maxFrameSizeLimit]⟩
  | continuation streamId flags headerBlock => exact ⟨rfl, h.2⟩

end EncodeCall

/-- **Frame codec round trip**: an encoder with enough room returns the nine bytes of the header
and the payload, and the header parser and the parser of the type return the arguments from them,
whatever follows. -/
theorem frame_codec_roundtrip {c : EncodeCall} (hvalid : c.Valid) {cap maxSettings : Nat}
    (hcap : 9 + c.payloadLength ≤ cap) (hmax : c.settingsCount ≤ maxSettings)
    (tail : List UInt8) :
    ∃ wire, c.run cap = some wire ∧ wire.length = 9 + c.payloadLength
      ∧ ∃ header, parseHeader (wire ++ tail) = .ok header
        ∧ header.length = c.payloadLength ∧ header.type = c.type.toByte ∧ header.flags = c.flags
        ∧ header.streamId = c.streamId
        ∧ parsePayload maxSettings c.type header ((wire ++ tail).drop frameHeaderLen)
          = .ok c.content := by
  obtain ⟨hlength, hlimit⟩ := hvalid.payload_length
  have hlen : c.payload.length ≤ maxFrameSizeLimit := by omega
  have hroom : frameHeaderLen + c.payload.length ≤ cap := by
    simp only [frameHeaderLen]
    omega
  have hrun := EncodeCall.run_eq_some.mpr ⟨hvalid.accepted, hlen, hroom, rfl⟩
  have hpayload : c.frame.payload = c.payload := Frame.of_payload hlen _ _ _
  have hparse := (EncodeCall.parsePayload_payload hvalid.accepted hvalid.inRange hlen hmax tail
    c.content).mpr ⟨hvalid.readable, by rw [hvalid.cut_eq]⟩
  refine ⟨c.frame.wire, hrun, ?_, c.frame.header, c.frame.parseHeader_wire tail, ?_, rfl, ?_, ?_,
    ?_⟩
  · rw [Frame.wire_length, hpayload, hlength]
    rfl
  · rw [Frame.header_length, hpayload, hlength]
  · exact hvalid.wireFlags_eq
  · rw [EncodeCall.frame_header hlen]
    simp only
    rw [← EncodeCall.streamId_cut, hvalid.cut_eq]
  · rw [Frame.drop_wire, hpayload]
    exact hparse

/-- Sixteen settings fill the local array of the encoder, and bytes follow. -/
theorem frame_codec_roundtrip_settings :
    ∃ wire, (EncodeCall.settings 0 (List.replicate 16 ⟨0xffff, 0xffffffff⟩)).run 105 = some wire
      ∧ wire.length = 9 + 96
      ∧ ∃ header, parseHeader (wire ++ [1, 2]) = .ok header
        ∧ header.length = 96 ∧ header.type = FrameType.settings.toByte ∧ header.flags = 0
        ∧ header.streamId = 0
        ∧ parsePayload 16 .settings header ((wire ++ [1, 2]).drop frameHeaderLen)
          = .ok (.settings (List.replicate 16 ⟨0xffff, 0xffffffff⟩)) :=
  @frame_codec_roundtrip (.settings 0 (List.replicate 16 ⟨0xffff, 0xffffffff⟩))
    ⟨Or.inl (by decide), fun s hs => by rw [List.eq_of_mem_replicate hs]; decide⟩ 105 16
    (by decide) (by decide) [1, 2]

/-! ## What the parsers refuse -/

namespace EncodeCall

/-- The header parser and the parser of the type accept the bytes, and no stream is promised under
the id zero. -/
def ReadBack (c : EncodeCall) (maxSettings : Nat) (wire : List UInt8) : Prop :=
  ∃ header p, parseHeader wire = .ok header
    ∧ parsePayload maxSettings c.type header (wire.drop frameHeaderLen) = .ok p
    ∧ ∀ promise, p = .pushPromise promise → promise.promisedStreamId ≠ 0

/-- The ids that must not be zero are not zero in their 31 bits, the dependency of a stream differs
from it there, and the size of a debug text does not wrap. -/
def SignificantBits : EncodeCall → Prop
  | data streamId .. | headers streamId .. | rstStream streamId _ | continuation streamId .. =>
      streamId % 2 ^ 31 ≠ 0
  | priority streamId fields =>
      streamId % 2 ^ 31 ≠ 0 ∧ fields.streamDependency % 2 ^ 31 ≠ streamId % 2 ^ 31
  | pushPromise streamId _ promised _ => streamId % 2 ^ 31 ≠ 0 ∧ promised % 2 ^ 31 ≠ 0
  | goaway _ _ debugData => debugData.length + 8 < 2 ^ 64
  | settings .. | ping .. | windowUpdate .. => True

theorem significantBits_iff (c : EncodeCall) :
    c.SignificantBits
      ↔ c.Readable ∧ ∀ promise, c.cut.content = .pushPromise promise →
        promise.promisedStreamId ≠ 0 := by
  cases c with
  | pushPromise streamId flags promised headerBlock =>
      refine and_congr Iff.rfl ⟨?_, fun h => h _ rfl⟩
      rintro h promise ⟨⟩
      exact h
  | _ => exact ⟨fun h => ⟨h, fun promise hp => by cases hp⟩, fun h => h.1⟩

/-- What an encoder writes is parsed as the call with its ids cut, if it is readable. -/
theorem parse_run {c : EncodeCall} (hrange : c.InRange) {cap : Nat} {wire : List UInt8}
    (h : c.run cap = some wire) {maxSettings : Nat} (hmax : c.settingsCount ≤ maxSettings)
    (p : ParsedPayload) :
    parseHeader wire = .ok c.frame.header
      ∧ (parsePayload maxSettings c.type c.frame.header (wire.drop frameHeaderLen) = .ok p
        ↔ c.Readable ∧ p = c.cut.content) := by
  obtain ⟨hacc, hlen, -, rfl⟩ := run_eq_some.mp h
  have hpayload : c.frame.payload = c.payload := Frame.of_payload hlen _ _ _
  have hheader := c.frame.parseHeader_wire []
  have hdrop := c.frame.drop_wire []
  rw [List.append_nil] at hheader hdrop
  refine ⟨hheader, ?_⟩
  rw [hdrop, hpayload]
  exact parsePayload_payload hacc hrange hlen hmax [] p

end EncodeCall

/-- **What an encoder writes is accepted** exactly if its ids keep their significant bits. -/
theorem encoded_frame_accepted {c : EncodeCall} (hrange : c.InRange) {cap : Nat}
    {wire : List UInt8} (h : c.run cap = some wire) {maxSettings : Nat}
    (hmax : c.settingsCount ≤ maxSettings) : c.ReadBack maxSettings wire ↔ c.SignificantBits := by
  rw [EncodeCall.significantBits_iff]
  constructor
  · rintro ⟨header, p, hheader, hparse, hpromise⟩
    obtain ⟨hheader', hiff⟩ := EncodeCall.parse_run hrange h hmax p
    obtain rfl := Except.ok.inj (hheader.symm.trans hheader')
    obtain ⟨hreadable, rfl⟩ := hiff.mp hparse
    exact ⟨hreadable, hpromise⟩
  · rintro ⟨hreadable, hpromise⟩
    obtain ⟨hheader, hiff⟩ := EncodeCall.parse_run hrange h hmax c.cut.content
    exact ⟨_, _, hheader, hiff.mpr ⟨hreadable, rfl⟩, hpromise⟩

theorem encoded_frame_accepted_promise :
    (EncodeCall.pushPromise 1 flagEndHeaders 0x80000002 [0x82]).ReadBack 16
        [0, 0, 5, 5, 4, 0, 0, 0, 1, 0, 0, 0, 2, 0x82]
      ↔ (EncodeCall.pushPromise 1 flagEndHeaders 0x80000002 [0x82]).SignificantBits :=
  @encoded_frame_accepted (.pushPromise 1 flagEndHeaders 0x80000002 [0x82])
    ⟨by decide, by decide, by decide⟩ 14 _ (by decide) 16 (by decide)

/-- A DATA frame on the stream `0x80000000` is written on the stream zero. -/
theorem encoded_frame_refused :
    (EncodeCall.data 0x80000000 0 []).InRange
    ∧ (EncodeCall.data 0x80000000 0 []).run 9 = some [0, 0, 0, 0, 0, 0, 0, 0, 0]
    ∧ ¬ (EncodeCall.data 0x80000000 0 []).ReadBack 16 [0, 0, 0, 0, 0, 0, 0, 0, 0] := by
  refine ⟨⟨by decide, by decide⟩, by decide, ?_⟩
  rintro ⟨header, p, hheader, hparse, -⟩
  have hzero : parseHeader [0, 0, 0, 0, 0, 0, 0, 0, 0] = .ok ⟨0, 0, 0, 0⟩ := by decide
  have hrefused : parsePayload 16 .data ⟨0, 0, 0, 0⟩ [] = .error .protocolError := by decide
  obtain rfl := Except.ok.inj (hheader.symm.trans hzero)
  exact absurd (hparse.symm.trans hrefused) (fun h => by cases h)

end C11Omo.Http2
