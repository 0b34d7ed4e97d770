import C11Omo.Lib.Bytes

set_option autoImplicit false

/-! # The frame codec

`include/http2/frame.h` and `src/frame.c`: error codes, frame types and flags, the nine-byte
frame header, the payload parsers and the frame encoders.

A wire buffer and its length are one byte list. A parser gets the whole list that starts at
its pointer, not only the payload: the source passes a bare pointer, and which bytes it reads
is part of what is modelled. `uint32_t` values are natural numbers, and an encoder returns
`none` where the source returns `0`.
-/

namespace C11Omo.Http2

open C11Omo.Lib

/-! ## Constants -/

/-- `h2_error_code`. -/
inductive ErrorCode
  | ok
  | protocolError
  | internalError
  | flowControlError
  | settingsTimeout
  | streamClosed
  | frameSizeError
  | refusedStream
  | cancel
  | compressionError
  | connectError
  | enhanceYourCalm
  | inadequateSecurity
  | http11Required
  deriving DecidableEq, Repr

/-- The value of an error code on the wire. -/
def ErrorCode.toNat : ErrorCode → Nat
  | .ok => 0x0
  | .protocolError => 0x1
  | .internalError => 0x2
  | .flowControlError => 0x3
  | .settingsTimeout => 0x4
  | .streamClosed => 0x5
  | .frameSizeError => 0x6
  | .refusedStream => 0x7
  | .cancel => 0x8
  | .compressionError => 0x9
  | .connectError => 0xa
  | .enhanceYourCalm => 0xb
  | .inadequateSecurity => 0xc
  | .http11Required => 0xd

/-- `h2_frame_type`. -/
inductive FrameType
  | data
  | headers
  | priority
  | rstStream
  | settings
  | pushPromise
  | ping
  | goaway
  | windowUpdate
  | continuation
  deriving DecidableEq, Repr

/-- The type byte of a frame header. -/
def FrameType.toByte : FrameType → UInt8
  | .data => 0x0
  | .headers => 0x1
  | .priority => 0x2
  | .rstStream => 0x3
  | .settings => 0x4
  | .pushPromise => 0x5
  | .ping => 0x6
  | .goaway => 0x7
  | .windowUpdate => 0x8
  | .continuation => 0x9

/-- The `switch` over a type byte; `none` is its `default`. -/
def FrameType.ofByte? (b : UInt8) : Option FrameType :=
  [data, headers, priority, rstStream, settings, pushPromise, ping, goaway, windowUpdate,
    continuation].find? (fun t => t.toByte = b)

@[simp] theorem FrameType.ofByte?_toByte (t : FrameType) : ofByte? t.toByte = some t := by
  cases t <;> rfl

theorem FrameType.ofByte?_eq_some {b : UInt8} {t : FrameType} (h : ofByte? b = some t) :
    b = t.toByte := by
  have hp := List.find?_some h
  simpa [eq_comm] using hp

@[simp] theorem FrameType.toByte_inj {t t' : FrameType} : t.toByte = t'.toByte ↔ t = t' := by
  constructor
  · intro h
    have heq := congrArg ofByte? h
    rwa [ofByte?_toByte, ofByte?_toByte, Option.some.injEq] at heq
  · rintro rfl
    rfl

def flagEndStream : UInt8 := 0x1
def flagAck : UInt8 := 0x1
def flagEndHeaders : UInt8 := 0x4
def flagPadded : UInt8 := 0x8
def flagPriority : UInt8 := 0x20

/-- `(flags & mask) != 0u`. -/
def hasFlag (flags mask : UInt8) : Bool := flags &&& mask != 0

def frameHeaderLen : Nat := 9
def defaultMaxFrameSize : Nat := 16384
def maxFrameSizeLimit : Nat := 16777215
def defaultWindowSize : Int := 65535
def int32Max : Int := 2147483647
def int32Min : Int := -2147483648

/-! ## C integer conversions -/

/-- `(int32_t)value` of a `uint32_t`. -/
def toInt32 (value : Nat) : Int := Int.bmod value 4294967296

/-- `(uint32_t)value` of a signed integer. -/
def toUInt32 (value : Int) : Nat := (value % 4294967296).toNat

/-- `(size_t)value` of a signed integer. -/
def toSize (value : Int) : Nat := (value % 18446744073709551616).toNat

/-! ## Frame headers -/

/-- `h2_frame_header`. -/
structure FrameHeader where
  length : Nat
  type : UInt8
  flags : UInt8
  streamId : Nat
  deriving DecidableEq, Repr

/-- `h2_read_u16`. -/
def readU16 (wire : List UInt8) : Nat := byteAt wire 0 <<< 8 ||| byteAt wire 1

/-- `h2_read_u31`. -/
def readU31 (wire : List UInt8) : Nat :=
  (byteAt wire 0 &&& 0x7f) <<< 24 ||| byteAt wire 1 <<< 16 ||| byteAt wire 2 <<< 8 ||| byteAt wire 3

/-- `h2_read_u32`. -/
def readU32 (wire : List UInt8) : Nat :=
  byteAt wire 0 <<< 24 ||| byteAt wire 1 <<< 16 ||| byteAt wire 2 <<< 8 ||| byteAt wire 3

/-- `h2_write_u16`. -/
def writeU16 (value : Nat) : List UInt8 := [UInt8.ofNat (value >>> 8), UInt8.ofNat value]

/-- `h2_write_u32`. -/
def writeU32 (value : Nat) : List UInt8 :=
  [UInt8.ofNat (value >>> 24), UInt8.ofNat (value >>> 16), UInt8.ofNat (value >>> 8),
    UInt8.ofNat value]

/-- `h2_frame_parse_header`. -/
def parseHeader (wire : List UInt8) : Except ErrorCode FrameHeader :=
  if wire.length < frameHeaderLen then .error .frameSizeError
  else .ok
    { length := byteAt wire 0 <<< 16 ||| byteAt wire 1 <<< 8 ||| byteAt wire 2
      type := wire.getD 3 0
      flags := wire.getD 4 0
      streamId := readU31 (wire.drop 5) }

/-- `h2_frame_write_header`. -/
def writeHeader (cap : Nat) (header : FrameHeader) : Except ErrorCode (List UInt8) :=
  if cap < frameHeaderLen ∨ header.length > maxFrameSizeLimit then .error .frameSizeError
  else .ok
    ([UInt8.ofNat (header.length >>> 16), UInt8.ofNat (header.length >>> 8),
      UInt8.ofNat header.length, header.type, header.flags]
      ++ writeU32 (header.streamId &&& 0x7fffffff))

/-- `h2_validate_stream_nonzero`. -/
def validateStreamNonzero (header : FrameHeader) : ErrorCode :=
  if header.streamId = 0 then .protocolError else .ok

/-- `h2_frame_validate_payload`. -/
def validatePayload (header : FrameHeader) : ErrorCode :=
  if header.length > maxFrameSizeLimit then .frameSizeError
  else
    match FrameType.ofByte? header.type with
    | some .data => validateStreamNonzero header
    | some .headers => validateStreamNonzero header
    | some .priority =>
        if header.streamId = 0 then .protocolError
        else if header.length = 5 then .ok else .frameSizeError
    | some .rstStream =>
        if header.streamId = 0 then .protocolError
        else if header.length = 4 then .ok else .frameSizeError
    | some .settings =>
        if header.streamId ≠ 0 then .protocolError
        else if hasFlag header.flags flagAck then
          if header.length = 0 then .ok else .frameSizeError
        else if header.length % 6 = 0 then .ok else .frameSizeError
    | some .pushPromise =>
        if header.streamId = 0 then .protocolError
        else if header.length ≥ (if hasFlag header.flags flagPadded then 5 else 4) then .ok
        else .frameSizeError
    | some .ping =>
        if header.streamId ≠ 0 then .protocolError
        else if header.length = 8 then .ok else .frameSizeError
    | some .goaway =>
        if header.streamId ≠ 0 then .protocolError
        else if header.length ≥ 8 then .ok else .frameSizeError
    | some .windowUpdate => if header.length = 4 then .ok else .frameSizeError
    | some .continuation => validateStreamNonzero header
    | none => .ok

/-! ## Payload parsers -/

/-- `h2_data_payload`; the pointer and the length are the slice they denote. -/
structure DataPayload where
  data : List UInt8
  padLen : Nat
  deriving DecidableEq, Repr

/-- `h2_priority_payload`. -/
structure PriorityPayload where
  exclusive : Bool
  streamDependency : Nat
  weight : Nat
  deriving DecidableEq, Repr

/-- `h2_headers_payload`; `priority` is written only when `has_priority` is set. -/
structure HeadersPayload where
  headerBlock : List UInt8
  padLen : Nat
  priority : Option PriorityPayload
  deriving DecidableEq, Repr

/-- `h2_goaway_payload`. -/
structure GoawayPayload where
  lastStreamId : Nat
  errorCode : Nat
  debugData : List UInt8
  deriving DecidableEq, Repr

/-- `h2_push_promise_payload`. -/
structure PushPromisePayload where
  promisedStreamId : Nat
  headerBlock : List UInt8
  padLen : Nat
  deriving DecidableEq, Repr

/-- `h2_settings_id`, as the identifiers stand on the wire. -/
def settingsEnablePush : Nat := 0x2
def settingsInitialWindowSize : Nat := 0x4
def settingsMaxFrameSize : Nat := 0x5

/-- `h2_setting`. -/
structure Setting where
  id : Nat
  value : Nat
  deriving DecidableEq, Repr

/-- `h2_frame_parse_data`. -/
def parseData (header : FrameHeader) (payload : List UInt8) : Except ErrorCode DataPayload :=
  if header.type ≠ FrameType.data.toByte ∨ validatePayload header ≠ .ok then .error .protocolError
  else if hasFlag header.flags flagPadded then
    if header.length = 0 then .error .frameSizeError
    else if byteAt payload 0 > header.length - 1 then .error .protocolError
    else .ok
      { data := (payload.drop 1).take (header.length - 1 - byteAt payload 0)
        padLen := byteAt payload 0 }
  else .ok { data := payload.take header.length, padLen := 0 }

/-- `h2_frame_parse_priority`. -/
def parsePriority (header : FrameHeader) (payload : List UInt8) :
    Except ErrorCode PriorityPayload :=
  if header.type ≠ FrameType.priority.toByte ∨ validatePayload header ≠ .ok then
    .error .frameSizeError
  else if readU31 payload = header.streamId then .error .protocolError
  else .ok
    { exclusive := byteAt payload 0 &&& 0x80 ≠ 0
      streamDependency := readU31 payload
      weight := byteAt payload 4 }

/-- The part of `h2_frame_parse_headers` after the padding: `pos` is `payload_pos`, `blockLen`
is `block_len`. -/
def parseHeadersBlock (header : FrameHeader) (payload : List UInt8) (pos blockLen padLen : Nat) :
    Except ErrorCode HeadersPayload :=
  if hasFlag header.flags flagPriority then
    if blockLen < 5 then .error .frameSizeError
    else
      match parsePriority
          { length := 5, type := FrameType.priority.toByte, flags := 0, streamId := header.streamId }
          (payload.drop pos) with
      | .error ret => .error ret
      | .ok priority => .ok
          { headerBlock := (payload.drop (pos + 5)).take (blockLen - 5)
            padLen := padLen
            priority := some priority }
  else .ok
    { headerBlock := (payload.drop pos).take blockLen, padLen := padLen, priority := none }

/-- `h2_frame_parse_headers`. -/
def parseHeaders (header : FrameHeader) (payload : List UInt8) : Except ErrorCode HeadersPayload :=
  if header.type ≠ FrameType.headers.toByte ∨ validatePayload header ≠ .ok then
    .error .protocolError
  else if hasFlag header.flags flagPadded then
    if header.length = 0 then .error .frameSizeError
    else if byteAt payload 0 > header.length - 1 then .error .protocolError
    else parseHeadersBlock header payload 1 (header.length - 1 - byteAt payload 0) (byteAt payload 0)
  else parseHeadersBlock header payload 0 header.length 0

/-- `h2_frame_parse_settings`. -/
def parseSettings (header : FrameHeader) (payload : List UInt8) (maxSettings : Nat) :
    Except ErrorCode (List Setting) :=
  if header.type ≠ FrameType.settings.toByte then .error .protocolError
  else if validatePayload header ≠ .ok then .error (validatePayload header)
  else if hasFlag header.flags flagAck then .ok []
  else if header.length / 6 > maxSettings then .error .internalError
  else .ok ((List.range (header.length / 6)).map fun i =>
    { id := readU16 (payload.drop (i * 6)), value := readU32 (payload.drop (i * 6 + 2)) })

/-- `h2_frame_parse_window_update`. -/
def parseWindowUpdate (header : FrameHeader) (payload : List UInt8) : Except ErrorCode Nat :=
  if header.type ≠ FrameType.windowUpdate.toByte then .error .protocolError
  else if validatePayload header ≠ .ok then .error (validatePayload header)
  else if readU31 payload = 0 then .error .protocolError
  else .ok (readU31 payload)

/-- `h2_frame_parse_ping`. -/
def parsePing (header : FrameHeader) (payload : List UInt8) : Except ErrorCode (List UInt8) :=
  if header.type ≠ FrameType.ping.toByte then .error .protocolError
  else if validatePayload header ≠ .ok then .error (validatePayload header)
  else .ok (payload.take 8)

/-- `h2_frame_parse_goaway`. -/
def parseGoaway (header : FrameHeader) (payload : List UInt8) : Except ErrorCode GoawayPayload :=
  if header.type ≠ FrameType.goaway.toByte then .error .protocolError
  else if validatePayload header ≠ .ok then .error (validatePayload header)
  else .ok
    { lastStreamId := readU31 payload
      errorCode := readU32 (payload.drop 4)
      debugData := (payload.drop 8).take (header.length - 8) }

/-- `h2_frame_parse_rst_stream`. -/
def parseRstStream (header : FrameHeader) (payload : List UInt8) : Except ErrorCode Nat :=
  if header.type ≠ FrameType.rstStream.toByte then .error .protocolError
  else if validatePayload header ≠ .ok then .error (validatePayload header)
  else .ok (readU32 payload)

/-- `h2_frame_parse_continuation`. -/
def parseContinuation (header : FrameHeader) (payload : List UInt8) :
    Except ErrorCode (List UInt8) :=
  if header.type ≠ FrameType.continuation.toByte ∨ validatePayload header ≠ .ok then
    .error .protocolError
  else .ok (payload.take header.length)

/-- The part of `h2_frame_parse_push_promise` after the padding, with the names of
`parseHeadersBlock`. -/
def parsePushPromiseBlock (payload : List UInt8) (pos blockLen padLen : Nat) :
    Except ErrorCode PushPromisePayload :=
  if blockLen < 4 then .error .frameSizeError
  else .ok
    { promisedStreamId := readU31 (payload.drop pos)
      headerBlock := (payload.drop (pos + 4)).take (blockLen - 4)
      padLen := padLen }

/-- `h2_frame_parse_push_promise`. -/
def parsePushPromise (header : FrameHeader) (payload : List UInt8) :
    Except ErrorCode PushPromisePayload :=
  if header.type ≠ FrameType.pushPromise.toByte ∨ validatePayload header ≠ .ok then
    .error .protocolError
  else if hasFlag header.flags flagPadded then
    if byteAt payload 0 > header.length - 1 then .error .protocolError
    else
      parsePushPromiseBlock payload 1 (header.length - 1 - byteAt payload 0) (byteAt payload 0)
  else parsePushPromiseBlock payload 0 header.length 0

/-! ## Encoders -/

/-- `h2_frame_encode_raw`. -/
def encodeRaw (cap : Nat) (type : FrameType) (flags : UInt8) (streamId : Nat)
    (payload : List UInt8) : Option (List UInt8) :=
  if payload.length > maxFrameSizeLimit ∨ cap < frameHeaderLen + payload.length then none
  else
    match writeHeader cap
        { length := payload.length, type := type.toByte, flags := flags, streamId := streamId } with
    | .error _ => none
    | .ok header => some (header ++ payload)

/-- `h2_frame_encode_data`. -/
def encodeData (cap streamId : Nat) (flags : UInt8) (data : List UInt8) : Option (List UInt8) :=
  if streamId = 0 ∨ hasFlag flags flagPadded then none
  else encodeRaw cap .data flags streamId data

/-- `h2_frame_encode_headers`. -/
def encodeHeaders (cap streamId : Nat) (flags : UInt8) (headerBlock : List UInt8) :
    Option (List UInt8) :=
  if streamId = 0 ∨ hasFlag flags (flagPadded ||| flagPriority) then none
  else encodeRaw cap .headers flags streamId headerBlock

/-- `h2_frame_encode_priority`. -/
def encodePriority (cap streamId : Nat) (priority : PriorityPayload) : Option (List UInt8) :=
  if streamId = 0 then none
  else
    let dependency := priority.streamDependency &&& 0x7fffffff
    encodeRaw cap .priority 0 streamId
      (writeU32 (if priority.exclusive then dependency ||| 0x80000000 else dependency)
        ++ [UInt8.ofNat priority.weight])

/-- `h2_frame_encode_rst_stream`. -/
def encodeRstStream (cap streamId errorCode : Nat) : Option (List UInt8) :=
  if streamId = 0 then none else encodeRaw cap .rstStream 0 streamId (writeU32 errorCode)

/-- `h2_frame_encode_settings`; the local payload array has 96 bytes. -/
def encodeSettings (cap : Nat) (flags : UInt8) (settings : List Setting) : Option (List UInt8) :=
  if hasFlag flags flagAck then
    if settings.length = 0 then encodeRaw cap .settings flagAck 0 [] else none
  else if settings.length > 96 / 6 then none
  else encodeRaw cap .settings flags 0 (settings.flatMap fun s => writeU16 s.id ++ writeU32 s.value)

/-- `h2_frame_encode_push_promise`; the local payload array has `H2_DEFAULT_MAX_FRAME_SIZE`
bytes. -/
def encodePushPromise (cap streamId : Nat) (flags : UInt8) (promisedStreamId : Nat)
    (headerBlock : List UInt8) : Option (List UInt8) :=
  if streamId = 0 ∨ promisedStreamId = 0 ∨ hasFlag flags flagPadded
      ∨ headerBlock.length > 18446744073709551615 - 4
      ∨ headerBlock.length > defaultMaxFrameSize - 4 then none
  else encodeRaw cap .pushPromise flags streamId
    (writeU32 (promisedStreamId &&& 0x7fffffff) ++ headerBlock)

/-- `h2_frame_encode_ping`. -/
def encodePing (cap : Nat) (flags : UInt8) (opaqueData : List UInt8) : Option (List UInt8) :=
  encodeRaw cap .ping flags 0 opaqueData

/-- `h2_frame_encode_goaway`; `debug_len + 8u` is a `size_t` sum. -/
def encodeGoaway (cap lastStreamId errorCode : Nat) (debugData : List UInt8) :
    Option (List UInt8) :=
  let payloadLen := (debugData.length + 8) % 18446744073709551616
  if payloadLen > defaultMaxFrameSize then none
  else encodeRaw cap .goaway 0 0
    ((writeU32 (lastStreamId &&& 0x7fffffff) ++ writeU32 errorCode ++ debugData).take payloadLen)

/-- `h2_frame_encode_window_update`. -/
def encodeWindowUpdate (cap streamId increment : Nat) : Option (List UInt8) :=
  if increment = 0 ∨ increment &&& 0x80000000 ≠ 0 then none
  else encodeRaw cap .windowUpdate 0 streamId (writeU32 increment)

/-- `h2_frame_encode_continuation`. -/
def encodeContinuation (cap streamId : Nat) (flags : UInt8) (headerBlock : List UInt8) :
    Option (List UInt8) :=
  if streamId = 0 then none else encodeRaw cap .continuation flags streamId headerBlock

end C11Omo.Http2
