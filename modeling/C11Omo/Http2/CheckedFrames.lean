import C11Omo.Http2.RoundTrip
import C11Omo.Lib.Checked

set_option autoImplicit false

/-! # Frames with every access checked

`src/frame.c` once more, over the operations of `Lib.Checked`. A parser gets the payload of its
frame and nothing behind it, so that a read past `header->length` bytes would stop it; an encoder
writes to arrays of the sizes they have in the source. The functions return what those of `Frame`
return.
-/

namespace C11Omo.Http2.Checked

open C11Omo.Lib C11Omo.Lib.Checked

/-! ## Numbers -/

/-- `h2_read_u16`. -/
def readU16 (wire : List UInt8) : Option Nat := do
  let a ← byte wire 0
  let b ← byte wire 1
  pure (a <<< 8 ||| b)

/-- `h2_read_u31`. -/
def readU31 (wire : List UInt8) : Option Nat := do
  let a ← byte wire 0
  let b ← byte wire 1
  let c ← byte wire 2
  let d ← byte wire 3
  pure ((a &&& 0x7f) <<< 24 ||| b <<< 16 ||| c <<< 8 ||| d)

/-- `h2_read_u32`. -/
def readU32 (wire : List UInt8) : Option Nat := do
  let a ← byte wire 0
  let b ← byte wire 1
  let c ← byte wire 2
  let d ← byte wire 3
  pure (a <<< 24 ||| b <<< 16 ||| c <<< 8 ||| d)

section

variable {wire : List UInt8}

theorem readU16_eq (h : 2 ≤ wire.length) : readU16 wire = some (Http2.readU16 wire) := by
  rw [readU16, byte_of_lt (by omega), byte_of_lt (by omega)]
  rfl

theorem readU31_eq (h : 4 ≤ wire.length) : readU31 wire = some (Http2.readU31 wire) := by
  rw [readU31, byte_of_lt (by omega), byte_of_lt (by omega), byte_of_lt (by omega),
    byte_of_lt (by omega)]
  rfl

theorem readU32_eq (h : 4 ≤ wire.length) : readU32 wire = some (Http2.readU32 wire) := by
  rw [readU32, byte_of_lt (by omega), byte_of_lt (by omega), byte_of_lt (by omega),
    byte_of_lt (by omega)]
  rfl

end

/-! ## Frame headers -/

/-- `h2_frame_parse_header`. -/
def parseHeader (wire : List UInt8) : Option (Except ErrorCode FrameHeader) :=
  if wire.length < frameHeaderLen then pure (.error .frameSizeError)
  else do
    let a ← byte wire 0
    let b ← byte wire 1
    let c ← byte wire 2
    let type ← read wire 3
    let flags ← read wire 4
    let streamId ← readU31 (← rest wire 5)
    pure (.ok
      { length := a <<< 16 ||| b <<< 8 ||| c, type := type, flags := flags, streamId := streamId })

/-- `h2_frame_write_header`. -/
def writeHeader (cap : Nat) (header : FrameHeader) : Option (Except ErrorCode (List UInt8)) :=
  if cap < frameHeaderLen ∨ header.length > maxFrameSizeLimit then pure (.error .frameSizeError)
  else do
    let wire ← write cap [] [UInt8.ofNat (header.length >>> 16), UInt8.ofNat (header.length >>> 8),
      UInt8.ofNat header.length, header.type, header.flags]
    let wire ← write cap wire (writeU32 (header.streamId &&& 0x7fffffff))
    pure (.ok wire)

theorem parseHeader_eq (wire : List UInt8) :
    parseHeader wire = some (Http2.parseHeader wire) := by
  rw [parseHeader, Http2.parseHeader]
  by_cases hlen : wire.length < frameHeaderLen
  · rw [if_pos hlen, if_pos hlen]
    rfl
  · have hnine : 9 ≤ wire.length := not_lt.mp hlen
    have htail : 4 ≤ (wire.drop 5).length := by
      rw [List.length_drop]
      omega
    rw [if_neg hlen, if_neg hlen, byte_of_lt (by omega), byte_of_lt (by omega),
      byte_of_lt (by omega), read_getD (by omega), read_getD (by omega), rest_of_le (by omega)]
    simp only [Option.bind_eq_bind, Option.bind_some]
    rw [readU31_eq htail]
    rfl

theorem writeHeader_eq (cap : Nat) (header : FrameHeader) :
    writeHeader cap header = some (Http2.writeHeader cap header) := by
  rw [writeHeader, Http2.writeHeader]
  by_cases h : cap < frameHeaderLen ∨ header.length > maxFrameSizeLimit
  · rw [if_pos h, if_pos h]
    rfl
  · have hcap : 9 ≤ cap := not_lt.mp (not_or.mp h).1
    rw [if_neg h, if_neg h, write_of_le (by simp only [List.length_cons, List.length_nil]; omega)]
    simp only [Option.bind_eq_bind, Option.bind_some, List.nil_append]
    rw [write_of_le (by simp only [writeU32, List.length_cons, List.length_nil]; omega)]
    rfl

/-! ## Payload parsers -/

/-- `h2_frame_parse_data`. -/
def parseData (header : FrameHeader) (payload : List UInt8) :
    Option (Except ErrorCode DataPayload) :=
  if header.type ≠ FrameType.data.toByte ∨ validatePayload header ≠ .ok then
    pure (.error .protocolError)
  else if hasFlag header.flags flagPadded then
    if header.length = 0 then pure (.error .frameSizeError)
    else do
      let padLen ← byte payload 0
      let dataLen ← sub header.length 1
      if padLen > dataLen then pure (.error .protocolError)
      else
        let dataLen ← sub dataLen padLen
        let data ← slice payload 1 dataLen
        pure (.ok { data := data, padLen := padLen })
  else do
    let data ← slice payload 0 header.length
    pure (.ok { data := data, padLen := 0 })

/-- `h2_frame_parse_priority`. -/
def parsePriority (header : FrameHeader) (payload : List UInt8) :
    Option (Except ErrorCode PriorityPayload) :=
  if header.type ≠ FrameType.priority.toByte ∨ validatePayload header ≠ .ok then
    pure (.error .frameSizeError)
  else do
    let first ← byte payload 0
    let streamDependency ← readU31 payload
    if streamDependency = header.streamId then pure (.error .protocolError)
    else
      let weight ← byte payload 4
      pure (.ok
        { exclusive := first &&& 0x80 ≠ 0, streamDependency := streamDependency, weight := weight })

/-- The part of `h2_frame_parse_headers` after the padding. -/
def parseHeadersBlock (header : FrameHeader) (payload : List UInt8) (pos blockLen padLen : Nat) :
    Option (Except ErrorCode HeadersPayload) :=
  if hasFlag header.flags flagPriority then
    if blockLen < 5 then pure (.error .frameSizeError)
    else do
      let tail ← rest payload pos
      match ← parsePriority
          { length := 5, type := FrameType.priority.toByte, flags := 0, streamId := header.streamId }
          tail with
      | .error ret => pure (.error ret)
      | .ok priority =>
          let blockLen ← sub blockLen 5
          let block ← slice payload (pos + 5) blockLen
          pure (.ok { headerBlock := block, padLen := padLen, priority := some priority })
  else do
    let block ← slice payload pos blockLen
    pure (.ok { headerBlock := block, padLen := padLen, priority := none })

/-- `h2_frame_parse_headers`. -/
def parseHeaders (header : FrameHeader) (payload : List UInt8) :
    Option (Except ErrorCode HeadersPayload) :=
  if header.type ≠ FrameType.headers.toByte ∨ validatePayload header ≠ .ok then
    pure (.error .protocolError)
  else if hasFlag header.flags flagPadded then
    if header.length = 0 then pure (.error .frameSizeError)
    else do
      let padLen ← byte payload 0
      let blockLen ← sub header.length 1
      if padLen > blockLen then pure (.error .protocolError)
      else
        let blockLen ← sub blockLen padLen
        parseHeadersBlock header payload 1 blockLen padLen
  else parseHeadersBlock header payload 0 header.length 0

/-- The loop of `h2_frame_parse_settings`, with the entries that are left. -/
def parseSettingsLoop (payload : List UInt8) (maxSettings : Nat) :
    (items item : Nat) → List Setting → Option (List Setting)
  | 0, _, settings => some settings
  | items + 1, item, settings => do
      let id ← readU16 (← rest payload (item * 6))
      let value ← readU32 (← rest payload (item * 6 + 2))
      let settings ← write maxSettings settings [{ id := id, value := value }]
      parseSettingsLoop payload maxSettings items (item + 1) settings

/-- `h2_frame_parse_settings`. -/
def parseSettings (header : FrameHeader) (payload : List UInt8) (maxSettings : Nat) :
    Option (Except ErrorCode (List Setting)) :=
  if header.type ≠ FrameType.settings.toByte then pure (.error .protocolError)
  else if validatePayload header ≠ .ok then pure (.error (validatePayload header))
  else if hasFlag header.flags flagAck then pure (.ok [])
  else if header.length / 6 > maxSettings then pure (.error .internalError)
  else do
    let settings ← parseSettingsLoop payload maxSettings (header.length / 6) 0 []
    pure (.ok settings)

/-- `h2_frame_parse_window_update`. -/
def parseWindowUpdate (header : FrameHeader) (payload : List UInt8) :
    Option (Except ErrorCode Nat) :=
  if header.type ≠ FrameType.windowUpdate.toByte then pure (.error .protocolError)
  else if validatePayload header ≠ .ok then pure (.error (validatePayload header))
  else do
    let increment ← readU31 payload
    if increment = 0 then pure (.error .protocolError) else pure (.ok increment)

/-- `h2_frame_parse_ping`. -/
def parsePing (header : FrameHeader) (payload : List UInt8) :
    Option (Except ErrorCode (List UInt8)) :=
  if header.type ≠ FrameType.ping.toByte then pure (.error .protocolError)
  else if validatePayload header ≠ .ok then pure (.error (validatePayload header))
  else do
    let bytes ← slice payload 0 8
    let opaqueData ← write 8 [] bytes
    pure (.ok opaqueData)

/-- `h2_frame_parse_goaway`. -/
def parseGoaway (header : FrameHeader) (payload : List UInt8) :
    Option (Except ErrorCode GoawayPayload) :=
  if header.type ≠ FrameType.goaway.toByte then pure (.error .protocolError)
  else if validatePayload header ≠ .ok then pure (.error (validatePayload header))
  else do
    let lastStreamId ← readU31 payload
    let errorCode ← readU32 (← rest payload 4)
    let debugLen ← sub header.length 8
    let debugData ← slice payload 8 debugLen
    pure (.ok { lastStreamId := lastStreamId, errorCode := errorCode, debugData := debugData })

/-- `h2_frame_parse_rst_stream`. -/
def parseRstStream (header : FrameHeader) (payload : List UInt8) : Option (Except ErrorCode Nat) :=
  if header.type ≠ FrameType.rstStream.toByte then pure (.error .protocolError)
  else if validatePayload header ≠ .ok then pure (.error (validatePayload header))
  else do
    let errorCode ← readU32 payload
    pure (.ok errorCode)

/-- `h2_frame_parse_continuation`. -/
def parseContinuation (header : FrameHeader) (payload : List UInt8) :
    Option (Except ErrorCode (List UInt8)) :=
  if header.type ≠ FrameType.continuation.toByte ∨ validatePayload header ≠ .ok then
    pure (.error .protocolError)
  else do
    let block ← slice payload 0 header.length
    pure (.ok block)

/-- The part of `h2_frame_parse_push_promise` after the padding. -/
def parsePushPromiseBlock (payload : List UInt8) (pos blockLen padLen : Nat) :
    Option (Except ErrorCode PushPromisePayload) :=
  if blockLen < 4 then pure (.error .frameSizeError)
  else do
    let promisedStreamId ← readU31 (← rest payload pos)
    let blockLen ← sub blockLen 4
    let block ← slice payload (pos + 4) blockLen
    pure (.ok { promisedStreamId := promisedStreamId, headerBlock := block, padLen := padLen })

/-- `h2_frame_parse_push_promise`. -/
def parsePushPromise (header : FrameHeader) (payload : List UInt8) :
    Option (Except ErrorCode PushPromisePayload) :=
  if header.type ≠ FrameType.pushPromise.toByte ∨ validatePayload header ≠ .ok then
    pure (.error .protocolError)
  else if hasFlag header.flags flagPadded then do
    let padLen ← byte payload 0
    let blockLen ← sub header.length 1
    if padLen > blockLen then pure (.error .protocolError)
    else
      let blockLen ← sub blockLen padLen
      parsePushPromiseBlock payload 1 blockLen padLen
  else parsePushPromiseBlock payload 0 header.length 0

/-! ## The parsers stay in the payload -/

section

variable {header : FrameHeader} {payload : List UInt8}

/-- What a validated header says about its length. -/
theorem allowed_of_ok {t : FrameType} (htype : header.type = t.toByte)
    (hok : validatePayload header = .ok) : HeaderAllowed header t := by
  have hlen : header.length ≤ maxFrameSizeLimit := by
    rw [validatePayload] at hok
    by_contra hlong
    rw [if_pos (not_le.mp hlong)] at hok
    cases hok
  exact (validatePayload_ok_iff htype hlen).mp hok

theorem parseData_eq (hlen : header.length ≤ payload.length) :
    parseData header payload = some (Http2.parseData header payload) := by
  rw [parseData, Http2.parseData]
  by_cases hguard : header.type ≠ FrameType.data.toByte ∨ validatePayload header ≠ .ok
  · rw [if_pos hguard, if_pos hguard]
    rfl
  · rw [if_neg hguard, if_neg hguard]
    by_cases hpad : hasFlag header.flags flagPadded = true
    · rw [if_pos hpad, if_pos hpad]
      by_cases h0 : header.length = 0
      · rw [if_pos h0, if_pos h0]
        rfl
      · rw [if_neg h0, if_neg h0, byte_of_lt (by omega), sub_of_le (by omega)]
        simp only [Option.bind_eq_bind, Option.bind_some]
        by_cases hlong : byteAt payload 0 > header.length - 1
        · rw [if_pos hlong, if_pos hlong]
          rfl
        · rw [if_neg hlong, if_neg hlong, sub_of_le (by omega)]
          simp only [Option.bind_some]
          rw [slice_of_le (by omega)]
          rfl
    · rw [if_neg hpad, if_neg hpad, slice_of_le (by omega)]
      rfl

theorem parsePriority_eq (hlen : header.length ≤ payload.length) :
    parsePriority header payload = some (Http2.parsePriority header payload) := by
  rw [parsePriority, Http2.parsePriority]
  by_cases hguard : header.type ≠ FrameType.priority.toByte ∨ validatePayload header ≠ .ok
  · rw [if_pos hguard, if_pos hguard]
    rfl
  · obtain ⟨htype, hok⟩ := not_or.mp hguard
    have hallowed := allowed_of_ok (not_not.mp htype) (not_not.mp hok)
    have hfive : 5 ≤ payload.length := hallowed.2 ▸ hlen
    rw [if_neg hguard, if_neg hguard, byte_of_lt (by omega), readU31_eq (by omega)]
    simp only [Option.bind_eq_bind, Option.bind_some]
    by_cases hself : Http2.readU31 payload = header.streamId
    · rw [if_pos hself, if_pos hself]
      rfl
    · rw [if_neg hself, if_neg hself, byte_of_lt (by omega)]
      rfl

theorem parseHeadersBlock_eq {pos blockLen : Nat} (hin : pos + blockLen ≤ payload.length)
    (padLen : Nat) : parseHeadersBlock header payload pos blockLen padLen
      = some (Http2.parseHeadersBlock header payload pos blockLen padLen) := by
  rw [parseHeadersBlock, Http2.parseHeadersBlock]
  by_cases hprio : hasFlag header.flags flagPriority = true
  · rw [if_pos hprio, if_pos hprio]
    by_cases hshort : blockLen < 5
    · rw [if_pos hshort, if_pos hshort]
      rfl
    · rw [if_neg hshort, if_neg hshort, rest_of_le (by omega)]
      simp only [Option.bind_eq_bind, Option.bind_some]
      rw [parsePriority_eq (by rw [List.length_drop]; simp only; omega)]
      simp only [Option.bind_some]
      rcases Http2.parsePriority _ (payload.drop pos) with ret | priority
      · rfl
      · simp only
        rw [sub_of_le (by omega)]
        simp only [Option.bind_some]
        rw [slice_of_le (by omega)]
        rfl
  · rw [if_neg hprio, if_neg hprio, slice_of_le hin]
    rfl

theorem parseHeaders_eq (hlen : header.length ≤ payload.length) :
    parseHeaders header payload = some (Http2.parseHeaders header payload) := by
  rw [parseHeaders, Http2.parseHeaders]
  by_cases hguard : header.type ≠ FrameType.headers.toByte ∨ validatePayload header ≠ .ok
  · rw [if_pos hguard, if_pos hguard]
    rfl
  · rw [if_neg hguard, if_neg hguard]
    by_cases hpad : hasFlag header.flags flagPadded = true
    · rw [if_pos hpad, if_pos hpad]
      by_cases h0 : header.length = 0
      · rw [if_pos h0, if_pos h0]
        rfl
      · rw [if_neg h0, if_neg h0, byte_of_lt (by omega), sub_of_le (by omega)]
        simp only [Option.bind_eq_bind, Option.bind_some]
        by_cases hlong : byteAt payload 0 > header.length - 1
        · rw [if_pos hlong, if_pos hlong]
          rfl
        · rw [if_neg hlong, if_neg hlong, sub_of_le (by omega)]
          exact parseHeadersBlock_eq (by omega) _
    · rw [if_neg hpad, if_neg hpad]
      exact parseHeadersBlock_eq (by omega) 0

/-- **The loop over the entries** reads six bytes for each of them and writes one of the array. -/
theorem parseSettingsLoop_eq {items item maxSettings : Nat}
    (hread : (item + items) * 6 ≤ payload.length) {settings : List Setting}
    (hwrite : settings.length + items ≤ maxSettings) :
    parseSettingsLoop payload maxSettings items item settings
      = some (settings ++ (List.range' item items).map fun i =>
        { id := Http2.readU16 (payload.drop (i * 6))
          value := Http2.readU32 (payload.drop (i * 6 + 2)) }) := by
  induction items generalizing item settings with
  | zero =>
      rw [parseSettingsLoop, List.range'_zero, List.map_nil, List.append_nil]
  | succ items ih =>
      have hid : 2 ≤ (payload.drop (item * 6)).length := by
        rw [List.length_drop]
        omega
      have hvalue : 4 ≤ (payload.drop (item * 6 + 2)).length := by
        rw [List.length_drop]
        omega
      rw [parseSettingsLoop, rest_of_le (by omega), rest_of_le (by omega)]
      simp only [Option.bind_eq_bind, Option.bind_some]
      rw [readU16_eq hid]
      simp only [Option.bind_some]
      rw [readU32_eq hvalue]
      simp only [Option.bind_some]
      rw [write_of_le (by rw [List.length_singleton]; omega)]
      simp only [Option.bind_some]
      rw [ih (by omega) (by rw [List.length_append, List.length_singleton]; omega),
        List.range'_succ, List.map_cons, List.append_assoc, List.singleton_append]

theorem parseSettings_eq (hlen : header.length ≤ payload.length) (maxSettings : Nat) :
    parseSettings header payload maxSettings
      = some (Http2.parseSettings header payload maxSettings) := by
  rw [parseSettings, Http2.parseSettings]
  split_ifs with htype hvalid hack hmany
  · rfl
  · rfl
  · rfl
  · rfl
  · rw [parseSettingsLoop_eq (by omega) (by rw [List.length_nil]; omega), List.nil_append,
      List.range_eq_range']
    rfl

theorem parseWindowUpdate_eq (hlen : header.length ≤ payload.length) :
    parseWindowUpdate header payload = some (Http2.parseWindowUpdate header payload) := by
  rw [parseWindowUpdate, Http2.parseWindowUpdate]
  by_cases htype : header.type ≠ FrameType.windowUpdate.toByte
  · rw [if_pos htype, if_pos htype]
    rfl
  · rw [if_neg htype, if_neg htype]
    by_cases hok : validatePayload header ≠ .ok
    · rw [if_pos hok, if_pos hok]
      rfl
    · have hallowed := allowed_of_ok (not_not.mp htype) (not_not.mp hok)
      have hfour : 4 ≤ payload.length := hallowed ▸ hlen
      rw [if_neg hok, if_neg hok, readU31_eq hfour]
      simp only [Option.bind_eq_bind, Option.bind_some]
      split_ifs <;> rfl

theorem parsePing_eq (hlen : header.length ≤ payload.length) :
    parsePing header payload = some (Http2.parsePing header payload) := by
  rw [parsePing, Http2.parsePing]
  by_cases htype : header.type ≠ FrameType.ping.toByte
  · rw [if_pos htype, if_pos htype]
    rfl
  · rw [if_neg htype, if_neg htype]
    by_cases hok : validatePayload header ≠ .ok
    · rw [if_pos hok, if_pos hok]
      rfl
    · have hallowed := allowed_of_ok (not_not.mp htype) (not_not.mp hok)
      have height : 8 ≤ payload.length := hallowed.2 ▸ hlen
      rw [if_neg hok, if_neg hok, slice_of_le (by omega)]
      simp only [Option.bind_eq_bind, Option.bind_some]
      rw [write_of_le (by rw [List.length_take, List.length_nil]; omega)]
      rfl

theorem parseGoaway_eq (hlen : header.length ≤ payload.length) :
    parseGoaway header payload = some (Http2.parseGoaway header payload) := by
  rw [parseGoaway, Http2.parseGoaway]
  by_cases htype : header.type ≠ FrameType.goaway.toByte
  · rw [if_pos htype, if_pos htype]
    rfl
  · rw [if_neg htype, if_neg htype]
    by_cases hok : validatePayload header ≠ .ok
    · rw [if_pos hok, if_pos hok]
      rfl
    · have hallowed := allowed_of_ok (not_not.mp htype) (not_not.mp hok)
      have height : 8 ≤ header.length := hallowed.2
      have htail : 4 ≤ (payload.drop 4).length := by
        rw [List.length_drop]
        omega
      rw [if_neg hok, if_neg hok, readU31_eq (by omega), rest_of_le (by omega)]
      simp only [Option.bind_eq_bind, Option.bind_some]
      rw [readU32_eq htail, sub_of_le height]
      simp only [Option.bind_some]
      rw [slice_of_le (by omega)]
      rfl

theorem parseRstStream_eq (hlen : header.length ≤ payload.length) :
    parseRstStream header payload = some (Http2.parseRstStream header payload) := by
  rw [parseRstStream, Http2.parseRstStream]
  by_cases htype : header.type ≠ FrameType.rstStream.toByte
  · rw [if_pos htype, if_pos htype]
    rfl
  · rw [if_neg htype, if_neg htype]
    by_cases hok : validatePayload header ≠ .ok
    · rw [if_pos hok, if_pos hok]
      rfl
    · have hallowed := allowed_of_ok (not_not.mp htype) (not_not.mp hok)
      have hfour : 4 ≤ payload.length := hallowed.2 ▸ hlen
      rw [if_neg hok, if_neg hok, readU32_eq hfour]
      rfl

theorem parseContinuation_eq (hlen : header.length ≤ payload.length) :
    parseContinuation header payload = some (Http2.parseContinuation header payload) := by
  rw [parseContinuation, Http2.parseContinuation]
  by_cases hguard : header.type ≠ FrameType.continuation.toByte ∨ validatePayload header ≠ .ok
  · rw [if_pos hguard, if_pos hguard]
    rfl
  · rw [if_neg hguard, if_neg hguard, slice_of_le (by omega)]
    rfl

theorem parsePushPromiseBlock_eq {pos blockLen : Nat} (hin : pos + blockLen ≤ payload.length)
    (padLen : Nat) : parsePushPromiseBlock payload pos blockLen padLen
      = some (Http2.parsePushPromiseBlock payload pos blockLen padLen) := by
  rw [parsePushPromiseBlock, Http2.parsePushPromiseBlock]
  by_cases hshort : blockLen < 4
  · rw [if_pos hshort, if_pos hshort]
    rfl
  · have htail : 4 ≤ (payload.drop pos).length := by
      rw [List.length_drop]
      omega
    rw [if_neg hshort, if_neg hshort, rest_of_le (by omega)]
    simp only [Option.bind_eq_bind, Option.bind_some]
    rw [readU31_eq htail, sub_of_le (by omega)]
    simp only [Option.bind_some]
    rw [slice_of_le (by omega)]
    rfl

theorem parsePushPromise_eq (hlen : header.length ≤ payload.length) :
    parsePushPromise header payload = some (Http2.parsePushPromise header payload) := by
  rw [parsePushPromise, Http2.parsePushPromise]
  by_cases hguard : header.type ≠ FrameType.pushPromise.toByte ∨ validatePayload header ≠ .ok
  · rw [if_pos hguard, if_pos hguard]
    rfl
  · obtain ⟨htype, hok⟩ := not_or.mp hguard
    have hallowed := (allowed_of_ok (not_not.mp htype) (not_not.mp hok)).2
    rw [if_neg hguard, if_neg hguard]
    by_cases hpad : hasFlag header.flags flagPadded = true
    · have hfive : 5 ≤ header.length := by simpa [hpad] using hallowed
      rw [if_pos hpad, if_pos hpad, byte_of_lt (by omega), sub_of_le (by omega)]
      simp only [Option.bind_eq_bind, Option.bind_some]
      by_cases hlong : byteAt payload 0 > header.length - 1
      · rw [if_pos hlong, if_pos hlong]
        rfl
      · rw [if_neg hlong, if_neg hlong, sub_of_le (by omega)]
        exact parsePushPromiseBlock_eq (by omega) _
    · rw [if_neg hpad, if_neg hpad]
      exact parsePushPromiseBlock_eq (by omega) 0

end

/-- The parser of a frame type. -/
def parsePayload (maxSettings : Nat) (type : FrameType) (header : FrameHeader)
    (payload : List UInt8) : Option (Except ErrorCode ParsedPayload) :=
  match type with
  | .data => (parseData header payload).map (·.map .data)
  | .headers => (parseHeaders header payload).map (·.map .headers)
  | .priority => (parsePriority header payload).map (·.map .priority)
  | .rstStream => (parseRstStream header payload).map (·.map .rstStream)
  | .settings => (parseSettings header payload maxSettings).map (·.map .settings)
  | .pushPromise => (parsePushPromise header payload).map (·.map .pushPromise)
  | .ping => (parsePing header payload).map (·.map .ping)
  | .goaway => (parseGoaway header payload).map (·.map .goaway)
  | .windowUpdate => (parseWindowUpdate header payload).map (·.map .windowUpdate)
  | .continuation => (parseContinuation header payload).map (·.map .continuation)

/-- **The parsers** read inside the payload. -/
theorem parsePayload_eq {header : FrameHeader} {payload : List UInt8}
    (hlen : header.length ≤ payload.length) (maxSettings : Nat) (type : FrameType) :
    parsePayload maxSettings type header payload
      = some (Http2.parsePayload maxSettings type header payload) := by
  cases type with
  | data => rw [parsePayload, parseData_eq hlen]; rfl
  | headers => rw [parsePayload, parseHeaders_eq hlen]; rfl
  | priority => rw [parsePayload, parsePriority_eq hlen]; rfl
  | rstStream => rw [parsePayload, parseRstStream_eq hlen]; rfl
  | settings => rw [parsePayload, parseSettings_eq hlen]; rfl
  | pushPromise => rw [parsePayload, parsePushPromise_eq hlen]; rfl
  | ping => rw [parsePayload, parsePing_eq hlen]; rfl
  | goaway => rw [parsePayload, parseGoaway_eq hlen]; rfl
  | windowUpdate => rw [parsePayload, parseWindowUpdate_eq hlen]; rfl
  | continuation => rw [parsePayload, parseContinuation_eq hlen]; rfl

/-- A payload that is shorter than its header says stops the parser. -/
example : parsePing { length := 8, type := FrameType.ping.toByte, flags := 0, streamId := 0 }
    [1, 2, 3] = none := by decide

/-! ## Encoders -/

/-- `h2_frame_encode_raw`. -/
def encodeRaw (cap : Nat) (type : FrameType) (flags : UInt8) (streamId : Nat)
    (payload : List UInt8) : Option (Option (List UInt8)) :=
  if payload.length > maxFrameSizeLimit then pure none
  else do
    let total ← add 64 frameHeaderLen payload.length
    if cap < total then pure none
    else
      match ← writeHeader cap
          { length := payload.length, type := type.toByte, flags := flags, streamId := streamId } with
      | .error _ => pure none
      | .ok wire =>
          let wire ← write cap wire payload
          pure (some wire)

/-- `h2_frame_encode_data`. -/
def encodeData (cap streamId : Nat) (flags : UInt8) (data : List UInt8) :
    Option (Option (List UInt8)) :=
  if streamId = 0 ∨ hasFlag flags flagPadded then pure none
  else encodeRaw cap .data flags streamId data

/-- `h2_frame_encode_headers`. -/
def encodeHeaders (cap streamId : Nat) (flags : UInt8) (headerBlock : List UInt8) :
    Option (Option (List UInt8)) :=
  if streamId = 0 ∨ hasFlag flags (flagPadded ||| flagPriority) then pure none
  else encodeRaw cap .headers flags streamId headerBlock

/-- `h2_frame_encode_rst_stream`. -/
def encodeRstStream (cap streamId errorCode : Nat) : Option (Option (List UInt8)) :=
  if streamId = 0 then pure none
  else do
    let payload ← write 4 [] (writeU32 errorCode)
    encodeRaw cap .rstStream 0 streamId payload

/-- The loop of `h2_frame_encode_settings`. -/
def encodeSettingsLoop : List Setting → (payload : List UInt8) → Option (List UInt8)
  | [], payload => some payload
  | setting :: settings, payload => do
      let payload ← write 96 payload (writeU16 setting.id)
      let payload ← write 96 payload (writeU32 setting.value)
      encodeSettingsLoop settings payload

/-- `h2_frame_encode_settings`. -/
def encodeSettings (cap : Nat) (flags : UInt8) (settings : List Setting) :
    Option (Option (List UInt8)) :=
  if hasFlag flags flagAck then
    if settings.length = 0 then encodeRaw cap .settings flagAck 0 [] else pure none
  else if settings.length > 96 / 6 then pure none
  else do
    let payload ← encodeSettingsLoop settings []
    encodeRaw cap .settings flags 0 (← slice payload 0 (settings.length * 6))

/-- `h2_frame_encode_ping`. -/
def encodePing (cap : Nat) (flags : UInt8) (opaqueData : List UInt8) :
    Option (Option (List UInt8)) := do
  encodeRaw cap .ping flags 0 (← slice opaqueData 0 8)

/-- `h2_frame_encode_goaway`. -/
def encodeGoaway (cap lastStreamId errorCode : Nat) (debugData : List UInt8) :
    Option (Option (List UInt8)) := do
  let payloadLen ← add 64 debugData.length 8
  if payloadLen > defaultMaxFrameSize then pure none
  else
    let payload ← write defaultMaxFrameSize [] (writeU32 (lastStreamId &&& 0x7fffffff))
    let payload ← write defaultMaxFrameSize payload (writeU32 errorCode)
    let payload ← write defaultMaxFrameSize payload debugData
    encodeRaw cap .goaway 0 0 (← slice payload 0 payloadLen)

/-- `h2_frame_encode_window_update`. -/
def encodeWindowUpdate (cap streamId increment : Nat) : Option (Option (List UInt8)) :=
  if increment = 0 ∨ increment &&& 0x80000000 ≠ 0 then pure none
  else do
    let payload ← write 4 [] (writeU32 increment)
    encodeRaw cap .windowUpdate 0 streamId payload

theorem encodeRaw_eq (cap : Nat) (type : FrameType) (flags : UInt8) (streamId : Nat)
    (payload : List UInt8) : encodeRaw cap type flags streamId payload
      = some (Http2.encodeRaw cap type flags streamId payload) := by
  rw [encodeRaw, Http2.encodeRaw]
  by_cases hlong : payload.length > maxFrameSizeLimit
  · rw [if_pos hlong, if_pos (Or.inl hlong)]
    rfl
  · have hsmall : payload.length ≤ 16777215 := not_lt.mp hlong
    rw [if_neg hlong, add_of_lt (by rw [frameHeaderLen]; omega)]
    simp only [Option.bind_eq_bind, Option.bind_some]
    by_cases hcap : cap < frameHeaderLen + payload.length
    · rw [if_pos hcap, if_pos (Or.inr hcap)]
      rfl
    · have hroom : 9 + payload.length ≤ cap := not_lt.mp hcap
      rw [if_neg hcap, if_neg (not_or.mpr ⟨hlong, hcap⟩), writeHeader_eq, Http2.writeHeader,
        if_neg (not_or.mpr ⟨by rw [frameHeaderLen]; omega, hlong⟩)]
      simp only [Option.bind_some]
      rw [write_of_le (by
        simp only [writeU32, List.length_append, List.length_cons, List.length_nil]
        omega)]
      rfl

theorem encodeData_eq (cap streamId : Nat) (flags : UInt8) (data : List UInt8) :
    encodeData cap streamId flags data = some (Http2.encodeData cap streamId flags data) := by
  rw [encodeData, Http2.encodeData, encodeRaw_eq]
  split_ifs <;> rfl

theorem encodeHeaders_eq (cap streamId : Nat) (flags : UInt8) (headerBlock : List UInt8) :
    encodeHeaders cap streamId flags headerBlock
      = some (Http2.encodeHeaders cap streamId flags headerBlock) := by
  rw [encodeHeaders, Http2.encodeHeaders, encodeRaw_eq]
  split_ifs <;> rfl

theorem encodeRstStream_eq (cap streamId errorCode : Nat) :
    encodeRstStream cap streamId errorCode
      = some (Http2.encodeRstStream cap streamId errorCode) := by
  rw [encodeRstStream, Http2.encodeRstStream, write_of_le (by rw [writeU32_length]; decide)]
  simp only [Option.bind_eq_bind, Option.bind_some, List.nil_append]
  rw [encodeRaw_eq]
  split_ifs <;> rfl

theorem encodeSettingsLoop_eq (settings : List Setting) {payload : List UInt8}
    (hroom : payload.length + settings.length * 6 ≤ 96) :
    encodeSettingsLoop settings payload
      = some (payload ++ settings.flatMap fun s => writeU16 s.id ++ writeU32 s.value) := by
  induction settings generalizing payload with
  | nil => rw [encodeSettingsLoop, List.flatMap_nil, List.append_nil]
  | cons setting settings ih =>
      rw [List.length_cons] at hroom
      have hid : (writeU16 setting.id).length = 2 := rfl
      rw [encodeSettingsLoop, write_of_le (by omega)]
      simp only [Option.bind_eq_bind, Option.bind_some]
      rw [write_of_le (by rw [List.length_append, writeU32_length]; omega)]
      simp only [Option.bind_some]
      rw [ih (by rw [List.length_append, List.length_append, writeU32_length]; omega),
        List.flatMap_cons, List.append_assoc, List.append_assoc, List.append_assoc]

theorem encodeSettings_eq (cap : Nat) (flags : UInt8) (settings : List Setting) :
    encodeSettings cap flags settings = some (Http2.encodeSettings cap flags settings) := by
  rw [encodeSettings, Http2.encodeSettings, encodeRaw_eq]
  by_cases hack : hasFlag flags flagAck = true
  · rw [if_pos hack, if_pos hack]
    split_ifs <;> rfl
  · rw [if_neg hack, if_neg hack]
    by_cases hmany : settings.length > 96 / 6
    · rw [if_pos hmany, if_pos hmany]
      rfl
    · have hlen : ∀ entries : List Setting,
          (entries.flatMap fun s => writeU16 s.id ++ writeU32 s.value).length
            = entries.length * 6 := by
        intro entries
        induction entries with
        | nil => rfl
        | cons entry entries ih =>
            rw [List.flatMap_cons, List.length_append, ih, List.length_cons]
            show 6 + _ = _
            omega
      rw [if_neg hmany, if_neg hmany,
        encodeSettingsLoop_eq settings (by rw [List.length_nil]; omega), List.nil_append]
      simp only [Option.bind_eq_bind, Option.bind_some]
      rw [slice_of_le (by rw [hlen]; omega), List.drop_zero, List.take_of_length_le (by rw [hlen])]
      exact encodeRaw_eq ..

theorem encodePing_eq (cap : Nat) (flags : UInt8) {opaqueData : List UInt8}
    (hlen : opaqueData.length = 8) :
    encodePing cap flags opaqueData = some (Http2.encodePing cap flags opaqueData) := by
  rw [encodePing, Http2.encodePing, slice_of_le (by omega), List.drop_zero,
    List.take_of_length_le (by omega)]
  exact encodeRaw_eq ..

theorem encodeGoaway_eq (cap lastStreamId errorCode : Nat) {debugData : List UInt8}
    (hlen : debugData.length + 8 < 2 ^ 64) : encodeGoaway cap lastStreamId errorCode debugData
      = some (Http2.encodeGoaway cap lastStreamId errorCode debugData) := by
  have hmod : (debugData.length + 8) % 18446744073709551616 = debugData.length + 8 :=
    Nat.mod_eq_of_lt hlen
  rw [encodeGoaway, Http2.encodeGoaway, add_of_lt hlen, hmod]
  simp only [Option.bind_eq_bind, Option.bind_some]
  by_cases hlong : debugData.length + 8 > defaultMaxFrameSize
  · rw [if_pos hlong, if_pos hlong]
    rfl
  · have hsmall : debugData.length + 8 ≤ 16384 := not_lt.mp hlong
    have hcap : defaultMaxFrameSize = 16384 := rfl
    rw [if_neg hlong, if_neg hlong, write_of_le (by rw [writeU32_length]; decide)]
    simp only [Option.bind_some, List.nil_append]
    rw [write_of_le (by rw [writeU32_length, writeU32_length]; decide)]
    simp only [Option.bind_some]
    rw [write_of_le (by rw [List.length_append, writeU32_length, writeU32_length]; omega)]
    simp only [Option.bind_some]
    rw [slice_of_le (by
      rw [List.length_append, List.length_append, writeU32_length, writeU32_length]
      omega), List.drop_zero]
    exact encodeRaw_eq ..

theorem encodeWindowUpdate_eq (cap streamId increment : Nat) :
    encodeWindowUpdate cap streamId increment
      = some (Http2.encodeWindowUpdate cap streamId increment) := by
  rw [encodeWindowUpdate, Http2.encodeWindowUpdate, write_of_le (by rw [writeU32_length]; decide)]
  simp only [Option.bind_eq_bind, Option.bind_some, List.nil_append]
  rw [encodeRaw_eq]
  split_ifs <;> rfl

end C11Omo.Http2.Checked
