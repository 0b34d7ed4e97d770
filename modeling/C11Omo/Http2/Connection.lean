import C11Omo.Http2.Stream

set_option autoImplicit false

/-! # The connection

`include/http2/connection.h` and `src/connection.c`. A handler takes the connection and returns
the return code with the changed connection, also when it fails: what a failed handler has
already changed stays changed. A buffer and its length are one list, the live part of the
buffer. A pointer to a stream slot is the position of the slot.
-/

namespace C11Omo.Http2

open C11Omo.Lib

/-- `H2_CLIENT_PREFACE`. -/
def clientPreface : List UInt8 := ascii "PRI * HTTP/2.0\r\n\r\nSM\r\n\r\n"

def clientPrefaceLen : Nat := 24
def connInputCap : Nat := 131072
def connOutputCap : Nat := 131072
abbrev connMaxStreams : Nat := 128
def headerBlockCap : Nat := 65536

/-- `h2_connection`. -/
structure Connection where
  prefaceSeen : Bool
  settingsSent : Bool
  goawaySent : Bool
  goawayError : Nat
  lastStreamId : Nat
  maxFrameSize : Nat
  initialStreamWindow : Int
  connSendWindow : Int
  connRecvWindow : Int
  responsesSent : Nat
  headerBlockOpen : Bool
  headerBlockStreamId : Nat
  headerBlockFlags : UInt8
  headerBlock : List UInt8
  streams : Fin connMaxStreams → Stream
  input : List UInt8
  output : List UInt8
  outputSent : Nat

namespace Connection

/-- Write the slot at `pos`. -/
def setStream (conn : Connection) (pos : Fin connMaxStreams) (stream : Stream) : Connection :=
  { conn with streams := Function.update conn.streams pos stream }

/-- `ret = first(conn); if (ret != H2_OK) { return ret; }` followed by `next`. -/
def andThen (first : ErrorCode × Connection) (next : Connection → ErrorCode × Connection) :
    ErrorCode × Connection :=
  match first with
  | (.ok, conn) => next conn
  | (ret, conn) => (ret, conn)

/-! ## The output queue -/

/-- `h2_connection_compact_output`. -/
def compactOutput (conn : Connection) : Connection :=
  if conn.outputSent = 0 then conn
  else if conn.outputSent ≥ conn.output.length then { conn with output := [], outputSent := 0 }
  else { conn with output := conn.output.drop conn.outputSent, outputSent := 0 }

/-- `h2_connection_queue_bytes`. -/
def queueBytes (conn : Connection) (data : List UInt8) : ErrorCode × Connection :=
  let conn := conn.compactOutput
  if data.length > connOutputCap - conn.output.length then (.internalError, conn)
  else (.ok, { conn with output := conn.output ++ data })

/-- The end of every frame producer: `wire_len == 0u` is an internal error, anything else is
queued. -/
def queueWire (conn : Connection) (wire : Option (List UInt8)) : ErrorCode × Connection :=
  match wire with
  | none => (.internalError, conn)
  | some wire => conn.queueBytes wire

/-- `h2_connection_queue_goaway`. -/
def queueGoaway (conn : Connection) (errorCode : ErrorCode) : ErrorCode × Connection :=
  if conn.goawaySent then (.ok, conn)
  else
    match encodeGoaway (frameHeaderLen + 8) conn.lastStreamId errorCode.toNat [] with
    | none => (.internalError, conn)
    | some wire =>
        { conn with goawaySent := true, goawayError := errorCode.toNat }.queueBytes wire

/-- `h2_connection_queue_settings`. -/
def queueSettings (conn : Connection) : ErrorCode × Connection :=
  conn.queueWire (encodeSettings (frameHeaderLen + 6) 0 [{ id := settingsEnablePush, value := 0 }])

/-- `h2_connection_queue_settings_ack`. -/
def queueSettingsAck (conn : Connection) : ErrorCode × Connection :=
  conn.queueWire (encodeSettings frameHeaderLen flagAck [])

/-- `h2_connection_queue_window_update`. -/
def queueWindowUpdate (conn : Connection) (streamId increment : Nat) : ErrorCode × Connection :=
  conn.queueWire (encodeWindowUpdate (frameHeaderLen + 4) streamId increment)

/-- `h2_connection_queue_rst_stream`. -/
def queueRstStream (conn : Connection) (streamId : Nat) (errorCode : ErrorCode) :
    ErrorCode × Connection :=
  conn.queueWire (encodeRstStream (frameHeaderLen + 4) streamId errorCode.toNat)

/-! ## The slot table -/

/-- `h2_connection_find_stream`. -/
def findStream (conn : Connection) (streamId : Nat) : Option (Fin connMaxStreams) :=
  (List.finRange connMaxStreams).find? (fun pos => (conn.streams pos).id = streamId)

/-- A slot `h2_connection_get_stream` may give to a new stream. -/
def reusable (stream : Stream) : Bool := stream.id = 0 ∨ stream.state = .closed

/-- `h2_connection_get_stream`. -/
def getStream (conn : Connection) (streamId : Nat) : Option (Fin connMaxStreams) × Connection :=
  match conn.findStream streamId with
  | some pos => (some pos, conn)
  | none =>
      match (List.finRange connMaxStreams).find? (fun pos => reusable (conn.streams pos)) with
      | some pos => (some pos, conn.setStream pos (Stream.init streamId conn.initialStreamWindow))
      | none => (none, conn)

/-- A slot that holds a stream which is not closed, as the loops over the table test it. -/
def live (stream : Stream) : Bool := stream.id ≠ 0 ∧ stream.state ≠ .closed

/-! ## Receive windows -/

/-- The second half of `h2_connection_refresh_recv_windows`. -/
def refreshStreamRecvWindow (conn : Connection) (pos : Fin connMaxStreams) :
    ErrorCode × Connection :=
  let stream := conn.streams pos
  if stream.recvWindow ≤ 65535 / 2 then
    let increment := toUInt32 (defaultWindowSize - stream.recvWindow)
    let conn := conn.setStream pos
      { stream with recvWindow := stream.recvWindow + toInt32 increment }
    match conn.queueWindowUpdate stream.id increment with
    | (.ok, conn) => (.ok, conn)
    | (_, conn) => (.internalError, conn)
  else (.ok, conn)

/-- The first half of `h2_connection_refresh_recv_windows`. -/
def refreshConnRecvWindow (conn : Connection) : ErrorCode × Connection :=
  if conn.connRecvWindow ≤ 65535 / 2 then
    let increment := toUInt32 (defaultWindowSize - conn.connRecvWindow)
    let conn := { conn with connRecvWindow := conn.connRecvWindow + toInt32 increment }
    match conn.queueWindowUpdate 0 increment with
    | (.ok, conn) => (.ok, conn)
    | (_, conn) => (.internalError, conn)
  else (.ok, conn)

/-- `h2_connection_refresh_recv_windows`; `none` is a `NULL` stream. -/
def refreshRecvWindows (conn : Connection) (stream : Option (Fin connMaxStreams)) :
    ErrorCode × Connection :=
  andThen conn.refreshConnRecvWindow fun conn =>
    match stream with
    | none => (.ok, conn)
    | some pos => conn.refreshStreamRecvWindow pos

/-! ## SETTINGS -/

/-- The loop over the slots in `h2_connection_apply_settings`, from the given positions on. -/
def shiftSendWindows (delta : Int) :
    List (Fin connMaxStreams) → Connection → ErrorCode × Connection
  | [], conn => (.ok, conn)
  | pos :: rest, conn =>
      let stream := conn.streams pos
      if live stream then
        let newWindow := stream.sendWindow + delta
        if newWindow < int32Min ∨ newWindow > int32Max then (.flowControlError, conn)
        else shiftSendWindows delta rest (conn.setStream pos { stream with sendWindow := newWindow })
      else shiftSendWindows delta rest conn

/-- One iteration of the loop over the entries in `h2_connection_apply_settings`. -/
def applySetting (conn : Connection) (setting : Setting) : ErrorCode × Connection :=
  if setting.id = settingsEnablePush then
    if setting.value > 1 then (.protocolError, conn) else (.ok, conn)
  else if setting.id = settingsInitialWindowSize then
    if (setting.value : Int) > int32Max then (.flowControlError, conn)
    else
      andThen (shiftSendWindows (setting.value - conn.initialStreamWindow)
        (List.finRange connMaxStreams) conn) fun conn =>
          (.ok, { conn with initialStreamWindow := setting.value })
  else if setting.id = settingsMaxFrameSize then
    if setting.value < defaultMaxFrameSize ∨ setting.value > maxFrameSizeLimit then
      (.protocolError, conn)
    else (.ok, { conn with maxFrameSize := setting.value })
  else (.ok, conn)

/-- The loop over the entries in `h2_connection_apply_settings`. -/
def applySettingsLoop : List Setting → Connection → ErrorCode × Connection
  | [], conn => (.ok, conn)
  | setting :: rest, conn => andThen (conn.applySetting setting) (applySettingsLoop rest)

/-- `h2_connection_apply_settings`; the local array has 32 entries. -/
def applySettings (conn : Connection) (header : FrameHeader) (payload : List UInt8) :
    ErrorCode × Connection :=
  match parseSettings header payload 32 with
  | .error ret => (ret, conn)
  | .ok settings =>
      if hasFlag header.flags flagAck then (.ok, conn)
      else andThen (applySettingsLoop settings conn) queueSettingsAck

/-! ## Responses -/

/-- `snprintf` with `"%zu"`. -/
def decimal (n : Nat) : List UInt8 := (Nat.toDigits 10 n).map (fun c => UInt8.ofNat c.toNat)

/-- The response body for a path: `snprintf` with `"%s\n"`. -/
def responseBody (path : List UInt8) : List UInt8 := path ++ [0x0a]

/-- `h2_connection_queue_deferred_data`. -/
def queueDeferredData (conn : Connection) (pos : Fin connMaxStreams) (body : List UInt8) :
    ErrorCode × Connection :=
  if conn.connSendWindow < body.length ∨ (conn.streams pos).sendWindow < body.length then
    (.ok, conn.setStream pos { conn.streams pos with responseBodyDeferred := true })
  else
    match conn.queueWire
        (encodeData (frameHeaderLen + 1024) (conn.streams pos).id flagEndStream body) with
    | (.ok, conn) =>
        let stream := conn.streams pos
        let (ret, stream) := Stream.sendEndStream
          { stream with
            sendWindow := stream.sendWindow - body.length
            responseBodyDeferred := false
            responseSent := true }
        (ret, { conn with
          connSendWindow := conn.connSendWindow - body.length
          responsesSent := (conn.responsesSent + 1) % 4294967296 }.setStream pos stream)
    | (_, conn) => (.internalError, conn)

/-- The header block of a response, in the 512 bytes of `header_block`. -/
def responseHeaderBlock (contentLength : List UInt8) : Option (List UInt8) := do
  let status ← encodeIndexed 512 8
  let contentType ← encodeLiteralNewName (512 - status.length) (ascii "content-type")
    (ascii "text/plain")
  let block := status ++ contentType
  let contentLen ← encodeLiteralNewName (512 - block.length) (ascii "content-length") contentLength
  let block := block ++ contentLen
  let server ← encodeLiteralNewName (512 - block.length) (ascii "server") (ascii "c11-h2")
  pure (block ++ server)

/-- The part of `h2_connection_queue_response` that queues the HEADERS frame. -/
def queueResponseHeaders (conn : Connection) (pos : Fin connMaxStreams)
    (contentLength : List UInt8) : ErrorCode × Connection :=
  match responseHeaderBlock contentLength with
  | none => (.internalError, conn)
  | some block =>
      match conn.queueWire
          (encodeHeaders (frameHeaderLen + 1024) (conn.streams pos).id flagEndHeaders block) with
      | (.ok, conn) =>
          (.ok, conn.setStream pos { conn.streams pos with responseHeadersSent := true })
      | (_, conn) => (.internalError, conn)

/-- `h2_connection_queue_response`. -/
def queueResponse (conn : Connection) (pos : Fin connMaxStreams) : ErrorCode × Connection :=
  if (conn.streams pos).responseSent then (.ok, conn)
  else
    let conn :=
      if (conn.streams pos).path = [] then
        conn.setStream pos { conn.streams pos with path := ascii "/" }
      else conn
    let body := responseBody (conn.streams pos).path
    if body.length ≥ 320 then (.internalError, conn)
    else if (decimal body.length).length ≥ 32 then (.internalError, conn)
    else
      andThen
        (if (conn.streams pos).responseHeadersSent then (.ok, conn)
          else conn.queueResponseHeaders pos (decimal body.length))
        fun conn => conn.queueDeferredData pos body

/-- The loop of `h2_connection_flush_deferred_responses`, from the given positions on. -/
def flushDeferredLoop : List (Fin connMaxStreams) → Connection → ErrorCode × Connection
  | [], conn => (.ok, conn)
  | pos :: rest, conn =>
      if live (conn.streams pos) ∧ (conn.streams pos).responseBodyDeferred then
        andThen (conn.queueResponse pos) (flushDeferredLoop rest)
      else flushDeferredLoop rest conn

/-- `h2_connection_flush_deferred_responses`. -/
def flushDeferredResponses (conn : Connection) : ErrorCode × Connection :=
  flushDeferredLoop (List.finRange connMaxStreams) conn

/-! ## Header blocks -/

/-- `h2_connection_finish_headers`. -/
def finishHeaders (conn : Connection) (streamId : Nat) (flags : UInt8) (block : List UInt8) :
    ErrorCode × Connection :=
  if streamId &&& 1 = 0 then (.protocolError, conn)
  else if streamId ≤ conn.lastStreamId then (.protocolError, conn)
  else
    match conn.getStream streamId with
    | (none, conn) => (.refusedStream, conn)
    | (some pos, conn) =>
        let conn := { conn with lastStreamId := streamId }
        let (ret, path) := extractPath block streamPathCap
        let conn := conn.setStream pos { conn.streams pos with path := path }
        if ret ≠ .ok then (ret, conn)
        else
          let (ret, stream) := (conn.streams pos).receiveHeaders (hasFlag flags flagEndStream)
          let conn := conn.setStream pos stream
          if ret ≠ .ok then (ret, conn) else conn.queueResponse pos

/-- `h2_connection_append_header_block`. -/
def appendHeaderBlock (conn : Connection) (data : List UInt8) : ErrorCode × Connection :=
  if data.length > headerBlockCap - conn.headerBlock.length then (.compressionError, conn)
  else (.ok, { conn with headerBlock := conn.headerBlock ++ data })

/-- `h2_connection_process_headers`. -/
def processHeaders (conn : Connection) (header : FrameHeader) (payload : List UInt8) :
    ErrorCode × Connection :=
  match parseHeaders header payload with
  | .error ret => (ret, conn)
  | .ok parsed =>
      if hasFlag header.flags flagEndHeaders = false then
        if conn.headerBlockOpen then (.protocolError, conn)
        else
          { conn with
            headerBlockOpen := true
            headerBlockStreamId := header.streamId
            headerBlockFlags := header.flags
            headerBlock := [] }.appendHeaderBlock parsed.headerBlock
      else conn.finishHeaders header.streamId header.flags parsed.headerBlock

/-- `h2_connection_process_continuation`. -/
def processContinuation (conn : Connection) (header : FrameHeader) (payload : List UInt8) :
    ErrorCode × Connection :=
  if conn.headerBlockOpen = false ∨ header.streamId ≠ conn.headerBlockStreamId then
    (.protocolError, conn)
  else
    match parseContinuation header payload with
    | .error ret => (ret, conn)
    | .ok fragment =>
        andThen (conn.appendHeaderBlock fragment) fun conn =>
          if hasFlag header.flags flagEndHeaders = false then (.ok, conn)
          else
            { conn with headerBlockOpen := false }.finishHeaders conn.headerBlockStreamId
              conn.headerBlockFlags conn.headerBlock

/-! ## The other frames -/

/-- `h2_connection_process_data`. -/
def processData (conn : Connection) (header : FrameHeader) (payload : List UInt8) :
    ErrorCode × Connection :=
  match parseData header payload with
  | .error ret => (ret, conn)
  | .ok _ =>
      match conn.findStream header.streamId with
      | none => (.protocolError, conn)
      | some pos =>
          if (conn.streams pos).state ≠ .opened ∧ (conn.streams pos).state ≠ .halfClosedLocal then
            if toSize conn.connRecvWindow < header.length then (.flowControlError, conn)
            else
              let conn := { conn with
                connRecvWindow := conn.connRecvWindow - toInt32 header.length }
              (.streamClosed, (conn.refreshRecvWindows none).2)
          else if toSize conn.connRecvWindow < header.length then (.flowControlError, conn)
          else
            let conn := { conn with
              connRecvWindow := conn.connRecvWindow - toInt32 header.length }
            let (ret, stream) := (conn.streams pos).receiveData header.length
              (hasFlag header.flags flagEndStream)
            let conn := conn.setStream pos stream
            if ret ≠ .ok then (ret, conn)
            else conn.refreshRecvWindows (if stream.state = .closed then none else some pos)

/-- `h2_connection_process_window_update`. -/
def processWindowUpdate (conn : Connection) (header : FrameHeader) (payload : List UInt8) :
    ErrorCode × Connection :=
  match parseWindowUpdate header payload with
  | .error ret => (ret, conn)
  | .ok increment =>
      if header.streamId = 0 then
        if conn.connSendWindow + increment > int32Max then (.flowControlError, conn)
        else
          { conn with connSendWindow := conn.connSendWindow + toInt32 increment }
            |>.flushDeferredResponses
      else
        match conn.findStream header.streamId with
        | none => (.ok, conn)
        | some pos =>
            let (ret, stream) := (conn.streams pos).addSendWindow increment
            let conn := conn.setStream pos stream
            if ret ≠ .ok then (ret, conn) else conn.flushDeferredResponses

/-- The RST_STREAM case of `h2_connection_process_frame`. -/
def processRstStream (conn : Connection) (header : FrameHeader) (payload : List UInt8) :
    ErrorCode × Connection :=
  match parseRstStream header payload with
  | .error ret => (ret, conn)
  | .ok _ =>
      match conn.findStream header.streamId with
      | some pos => (.ok, conn.setStream pos (conn.streams pos).close)
      | none =>
          if header.streamId &&& 1 = 0 then (.protocolError, conn)
          else if header.streamId > conn.lastStreamId then (.protocolError, conn)
          else (.ok, conn)

/-- The PING case of `h2_connection_process_frame`. -/
def processPing (conn : Connection) (header : FrameHeader) (payload : List UInt8) :
    ErrorCode × Connection :=
  match parsePing header payload with
  | .error ret => (ret, conn)
  | .ok opaqueData =>
      if hasFlag header.flags flagAck then (.ok, conn)
      else conn.queueWire (encodePing (frameHeaderLen + 8) flagAck opaqueData)

/-- `h2_connection_is_stream_error`. -/
def isStreamError (errorCode : ErrorCode) : Bool :=
  errorCode = .refusedStream ∨ errorCode = .streamClosed

/-- `h2_connection_reset_stream_error`. -/
def resetStreamError (conn : Connection) (streamId : Nat) (errorCode : ErrorCode) :
    ErrorCode × Connection :=
  andThen (conn.queueRstStream streamId errorCode) fun queued =>
    match conn.findStream streamId with
    | none => (.ok, queued)
    | some pos => (.ok, queued.setStream pos (queued.streams pos).close)

/-- `h2_connection_process_frame`. -/
def processFrame (conn : Connection) (header : FrameHeader) (payload : List UInt8) :
    ErrorCode × Connection :=
  if header.length > conn.maxFrameSize then (.frameSizeError, conn)
  else if conn.headerBlockOpen ∧ (header.type ≠ FrameType.continuation.toByte ∨
      header.streamId ≠ conn.headerBlockStreamId) then (.protocolError, conn)
  else
    match FrameType.ofByte? header.type with
    | some .data => conn.processData header payload
    | some .headers => conn.processHeaders header payload
    | some .priority =>
        match parsePriority header payload with
        | .error ret => (ret, conn)
        | .ok _ => (.ok, conn)
    | some .rstStream => conn.processRstStream header payload
    | some .settings => conn.applySettings header payload
    | some .pushPromise => (.protocolError, conn)
    | some .ping => conn.processPing header payload
    | some .goaway => (validatePayload header, conn)
    | some .windowUpdate => conn.processWindowUpdate header payload
    | some .continuation => conn.processContinuation header payload
    | none => (.ok, conn)

/-! ## The interface -/

/-- `h2_connection_init`. -/
def init : Connection :=
  { prefaceSeen := false
    settingsSent := false
    goawaySent := false
    goawayError := 0
    lastStreamId := 0
    maxFrameSize := defaultMaxFrameSize
    initialStreamWindow := defaultWindowSize
    connSendWindow := defaultWindowSize
    connRecvWindow := defaultWindowSize
    responsesSent := 0
    headerBlockOpen := false
    headerBlockStreamId := 0
    headerBlockFlags := 0
    headerBlock := []
    streams := fun _ => Stream.zero
    input := []
    output := []
    outputSent := 0 }

/-- `memmove(conn->input, conn->input + len, …)` and the new length. -/
def dropInput (conn : Connection) (len : Nat) : Connection :=
  { conn with input := conn.input.drop len }

/-- How one iteration of the loop of `h2_connection_feed` ends: without a complete frame, with
`return`, or with the frame removed from the input. -/
inductive FeedStep
  | stop
  | fail (code : ErrorCode) (conn : Connection)
  | next (conn : Connection)

/-- One iteration of the loop of `h2_connection_feed`. -/
def feedStep (conn : Connection) : FeedStep :=
  if conn.input.length < frameHeaderLen then .stop
  else
    match parseHeader conn.input with
    | .error ret => .fail ret conn
    | .ok header =>
        let wholeLen := frameHeaderLen + header.length
        if wholeLen > conn.input.length then .stop
        else
          match conn.processFrame header (conn.input.drop frameHeaderLen) with
          | (.ok, conn) => .next (conn.dropInput wholeLen)
          | (ret, conn) =>
              if isStreamError ret ∧ header.streamId ≠ 0 then
                match conn.resetStreamError header.streamId ret with
                | (.ok, conn) => .next (conn.dropInput wholeLen)
                | (rstRet, conn) => .fail rstRet conn
              else .fail ret (conn.queueGoaway ret).2

/-- The loop of `h2_connection_feed`. Every iteration removes at least nine bytes of input, so
`fuel` equal to the length of the input is enough (`feedLoop_stop`). -/
def feedLoop : (fuel : Nat) → Connection → ErrorCode × Connection
  | 0, conn => (.ok, conn)
  | fuel + 1, conn =>
      match conn.feedStep with
      | .stop => (.ok, conn)
      | .fail ret conn => (ret, conn)
      | .next conn => feedLoop fuel conn

/-- The preface part of `h2_connection_feed`, on a complete preface. -/
def feedPreface (conn : Connection) : ErrorCode × Connection :=
  if conn.input.take clientPrefaceLen ≠ clientPreface then
    (.protocolError, (conn.queueGoaway .protocolError).2)
  else
    let conn := { conn.dropInput clientPrefaceLen with prefaceSeen := true }
    if conn.settingsSent then (.ok, conn)
    else andThen conn.queueSettings fun conn => (.ok, { conn with settingsSent := true })

/-- `h2_connection_feed`. -/
def feed (conn : Connection) (data : List UInt8) : ErrorCode × Connection :=
  if data.length > connInputCap - conn.input.length then (.internalError, conn)
  else
    let conn := { conn with input := conn.input ++ data }
    if conn.prefaceSeen then feedLoop conn.input.length conn
    else if conn.input.length < clientPrefaceLen then (.ok, conn)
    else andThen conn.feedPreface fun conn => feedLoop conn.input.length conn

/-- `h2_connection_wants_write`. -/
def wantsWrite (conn : Connection) : Bool := conn.outputSent < conn.output.length

/-- `h2_connection_output` and `h2_connection_output_len`: the bytes not yet consumed. -/
def pending (conn : Connection) : List UInt8 := conn.output.drop conn.outputSent

/-- `h2_connection_consume_output`. -/
def consumeOutput (conn : Connection) (sentLen : Nat) : Connection :=
  let available := conn.pending.length
  let sentLen := if sentLen > available then available else sentLen
  { conn with outputSent := conn.outputSent + sentLen }.compactOutput

end Connection

end C11Omo.Http2
