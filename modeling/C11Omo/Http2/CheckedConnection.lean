import C11Omo.Http2.CheckedFrames
import C11Omo.Http2.CheckedTexts

set_option autoImplicit false

/-! # The connection with every access checked

`src/connection.c` once more, over the operations of `Lib.Checked` and the checked codec. A handler
gets the payload of its frame only; the buffers of the connection, the path of a stream and the
local arrays have the sizes they have in the source, and what is left of them is a checked
subtraction. A handler that fits its buffers returns what that of `Connection` returns and leaves
them fitting (`Agrees`).
-/

namespace C11Omo.Http2.Checked

open C11Omo.Lib C11Omo.Lib.Checked

/-- `ret = first(conn); if (ret != H2_OK) { return ret; }` followed by `next`. -/
def andThen (first : Option (ErrorCode × Connection))
    (next : Connection → Option (ErrorCode × Connection)) : Option (ErrorCode × Connection) := do
  match ← first with
  | (.ok, conn) => next conn
  | (ret, conn) => pure (ret, conn)

/-- `if (first(conn) != H2_OK) { return H2_INTERNAL_ERROR; }` followed by `next`. -/
def orInternal (first : Option (ErrorCode × Connection))
    (next : Connection → Option (ErrorCode × Connection)) : Option (ErrorCode × Connection) := do
  match ← first with
  | (.ok, conn) => next conn
  | (_, conn) => pure (.internalError, conn)

/-! ## The output queue -/

/-- `h2_connection_compact_output`. -/
def compactOutput (conn : Connection) : Option Connection :=
  if conn.outputSent = 0 then pure conn
  else if conn.outputSent ≥ conn.output.length then
    pure { conn with output := [], outputSent := 0 }
  else do
    let len ← sub conn.output.length conn.outputSent
    let bytes ← slice conn.output conn.outputSent len
    let output ← write connOutputCap [] bytes
    pure { conn with output := output, outputSent := 0 }

/-- `h2_connection_queue_bytes`. -/
def queueBytes (conn : Connection) (data : List UInt8) : Option (ErrorCode × Connection) := do
  let conn ← compactOutput conn
  let room ← sub connOutputCap conn.output.length
  if data.length > room then pure (.internalError, conn)
  else
    let output ← write connOutputCap conn.output data
    pure (.ok, { conn with output := output })

/-- The end of every frame producer. -/
def queueWire (conn : Connection) (wire : Option (Option (List UInt8))) :
    Option (ErrorCode × Connection) := do
  match ← wire with
  | none => pure (.internalError, conn)
  | some wire => queueBytes conn wire

/-- `h2_connection_queue_goaway`. -/
def queueGoaway (conn : Connection) (errorCode : ErrorCode) : Option (ErrorCode × Connection) :=
  if conn.goawaySent then pure (.ok, conn)
  else do
    match ← encodeGoaway (frameHeaderLen + 8) conn.lastStreamId errorCode.toNat [] with
    | none => pure (.internalError, conn)
    | some wire =>
        queueBytes { conn with goawaySent := true, goawayError := errorCode.toNat } wire

/-- `h2_connection_queue_settings`. -/
def queueSettings (conn : Connection) : Option (ErrorCode × Connection) :=
  queueWire conn (encodeSettings (frameHeaderLen + 6) 0 [{ id := settingsEnablePush, value := 0 }])

/-- `h2_connection_queue_settings_ack`. -/
def queueSettingsAck (conn : Connection) : Option (ErrorCode × Connection) :=
  queueWire conn (encodeSettings frameHeaderLen flagAck [])

/-- `h2_connection_queue_window_update`. -/
def queueWindowUpdate (conn : Connection) (streamId increment : Nat) :
    Option (ErrorCode × Connection) :=
  queueWire conn (encodeWindowUpdate (frameHeaderLen + 4) streamId increment)

/-- `h2_connection_queue_rst_stream`. -/
def queueRstStream (conn : Connection) (streamId : Nat) (errorCode : ErrorCode) :
    Option (ErrorCode × Connection) :=
  queueWire conn (encodeRstStream (frameHeaderLen + 4) streamId errorCode.toNat)

/-! ## Windows and SETTINGS -/

/-- The second half of `h2_connection_refresh_recv_windows`. -/
def refreshStreamRecvWindow (conn : Connection) (pos : Fin connMaxStreams) :
    Option (ErrorCode × Connection) :=
  let stream := conn.streams pos
  if stream.recvWindow ≤ 65535 / 2 then
    let increment := toUInt32 (defaultWindowSize - stream.recvWindow)
    let conn := conn.setStream pos
      { stream with recvWindow := stream.recvWindow + toInt32 increment }
    orInternal (queueWindowUpdate conn stream.id increment) fun conn => pure (.ok, conn)
  else pure (.ok, conn)

/-- The first half of `h2_connection_refresh_recv_windows`. -/
def refreshConnRecvWindow (conn : Connection) : Option (ErrorCode × Connection) :=
  if conn.connRecvWindow ≤ 65535 / 2 then
    let increment := toUInt32 (defaultWindowSize - conn.connRecvWindow)
    let conn := { conn with connRecvWindow := conn.connRecvWindow + toInt32 increment }
    orInternal (queueWindowUpdate conn 0 increment) fun conn => pure (.ok, conn)
  else pure (.ok, conn)

/-- `h2_connection_refresh_recv_windows`. -/
def refreshRecvWindows (conn : Connection) (stream : Option (Fin connMaxStreams)) :
    Option (ErrorCode × Connection) :=
  andThen (refreshConnRecvWindow conn) fun conn =>
    match stream with
    | none => pure (.ok, conn)
    | some pos => refreshStreamRecvWindow conn pos

/-- `h2_connection_apply_settings`. The loop over the entries touches no buffer. -/
def applySettings (conn : Connection) (header : FrameHeader) (payload : List UInt8) :
    Option (ErrorCode × Connection) := do
  match ← parseSettings header payload 32 with
  | .error ret => pure (ret, conn)
  | .ok settings =>
      if hasFlag header.flags flagAck then pure (.ok, conn)
      else andThen (pure (Connection.applySettingsLoop settings conn)) queueSettingsAck

/-! ## Responses -/

/-- The array `path` of a stream, with the terminating zero. -/
def pathArray (stream : Stream) : Option (List UInt8) :=
  write streamPathCap [] (stream.path ++ [0])

/-- `h2_connection_queue_deferred_data`; `body` is an array of which `bodyLen` bytes are sent. -/
def queueDeferredData (conn : Connection) (pos : Fin connMaxStreams) (body : List UInt8)
    (bodyLen : Nat) : Option (ErrorCode × Connection) :=
  if conn.connSendWindow < bodyLen ∨ (conn.streams pos).sendWindow < bodyLen then
    pure (.ok, conn.setStream pos { conn.streams pos with responseBodyDeferred := true })
  else do
    let bytes ← slice body 0 bodyLen
    orInternal
      (queueWire conn
        (encodeData (frameHeaderLen + 1024) (conn.streams pos).id flagEndStream bytes))
      fun conn =>
        let stream := conn.streams pos
        let (ret, stream) := Stream.sendEndStream
          { stream with
            sendWindow := stream.sendWindow - bodyLen
            responseBodyDeferred := false
            responseSent := true }
        pure (ret, { conn with
          connSendWindow := conn.connSendWindow - bodyLen
          responsesSent := (conn.responsesSent + 1) % 4294967296 }.setStream pos stream)

/-- One chunk of the header block, `chunk_len = encode(header_block + pos, sizeof(header_block) -
pos, …)` with `0` for an error. -/
def addChunk (encode : Nat → Option (Option (List UInt8))) (block : List UInt8) :
    Option (Option (List UInt8)) := do
  let room ← sub 512 block.length
  match ← encode room with
  | none => pure none
  | some chunk =>
      let block ← write 512 block chunk
      pure (some block)

/-- The header block of a response, in the 512 bytes of `header_block`. -/
def responseHeaderBlock (contentLength : List UInt8) : Option (Option (List UInt8)) := do
  match ← addChunk (encodeIndexed · 8) [] with
  | none => pure none
  | some block =>
      match ← addChunk
          (encodeLiteralNewName · (ascii "content-type" ++ [0]) (ascii "text/plain" ++ [0])) block with
      | none => pure none
      | some block =>
          match ← addChunk
              (encodeLiteralNewName · (ascii "content-length" ++ [0]) contentLength) block with
          | none => pure none
          | some block =>
              addChunk (encodeLiteralNewName · (ascii "server" ++ [0]) (ascii "c11-h2" ++ [0])) block

/-- The part of `h2_connection_queue_response` that queues the HEADERS frame. -/
def queueResponseHeaders (conn : Connection) (pos : Fin connMaxStreams)
    (contentLength : List UInt8) : Option (ErrorCode × Connection) := do
  match ← responseHeaderBlock contentLength with
  | none => pure (.internalError, conn)
  | some block =>
      orInternal
        (queueWire conn
          (encodeHeaders (frameHeaderLen + 1024) (conn.streams pos).id flagEndHeaders block))
        fun conn =>
          pure (.ok, conn.setStream pos { conn.streams pos with responseHeadersSent := true })

/-- The path of a response: `/` where the stream has none. -/
def defaultPath (conn : Connection) (pos : Fin connMaxStreams) : Option Connection := do
  let path ← pathArray (conn.streams pos)
  let first ← read path 0
  if first = 0 then
    let path ← write streamPathCap [] (ascii "/" ++ [0])
    pure (conn.setStream pos { conn.streams pos with path := cstr path })
  else pure conn

/-- `h2_connection_queue_response`. -/
def queueResponse (conn : Connection) (pos : Fin connMaxStreams) :
    Option (ErrorCode × Connection) :=
  if (conn.streams pos).responseSent then pure (.ok, conn)
  else do
    let conn ← defaultPath conn pos
    let path ← pathArray (conn.streams pos)
    let text ← slice path 0 (← strlen path)
    let (bodyLen, body) ← snprintf 320 (text ++ [0x0a])
    if bodyLen ≥ 320 then pure (.internalError, conn)
    else
      let (printed, contentLength) ← snprintf 32 (Connection.decimal bodyLen)
      if printed ≥ 32 then pure (.internalError, conn)
      else
        andThen
          (if (conn.streams pos).responseHeadersSent then pure (.ok, conn)
            else queueResponseHeaders conn pos contentLength)
          fun conn => queueDeferredData conn pos body bodyLen

/-- The loop of `h2_connection_flush_deferred_responses`. -/
def flushDeferredLoop : List (Fin connMaxStreams) → Connection → Option (ErrorCode × Connection)
  | [], conn => pure (.ok, conn)
  | pos :: rest, conn =>
      if Connection.live (conn.streams pos) ∧ (conn.streams pos).responseBodyDeferred then
        andThen (queueResponse conn pos) (flushDeferredLoop rest)
      else flushDeferredLoop rest conn

/-- `h2_connection_flush_deferred_responses`. -/
def flushDeferredResponses (conn : Connection) : Option (ErrorCode × Connection) :=
  flushDeferredLoop (List.finRange connMaxStreams) conn

/-! ## Header blocks -/

/-- `h2_connection_finish_headers`. -/
def finishHeaders (conn : Connection) (streamId : Nat) (flags : UInt8) (block : List UInt8) :
    Option (ErrorCode × Connection) :=
  if streamId &&& 1 = 0 then pure (.protocolError, conn)
  else if streamId ≤ conn.lastStreamId then pure (.protocolError, conn)
  else
    match conn.getStream streamId with
    | (none, conn) => pure (.refusedStream, conn)
    | (some pos, conn) => do
        let conn := { conn with lastStreamId := streamId }
        let (ret, path) ← extractPath block streamPathCap
        let conn := conn.setStream pos { conn.streams pos with path := cstr path }
        if ret ≠ .ok then pure (ret, conn)
        else
          let (ret, stream) := (conn.streams pos).receiveHeaders (hasFlag flags flagEndStream)
          let conn := conn.setStream pos stream
          if ret ≠ .ok then pure (ret, conn) else queueResponse conn pos

/-- `h2_connection_append_header_block`. -/
def appendHeaderBlock (conn : Connection) (data : List UInt8) :
    Option (ErrorCode × Connection) := do
  let room ← sub headerBlockCap conn.headerBlock.length
  if data.length > room then pure (.compressionError, conn)
  else
    let headerBlock ← write headerBlockCap conn.headerBlock data
    pure (.ok, { conn with headerBlock := headerBlock })

/-- `h2_connection_process_headers`. -/
def processHeaders (conn : Connection) (header : FrameHeader) (payload : List UInt8) :
    Option (ErrorCode × Connection) := do
  match ← parseHeaders header payload with
  | .error ret => pure (ret, conn)
  | .ok parsed =>
      if hasFlag header.flags flagEndHeaders = false then
        if conn.headerBlockOpen then pure (.protocolError, conn)
        else
          appendHeaderBlock
            { conn with
              headerBlockOpen := true
              headerBlockStreamId := header.streamId
              headerBlockFlags := header.flags
              headerBlock := [] }
            parsed.headerBlock
      else finishHeaders conn header.streamId header.flags parsed.headerBlock

/-- `h2_connection_process_continuation`. -/
def processContinuation (conn : Connection) (header : FrameHeader) (payload : List UInt8) :
    Option (ErrorCode × Connection) :=
  if conn.headerBlockOpen = false ∨ header.streamId ≠ conn.headerBlockStreamId then
    pure (.protocolError, conn)
  else do
    match ← parseContinuation header payload with
    | .error ret => pure (ret, conn)
    | .ok fragment =>
        andThen (appendHeaderBlock conn fragment) fun conn =>
          if hasFlag header.flags flagEndHeaders = false then pure (.ok, conn)
          else
            finishHeaders { conn with headerBlockOpen := false } conn.headerBlockStreamId
              conn.headerBlockFlags conn.headerBlock

/-! ## The other frames -/

/-- `h2_connection_process_data`. -/
def processData (conn : Connection) (header : FrameHeader) (payload : List UInt8) :
    Option (ErrorCode × Connection) := do
  match ← parseData header payload with
  | .error ret => pure (ret, conn)
  | .ok _ =>
      match conn.findStream header.streamId with
      | none => pure (.protocolError, conn)
      | some pos =>
          if (conn.streams pos).state ≠ .opened ∧ (conn.streams pos).state ≠ .halfClosedLocal then
            if toSize conn.connRecvWindow < header.length then pure (.flowControlError, conn)
            else
              let conn := { conn with
                connRecvWindow := conn.connRecvWindow - toInt32 header.length }
              let refreshed ← refreshRecvWindows conn none
              pure (.streamClosed, refreshed.2)
          else if toSize conn.connRecvWindow < header.length then pure (.flowControlError, conn)
          else
            let conn := { conn with
              connRecvWindow := conn.connRecvWindow - toInt32 header.length }
            let (ret, stream) := (conn.streams pos).receiveData header.length
              (hasFlag header.flags flagEndStream)
            let conn := conn.setStream pos stream
            if ret ≠ .ok then pure (ret, conn)
            else refreshRecvWindows conn (if stream.state = .closed then none else some pos)

/-- `h2_connection_process_window_update`. -/
def processWindowUpdate (conn : Connection) (header : FrameHeader) (payload : List UInt8) :
    Option (ErrorCode × Connection) := do
  match ← parseWindowUpdate header payload with
  | .error ret => pure (ret, conn)
  | .ok increment =>
      if header.streamId = 0 then
        if conn.connSendWindow + increment > int32Max then pure (.flowControlError, conn)
        else
          flushDeferredResponses
            { conn with connSendWindow := conn.connSendWindow + toInt32 increment }
      else
        match conn.findStream header.streamId with
        | none => pure (.ok, conn)
        | some pos =>
            let (ret, stream) := (conn.streams pos).addSendWindow increment
            let conn := conn.setStream pos stream
            if ret ≠ .ok then pure (ret, conn) else flushDeferredResponses conn

/-- The RST_STREAM case of `h2_connection_process_frame`. -/
def processRstStream (conn : Connection) (header : FrameHeader) (payload : List UInt8) :
    Option (ErrorCode × Connection) := do
  match ← parseRstStream header payload with
  | .error ret => pure (ret, conn)
  | .ok _ =>
      match conn.findStream header.streamId with
      | some pos => pure (.ok, conn.setStream pos (conn.streams pos).close)
      | none =>
          if header.streamId &&& 1 = 0 then pure (.protocolError, conn)
          else if header.streamId > conn.lastStreamId then pure (.protocolError, conn)
          else pure (.ok, conn)

/-- The PING case of `h2_connection_process_frame`. -/
def processPing (conn : Connection) (header : FrameHeader) (payload : List UInt8) :
    Option (ErrorCode × Connection) := do
  match ← parsePing header payload with
  | .error ret => pure (ret, conn)
  | .ok opaqueData =>
      if hasFlag header.flags flagAck then pure (.ok, conn)
      else queueWire conn (encodePing (frameHeaderLen + 8) flagAck opaqueData)

/-- `h2_connection_reset_stream_error`. -/
def resetStreamError (conn : Connection) (streamId : Nat) (errorCode : ErrorCode) :
    Option (ErrorCode × Connection) :=
  andThen (queueRstStream conn streamId errorCode) fun queued =>
    match conn.findStream streamId with
    | none => pure (.ok, queued)
    | some pos => pure (.ok, queued.setStream pos (queued.streams pos).close)

/-- `h2_connection_process_frame`. -/
def processFrame (conn : Connection) (header : FrameHeader) (payload : List UInt8) :
    Option (ErrorCode × Connection) :=
  if header.length > conn.maxFrameSize then pure (.frameSizeError, conn)
  else if conn.headerBlockOpen ∧ (header.type ≠ FrameType.continuation.toByte ∨
      header.streamId ≠ conn.headerBlockStreamId) then pure (.protocolError, conn)
  else
    match FrameType.ofByte? header.type with
    | some .data => processData conn header payload
    | some .headers => processHeaders conn header payload
    | some .priority => do
        match ← parsePriority header payload with
        | .error ret => pure (ret, conn)
        | .ok _ => pure (.ok, conn)
    | some .rstStream => processRstStream conn header payload
    | some .settings => applySettings conn header payload
    | some .pushPromise => pure (.protocolError, conn)
    | some .ping => processPing conn header payload
    | some .goaway => pure (validatePayload header, conn)
    | some .windowUpdate => processWindowUpdate conn header payload
    | some .continuation => processContinuation conn header payload
    | none => pure (.ok, conn)

/-! ## The interface -/

/-- `memmove(conn->input, conn->input + len, …)` and the new length. -/
def dropInput (conn : Connection) (len : Nat) : Option Connection := do
  let bytes ← rest conn.input len
  let input ← write connInputCap [] bytes
  pure { conn with input := input }

/-- One iteration of the loop of `h2_connection_feed`. -/
def feedStep (conn : Connection) : Option Connection.FeedStep :=
  if conn.input.length < frameHeaderLen then pure .stop
  else do
    match ← parseHeader conn.input with
    | .error ret => pure (.fail ret conn)
    | .ok header =>
        let wholeLen ← add 64 frameHeaderLen header.length
        if wholeLen > conn.input.length then pure .stop
        else
          let payload ← slice conn.input frameHeaderLen header.length
          match ← processFrame conn header payload with
          | (.ok, conn) =>
              let conn ← dropInput conn wholeLen
              pure (.next conn)
          | (ret, conn) =>
              if Connection.isStreamError ret ∧ header.streamId ≠ 0 then
                match ← resetStreamError conn header.streamId ret with
                | (.ok, conn) =>
                    let conn ← dropInput conn wholeLen
                    pure (.next conn)
                | (rstRet, conn) => pure (.fail rstRet conn)
              else
                let announced ← queueGoaway conn ret
                pure (.fail ret announced.2)

/-- The loop of `h2_connection_feed`. -/
def feedLoop : (fuel : Nat) → Connection → Option (ErrorCode × Connection)
  | 0, _ => none
  | fuel + 1, conn => do
      match ← feedStep conn with
      | .stop => pure (.ok, conn)
      | .fail ret conn => pure (ret, conn)
      | .next conn => feedLoop fuel conn

/-- The preface part of `h2_connection_feed`, on a complete preface. -/
def feedPreface (conn : Connection) : Option (ErrorCode × Connection) := do
  let bytes ← slice conn.input 0 clientPrefaceLen
  if bytes ≠ clientPreface then
    let announced ← queueGoaway conn .protocolError
    pure (.protocolError, announced.2)
  else
    let conn ← dropInput conn clientPrefaceLen
    let conn := { conn with prefaceSeen := true }
    if conn.settingsSent then pure (.ok, conn)
    else andThen (queueSettings conn) fun conn => pure (.ok, { conn with settingsSent := true })

/-- `h2_connection_feed`. -/
def feed (conn : Connection) (data : List UInt8) : Option (ErrorCode × Connection) := do
  let room ← sub connInputCap conn.input.length
  if data.length > room then pure (.internalError, conn)
  else
    let input ← write connInputCap conn.input data
    let conn := { conn with input := input }
    if conn.prefaceSeen then feedLoop (conn.input.length + 1) conn
    else if conn.input.length < clientPrefaceLen then pure (.ok, conn)
    else andThen (feedPreface conn) fun conn => feedLoop (conn.input.length + 1) conn

/-- `h2_connection_output_len`. -/
def outputLen (conn : Connection) : Option Nat :=
  if conn.outputSent ≥ conn.output.length then pure 0
  else sub conn.output.length conn.outputSent

/-- `h2_connection_consume_output`. -/
def consumeOutput (conn : Connection) (sentLen : Nat) : Option Connection := do
  let available ← outputLen conn
  let sentLen := if sentLen > available then available else sentLen
  compactOutput { conn with outputSent := conn.outputSent + sentLen }

end C11Omo.Http2.Checked
