import C11Omo.Http2.CheckedConnection

set_option autoImplicit false

/-! # The connection without room to fail

`src/connection.c` once more, up to the functions that queue output: a call of
`h2_connection_queue_bytes` that fails stops the whole computation (`none`), also where the source
throws its return code away. Everything else is `Connection`, word for word. So a result says that
every call has succeeded.
-/

namespace C11Omo.Http2.Strict

open C11Omo.Lib
open C11Omo.Http2.Checked (andThen orInternal)

/-! ## The output queue -/

/-- `h2_connection_queue_bytes`, which must succeed. -/
def queueBytes (conn : Connection) (data : List UInt8) : Option (ErrorCode × Connection) :=
  match conn.queueBytes data with
  | (.ok, conn) => some (.ok, conn)
  | _ => none

/-- The end of every frame producer. `wire_len == 0u` is no failure of the queue. -/
def queueWire (conn : Connection) (wire : Option (List UInt8)) :
    Option (ErrorCode × Connection) :=
  match wire with
  | none => some (.internalError, conn)
  | some wire => queueBytes conn wire

/-- `h2_connection_queue_goaway`. -/
def queueGoaway (conn : Connection) (errorCode : ErrorCode) : Option (ErrorCode × Connection) :=
  if conn.goawaySent then some (.ok, conn)
  else
    match encodeGoaway (frameHeaderLen + 8) conn.lastStreamId errorCode.toNat [] with
    | none => some (.internalError, conn)
    | some wire =>
        queueBytes { conn with goawaySent := true, goawayError := errorCode.toNat } wire

/-- `h2_connection_queue_settings`. -/
def queueSettings (conn : Connection) : Option (ErrorCode × Connection) :=
  queueWire conn (encodeSettings (frameHeaderLen + 6) 0 [{ id := settingsEnablePush, value := 0 }])

/-- `h2_connection_queue_settings_ack`. -/
def queueSettingsAck (conn : Connection) : Option (ErrorCode × Connection) :=
  queueWire conn (encodeSettings frameHeaderLen flagAck [])

/-- `h2_connection_queue_window_update`. -/
def queueWindowUpdate (conn : Connection) (streamId increment : Nat) :
    Option (ErrorCode × Connection) :=
  queueWire conn (encodeWindowUpdate (frameHeaderLen + 4) streamId increment)

/-- `h2_connection_queue_rst_stream`. -/
def queueRstStream (conn : Connection) (streamId : Nat) (errorCode : ErrorCode) :
    Option (ErrorCode × Connection) :=
  queueWire conn (encodeRstStream (frameHeaderLen + 4) streamId errorCode.toNat)

/-! ## Windows and SETTINGS -/

/-- The second half of `h2_connection_refresh_recv_windows`. -/
def refreshStreamRecvWindow (conn : Connection) (pos : Fin connMaxStreams) :
    Option (ErrorCode × Connection) :=
  let stream := conn.streams pos
  if stream.recvWindow ≤ 65535 / 2 then
    let increment := toUInt32 (defaultWindowSize - stream.recvWindow)
    let conn := conn.setStream pos
      { stream with recvWindow := stream.recvWindow + toInt32 increment }
    orInternal (queueWindowUpdate conn stream.id increment) fun conn => some (.ok, conn)
  else some (.ok, conn)

/-- The first half of `h2_connection_refresh_recv_windows`. -/
def refreshConnRecvWindow (conn : Connection) : Option (ErrorCode × Connection) :=
  if conn.connRecvWindow ≤ 65535 / 2 then
    let increment := toUInt32 (defaultWindowSize - conn.connRecvWindow)
    let conn := { conn with connRecvWindow := conn.connRecvWindow + toInt32 increment }
    orInternal (queueWindowUpdate conn 0 increment) fun conn => some (.ok, conn)
  else some (.ok, conn)

/-- `h2_connection_refresh_recv_windows`. -/
def refreshRecvWindows (conn : Connection) (stream : Option (Fin connMaxStreams)) :
    Option (ErrorCode × Connection) :=
  andThen (refreshConnRecvWindow conn) fun conn =>
    match stream with
    | none => some (.ok, conn)
    | some pos => refreshStreamRecvWindow conn pos

/-- `h2_connection_apply_settings`. The loop over the entries queues nothing. -/
def applySettings (conn : Connection) (header : FrameHeader) (payload : List UInt8) :
    Option (ErrorCode × Connection) :=
  match parseSettings header payload 32 with
  | .error ret => some (ret, conn)
  | .ok settings =>
      if hasFlag header.flags flagAck then some (.ok, conn)
      else andThen (some (Connection.applySettingsLoop settings conn)) queueSettingsAck

/-! ## Responses -/

/-- `h2_connection_queue_deferred_data`. -/
def queueDeferredData (conn : Connection) (pos : Fin connMaxStreams) (body : List UInt8) :
    Option (ErrorCode × Connection) :=
  if conn.connSendWindow < body.length ∨ (conn.streams pos).sendWindow < body.length then
    some (.ok, conn.setStream pos { conn.streams pos with responseBodyDeferred := true })
  else
    orInternal
      (queueWire conn
        (encodeData (frameHeaderLen + 1024) (conn.streams pos).id flagEndStream body))
      fun conn =>
        let stream := conn.streams pos
        let (ret, stream) := Stream.sendEndStream
          { stream with
            sendWindow := stream.sendWindow - body.length
            responseBodyDeferred := false
            responseSent := true }
        some (ret, { conn with
          connSendWindow := conn.connSendWindow - body.length
          responsesSent := (conn.responsesSent + 1) % 4294967296 }.setStream pos stream)

/-- The part of `h2_connection_queue_response` that queues the HEADERS frame. -/
def queueResponseHeaders (conn : Connection) (pos : Fin connMaxStreams)
    (contentLength : List UInt8) : Option (ErrorCode × Connection) :=
  match Connection.responseHeaderBlock contentLength with
  | none => some (.internalError, conn)
  | some block =>
      orInternal
        (queueWire conn
          (encodeHeaders (frameHeaderLen + 1024) (conn.streams pos).id flagEndHeaders block))
        fun conn =>
          some (.ok, conn.setStream pos { conn.streams pos with responseHeadersSent := true })

/-- `h2_connection_queue_response`. -/
def queueResponse (conn : Connection) (pos : Fin connMaxStreams) :
    Option (ErrorCode × Connection) :=
  if (conn.streams pos).responseSent then some (.ok, conn)
  else
    let conn :=
      if (conn.streams pos).path = [] then
        conn.setStream pos { conn.streams pos with path := ascii "/" }
      else conn
    let body := Connection.responseBody (conn.streams pos).path
    if body.length ≥ 320 then some (.internalError, conn)
    else if (Connection.decimal body.length).length ≥ 32 then some (.internalError, conn)
    else
      andThen
        (if (conn.streams pos).responseHeadersSent then some (.ok, conn)
          else queueResponseHeaders conn pos (Connection.decimal body.length))
        fun conn => queueDeferredData conn pos body

/-- The loop of `h2_connection_flush_deferred_responses`. -/
def flushDeferredLoop : List (Fin connMaxStreams) → Connection → Option (ErrorCode × Connection)
  | [], conn => some (.ok, conn)
  | pos :: rest, conn =>
      if Connection.live (conn.streams pos) ∧ (conn.streams pos).responseBodyDeferred then
        andThen (queueResponse conn pos) (flushDeferredLoop rest)
      else flushDeferredLoop rest conn

/-- `h2_connection_flush_deferred_responses`. -/
def flushDeferredResponses (conn : Connection) : Option (ErrorCode × Connection) :=
  flushDeferredLoop (List.finRange connMaxStreams) conn

/-! ## Header blocks -/

/-- `h2_connection_finish_headers`. -/
def finishHeaders (conn : Connection) (streamId : Nat) (flags : UInt8) (block : List UInt8) :
    Option (ErrorCode × Connection) :=
  if streamId &&& 1 = 0 then some (.protocolError, conn)
  else if streamId ≤ conn.lastStreamId then some (.protocolError, conn)
  else
    match conn.getStream streamId with
    | (none, conn) => some (.refusedStream, conn)
    | (some pos, conn) =>
        let conn := { conn with lastStreamId := streamId }
        let (ret, path) := extractPath block streamPathCap
        let conn := conn.setStream pos { conn.streams pos with path := path }
        if ret ≠ .ok then some (ret, conn)
        else
          let (ret, stream) := (conn.streams pos).receiveHeaders (hasFlag flags flagEndStream)
          let conn := conn.setStream pos stream
          if ret ≠ .ok then some (ret, conn) else queueResponse conn pos

/-- `h2_connection_process_headers`. -/
def processHeaders (conn : Connection) (header : FrameHeader) (payload : List UInt8) :
    Option (ErrorCode × Connection) :=
  match parseHeaders header payload with
  | .error ret => some (ret, conn)
  | .ok parsed =>
      if hasFlag header.flags flagEndHeaders = false then
        if conn.headerBlockOpen then some (.protocolError, conn)
        else
          some ({ conn with
            headerBlockOpen := true
            headerBlockStreamId := header.streamId
            headerBlockFlags := header.flags
            headerBlock := [] }.appendHeaderBlock parsed.headerBlock)
      else finishHeaders conn header.streamId header.flags parsed.headerBlock

/-- `h2_connection_process_continuation`. -/
def processContinuation (conn : Connection) (header : FrameHeader) (payload : List UInt8) :
    Option (ErrorCode × Connection) :=
  if conn.headerBlockOpen = false ∨ header.streamId ≠ conn.headerBlockStreamId then
    some (.protocolError, conn)
  else
    match parseContinuation header payload with
    | .error ret => some (ret, conn)
    | .ok fragment =>
        andThen (some (conn.appendHeaderBlock fragment)) fun conn =>
          if hasFlag header.flags flagEndHeaders = false then some (.ok, conn)
          else
            finishHeaders { conn with headerBlockOpen := false } conn.headerBlockStreamId
              conn.headerBlockFlags conn.headerBlock

/-! ## The other frames -/

/-- `h2_connection_process_data`. The return code of the first refresh is thrown away. -/
def processData (conn : Connection) (header : FrameHeader) (payload : List UInt8) :
    Option (ErrorCode × Connection) :=
  match parseData header payload with
  | .error ret => some (ret, conn)
  | .ok _ =>
      match conn.findStream header.streamId with
      | none => some (.protocolError, conn)
      | some pos =>
          if (conn.streams pos).state ≠ .opened ∧ (conn.streams pos).state ≠ .halfClosedLocal then
            if toSize conn.connRecvWindow < header.length then some (.flowControlError, conn)
            else
              let conn := { conn with
                connRecvWindow := conn.connRecvWindow - toInt32 header.length }
              (refreshRecvWindows conn none).bind fun refreshed => some (.streamClosed, refreshed.2)
          else if toSize conn.connRecvWindow < header.length then some (.flowControlError, conn)
          else
            let conn := { conn with
              connRecvWindow := conn.connRecvWindow - toInt32 header.length }
            let (ret, stream) := (conn.streams pos).receiveData header.length
              (hasFlag header.flags flagEndStream)
            let conn := conn.setStream pos stream
            if ret ≠ .ok then some (ret, conn)
            else refreshRecvWindows conn (if stream.state = .closed then none else some pos)

/-- `h2_connection_process_window_update`. -/
def processWindowUpdate (conn : Connection) (header : FrameHeader) (payload : List UInt8) :
    Option (ErrorCode × Connection) :=
  match parseWindowUpdate header payload with
  | .error ret => some (ret, conn)
  | .ok increment =>
      if header.streamId = 0 then
        if conn.connSendWindow + increment > int32Max then some (.flowControlError, conn)
        else
          flushDeferredResponses
            { conn with connSendWindow := conn.connSendWindow + toInt32 increment }
      else
        match conn.findStream header.streamId with
        | none => some (.ok, conn)
        | some pos =>
            let (ret, stream) := (conn.streams pos).addSendWindow increment
            let conn := conn.setStream pos stream
            if ret ≠ .ok then some (ret, conn) else flushDeferredResponses conn

/-- The PING case of `h2_connection_process_frame`. -/
def processPing (conn : Connection) (header : FrameHeader) (payload : List UInt8) :
    Option (ErrorCode × Connection) :=
  match parsePing header payload with
  | .error ret => some (ret, conn)
  | .ok opaqueData =>
      if hasFlag header.flags flagAck then some (.ok, conn)
      else queueWire conn (encodePing (frameHeaderLen + 8) flagAck opaqueData)

/-- `h2_connection_reset_stream_error`. -/
def resetStreamError (conn : Connection) (streamId : Nat) (errorCode : ErrorCode) :
    Option (ErrorCode × Connection) :=
  andThen (queueRstStream conn streamId errorCode) fun queued =>
    match conn.findStream streamId with
    | none => some (.ok, queued)
    | some pos => some (.ok, queued.setStream pos (queued.streams pos).close)

/-- `h2_connection_process_frame`. The cases that queue nothing are those of `Connection`. -/
def processFrame (conn : Connection) (header : FrameHeader) (payload : List UInt8) :
    Option (ErrorCode × Connection) :=
  if header.length > conn.maxFrameSize then some (.frameSizeError, conn)
  else if conn.headerBlockOpen ∧ (header.type ≠ FrameType.continuation.toByte ∨
      header.streamId ≠ conn.headerBlockStreamId) then some (.protocolError, conn)
  else
    match FrameType.ofByte? header.type with
    | some .data => processData conn header payload
    | some .headers => processHeaders conn header payload
    | some .priority =>
        match parsePriority header payload with
        | .error ret => some (ret, conn)
        | .ok _ => some (.ok, conn)
    | some .rstStream => some (conn.processRstStream header payload)
    | some .settings => applySettings conn header payload
    | some .pushPromise => some (.protocolError, conn)
    | some .ping => processPing conn header payload
    | some .goaway => some (validatePayload header, conn)
    | some .windowUpdate => processWindowUpdate conn header payload
    | some .continuation => processContinuation conn header payload
    | none => some (.ok, conn)

/-! ## The interface -/

/-- One iteration of the loop of `h2_connection_feed`. -/
def feedStep (conn : Connection) : Option Connection.FeedStep :=
  if conn.input.length < frameHeaderLen then some .stop
  else
    match parseHeader conn.input with
    | .error ret => some (.fail ret conn)
    | .ok header =>
        let wholeLen := frameHeaderLen + header.length
        if wholeLen > conn.input.length then some .stop
        else do
          match ← processFrame conn header (conn.input.drop frameHeaderLen) with
          | (.ok, conn) => some (.next (conn.dropInput wholeLen))
          | (ret, conn) =>
              if Connection.isStreamError ret ∧ header.streamId ≠ 0 then
                match ← resetStreamError conn header.streamId ret with
                | (.ok, conn) => some (.next (conn.dropInput wholeLen))
                | (rstRet, conn) => some (.fail rstRet conn)
              else
                let announced ← queueGoaway conn ret
                some (.fail ret announced.2)

/-- The loop of `h2_connection_feed`. -/
def feedLoop : (fuel : Nat) → Connection → Option (ErrorCode × Connection)
  | 0, conn => some (.ok, conn)
  | fuel + 1, conn => do
      match ← feedStep conn with
      | .stop => some (.ok, conn)
      | .fail ret conn => some (ret, conn)
      | .next conn => feedLoop fuel conn

/-- The preface part of `h2_connection_feed`, on a complete preface. -/
def feedPreface (conn : Connection) : Option (ErrorCode × Connection) :=
  if conn.input.take clientPrefaceLen ≠ clientPreface then
    (queueGoaway conn .protocolError).bind fun announced => some (.protocolError, announced.2)
  else
    let conn := { conn.dropInput clientPrefaceLen with prefaceSeen := true }
    if conn.settingsSent then some (.ok, conn)
    else andThen (queueSettings conn) fun conn => some (.ok, { conn with settingsSent := true })

/-- `h2_connection_feed`. -/
def feed (conn : Connection) (data : List UInt8) : Option (ErrorCode × Connection) :=
  if data.length > connInputCap - conn.input.length then some (.internalError, conn)
  else
    let conn := { conn with input := conn.input ++ data }
    if conn.prefaceSeen then feedLoop conn.input.length conn
    else if conn.input.length < clientPrefaceLen then some (.ok, conn)
    else andThen (feedPreface conn) fun conn => feedLoop conn.input.length conn

end C11Omo.Http2.Strict
