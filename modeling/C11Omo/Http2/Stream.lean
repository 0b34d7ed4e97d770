import C11Omo.Http2.Hpack

set_option autoImplicit false

/-! # Streams

`include/http2/stream.h` and `src/stream.c`: the record of one stream slot and its state
machine. The functions take a stream and return the return code with the changed stream; the
`NULL` guards have no counterpart here.
-/

namespace C11Omo.Http2

open C11Omo.Lib

def streamPathCap : Nat := 256

/-- `h2_stream_state`. -/
inductive StreamState
  | idle
  | opened
  | halfClosedRemote
  | halfClosedLocal
  | closed
  deriving DecidableEq, Repr

/-- `h2_stream`. The path buffer is the text before its terminating zero. -/
structure Stream where
  id : Nat
  state : StreamState
  sendWindow : Int
  recvWindow : Int
  responseHeadersSent : Bool
  responseBodyDeferred : Bool
  responseSent : Bool
  path : List UInt8
  deriving DecidableEq, Repr

/-- A slot after `memset(conn, 0, sizeof(*conn))`. -/
def Stream.zero : Stream :=
  { id := 0, state := .idle, sendWindow := 0, recvWindow := 0, responseHeadersSent := false,
    responseBodyDeferred := false, responseSent := false, path := [] }

/-- `h2_stream_init`. -/
def Stream.init (streamId : Nat) (initialWindow : Int) : Stream :=
  { Stream.zero with
    id := streamId
    state := .idle
    sendWindow := initialWindow
    recvWindow := defaultWindowSize }

/-- `h2_stream_close`. -/
def Stream.close (stream : Stream) : Stream :=
  { stream with
    sendWindow := 0
    recvWindow := 0
    responseHeadersSent := false
    responseBodyDeferred := false
    responseSent := false
    path := []
    state := .closed }

/-- `h2_stream_receive_headers`. -/
def Stream.receiveHeaders (stream : Stream) (endStream : Bool) : ErrorCode × Stream :=
  if stream.state ≠ .idle then (.protocolError, stream)
  else (.ok, { stream with state := if endStream then .halfClosedRemote else .opened })

/-- `h2_stream_receive_data`. -/
def Stream.receiveData (stream : Stream) (dataLen : Nat) (endStream : Bool) :
    ErrorCode × Stream :=
  if (dataLen : Int) > int32Max then (.internalError, stream)
  else if stream.state ≠ .opened ∧ stream.state ≠ .halfClosedLocal then (.streamClosed, stream)
  else if stream.recvWindow < toInt32 dataLen then (.flowControlError, stream)
  else
    let stream := { stream with recvWindow := stream.recvWindow - toInt32 dataLen }
    if endStream then
      if stream.state = .halfClosedLocal then (.ok, stream.close)
      else (.ok, { stream with state := .halfClosedRemote })
    else (.ok, stream)

/-- `h2_stream_send_end_stream`. -/
def Stream.sendEndStream (stream : Stream) : ErrorCode × Stream :=
  if stream.state = .opened then (.ok, { stream with state := .halfClosedLocal })
  else if stream.state = .halfClosedRemote then (.ok, stream.close)
  else (.streamClosed, stream)

/-- `h2_stream_add_send_window`. -/
def Stream.addSendWindow (stream : Stream) (increment : Nat) : ErrorCode × Stream :=
  if increment = 0 then (.protocolError, stream)
  else if stream.sendWindow + increment > int32Max then (.flowControlError, stream)
  else (.ok, { stream with sendWindow := stream.sendWindow + toInt32 increment })

end C11Omo.Http2
