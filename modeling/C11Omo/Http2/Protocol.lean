import C11Omo.Http2.Connection
import C11Omo.Http2.Codec
import C11Omo.Lib.History

set_option autoImplicit false

/-! # The connection as a protocol

An abstract view of the server side of a connection: an `Act` is one protocol action (a frame
is queued, credit arrives, a stream opens, a response is sent, …) with the conditions under
which it may happen, and it records `Event`s. `processFrame_acts` (in `Handlers`) shows that
everything `connection.c` does between reading a frame and returning is a sequence of such
actions. A property of all runs then only has to be checked action by action; the first one,
the structural invariant `Inv`, is checked here.
-/

namespace C11Omo.Http2

open C11Omo.Lib

/-! ## C integers in range -/

theorem toInt32_of_le {n : Nat} (h : n ≤ 2147483647) : toInt32 n = n := by
  show Int.bmod (n : Int) 4294967296 = n
  rw [Int.bmod_eq_iff (by decide)]
  refine ⟨by norm_num, ?_, by norm_num⟩
  norm_num
  omega

theorem toUInt32_of_nonneg {i : Int} (h0 : 0 ≤ i) (h : i < 4294967296) : (toUInt32 i : Int) = i := by
  rw [toUInt32, Int.emod_eq_of_lt h0 h, Int.toNat_of_nonneg h0]

theorem toSize_of_nonneg {i : Int} (h0 : 0 ≤ i) (h : i < 18446744073709551616) :
    (toSize i : Int) = i := by
  rw [toSize, Int.emod_eq_of_lt h0 h, Int.toNat_of_nonneg h0]

namespace Connection

theorem andThen_ok (c : Connection) (next : Connection → ErrorCode × Connection) :
    andThen (.ok, c) next = next c := rfl

theorem andThen_err {ret : ErrorCode} (h : ret ≠ .ok) (c : Connection)
    (next : Connection → ErrorCode × Connection) : andThen (ret, c) next = (ret, c) := by
  cases ret <;> first | rfl | exact absurd rfl h

/-! ## Slots -/

@[simp] theorem setStream_streams_self (conn : Connection) (pos : Fin connMaxStreams) (s : Stream) :
    (conn.setStream pos s).streams pos = s := by simp [setStream]

theorem setStream_streams_ne (conn : Connection) {pos i : Fin connMaxStreams} (h : i ≠ pos)
    (s : Stream) : (conn.setStream pos s).streams i = conn.streams i := by
  simp [setStream, Function.update_of_ne h]

@[simp] theorem setStream_self (conn : Connection) (pos : Fin connMaxStreams) :
    conn.setStream pos (conn.streams pos) = conn := by simp [setStream]

@[simp] theorem setStream_setStream (conn : Connection) (pos : Fin connMaxStreams) (s t : Stream) :
    (conn.setStream pos s).setStream pos t = conn.setStream pos t := by simp [setStream]

/-- A property of all slots survives the write of one slot that has it. -/
theorem setStream_forall {P : Stream → Prop} {conn : Connection} (h : ∀ i, P (conn.streams i))
    {pos : Fin connMaxStreams} {s : Stream} (hs : P s) : ∀ i, P ((conn.setStream pos s).streams i) := by
  intro i
  by_cases hi : i = pos
  · subst hi; rwa [setStream_streams_self]
  · rw [setStream_streams_ne conn hi]; exact h i

theorem live_iff {s : Stream} : live s = true ↔ s.id ≠ 0 ∧ s.state ≠ .closed := by simp [live]

theorem reusable_iff {s : Stream} : reusable s = true ↔ s.id = 0 ∨ s.state = .closed := by
  simp [reusable]

theorem reusable_eq_not_live (s : Stream) : reusable s = !live s := by
  by_cases h0 : s.id = 0 <;> by_cases hc : s.state = .closed <;> simp [reusable, live, h0, hc]

theorem findStream_eq_some {conn : Connection} {streamId : Nat} {pos : Fin connMaxStreams}
    (h : conn.findStream streamId = some pos) : (conn.streams pos).id = streamId := by
  simpa using List.find?_some h

theorem findStream_eq_none {conn : Connection} {streamId : Nat} :
    conn.findStream streamId = none ↔ ∀ pos, (conn.streams pos).id ≠ streamId := by
  simp [findStream]

/-- A stream that has a slot is found. -/
theorem exists_findStream {conn : Connection} {streamId : Nat} {i : Fin connMaxStreams}
    (h : (conn.streams i).id = streamId) : ∃ pos, conn.findStream streamId = some pos := by
  rcases hfind : conn.findStream streamId with _ | pos
  · exact absurd h (findStream_eq_none.mp hfind i)
  · exact ⟨pos, rfl⟩

end Connection

/-- The slot invariant: windows in range, a text in the path buffer, and a deferred response is
one whose headers are out and whose body is not, on a stream the server may still send on. -/
structure SlotOk (s : Stream) : Prop where
  send : int32Min ≤ s.sendWindow ∧ s.sendWindow ≤ int32Max
  recv : 0 ≤ s.recvWindow ∧ s.recvWindow ≤ 65535
  path_length : s.path.length ≤ 255
  path_text : (0 : UInt8) ∉ s.path
  deferred : s.responseBodyDeferred = true →
    (s.state = .opened ∨ s.state = .halfClosedRemote) ∧ s.responseHeadersSent = true
      ∧ s.responseSent = false ∧ s.path ≠ []

/-- **The structural invariant of a connection**, which holds in every state of every run, also
after errors: buffers within their capacity, window ranges, and distinct odd stream ids not
above `last_stream_id` in the slot table. -/
structure Inv (conn : Connection) : Prop where
  output_sent : conn.outputSent = 0
  output_le : conn.output.length ≤ connOutputCap
  max_frame : defaultMaxFrameSize ≤ conn.maxFrameSize ∧ conn.maxFrameSize ≤ maxFrameSizeLimit
  conn_send : 0 ≤ conn.connSendWindow ∧ conn.connSendWindow ≤ int32Max
  conn_recv : 0 ≤ conn.connRecvWindow ∧ conn.connRecvWindow ≤ 65535
  initial : 0 ≤ conn.initialStreamWindow ∧ conn.initialStreamWindow ≤ int32Max
  last_lt : conn.lastStreamId < 2 ^ 31
  id_le : ∀ i, (conn.streams i).id ≤ conn.lastStreamId
  id_odd : ∀ i, (conn.streams i).id ≠ 0 → (conn.streams i).id % 2 = 1
  id_inj : ∀ i j, (conn.streams i).id ≠ 0 → (conn.streams i).id = (conn.streams j).id → i = j
  slot : ∀ i, SlotOk (conn.streams i)

theorem SlotOk.zero : SlotOk Stream.zero := by
  constructor <;> simp [Stream.zero, int32Min, int32Max]

theorem SlotOk.init (streamId : Nat) {window : Int} (h : 0 ≤ window ∧ window ≤ int32Max) :
    SlotOk (Stream.init streamId window) := by
  refine ⟨⟨?_, h.2⟩, by simp [Stream.init, defaultWindowSize], by simp [Stream.init, Stream.zero],
    by simp [Stream.init, Stream.zero], by simp [Stream.init, Stream.zero]⟩
  show int32Min ≤ window
  simp only [int32Min]
  omega

theorem SlotOk.close {s : Stream} : SlotOk s.close := by
  constructor <;> simp [Stream.close, int32Min, int32Max]

theorem Inv.init : Inv Connection.init := by
  constructor <;> simp [Connection.init, defaultWindowSize, int32Max, connOutputCap,
    defaultMaxFrameSize, maxFrameSizeLimit, Stream.zero]
  exact SlotOk.zero

/-! ## Response frames -/

/-- One literal field of a response header block: lengths below 127 take one byte. -/
def literalField (name value : List UInt8) : List UInt8 :=
  0x00 :: UInt8.ofNat name.length :: name ++ UInt8.ofNat value.length :: value

/-- The header block of a response with a body of `n` bytes. -/
def responseBlock (n : Nat) : List UInt8 :=
  0x88 :: literalField (ascii "content-type") (ascii "text/plain")
    ++ literalField (ascii "content-length") (Connection.decimal n)
    ++ literalField (ascii "server") (ascii "c11-h2")

/-- The HEADERS frame of the response on a stream to a body of `n` bytes. -/
def responseHeaders (streamId n : Nat) : Frame :=
  Frame.of FrameType.headers.toByte flagEndHeaders streamId (responseBlock n)

/-- The DATA frame of the response on a stream. -/
def responseData (streamId : Nat) (body : List UInt8) : Frame :=
  Frame.of FrameType.data.toByte flagEndStream streamId body

/-! ## Actions -/

/-- What an action leaves in the history. -/
inductive Event
  /-- A frame was queued. -/
  | queued (f : Frame)
  /-- A WINDOW_UPDATE was applied to the connection (`0`) or to a stream slot. -/
  | credit (streamId increment : Nat)
  /-- A new initial window size was applied to all streams. -/
  | resized (value : Int)
  /-- One slot was shifted by a SETTINGS frame that failed before its end. -/
  | torn

/-- A frame that is neither a response frame nor a GOAWAY. -/
def Frame.Control (f : Frame) : Prop :=
  f.type ≠ FrameType.headers.toByte ∧ f.type ≠ FrameType.data.toByte
    ∧ f.type ≠ FrameType.goaway.toByte

namespace Connection

/-- Append a frame to the output. -/
def push (conn : Connection) (f : Frame) : Connection :=
  { conn with output := conn.output ++ f.wire }

/-- The output buffer has room for a frame. -/
def Fits (conn : Connection) (f : Frame) : Prop :=
  conn.output.length + f.wire.length ≤ connOutputCap

/-- A new SETTINGS_INITIAL_WINDOW_SIZE: every live stream is shifted by the difference. -/
def resizeWindows (conn : Connection) (value : Int) : Connection :=
  { conn with
    initialStreamWindow := value
    streams := fun i =>
      if live (conn.streams i) then
        { conn.streams i with
          sendWindow := (conn.streams i).sendWindow + (value - conn.initialStreamWindow) }
      else conn.streams i }

/-- The stream at `pos` after its response body has been queued. -/
def answered (conn : Connection) (pos : Fin connMaxStreams) (len : Nat) : Connection :=
  { conn with
    connSendWindow := conn.connSendWindow - len
    responsesSent := (conn.responsesSent + 1) % 4294967296 }.setStream pos
      (Stream.sendEndStream
        { conn.streams pos with
          sendWindow := (conn.streams pos).sendWindow - len
          responseBodyDeferred := false
          responseSent := true }).2

end Connection

open Connection

/-- A stream the server may send a response on. -/
def Stream.CanSend (s : Stream) : Prop :=
  s.id ≠ 0 ∧ (s.state = .opened ∨ s.state = .halfClosedRemote)

/-- Such a stream is neither idle nor closed. -/
theorem Stream.CanSend.state_ne {s : Stream} (h : s.CanSend) : s.state ≠ .idle ∧ s.state ≠ .closed := by
  rcases h.2 with hst | hst
  · simp [hst]
  · simp [hst]

theorem Stream.CanSend.live {s : Stream} (h : s.CanSend) : live s = true :=
  live_iff.mpr ⟨h.1, h.state_ne.2⟩

/-- The protocol actions. -/
inductive Act : Connection → List Event → Connection → Prop
  /-- Queue a control frame. -/
  | control (c : Connection) (f : Frame) (hf : f.Control) (hroom : c.Fits f) :
      Act c [.queued f] (c.push f)
  /-- Charge or refund the receive window of the connection. -/
  | recvConn (c : Connection) (w : Int) (hw : 0 ≤ w ∧ w ≤ 65535) :
      Act c [] { c with connRecvWindow := w }
  /-- Charge or refund the receive window of a stream. -/
  | recvStream (c : Connection) (pos : Fin connMaxStreams) (w : Int) (hw : 0 ≤ w ∧ w ≤ 65535) :
      Act c [] (c.setStream pos { c.streams pos with recvWindow := w })
  /-- Give a slot to a new stream. -/
  | openSlot (c : Connection) (pos : Fin connMaxStreams) (streamId : Nat)
      (hfree : reusable (c.streams pos)) (hodd : streamId % 2 = 1)
      (hlast : c.lastStreamId < streamId) (hlt : streamId < 2 ^ 31) :
      Act c [] { c.setStream pos (Stream.init streamId c.initialStreamWindow) with
        lastStreamId := streamId }
  /-- Write the path of a request that is being read. -/
  | path (c : Connection) (pos : Fin connMaxStreams) (p : List UInt8)
      (hidle : (c.streams pos).state = .idle) (hlen : p.length ≤ 255) (htext : (0 : UInt8) ∉ p) :
      Act c [] (c.setStream pos { c.streams pos with path := p })
  /-- The request is complete: the stream leaves the idle state. -/
  | request (c : Connection) (pos : Fin connMaxStreams) (endStream : Bool)
      (hidle : (c.streams pos).state = .idle) :
      Act c [] (c.setStream pos { c.streams pos with
        state := if endStream then .halfClosedRemote else .opened })
  /-- Queue the HEADERS frame of a response. -/
  | sendHeaders (c : Connection) (pos : Fin connMaxStreams) (hcan : (c.streams pos).CanSend)
      (hnew : (c.streams pos).responseHeadersSent = false)
      (hroom : c.Fits (responseHeaders (c.streams pos).id ((c.streams pos).path.length + 1))) :
      Act c [.queued (responseHeaders (c.streams pos).id ((c.streams pos).path.length + 1))]
        ((c.push (responseHeaders (c.streams pos).id ((c.streams pos).path.length + 1))).setStream pos
          { c.streams pos with responseHeadersSent := true })
  /-- Put the body of a response off: one of the two send windows is too small for it. -/
  | defer (c : Connection) (pos : Fin connMaxStreams) (hcan : (c.streams pos).CanSend)
      (hhead : (c.streams pos).responseHeadersSent = true)
      (hbody : (c.streams pos).responseSent = false) (hpath : (c.streams pos).path ≠ [])
      (hblocked : c.connSendWindow < (responseBody (c.streams pos).path).length
        ∨ (c.streams pos).sendWindow < (responseBody (c.streams pos).path).length) :
      Act c [] (c.setStream pos { c.streams pos with responseBodyDeferred := true })
  /-- Queue the DATA frame of a response: both send windows cover it. -/
  | sendData (c : Connection) (pos : Fin connMaxStreams) (hcan : (c.streams pos).CanSend)
      (hhead : (c.streams pos).responseHeadersSent = true)
      (hbody : (c.streams pos).responseSent = false) (hpath : (c.streams pos).path ≠ [])
      (hconn : ((responseBody (c.streams pos).path).length : Int) ≤ c.connSendWindow)
      (hstream : ((responseBody (c.streams pos).path).length : Int) ≤ (c.streams pos).sendWindow)
      (hroom : c.Fits (responseData (c.streams pos).id (responseBody (c.streams pos).path))) :
      Act c [.queued (responseData (c.streams pos).id (responseBody (c.streams pos).path))]
        ((c.push (responseData (c.streams pos).id (responseBody (c.streams pos).path))).answered pos
          (responseBody (c.streams pos).path).length)
  /-- The peer ends an open stream. -/
  | endRemote (c : Connection) (pos : Fin connMaxStreams) (hopen : (c.streams pos).state = .opened) :
      Act c [] (c.setStream pos { c.streams pos with state := .halfClosedRemote })
  /-- Close a stream, at the end of both directions or by RST_STREAM. -/
  | close (c : Connection) (pos : Fin connMaxStreams) :
      Act c [] (c.setStream pos (c.streams pos).close)
  /-- Credit for the connection. -/
  | creditConn (c : Connection) (increment : Nat)
      (hmax : c.connSendWindow + increment ≤ int32Max) :
      Act c [.credit 0 increment] { c with connSendWindow := c.connSendWindow + increment }
  /-- Credit for a stream that has a slot. -/
  | creditStream (c : Connection) (pos : Fin connMaxStreams) (increment : Nat)
      (hid : (c.streams pos).id ≠ 0) (hmax : (c.streams pos).sendWindow + increment ≤ int32Max) :
      Act c [.credit (c.streams pos).id increment] (c.setStream pos { c.streams pos with
        sendWindow := (c.streams pos).sendWindow + increment })
  /-- A new initial window size, applied whole. -/
  | resize (c : Connection) (value : Int) (hvalue : 0 ≤ value ∧ value ≤ int32Max)
      (hrange : ∀ i, live (c.streams i) →
        int32Min ≤ (c.streams i).sendWindow + (value - c.initialStreamWindow)
          ∧ (c.streams i).sendWindow + (value - c.initialStreamWindow) ≤ int32Max) :
      Act c [.resized value] (c.resizeWindows value)
  /-- One slot shifted by a new initial window size that another slot does not allow. -/
  | shiftOne (c : Connection) (pos : Fin connMaxStreams) (w : Int)
      (hw : int32Min ≤ w ∧ w ≤ int32Max) :
      Act c [.torn] (c.setStream pos { c.streams pos with sendWindow := w })
  /-- A new maximum frame size. -/
  | maxFrame (c : Connection) (size : Nat)
      (hsize : defaultMaxFrameSize ≤ size ∧ size ≤ maxFrameSizeLimit) :
      Act c [] { c with maxFrameSize := size }
  /-- Header block fragments are collected. -/
  | block (c : Connection) (isOpen : Bool) (streamId : Nat) (flags : UInt8) (bytes : List UInt8) :
      Act c [] { c with
        headerBlockOpen := isOpen
        headerBlockStreamId := streamId
        headerBlockFlags := flags
        headerBlock := bytes }

/-- A sequence of actions. -/
abbrev Acts : Connection → List Event → Connection → Prop := Steps Act

/-! ## What an action keeps -/

theorem setStream_id (c : Connection) {pos : Fin connMaxStreams} {s : Stream}
    (hid : s.id = (c.streams pos).id) (i : Fin connMaxStreams) :
    ((c.setStream pos s).streams i).id = (c.streams i).id := by
  by_cases hi : i = pos
  · subst hi; rw [setStream_streams_self, hid]
  · rw [setStream_streams_ne c hi]

/-- The write of one slot that keeps the id keeps the invariant. -/
theorem Inv.setStream {c : Connection} (h : Inv c) {pos : Fin connMaxStreams} {s : Stream}
    (hid : s.id = (c.streams pos).id) (hs : SlotOk s) : Inv (c.setStream pos s) where
  output_sent := h.output_sent
  output_le := h.output_le
  max_frame := h.max_frame
  conn_send := h.conn_send
  conn_recv := h.conn_recv
  initial := h.initial
  last_lt := h.last_lt
  id_le := fun i => by
    rw [setStream_id c hid]
    exact h.id_le i
  id_odd := fun i => by
    rw [setStream_id c hid]
    exact h.id_odd i
  id_inj := fun i j => by
    rw [setStream_id c hid, setStream_id c hid]
    exact h.id_inj i j
  slot := setStream_forall h.slot hs

theorem Inv.push {c : Connection} (h : Inv c) {f : Frame} (hroom : c.Fits f) : Inv (c.push f) :=
  { h with
    output_le := by
      show (c.output ++ f.wire).length ≤ connOutputCap
      rw [List.length_append]
      exact hroom }

/-- Opening a slot keeps the invariant: the new id is above all ids in the table. -/
theorem Inv.openSlot {c : Connection} (h : Inv c) (pos : Fin connMaxStreams) {streamId : Nat}
    (hodd : streamId % 2 = 1) (hlast : c.lastStreamId < streamId) (hlt : streamId < 2 ^ 31) :
    Inv { c.setStream pos (Stream.init streamId c.initialStreamWindow) with
      lastStreamId := streamId } := by
  have hself : ((c.setStream pos (Stream.init streamId c.initialStreamWindow)).streams pos).id
      = streamId := by rw [setStream_streams_self]; rfl
  have hother : ∀ i, i ≠ pos → (c.setStream pos (Stream.init streamId
      c.initialStreamWindow)).streams i = c.streams i := fun i hi => setStream_streams_ne c hi _
  refine { h with
    last_lt := hlt
    id_le := ?_
    id_odd := ?_
    id_inj := ?_
    slot := setStream_forall h.slot (SlotOk.init streamId h.initial) }
  · intro i
    show ((c.setStream pos (Stream.init streamId c.initialStreamWindow)).streams i).id ≤ streamId
    by_cases hi : i = pos
    · rw [hi, hself]
    · rw [hother i hi]
      have := h.id_le i
      omega
  · intro i
    show ((c.setStream pos (Stream.init streamId c.initialStreamWindow)).streams i).id ≠ 0 →
      ((c.setStream pos (Stream.init streamId c.initialStreamWindow)).streams i).id % 2 = 1
    by_cases hi : i = pos
    · rw [hi, hself]
      exact fun _ => hodd
    · rw [hother i hi]
      exact h.id_odd i
  · intro i j
    show ((c.setStream pos (Stream.init streamId c.initialStreamWindow)).streams i).id ≠ 0 →
      ((c.setStream pos (Stream.init streamId c.initialStreamWindow)).streams i).id
        = ((c.setStream pos (Stream.init streamId c.initialStreamWindow)).streams j).id → i = j
    have hi' := h.id_le i
    have hj' := h.id_le j
    -- the new id is above all others
    by_cases hi : i = pos <;> by_cases hj : j = pos
    · exact fun _ _ => hi.trans hj.symm
    · rw [hi, hself, hother j hj]
      exact fun _ h' => absurd h' (by omega)
    · rw [hj, hself, hother i hi]
      exact fun _ h' => absurd h' (by omega)
    · rw [hother i hi, hother j hj]
      exact h.id_inj i j

theorem SlotOk.setSendWindow {s : Stream} (h : SlotOk s) {w : Int}
    (hw : int32Min ≤ w ∧ w ≤ int32Max) : SlotOk { s with sendWindow := w } :=
  { h with send := hw }

/-- **Every action keeps the structural invariant.** -/
theorem Act.inv {c c' : Connection} {es : List Event} (h : Act c es c') (hc : Inv c) : Inv c' := by
  cases h with
  | control f hf hroom => exact hc.push hroom
  | recvConn w hw => exact { hc with conn_recv := hw }
  | recvStream pos w hw =>
      exact hc.setStream rfl { hc.slot pos with recv := hw }
  | openSlot pos streamId hfree hodd hlast hlt => exact hc.openSlot pos hodd hlast hlt
  | path pos p hidle hlen htext =>
      refine hc.setStream rfl { hc.slot pos with
        path_length := hlen, path_text := htext, deferred := fun hd => ?_ }
      -- a deferred response is not idle
      have := ((hc.slot pos).deferred hd).1
      simp [hidle] at this
  | request pos endStream hidle =>
      refine hc.setStream rfl { hc.slot pos with deferred := fun hd => ?_ }
      have := ((hc.slot pos).deferred hd).1
      simp [hidle] at this
  | sendHeaders pos hcan hnew hroom =>
      refine (hc.push hroom).setStream rfl { hc.slot pos with deferred := fun hd => ?_ }
      have := ((hc.slot pos).deferred hd).2.1
      simp [hnew] at this
  | defer pos hcan hhead hbody hpath hblocked =>
      exact hc.setStream rfl { hc.slot pos with deferred := fun _ => ⟨hcan.2, hhead, hbody, hpath⟩ }
  | sendData pos hcan hhead hbody hpath hconn hstream hroom =>
      have hs := (hc.slot pos).send
      have hcs := hc.conn_send
      have hwin : 0 ≤ c.connSendWindow - (responseBody (c.streams pos).path).length
          ∧ c.connSendWindow - (responseBody (c.streams pos).path).length ≤ int32Max := by omega
      have hbase : Inv
          { c.push (responseData (c.streams pos).id (responseBody (c.streams pos).path)) with
            connSendWindow := c.connSendWindow - (responseBody (c.streams pos).path).length
            responsesSent := (c.responsesSent + 1) % 4294967296 } :=
        { hc.push hroom with conn_send := hwin }
      rcases hcan.2 with hst | hst
      · refine hbase.setStream (by simp [Stream.sendEndStream, hst, push]) ?_
        simp only [Stream.sendEndStream, push, hst, if_true]
        refine { hc.slot pos with send := ?_, deferred := fun hd => by simp at hd }
        show int32Min ≤ (c.streams pos).sendWindow - _ ∧ (c.streams pos).sendWindow - _ ≤ int32Max
        simp only [int32Min] at hs ⊢
        omega
      · refine hbase.setStream (by simp [Stream.sendEndStream, hst, push, Stream.close]) ?_
        simp only [Stream.sendEndStream, push, hst, reduceCtorEq, if_false, if_true]
        exact SlotOk.close
  | endRemote pos hopen =>
      refine hc.setStream rfl { hc.slot pos with deferred := fun hd => ?_ }
      exact ⟨Or.inr rfl, ((hc.slot pos).deferred hd).2⟩
  | close pos => exact hc.setStream rfl SlotOk.close
  | creditConn increment hmax =>
      refine { hc with conn_send := ⟨?_, hmax⟩ }
      have := hc.conn_send
      show 0 ≤ c.connSendWindow + increment
      omega
  | creditStream pos increment hid hmax =>
      refine hc.setStream rfl ((hc.slot pos).setSendWindow ⟨?_, hmax⟩)
      have := (hc.slot pos).send
      omega
  | resize value hvalue hrange =>
      have hid : ∀ i, ((c.resizeWindows value).streams i).id = (c.streams i).id := by
        intro i
        simp only [resizeWindows]
        split <;> rfl
      refine { hc with initial := hvalue, id_le := ?_, id_odd := ?_, id_inj := ?_, slot := ?_ }
      · exact fun i => by rw [hid]; exact hc.id_le i
      · exact fun i => by rw [hid]; exact hc.id_odd i
      · exact fun i j => by rw [hid, hid]; exact hc.id_inj i j
      · intro i
        simp only [resizeWindows]
        split
        · next hl => exact (hc.slot i).setSendWindow (hrange i hl)
        · exact hc.slot i
  | shiftOne pos w hw => exact hc.setStream rfl ((hc.slot pos).setSendWindow hw)
  | maxFrame size hsize => exact { hc with max_frame := hsize }
  | block isOpen streamId flags bytes => exact { hc with }

theorem Acts.inv {c c' : Connection} {es : List Event} (h : Acts c es c') (hc : Inv c) : Inv c' :=
  h.invariant (fun hact hs => hact.inv hs) hc

/-- The frames queued in a history. -/
def queuedFrames (es : List Event) : List Frame :=
  es.filterMap fun
    | .queued f => some f
    | _ => none

@[simp] theorem queuedFrames_append (es fs : List Event) :
    queuedFrames (es ++ fs) = queuedFrames es ++ queuedFrames fs := List.filterMap_append

/-- The output grows by the frames the history records. -/
theorem Act.output {c c' : Connection} {es : List Event} (h : Act c es c') :
    c'.output = c.output ++ wireOf (queuedFrames es) := by
  cases h <;> simp [queuedFrames, push, answered, Connection.setStream, resizeWindows]

theorem Acts.output {c c' : Connection} {es : List Event} (h : Acts c es c') :
    c'.output = c.output ++ wireOf (queuedFrames es) := by
  induction h with
  | refl => simp [queuedFrames]
  | head h _ ih => rw [ih, h.output, queuedFrames_append, wireOf_append, List.append_assoc]

/-- The fields of a connection that belong to `h2_connection_feed` itself. -/
structure SameFeed (c c' : Connection) : Prop where
  prefaceSeen : c'.prefaceSeen = c.prefaceSeen
  settingsSent : c'.settingsSent = c.settingsSent
  goawaySent : c'.goawaySent = c.goawaySent
  goawayError : c'.goawayError = c.goawayError
  input : c'.input = c.input

/-- No action touches them. -/
theorem Acts.sameFeed {c c' : Connection} {es : List Event} (h : Acts c es c') : SameFeed c c' := by
  refine h.invariant (P := SameFeed c) ?_ ⟨rfl, rfl, rfl, rfl, rfl⟩
  rintro s es t hact ⟨h1, h2, h3, h4, h5⟩
  cases hact <;> exact ⟨h1, h2, h3, h4, h5⟩

theorem Acts.lastStreamId_le {c c' : Connection} {es : List Event} (h : Acts c es c') :
    c.lastStreamId ≤ c'.lastStreamId := by
  refine h.invariant (P := fun t => c.lastStreamId ≤ t.lastStreamId) ?_ le_rfl
  rintro s es t hact hs
  cases hact with
  | openSlot pos streamId hfree hodd hlast hlt => exact hs.trans hlast.le
  | _ => exact hs

/-! ## Handlers that do nothing but queue -/

/-- Nothing but queued frames. -/
def Queues (es : List Event) : Prop := ∀ e ∈ es, ∃ f, e = .queued f

/-- Nothing but queued frames, and no RST_STREAM among them: what a handler does by itself. -/
def Quiet (es : List Event) : Prop :=
  ∀ e ∈ es, ∃ f, e = .queued f ∧ f.type ≠ FrameType.rstStream.toByte

theorem Quiet.nil : Quiet [] := by simp [Quiet]

theorem Quiet.queued {f : Frame} (h : f.type ≠ FrameType.rstStream.toByte) :
    Quiet [.queued f] := by
  intro e he
  exact ⟨f, List.mem_singleton.mp he, h⟩

theorem Quiet.append {es fs : List Event} (h₁ : Quiet es) (h₂ : Quiet fs) : Quiet (es ++ fs) := by
  intro e he
  rcases List.mem_append.mp he with he | he
  · exact h₁ e he
  · exact h₂ e he

theorem Queues.append {es fs : List Event} (h₁ : Queues es) (h₂ : Queues fs) :
    Queues (es ++ fs) := by
  intro e he
  rcases List.mem_append.mp he with he | he
  · exact h₁ e he
  · exact h₂ e he

theorem Quiet.queues {es : List Event} (h : Quiet es) : Queues es := by
  intro e he
  obtain ⟨f, hf, -⟩ := h e he
  exact ⟨f, hf⟩

/-- The result of a handler is reached from `c` by quiet actions. -/
def Does (c : Connection) (r : ErrorCode × Connection) : Prop := ∃ es, Acts c es r.2 ∧ Quiet es

namespace Does

variable {c c' : Connection} {r : ErrorCode × Connection}

theorem refl (ret : ErrorCode) (c : Connection) : Does c (ret, c) := ⟨[], .refl c, .nil⟩

theorem act {es : List Event} (h : Act c es c') (hes : Quiet es) (ret : ErrorCode) :
    Does c (ret, c') := ⟨es, .single h, hes⟩

/-- An action without events before a handler. -/
theorem after (h : Act c [] c') (hr : Does c' r) : Does c r := by
  obtain ⟨es, hes, hq⟩ := hr
  exact ⟨[] ++ es, .head h hes, hq⟩

theorem push {f : Frame} (hf : f.Control) (hrst : f.type ≠ FrameType.rstStream.toByte)
    (hfit : c.Fits f) (ret : ErrorCode) : Does c (ret, c.push f) :=
  act (.control c f hf hfit) (.queued hrst) ret

theorem inv (h : Does c r) (hc : Inv c) : Inv r.2 := by
  obtain ⟨es, hes, -⟩ := h
  exact hes.inv hc

theorem trans {ret : ErrorCode} (h₁ : Does c (ret, c')) (h₂ : Does c' r) : Does c r := by
  obtain ⟨es, hes, hq⟩ := h₁
  obtain ⟨fs, hfs, hq'⟩ := h₂
  exact ⟨es ++ fs, hes.trans hfs, hq.append hq'⟩

theorem andThen {first : ErrorCode × Connection} {next : Connection → ErrorCode × Connection}
    (h₁ : Does c first) (h₂ : Does first.2 (next first.2)) : Does c (andThen first next) := by
  obtain ⟨ret, c₁⟩ := first
  by_cases hret : ret = .ok
  · subst hret
    exact h₁.trans h₂
  · rw [andThen_err hret]
    exact h₁

end Does

end C11Omo.Http2
