import C11Omo.Http2.StreamIds
import C11Omo.Http2.WellFramed

set_option autoImplicit false

/-! # Accepted frames

`Accepts` says once what a frame can do that `feed` goes on after, with one constructor for each
way through `process_frame` and `reset_stream_error` (`handleFrame_accepts`). The invariants of
runs without errors are then checked case by case, without another look at the handlers.
-/

namespace C11Omo.Http2

open C11Omo.Lib

namespace Connection

variable {c : Connection} {f : Frame} {pos : Fin connMaxStreams}

/-! ## Refilling a receive window -/

/-- A receive window after `refresh_recv_windows`. -/
def refill (w : Int) : Int := if w ≤ 32767 then 65535 else w

/-- The WINDOW_UPDATE frame for it, if it was low. -/
def refillFrames (streamId : Nat) (w : Int) : List Frame :=
  if w ≤ 32767 then [windowUpdateFrame streamId (65535 - w).toNat] else []

def refillConn (c : Connection) : Connection :=
  { c with
    connRecvWindow := refill c.connRecvWindow
    output := c.output ++ wireOf (refillFrames 0 c.connRecvWindow) }

def refillStream (c : Connection) (pos : Fin connMaxStreams) : Connection :=
  { c.setStream pos { c.streams pos with recvWindow := refill (c.streams pos).recvWindow } with
    output := c.output ++ wireOf (refillFrames (c.streams pos).id (c.streams pos).recvWindow) }

/-- The connection after the charge for a DATA frame of `len` bytes. -/
def charged (c : Connection) (len : Nat) : Connection :=
  { c with connRecvWindow := c.connRecvWindow - len }

/-- The slots after a DATA frame that has been charged to one of them. -/
theorem refilled_streams_self (c : Connection) (pos : Fin connMaxStreams) (len : Nat) (s : Stream) :
    ((((c.charged len).setStream pos s).refillConn).refillStream pos).streams pos
      = { s with recvWindow := refill s.recvWindow } := by
  simp [refillStream, refillConn, setStream]

theorem refilled_streams_ne (c : Connection) {i : Fin connMaxStreams} (hi : i ≠ pos) (len : Nat)
    (s : Stream) :
    ((((c.charged len).setStream pos s).refillConn).refillStream pos).streams i = c.streams i := by
  simp [refillStream, refillConn, charged, setStream, Function.update_of_ne hi]

theorem refilled_block (c : Connection) (pos : Fin connMaxStreams) (len : Nat) (s : Stream) :
    ((((c.charged len).setStream pos s).refillConn).refillStream pos).headerBlockOpen
        = c.headerBlockOpen
      ∧ ((((c.charged len).setStream pos s).refillConn).refillStream pos).headerBlockFlags
        = c.headerBlockFlags
      ∧ ((((c.charged len).setStream pos s).refillConn).refillStream pos).headerBlockStreamId
        = c.headerBlockStreamId := by
  simp [refillStream, refillConn, charged, setStream]

theorem charged_inv (hc : Inv c) {len : Nat} (h : (len : Int) ≤ c.connRecvWindow) :
    Inv (c.charged len) := by
  have hw := hc.conn_recv
  exact { hc with conn_recv := by simp only [charged]; omega }

theorem refreshConnRecvWindow_ok (hc : Inv c) (hok : c.refreshConnRecvWindow.1 = .ok) :
    c.refreshConnRecvWindow = (.ok, c.refillConn) := by
  rw [refreshConnRecvWindow_eq hc] at hok ⊢
  unfold refillConn refill refillFrames
  by_cases hlow : c.connRecvWindow ≤ 32767
  · rw [if_pos hlow] at hok ⊢
    rw [if_pos hlow, if_pos hlow]
    by_cases hfit : c.Fits (windowUpdateFrame 0 (65535 - c.connRecvWindow).toNat)
    · rw [if_pos hfit, wireOf_singleton]
      rfl
    · rw [if_neg hfit] at hok
      cases hok
  · rw [if_neg hlow, if_neg hlow, if_neg hlow, wireOf_nil, List.append_nil]

theorem refreshStreamRecvWindow_ok (hc : Inv c) (hok : (c.refreshStreamRecvWindow pos).1 = .ok) :
    c.refreshStreamRecvWindow pos = (.ok, c.refillStream pos) := by
  rw [refreshStreamRecvWindow_eq hc] at hok ⊢
  unfold refillStream refill refillFrames
  by_cases hlow : (c.streams pos).recvWindow ≤ 32767
  · rw [if_pos hlow] at hok ⊢
    rw [if_pos hlow, if_pos hlow]
    by_cases hfit : c.Fits (windowUpdateFrame (c.streams pos).id
        (65535 - (c.streams pos).recvWindow).toNat)
    · rw [if_pos hfit, wireOf_singleton]
      rfl
    · rw [if_neg hfit] at hok
      cases hok
  · rw [if_neg hlow, if_neg hlow, if_neg hlow, wireOf_nil, List.append_nil, setStream_self]

theorem refreshRecvWindows_none_ok (hc : Inv c) (hok : (c.refreshRecvWindows none).1 = .ok) :
    c.refreshRecvWindows none = (.ok, c.refillConn) := by
  have hconn := @refreshConnRecvWindow_ok c hc
  rw [refreshRecvWindows] at hok ⊢
  rcases hres : c.refreshConnRecvWindow with ⟨ret, c₁⟩
  rw [hres] at hok hconn
  by_cases hret : ret = .ok
  · subst hret
    rw [andThen_ok, ← hconn rfl]
  · rw [andThen_err hret] at hok
    exact absurd hok hret

theorem refreshRecvWindows_some_ok (hc : Inv c) (hok : (c.refreshRecvWindows (some pos)).1 = .ok) :
    c.refreshRecvWindows (some pos) = (.ok, c.refillConn.refillStream pos) := by
  have hconn := @refreshConnRecvWindow_ok c hc
  have hdoes := refreshConnRecvWindow_does hc
  rw [refreshRecvWindows] at hok ⊢
  rcases hres : c.refreshConnRecvWindow with ⟨ret, c₁⟩
  rw [hres] at hok hconn hdoes
  by_cases hret : ret = .ok
  · subst hret
    obtain rfl := (Prod.mk.inj (hconn rfl)).2
    rw [andThen_ok] at hok ⊢
    exact refreshStreamRecvWindow_ok (hdoes.inv hc) hok
  · rw [andThen_err hret] at hok
    exact absurd hok hret

/-! ## The cases -/

/-- **What an accepted frame does**: the frames it makes the server queue and the connection after
it. -/
inductive Accepts (c : Connection) (f : Frame) : List Frame → Connection → Prop
  /-- The frame changes nothing. -/
  | ignore (hack : f.ack = none) (ht : f.type ≠ FrameType.data.toByte) (hblock : c.blockOf f = none) :
      Accepts c f [] c
  /-- A PING is answered. -/
  | ping (hack : f.ack = some (pingAckFrame f.payload)) :
      Accepts c f [pingAckFrame f.payload] (c.push (pingAckFrame f.payload))
  /-- Settings are applied and acknowledged. -/
  | settings (settings : List Setting) (hparse : parseSettings f.header f.payload 32 = .ok settings)
      (hack : f.ack = some settingsAckFrame) (hall : ∀ s ∈ settings, c.SettingOk s) :
      Accepts c f [settingsAckFrame] ((settings.foldl applied c).push settingsAckFrame)
  /-- A header block begins. -/
  | beginBlock (bytes : List UInt8) (ht : f.type = FrameType.headers.toByte)
      (hblock : c.blockOf f = none) :
      Accepts c f [] { c with
        headerBlockOpen := true
        headerBlockStreamId := f.streamId
        headerBlockFlags := f.flags
        headerBlock := bytes }
  /-- A header block goes on. -/
  | extendBlock (bytes : List UInt8) (ht : f.type = FrameType.continuation.toByte)
      (hblock : c.blockOf f = none) :
      Accepts c f [] { c with headerBlock := bytes }
  /-- A request is complete, and its response is sent or put off. -/
  | request (pos : Fin connMaxStreams) (flags : UInt8) (block bytes path : List UInt8)
      (fs : List Frame) (c' : Connection) (hadmits : c.Admits f)
      (hblock : c.blockOf f = some (flags, block)) (hodd : f.streamId % 2 = 1)
      (hlast : c.lastStreamId < f.streamId) (hfree : c.freeSlot = some pos) (hpath : PathText path)
      (hne : path ≠ [])
      (hres : ({ c with headerBlockOpen := false, headerBlock := bytes }.withStream pos f.streamId path
        (if hasFlag flags flagEndStream then .halfClosedRemote else .opened)).queueResponse pos
          = (.ok, c'))
      (hans : Answers ({ c with headerBlockOpen := false, headerBlock := bytes }.withStream pos
        f.streamId path (if hasFlag flags flagEndStream then .halfClosedRemote else .opened)) fs c') :
      Accepts c f fs c'
  /-- A request finds no slot. -/
  | refuse (bytes : List UInt8) (hcomp : c.Completes f) (hodd : f.streamId % 2 = 1)
      (hlast : c.lastStreamId < f.streamId) (hfull : c.freeSlot = none) :
      Accepts c f [rstStreamFrame f.streamId .refusedStream]
        ({ c with headerBlockOpen := false, headerBlock := bytes }.push
          (rstStreamFrame f.streamId .refusedStream))
  /-- The path of a request cannot be used. -/
  | badPath (pos : Fin connMaxStreams) (bytes path : List UInt8) (ret : ErrorCode)
      (hcomp : c.Completes f) (hodd : f.streamId % 2 = 1) (hlast : c.lastStreamId < f.streamId)
      (hfree : c.freeSlot = some pos) (hpath : PathText path) (hret : isStreamError ret = true) :
      Accepts c f [rstStreamFrame f.streamId ret]
        ((({ c with headerBlockOpen := false, headerBlock := bytes }.withStream pos f.streamId path
          .idle).push (rstStreamFrame f.streamId ret)).setStream pos
            { Stream.init f.streamId c.initialStreamWindow with path := path }.close)
  /-- DATA on a stream that stays open on one side at least. -/
  | data (pos : Fin connMaxStreams) (ht : f.type = FrameType.data.toByte)
      (hfind : c.findStream f.streamId = some pos)
      (hst : (c.streams pos).state = .opened ∨ (c.streams pos).state = .halfClosedLocal)
      (hconn : (f.payload.length : Int) ≤ c.connRecvWindow)
      (hstream : (f.payload.length : Int) ≤ (c.streams pos).recvWindow)
      (hopen : ¬ (hasFlag f.flags flagEndStream = true ∧ (c.streams pos).state = .halfClosedLocal)) :
      Accepts c f
        (refillFrames 0 (c.connRecvWindow - f.payload.length)
          ++ refillFrames f.streamId ((c.streams pos).recvWindow - f.payload.length))
        ((((c.charged f.payload.length).setStream pos (received (c.streams pos) f.payload.length
          (hasFlag f.flags flagEndStream))).refillConn).refillStream pos)
  /-- The last DATA on a stream whose other side is closed. -/
  | lastData (pos : Fin connMaxStreams) (ht : f.type = FrameType.data.toByte)
      (hfind : c.findStream f.streamId = some pos)
      (hend : hasFlag f.flags flagEndStream = true) (hst : (c.streams pos).state = .halfClosedLocal)
      (hconn : (f.payload.length : Int) ≤ c.connRecvWindow)
      (hstream : (f.payload.length : Int) ≤ (c.streams pos).recvWindow) :
      Accepts c f (refillFrames 0 (c.connRecvWindow - f.payload.length))
        (((c.charged f.payload.length).setStream pos (c.streams pos).close).refillConn)
  /-- DATA on a stream that does not take any more. -/
  | lateData (pos : Fin connMaxStreams) (ht : f.type = FrameType.data.toByte)
      (hfind : c.findStream f.streamId = some pos)
      (hst : (c.streams pos).state ≠ .opened ∧ (c.streams pos).state ≠ .halfClosedLocal)
      (hconn : (f.payload.length : Int) ≤ c.connRecvWindow) :
      Accepts c f (refillFrames 0 (c.connRecvWindow - f.payload.length)
          ++ [rstStreamFrame f.streamId .streamClosed])
        ((((c.charged f.payload.length).refillConn).push
          (rstStreamFrame f.streamId .streamClosed)).setStream pos (c.streams pos).close)
  /-- The client resets a stream. -/
  | reset (pos : Fin connMaxStreams) (ht : f.type = FrameType.rstStream.toByte)
      (hfind : c.findStream f.streamId = some pos) :
      Accepts c f [] (c.setStream pos (c.streams pos).close)
  /-- Credit for the connection, with the responses it unblocks. -/
  | creditConn (increment : Nat) (fs : List Frame) (c' : Connection)
      (ht : f.type = FrameType.windowUpdate.toByte)
      (hmax : c.connSendWindow + increment ≤ int32Max)
      (hans : Answers { c with connSendWindow := c.connSendWindow + increment } fs c') :
      Accepts c f fs c'
  /-- Credit for a stream, with the responses it unblocks. -/
  | creditStream (pos : Fin connMaxStreams) (increment : Nat) (fs : List Frame) (c' : Connection)
      (ht : f.type = FrameType.windowUpdate.toByte)
      (hfind : c.findStream f.streamId = some pos) (h0 : f.streamId ≠ 0)
      (hmax : (c.streams pos).sendWindow + increment ≤ int32Max)
      (hans : Answers (c.setStream pos ((c.streams pos).shift increment)) fs c') :
      Accepts c f fs c'

/-- The output grows by the frames. -/
theorem Accepts.output {fs : List Frame} {c' : Connection} (h : Accepts c f fs c') :
    c'.output = c.output ++ wireOf fs := by
  cases h with
  | ignore hack ht hblock => simp
  | ping hack => simp [push]
  | settings settings hparse hack hall => simp [push, foldl_applied_output]
  | beginBlock bytes ht hblock => simp
  | extendBlock bytes ht hblock => simp
  | request pos flags block bytes path fs c' hadmits hblock hodd hlast hfree hpath hne hres hans =>
      exact hans.output
  | refuse bytes hcomp hodd hlast hfull => simp [push]
  | badPath pos bytes path ret hcomp hodd hlast hfree hpath hret =>
      simp [push, withStream, Connection.setStream]
  -- the refill of the stream is computed from the window after the charge
  | data pos ht hfind hst hconn hstream hopen =>
      have hid := findStream_eq_some hfind
      have hrecv : ∀ s : Stream, received (c.streams pos) f.payload.length
          (hasFlag f.flags flagEndStream) = s → s.id = f.streamId ∧ (¬ (hasFlag f.flags flagEndStream
            = true ∧ (c.streams pos).state = .halfClosedLocal) →
              s.recvWindow = (c.streams pos).recvWindow - f.payload.length) := by
        rintro s rfl
        rw [received]
        split_ifs with hend hhcl
        · exact ⟨hid, fun hno => absurd ⟨hend, hhcl⟩ hno⟩
        · exact ⟨hid, fun _ => rfl⟩
        · exact ⟨hid, fun _ => rfl⟩
      obtain ⟨hrid, hrwin⟩ := hrecv _ rfl
      simp [refillStream, refillConn, Connection.setStream, charged, hrid, hrwin hopen]
  | lastData pos ht hfind hend hst hconn hstream =>
      simp [refillConn, Connection.setStream, charged]
  | lateData pos ht hfind hst hconn =>
      simp [refillConn, Connection.setStream, charged, push]
  | reset pos ht hfind => simp [Connection.setStream]
  | creditConn increment fs c' ht hmax hans => exact hans.output
  | creditStream pos increment fs c' ht hfind h0 hmax hans => exact hans.output

/-- A handler that fails without a stream error makes the frame fail. -/
theorem handleFrame_fails {r : ErrorCode × Connection} (h : c.processFrame f.header f.payload = r)
    (hne : r.1 ≠ .ok) (hse : isStreamError r.1 = false) : (c.handleFrame f).1 ≠ .ok := by
  rw [handleFrame_goaway (h.trans (Prod.ext rfl rfl)) hne (by simp [hse])]
  exact hne

/-! ## Header blocks -/

/-- **What becomes of a complete header block**: it is rejected, or it finds no slot, or its path
cannot be used, or it is answered. -/
theorem processFrame_block_cases (hc : Inv c) (hadmits : c.Admits f) {flags : UInt8}
    {block : List UInt8} (hblock : c.blockOf f = some (flags, block)) : ∃ bytes,
    c.processFrame f.header f.payload
        = (.protocolError, { c with headerBlockOpen := false, headerBlock := bytes })
    ∨ (f.streamId % 2 = 1 ∧ c.lastStreamId < f.streamId) ∧
      (c.freeSlot = none ∧ c.processFrame f.header f.payload
          = (.refusedStream, { c with headerBlockOpen := false, headerBlock := bytes })
        ∨ ∃ pos path, c.freeSlot = some pos ∧ PathText path ∧
          ((∃ ret, ret ≠ .ok ∧ c.processFrame f.header f.payload = (ret,
              { c with headerBlockOpen := false, headerBlock := bytes }.withStream pos f.streamId path
                .idle))
            ∨ path ≠ [] ∧ c.processFrame f.header f.payload
              = ({ c with headerBlockOpen := false, headerBlock := bytes }.withStream pos f.streamId
                  path (if hasFlag flags flagEndStream then .halfClosedRemote else .opened)).queueResponse
                pos)) := by
  obtain ⟨bytes, hproc⟩ := processFrame_block hadmits hblock
  have hc' : Inv { c with headerBlockOpen := false, headerBlock := bytes } := { hc with }
  refine ⟨bytes, ?_⟩
  -- `get_stream` tests the id first, then looks for a slot
  by_cases hbad : f.streamId % 2 = 0 ∨ f.streamId ≤ c.lastStreamId
  · have hreject := @finishHeaders_reject { c with headerBlockOpen := false, headerBlock := bytes }
      f.streamId hbad flags block
    exact Or.inl (hproc.trans hreject)
  · have hodd : f.streamId % 2 = 1 := by omega
    have hlast : c.lastStreamId < f.streamId := by omega
    have heq := finishHeaders_eq hc' hodd hlast flags block
    refine Or.inr ⟨⟨hodd, hlast⟩, ?_⟩
    rcases hfree : c.freeSlot with _ | pos
    · have hfree' : freeSlot { c with headerBlockOpen := false, headerBlock := bytes } = none := hfree
      rw [hfree'] at heq
      exact Or.inl ⟨rfl, hproc.trans heq⟩
    · have hfree' : freeSlot { c with headerBlockOpen := false, headerBlock := bytes } = some pos :=
        hfree
      rw [hfree'] at heq
      simp only at heq
      refine Or.inr ⟨pos, _, rfl, extractPath_pathText block, ?_⟩
      -- the slot is opened before the path is read, and the path may be useless
      by_cases hpath : (extractPath block streamPathCap).1 = .ok
      · rw [if_pos hpath] at heq
        exact Or.inr ⟨extractPath_ne_nil (Prod.ext hpath rfl), hproc.trans heq⟩
      · rw [if_neg hpath] at heq
        exact Or.inl ⟨_, hpath, hproc.trans heq⟩

/-- The reset of a stream whose header block found no slot. -/
theorem resetStreamError_refused (hc : Inv c) {streamId : Nat} (h0 : streamId ≠ 0)
    (hlast : c.lastStreamId < streamId) (ret : ErrorCode) :
    c.resetStreamError streamId ret
      = if c.Fits (rstStreamFrame streamId ret) then (.ok, c.push (rstStreamFrame streamId ret))
        else (.internalError, c) := by
  rw [resetStreamError_eq hc h0, findStream_new hc hlast]

/-- The reset of a stream that has just been given a slot. -/
theorem resetStreamError_new (hc : Inv c) (hfree : c.freeSlot = some pos) {streamId : Nat}
    (hodd : streamId % 2 = 1) (hlast : c.lastStreamId < streamId) (hlt : streamId < 2 ^ 31)
    {path : List UInt8} (hpath : PathText path) (ret : ErrorCode) :
    (c.withStream pos streamId path .idle).resetStreamError streamId ret
      = if (c.withStream pos streamId path .idle).Fits (rstStreamFrame streamId ret) then
          (.ok, ((c.withStream pos streamId path .idle).push (rstStreamFrame streamId ret)).setStream
            pos { Stream.init streamId c.initialStreamWindow with path := path }.close)
        else (.internalError, c.withStream pos streamId path .idle) := by
  have h0 : streamId ≠ 0 := by omega
  have hopen := (withStream_does hfree hodd hlast hlt hpath .ok).inv hc
  have hself := withStream_streams c pos streamId path .idle
  obtain ⟨pos', hfind⟩ := @exists_findStream (c.withStream pos streamId path .idle) streamId pos
    (by rw [hself]; rfl)
  obtain rfl : pos' = pos := by
    have hid := findStream_eq_some hfind
    refine hopen.id_inj pos' pos (by rw [hid]; exact h0) ?_
    rw [hid, hself]
    rfl
  rw [resetStreamError_eq hopen h0, hfind]
  simp only
  rw [hself]
  rfl

/-- A complete header block that is accepted. -/
theorem accepts_block (hc : Inv c) (hadmits : c.Admits f) {flags : UInt8} {block : List UInt8}
    (hblock : c.blockOf f = some (flags, block)) (hok : (c.handleFrame f).1 = .ok) :
    ∃ fs, Accepts c f fs (c.handleFrame f).2 := by
  have hcomp : c.Completes f := ⟨hadmits, by rw [hblock]; rfl⟩
  obtain ⟨bytes, hproc | ⟨⟨hodd, hlast⟩, ⟨hfull, hproc⟩ | ⟨pos, path, hfree, hpath,
    ⟨ret, hret, hproc⟩ | ⟨hne, hproc⟩⟩⟩⟩ := processFrame_block_cases hc hadmits hblock
  · -- an id that is even or not new is a connection error
    exact absurd hok (handleFrame_fails hproc (by simp) rfl)
  · -- no slot: the stream is refused
    have hc' : Inv { c with headerBlockOpen := false, headerBlock := bytes } := { hc with }
    have h0 : f.streamId ≠ 0 := by omega
    have hreset := resetStreamError_refused hc' h0 hlast .refusedStream
    rw [handleFrame_reset hproc rfl h0, hreset] at hok ⊢
    by_cases hfit : Fits { c with headerBlockOpen := false, headerBlock := bytes }
        (rstStreamFrame f.streamId .refusedStream)
    · rw [if_pos hfit]
      exact ⟨_, .refuse bytes hcomp hodd hlast hfull⟩
    · rw [if_neg hfit] at hok
      cases hok
  · -- the path cannot be used
    have hc' : Inv { c with headerBlockOpen := false, headerBlock := bytes } := { hc with }
    have h0 : f.streamId ≠ 0 := by omega
    by_cases herr : isStreamError ret = true
    · have hfree' : freeSlot { c with headerBlockOpen := false, headerBlock := bytes } = some pos :=
        hfree
      have hreset := resetStreamError_new hc' hfree' hodd hlast f.streamId_lt hpath ret
      rw [handleFrame_reset hproc herr h0, hreset] at hok ⊢
      by_cases hfit : Fits (withStream { c with headerBlockOpen := false, headerBlock := bytes }
          pos f.streamId path .idle) (rstStreamFrame f.streamId ret)
      · rw [if_pos hfit]
        exact ⟨_, .badPath pos bytes path ret hcomp hodd hlast hfree hpath herr⟩
      · rw [if_neg hfit] at hok
        cases hok
    · exact absurd hok (handleFrame_fails hproc hret (by simpa using herr))
  · -- the request is answered
    have hc' : Inv { c with headerBlockOpen := false, headerBlock := bytes } := { hc with }
    have hfree' : freeSlot { c with headerBlockOpen := false, headerBlock := bytes } = some pos :=
      hfree
    have hcode := queueResponse_code
      ((withStream_opened hfree' hodd hlast f.streamId_lt hpath
        (hasFlag flags flagEndStream)).inv hc')
      (withStream_canSend _ pos (by omega) _ (hasFlag flags flagEndStream))
      (by rw [withStream_streams]; rfl) (by rw [withStream_streams]; rfl)
      (by rw [withStream_streams]; exact hne)
    obtain ⟨fs, hans⟩ := opened_queueResponse_answers hc' hfree' hodd hlast f.streamId_lt hpath
      hne (hasFlag flags flagEndStream)
    rw [← hproc] at hcode hans
    rcases hcode with hcode | hcode
    · have hres : c.processFrame f.header f.payload
          = (.ok, (c.processFrame f.header f.payload).2) := Prod.ext hcode rfl
      rw [handleFrame_ok hres]
      refine ⟨fs, .request pos flags block bytes _ fs _ hadmits hblock hodd hlast hfree hpath hne
        ?_ hans⟩
      rw [← hproc]
      exact hres
    · exact absurd hok (handleFrame_fails rfl (by rw [hcode]; decide) (by rw [hcode]; rfl))

/-! ## DATA -/

theorem windowUpdateFrame_wire_length (streamId increment : Nat) :
    (windowUpdateFrame streamId increment).wire.length = 13 := by
  rw [Frame.wire_length, windowUpdateFrame, Frame.of_payload (by simp [maxFrameSizeLimit])]
  rfl

theorem rstStreamFrame_wire_length (streamId : Nat) (errorCode : ErrorCode) :
    (rstStreamFrame streamId errorCode).wire.length = 13 := by
  rw [Frame.wire_length, rstStreamFrame, Frame.of_payload (by simp [maxFrameSizeLimit])]
  rfl

/-- If there is room for RST_STREAM behind the refill of the connection window, the refill has
found room as well. -/
theorem refreshRecvWindows_room_ok (hc : Inv c) {streamId : Nat} {errorCode : ErrorCode}
    (hfit : Fits (c.refreshRecvWindows none).2 (rstStreamFrame streamId errorCode)) :
    (c.refreshRecvWindows none).1 = .ok := by
  rw [Fits, rstStreamFrame_wire_length] at hfit
  rw [refreshRecvWindows, refreshConnRecvWindow_eq hc] at hfit ⊢
  by_cases hlow : c.connRecvWindow ≤ 32767
  · rw [if_pos hlow] at hfit ⊢
    by_cases hroom : c.Fits (windowUpdateFrame 0 (65535 - c.connRecvWindow).toNat)
    · rw [if_pos hroom, andThen_ok]
    · rw [if_neg hroom, andThen_err (by decide)] at hfit
      rw [Fits, windowUpdateFrame_wire_length] at hroom
      exact absurd hfit hroom
  · rw [if_neg hlow, andThen_ok]

theorem refreshRecvWindows_room (hc : Inv c) {streamId : Nat} {errorCode : ErrorCode}
    (hfit : Fits (c.refreshRecvWindows none).2 (rstStreamFrame streamId errorCode)) :
    (c.refreshRecvWindows none).2 = c.refillConn := by
  rw [refreshRecvWindows_none_ok hc (refreshRecvWindows_room_ok hc hfit)]

/-- A DATA frame on a stream that has a slot. -/
theorem processFrame_data (hc : Inv c) (hadmits : c.Admits f) (ht : f.type = FrameType.data.toByte)
    {parsed : DataPayload} (hparse : parseData f.header f.payload = .ok parsed)
    (hfind : c.findStream f.streamId = some pos) :
    c.processFrame f.header f.payload
      = if c.connRecvWindow < f.payload.length then (.flowControlError, c)
        else if (c.streams pos).state ≠ .opened ∧ (c.streams pos).state ≠ .halfClosedLocal then
          (.streamClosed, ((c.charged f.payload.length).refreshRecvWindows none).2)
        else if (c.streams pos).recvWindow < f.payload.length then
          (.flowControlError, c.charged f.payload.length)
        else
          ((c.charged f.payload.length).setStream pos
            (received (c.streams pos) f.payload.length (hasFlag f.flags flagEndStream))).refreshRecvWindows
              (if (received (c.streams pos) f.payload.length
                (hasFlag f.flags flagEndStream)).state = .closed then none else some pos) :=
  (processFrame_handler hadmits ht).trans (processData_eq hc hparse hfind)

/-- A DATA frame that is accepted. -/
theorem accepts_data (hc : Inv c) (hadmits : c.Admits f) (ht : f.type = FrameType.data.toByte)
    (hok : (c.handleFrame f).1 = .ok) : ∃ fs, Accepts c f fs (c.handleFrame f).2 := by
  have hproc := processFrame_handler hadmits ht
  rw [handler] at hproc
  rcases hparse : parseData f.header f.payload with ret | parsed
  · -- bytes that are no DATA payload
    rw [processData, hparse] at hproc
    rw [handleFrame_goaway hproc (by rcases parseData_error hparse with rfl | rfl <;> decide)
      (by rcases parseData_error hparse with rfl | rfl <;> simp [isStreamError])] at hok
    rcases parseData_error hparse with rfl | rfl <;> cases hok
  · rcases hfind : c.findStream f.streamId with _ | pos
    · -- no slot with this id
      rw [processData, hparse] at hproc
      simp only [Frame.header_streamId, hfind] at hproc
      rw [handleFrame_goaway hproc (by decide) (fun h => by cases h.1)] at hok
      cases hok
    · -- the guards of `process_data` in its own order, each with a code of its own
      replace hproc := processFrame_data hc hadmits ht hparse hfind
      by_cases hlow : c.connRecvWindow < f.payload.length
      · rw [if_pos hlow] at hproc
        rw [handleFrame_goaway hproc (by decide) (fun h => by cases h.1)] at hok
        cases hok
      · have hconn : (f.payload.length : Int) ≤ c.connRecvWindow := not_lt.mp hlow
        have hcharge := charged_inv hc hconn
        rw [if_neg hlow] at hproc
        by_cases hst : (c.streams pos).state ≠ .opened ∧ (c.streams pos).state ≠ .halfClosedLocal
        · -- the stream does not take any more data
          rw [if_pos hst] at hproc
          by_cases h0 : f.streamId = 0
          · rw [handleFrame_goaway hproc (by decide) (fun h => h.2 h0)] at hok
            cases hok
          · have hrefresh := (refreshRecvWindows_does hcharge none).inv hcharge
            have hreset := resetStreamError_eq hrefresh h0 .streamClosed
            rw [handleFrame_reset hproc rfl h0] at hok ⊢
            by_cases hfit : Fits ((c.charged f.payload.length).refreshRecvWindows none).2
                (rstStreamFrame f.streamId .streamClosed)
            · have hroom := refreshRecvWindows_room hcharge hfit
              have hsame : (c.charged f.payload.length).refillConn.findStream f.streamId = some pos :=
                hfind
              rw [if_pos hfit, hroom, hsame] at hreset
              have hdone : (((c.charged f.payload.length).refreshRecvWindows none).2.resetStreamError
                  f.streamId .streamClosed).2 = (((c.charged f.payload.length).refillConn).push
                    (rstStreamFrame f.streamId .streamClosed)).setStream pos (c.streams pos).close := by
                rw [hroom, hreset]
                rfl
              rw [hdone]
              exact ⟨_, .lateData pos ht hfind hst hconn⟩
            · rw [hreset, if_neg hfit] at hok
              cases hok
        · have hst' : (c.streams pos).state = .opened ∨ (c.streams pos).state = .halfClosedLocal := by
            by_contra hno
            exact hst (not_or.mp hno)
          rw [if_neg hst] at hproc
          by_cases hsr : (c.streams pos).recvWindow < f.payload.length
          · rw [if_pos hsr] at hproc
            rw [handleFrame_goaway hproc (by decide) (fun h => by cases h.1)] at hok
            cases hok
          · have hstream : (f.payload.length : Int) ≤ (c.streams pos).recvWindow := not_lt.mp hsr
            have hrecv : Inv ((c.charged f.payload.length).setStream pos (received (c.streams pos)
                f.payload.length (hasFlag f.flags flagEndStream))) :=
              (@received_acts (c.charged f.payload.length) pos _ rfl (hc.slot pos) hst'
                f.payload.length hstream (hasFlag f.flags flagEndStream) .ok).inv hcharge
            rw [if_neg hsr] at hproc
            by_cases hlast : hasFlag f.flags flagEndStream = true
                ∧ (c.streams pos).state = .halfClosedLocal
            · -- both sides have ended the stream
              have hclosed : received (c.streams pos) f.payload.length (hasFlag f.flags flagEndStream)
                  = (c.streams pos).close := by
                rw [received, if_pos hlast.1, if_pos hlast.2]
                rfl
              have hend : (c.streams pos).close.state = .closed := rfl
              rw [hclosed] at hproc hrecv
              rw [if_pos hend] at hproc
              by_cases hcode : (((c.charged f.payload.length).setStream pos
                  (c.streams pos).close).refreshRecvWindows none).1 = .ok
              · rw [refreshRecvWindows_none_ok hrecv hcode] at hproc
                rw [handleFrame_ok hproc]
                exact ⟨_, .lastData pos ht hfind hlast.1 hlast.2 hconn hstream⟩
              · exact absurd hok (handleFrame_fails hproc hcode (refreshRecvWindows_code hrecv none))
            · have hopen : (received (c.streams pos) f.payload.length
                  (hasFlag f.flags flagEndStream)).state ≠ .closed := by
                rw [received]
                split_ifs with hend hhcl
                · exact absurd ⟨hend, hhcl⟩ hlast
                · simp
                · rcases hst' with h | h <;> simp [h]
              rw [if_neg hopen] at hproc
              by_cases hcode : (((c.charged f.payload.length).setStream pos (received (c.streams pos)
                  f.payload.length (hasFlag f.flags flagEndStream))).refreshRecvWindows
                    (some pos)).1 = .ok
              · rw [refreshRecvWindows_some_ok hrecv hcode] at hproc
                rw [handleFrame_ok hproc]
                exact ⟨_, .data pos ht hfind hst' hconn hstream hlast⟩
              · exact absurd hok
                  (handleFrame_fails hproc hcode (refreshRecvWindows_code hrecv (some pos)))

/-! ## The other frames -/

/-- A part of a header block that is accepted. -/
theorem accepts_part (hc : Inv c) (hblock : c.blockOf f = none)
    (hparts : f.type = FrameType.headers.toByte ∨ f.type = FrameType.continuation.toByte)
    (hok : (c.handleFrame f).1 = .ok) : Accepts c f [] (c.handleFrame f).2 := by
  rcases hparts with ht | ht
  · -- the first part
    obtain ⟨-, hres, heq⟩ := handleFrame_of_ok ht hok (part_code hc hblock ht (by decide))
    rw [heq]
    rw [handler, processHeaders] at hres ⊢
    rcases hparse : parseHeaders f.header f.payload with ret | parsed
    · rw [hparse] at hres
      rcases parseHeaders_error hparse with rfl | rfl <;> cases hres
    · simp only [hparse] at hres ⊢
      have hpart : hasFlag f.header.flags flagEndHeaders = false := by
        simpa using headers_part hblock ht hparse
      by_cases hopen : c.headerBlockOpen = true
      · rw [if_pos hpart, if_pos hopen] at hres
        cases hres
      · simp only [if_pos hpart, if_neg hopen, appendHeaderBlock] at hres ⊢
        split_ifs at hres ⊢
        exact .beginBlock _ ht hblock
  · -- a later part
    obtain ⟨-, hres, heq⟩ := handleFrame_of_ok ht hok (part_code hc hblock ht (by decide))
    rw [heq]
    rw [handler, processContinuation] at hres ⊢
    by_cases hbad : c.headerBlockOpen = false ∨ f.header.streamId ≠ c.headerBlockStreamId
    · rw [if_pos hbad] at hres
      cases hres
    · rw [if_neg hbad] at hres ⊢
      rcases hparse : parseContinuation f.header f.payload with ret | fragment
      · rw [hparse] at hres
        rcases parseContinuation_error hparse with rfl | rfl <;> cases hres
      · simp only [hparse, appendHeaderBlock] at hres ⊢
        by_cases hbig : fragment.length > headerBlockCap - c.headerBlock.length
        · rw [if_pos hbig, andThen_err (by decide)] at hres
          cases hres
        · have hpart : hasFlag f.header.flags flagEndHeaders = false := by
            obtain ⟨hopen, hid⟩ := not_or.mp hbad
            by_contra hend
            exact continuation_part hblock ht hparse
              ⟨by simpa using hopen, not_not.mp hid, not_lt.mp hbig, by simpa using hend⟩
          rw [if_neg hbig, andThen_ok, if_pos hpart]
          exact .extendBlock _ ht hblock

/-- RST_STREAM. -/
theorem accepts_reset (hc : Inv c) (ht : f.type = FrameType.rstStream.toByte)
    (hblock : c.blockOf f = none) (hack : f.ack = none) (hok : (c.handleFrame f).1 = .ok) :
    Accepts c f [] (c.handleFrame f).2 := by
  obtain ⟨-, hres, heq⟩ := handleFrame_of_ok ht hok (part_code hc hblock ht (by decide))
  have hdata : f.type ≠ FrameType.data.toByte := by
    rw [ht]
    decide
  rw [heq]
  rw [handler, processRstStream] at hres ⊢
  rcases hparse : parseRstStream f.header f.payload with ret | code
  · rw [hparse] at hres
    rcases parseRstStream_error hparse with rfl | rfl <;> cases hres
  · simp only [hparse] at hres ⊢
    rcases hfind : c.findStream f.header.streamId with _ | pos
    · simp only [hfind] at hres ⊢
      by_cases heven : f.header.streamId &&& 1 = 0
      · rw [if_pos heven] at hres
        cases hres
      · rw [if_neg heven] at hres ⊢
        by_cases hnew : f.header.streamId > c.lastStreamId
        · rw [if_pos hnew] at hres
          cases hres
        · rw [if_neg hnew]
          exact .ignore hack hdata hblock
    · exact .reset pos ht hfind

theorem accepts_settings (hc : Inv c) (ht : f.type = FrameType.settings.toByte)
    (hblock : c.blockOf f = none) (hok : (c.handleFrame f).1 = .ok) :
    ∃ fs, Accepts c f fs (c.handleFrame f).2 := by
  obtain ⟨-, hres, heq⟩ := handleFrame_of_ok ht hok (part_code hc hblock ht (by decide))
  rw [heq]
  obtain ⟨settings, hparse, ⟨hack, -, hsame⟩ | ⟨hack, hall, hafter⟩⟩ := applySettings_of_ok hc hres
  · have hno : f.ack = none := if_pos hack
    have hdata : f.type ≠ FrameType.data.toByte := by
      rw [ht]
      decide
    rw [handler, hsame]
    exact ⟨_, .ignore hno hdata hblock⟩
  · have hyes : f.ack = some settingsAckFrame := by
      have hack' : hasFlag f.flags flagAck = false := hack
      rw [Frame.ack, hack', ht, FrameType.ofByte?_toByte]
      rfl
    rw [handler, hafter]
    exact ⟨_, .settings settings hparse hyes hall⟩

theorem accepts_ping (hc : Inv c) (ht : f.type = FrameType.ping.toByte)
    (hblock : c.blockOf f = none) (hok : (c.handleFrame f).1 = .ok) :
    ∃ fs, Accepts c f fs (c.handleFrame f).2 := by
  obtain ⟨-, hres, heq⟩ := handleFrame_of_ok ht hok (part_code hc hblock ht (by decide))
  rw [heq]
  rw [handler, processPing] at hres ⊢
  rcases hparse : parsePing f.header f.payload with ret | opaqueData
  · rw [hparse] at hres
    rcases parsePing_error hparse with rfl | rfl <;> cases hres
  · obtain ⟨-, hlen, rfl⟩ := parsePing_payload ht hparse
    simp only [hparse] at hres ⊢
    by_cases hack : hasFlag f.flags flagAck = true
    · have hno : f.ack = none := if_pos hack
      have hdata : f.type ≠ FrameType.data.toByte := by
        rw [ht]
        decide
      simp only [if_pos (show hasFlag f.header.flags flagAck = true from hack)]
      exact ⟨_, .ignore hno hdata hblock⟩
    · have hyes : f.ack = some (pingAckFrame f.payload) := by
        rw [Frame.ack, if_neg hack, ht, FrameType.ofByte?_toByte]
      simp only [if_neg (show ¬ hasFlag f.header.flags flagAck = true from hack)] at hres ⊢
      rw [encodePing_eq (by omega), queueWire_wire hc] at hres ⊢
      by_cases hfit : c.Fits (pingAckFrame f.payload)
      · rw [if_pos hfit]
        exact ⟨_, .ping hyes⟩
      · rw [if_neg hfit] at hres
        cases hres

theorem accepts_windowUpdate (hc : Inv c) (ht : f.type = FrameType.windowUpdate.toByte)
    (hblock : c.blockOf f = none) (hack : f.ack = none) (hok : (c.handleFrame f).1 = .ok) :
    ∃ fs, Accepts c f fs (c.handleFrame f).2 := by
  obtain ⟨-, hres, heq⟩ := handleFrame_of_ok ht hok (part_code hc hblock ht (by decide))
  have hdata : f.type ≠ FrameType.data.toByte := by
    rw [ht]
    decide
  rw [heq]
  rw [handler] at hres ⊢
  rcases hparse : parseWindowUpdate f.header f.payload with ret | increment
  · rw [processWindowUpdate, hparse] at hres
    rcases parseWindowUpdate_error hparse with rfl | rfl <;> cases hres
  · rw [processWindowUpdate_eq c hparse] at hres ⊢
    by_cases h0 : f.header.streamId = 0
    · rw [if_pos h0] at hres ⊢
      by_cases hmax : c.connSendWindow + increment > int32Max
      · rw [if_pos hmax] at hres
        cases hres
      · have hcredit := (Act.creditConn c increment (not_lt.mp hmax)).inv hc
        obtain ⟨fs, hans⟩ := flushDeferredResponses_answers hcredit
        rw [if_neg hmax]
        exact ⟨fs, .creditConn increment fs _ ht (not_lt.mp hmax) hans⟩
    · rw [if_neg h0] at hres ⊢
      rcases hfind : c.findStream f.header.streamId with _ | pos
      · -- no slot with this id: the credit is dropped without an error
        exact ⟨_, .ignore hack hdata hblock⟩
      · simp only [hfind] at hres ⊢
        by_cases hmax : (c.streams pos).sendWindow + increment > int32Max
        · rw [if_pos hmax] at hres
          cases hres
        · have hid := findStream_eq_some hfind
          have hcredit := (Act.creditStream c pos increment (by rw [hid]; exact h0)
            (not_lt.mp hmax)).inv hc
          obtain ⟨fs, hans⟩ := flushDeferredResponses_answers hcredit
          rw [if_neg hmax]
          exact ⟨fs, .creditStream pos increment fs _ ht hfind h0 (not_lt.mp hmax) hans⟩

/-- **Every frame that is accepted is one of the cases.** -/
theorem handleFrame_accepts (hc : Inv c) (hok : (c.handleFrame f).1 = .ok) :
    Accepts c f (c.frameStep f).queued (c.handleFrame f).2 := by
  obtain ⟨fs, h⟩ : ∃ fs, Accepts c f fs (c.handleFrame f).2 := by
    by_cases hadmits : c.Admits f
    · rcases hblock : c.blockOf f with _ | ⟨flags, block⟩
      · rcases htype : FrameType.ofByte? f.type with _ | t
        · -- frames of unknown types
          have hno : ∀ t, f.type ≠ FrameType.toByte t := by
            intro t ht
            rw [ht, FrameType.ofByte?_toByte] at htype
            cases htype
          rw [handleFrame_ok (processFrame_unknown hadmits htype)]
          exact ⟨_, .ignore (Frame.ack_eq_none fun t ht => absurd ht (hno t)) (hno _) hblock⟩
        · have ht := FrameType.ofByte?_eq_some htype
          have hack : t ≠ .ping → t ≠ .settings → f.ack = none := by
            intro hping hsettings
            refine Frame.ack_eq_none fun t' ht' => ?_
            rw [ht', FrameType.ofByte?_toByte] at htype
            obtain rfl := Option.some.inj htype
            exact ⟨hping, hsettings⟩
          -- the frame reaches its handler
          cases t with
          | data => exact accepts_data hc hadmits ht hok
          | headers => exact ⟨_, accepts_part hc hblock (Or.inl ht) hok⟩
          | continuation => exact ⟨_, accepts_part hc hblock (Or.inr ht) hok⟩
          | rstStream => exact ⟨_, accepts_reset hc ht hblock (hack (by decide) (by decide)) hok⟩
          | settings => exact accepts_settings hc ht hblock hok
          | ping => exact accepts_ping hc ht hblock hok
          | windowUpdate =>
              exact accepts_windowUpdate hc ht hblock (hack (by decide) (by decide)) hok
          | priority =>
              obtain ⟨-, hres, heq⟩ := handleFrame_of_ok ht hok (part_code hc hblock ht (by decide))
              rw [heq]
              rw [handler] at hres ⊢
              rcases hparse : parsePriority f.header f.payload with ret | priority
              · rw [hparse] at hres
                rcases parsePriority_error hparse with rfl | rfl <;> cases hres
              · exact ⟨_, .ignore (hack (by decide) (by decide)) (by rw [ht]; decide) hblock⟩
          | goaway =>
              obtain ⟨-, -, heq⟩ := handleFrame_of_ok ht hok (part_code hc hblock ht (by decide))
              rw [heq]
              exact ⟨_, .ignore (hack (by decide) (by decide)) (by rw [ht]; decide) hblock⟩
          | pushPromise =>
              obtain ⟨-, hres, -⟩ := handleFrame_of_ok ht hok (part_code hc hblock ht (by decide))
              cases hres
      · exact accepts_block hc hadmits hblock hok
    · -- too long, or in the middle of a header block: a connection error
      obtain ⟨ret, hret, heq⟩ := processFrame_rejected hadmits
      rcases hret with rfl | rfl
      · exact absurd hok (handleFrame_fails heq (by simp) rfl)
      · exact absurd hok (handleFrame_fails heq (by simp) rfl)
  have hqueued : (c.frameStep f).queued = fs := framesOf_drop h.output
  rw [hqueued]
  exact h

end Connection

/-! ## Runs -/

/-- **The induction rule for accepted frames**: what every accepted frame keeps holds as long as no
frame fails, and so in the state before every frame that no failing one precedes. -/
theorem exec_accepted {R : List FrameStep → Connection → Prop}
    (hsens : ∀ steps, Insensitive fun _ => R steps) (h0 : R [] Connection.init)
    (hstep : ∀ {steps c f}, Inv c → R steps c → (c.handleFrame f).1 = .ok →
      R (steps ++ [c.frameStep f]) (c.handleFrame f).2) (ops : List Op) :
    ((∀ st ∈ (exec ops).steps, st.code = .ok) → R (exec ops).steps (exec ops).conn)
    ∧ ∀ before st after, (exec ops).steps = before ++ st :: after →
        (∀ st' ∈ before, st'.code = .ok) → R before st.before := by
  refine exec_invariant (P := fun o => ((∀ st ∈ o.steps, st.code = .ok) → R o.steps o.conn)
    ∧ ∀ before st after, o.steps = before ++ st :: after → (∀ st' ∈ before, st'.code = .ok) →
      R before st.before) ⟨fun _ => h0, by simp [Run.start]⟩ ?_ ops
  rintro o es o' hg hs ⟨hall, hsplit⟩
  have hkeep : ∀ {steps} {c : Connection}, R steps c →
      ∀ (prefaceSeen settingsSent goawaySent : Bool) (goawayError : Nat) (input output : List UInt8),
      R steps { c with
        prefaceSeen := prefaceSeen
        settingsSent := settingsSent
        goawaySent := goawaySent
        goawayError := goawayError
        input := input
        output := output } := fun {steps} _ h => @hsens steps [] _ h
  -- one more frame, accepted or not
  have hsnoc : ∀ f before st after, o.steps ++ [o.conn.frameStep f] = before ++ st :: after →
      (∀ st' ∈ before, st'.code = .ok) → R before st.before := by
    intro f before st after heq hbefore
    rcases snoc_eq_append_cons heq with ⟨rfl, rfl, rfl⟩ | ⟨after', rfl, hsteps⟩
    · exact hall hbefore
    · exact hsplit before st after' hsteps hbefore
  cases hs with
  | consume sentLen => exact ⟨fun hok => hkeep (hall hok) _ _ _ _ _ _, hsplit⟩
  | arrive data hfit => exact ⟨fun hok => hkeep (hall hok) _ _ _ _ _ _, hsplit⟩
  | refuse data hbig => exact ⟨hall, hsplit⟩
  | preface hnew hlen hpre => exact ⟨fun hok => hkeep (hall hok) _ _ _ _ _ _, hsplit⟩
  | badPreface hnew hlen hpre =>
      obtain ⟨fs, -, gs, ge, hgo⟩ := queueGoaway_cases hg.inv .protocolError
      refine ⟨fun hok => ?_, hsplit⟩
      simp only [hgo]
      exact hkeep (hall hok) _ _ _ _ _ _
  | frame f rest hseen hcut hok =>
      refine ⟨fun hoks => ?_, hsnoc f⟩
      have hold := hall fun st hst => hoks st (List.mem_append_left _ hst)
      exact hkeep (hstep hg.inv hold hok) _ _ _ _ _ _
  | fail f rest hseen hcut herr =>
      refine ⟨fun hoks => absurd ?_ herr, hsnoc f⟩
      exact hoks (o.conn.frameStep f) (List.mem_append_right _ (List.mem_singleton.mpr rfl))

/-- In a run without errors every frame is accepted. -/
theorem exec_steps_ok {ops : List Op} (hok : (exec ops).AllOk) :
    ∀ st ∈ (exec ops).steps, st.code = .ok := by
  intro st hst
  by_contra herr
  exact herr (hok _ (exec_codes ops st hst herr))

end C11Omo.Http2
