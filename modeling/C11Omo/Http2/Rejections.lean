import C11Omo.Http2.Goaway
import C11Omo.Http2.ReceiveWindows

set_option autoImplicit false

/-! # Frames that fail

`h2_connection_feed` leaves a frame that fails at the front of the input, so the next call handles
it once more, in the state that the failure has left behind. Most frames are rejected there again,
and nothing is changed (`Rejects`): what makes them fail is checked before they have any effect, or
their effect makes them fail for good. A frame is not rejected again if its effect is complete but
for a reply that the output has no room for, or if it is a SETTINGS frame that has moved some send
windows before it fails on another (`Conclusive`, `handleFrame_rejects`).
-/

namespace C11Omo.Http2

open C11Omo.Lib

/-- The fields of a connection that `feed` and `consume_output` move by themselves. -/
structure Pipes where
  input : List UInt8
  output : List UInt8
  outputSent : Nat
  goawaySent : Bool
  goawayError : Nat

/-- A code that ends `feed`. -/
def ErrorCode.Fatal (ret : ErrorCode) : Prop := ret ≠ .ok ∧ Connection.isStreamError ret = false

instance (ret : ErrorCode) : Decidable ret.Fatal := inferInstanceAs (Decidable (_ ∧ _))

namespace Connection

variable {c c' : Connection} {f : Frame} {pos : Fin connMaxStreams}

def withPipes (c : Connection) (p : Pipes) : Connection :=
  { c with
    input := p.input
    output := p.output
    outputSent := p.outputSent
    goawaySent := p.goawaySent
    goawayError := p.goawayError }

@[simp] theorem withPipes_streams (c : Connection) (p : Pipes) :
    (c.withPipes p).streams = c.streams := rfl

/-- The frame is rejected without any effect, whatever has been read and written meanwhile. -/
def Rejects (c : Connection) (f : Frame) : Prop :=
  ∀ p, Inv (c.withPipes p) → ∃ ret : ErrorCode, ret.Fatal
    ∧ (c.withPipes p).processFrame f.header f.payload = (ret, c.withPipes p)

theorem Rejects.withPipes (h : c.Rejects f) (p : Pipes) : (c.withPipes p).Rejects f := h

theorem queueGoaway_pipes (hc : Inv c) (errorCode : ErrorCode) :
    ∃ p, (c.queueGoaway errorCode).2 = c.withPipes p := by
  obtain ⟨fs, -, goawaySent, goawayError, heq⟩ := queueGoaway_cases hc errorCode
  exact ⟨⟨c.input, c.output ++ wireOf fs, c.outputSent, goawaySent, goawayError⟩, heq⟩

theorem rejects_of_not_admits (h : ¬ c.Admits f) : c.Rejects f := by
  intro p _
  have hno : ¬ (c.withPipes p).Admits f := h
  obtain ⟨ret, hret, heq⟩ := processFrame_rejected hno
  rcases hret with rfl | rfl
  · exact ⟨_, by decide, heq⟩
  · exact ⟨_, by decide, heq⟩

/-- It is enough that the handler rejects the frame. -/
theorem rejects_of_handler {t : FrameType} (ht : f.type = t.toByte)
    (h : ∀ p, Inv (c.withPipes p) → ∃ ret : ErrorCode, ret.Fatal
      ∧ (c.withPipes p).handler t f = (ret, c.withPipes p)) : c.Rejects f := by
  by_cases hadmits : c.Admits f
  · intro p hp
    obtain ⟨ret, hfatal, heq⟩ := h p hp
    have hadmits' : (c.withPipes p).Admits f := hadmits
    exact ⟨ret, hfatal, (processFrame_handler hadmits' ht).trans heq⟩
  · exact rejects_of_not_admits hadmits

/-- What the handler of a failing frame leaves behind rejects the frame: so does what `feed` leaves
behind. -/
theorem Rejects.after {ret : ErrorCode} (h : c'.Rejects f) (hc : Inv c)
    (hproc : c.processFrame f.header f.payload = (ret, c')) (herr : (c.handleFrame f).1 ≠ .ok) :
    (c.handleFrame f).2.Rejects f := by
  obtain ⟨es, hes, -⟩ := processFrame_acts hc f
  rw [hproc] at hes
  have hc' := hes.inv hc
  by_cases hok : ret = .ok
  · subst hok
    rw [handleFrame_ok hproc] at herr
    exact absurd rfl herr
  · by_cases hreset : isStreamError ret = true ∧ f.streamId ≠ 0
    · rw [handleFrame_reset hproc hreset.1 hreset.2] at herr ⊢
      rcases resetStreamError_code hc' hreset.2 ret with hcode | hcode
      · exact absurd hcode herr
      · rw [hcode]
        exact h
    · rw [handleFrame_goaway hproc hok hreset]
      obtain ⟨p, hp⟩ := queueGoaway_pipes hc' ret
      rw [hp]
      exact h.withPipes p

theorem Rejects.handleFrame (h : c.Rejects f) (hc : Inv c) :
    ∃ ret : ErrorCode, ret ≠ .ok ∧ c.handleFrame f = (ret, (c.queueGoaway ret).2) := by
  obtain ⟨ret, hfatal, hproc⟩ := h ⟨c.input, c.output, c.outputSent, c.goawaySent, c.goawayError⟩ hc
  exact ⟨ret, hfatal.1, handleFrame_goaway hproc hfatal.1 (by simp [hfatal.2])⟩

/-- A frame that is rejected stays so. -/
theorem Rejects.again (h : c.Rejects f) (hc : Inv c) : (c.handleFrame f).2.Rejects f := by
  obtain ⟨ret, -, heq⟩ := h.handleFrame hc
  obtain ⟨p, hp⟩ := queueGoaway_pipes hc ret
  rw [heq, hp]
  exact h.withPipes p

/-- What a parser says about a payload that it does not take. -/
theorem fatal_of {ret : ErrorCode} (h : ret = .protocolError ∨ ret = .frameSizeError) :
    ret.Fatal := by
  rcases h with rfl | rfl
  · decide
  · decide

/-! ## The replies to a frame -/

/-- The bytes of the WINDOW_UPDATE frame that refills a receive window, if it is low. -/
def refillBytes (w : Int) : Nat := if w ≤ 32767 then frameHeaderLen + 4 else 0

/-- The replies to a DATA frame on the stream at `pos`: refills, and RST_STREAM if the stream does
not take any more data. -/
def dataReplyBytes (c : Connection) (f : Frame) (pos : Fin connMaxStreams) : Nat :=
  let stream := c.streams pos
  if c.connRecvWindow < f.payload.length then 0
  else if stream.state ≠ .opened ∧ stream.state ≠ .halfClosedLocal then
    refillBytes (c.connRecvWindow - f.payload.length) + (frameHeaderLen + 4)
  else if stream.recvWindow < f.payload.length then 0
  else if hasFlag f.flags flagEndStream ∧ stream.state = .halfClosedLocal then
    refillBytes (c.connRecvWindow - f.payload.length)
  else
    refillBytes (c.connRecvWindow - f.payload.length)
      + refillBytes (stream.recvWindow - f.payload.length)

/-- The DATA frames of the deferred responses that are sent, from the given slots on, when the
connection window is `window`. -/
def deferredBytes (c : Connection) : List (Fin connMaxStreams) → (window : Int) → Nat
  | [], _ => 0
  | pos :: rest, window =>
      let stream := c.streams pos
      let len := (responseBody stream.path).length
      if (live stream ∧ stream.responseBodyDeferred) ∧ (len : Int) ≤ window
          ∧ (len : Int) ≤ stream.sendWindow then
        frameHeaderLen + len + c.deferredBytes rest (window - len)
      else c.deferredBytes rest window

/-- The bytes that the server queues in reply to a frame, if nothing else is wrong with the frame.
The response to a request does not count: its stream id is used up before it is queued. -/
def replyBytes (c : Connection) (f : Frame) : Nat :=
  match FrameType.ofByte? f.type with
  | some .data =>
      match parseData f.header f.payload, c.findStream f.streamId with
      | .ok _, some pos => c.dataReplyBytes f pos
      | _, _ => 0
  | some .headers =>
      if (c.blockOf f).isSome ∧ (f.streamId % 2 = 1 ∧ c.lastStreamId < f.streamId)
          ∧ c.freeSlot = none then
        frameHeaderLen + 4
      else 0
  | some .settings =>
      match parseSettings f.header f.payload 32 with
      | .error _ => 0
      | .ok settings =>
          if hasFlag f.flags flagAck = false ∧ ∀ s ∈ settings, c.SettingOk s then frameHeaderLen
          else 0
  | some .ping =>
      match parsePing f.header f.payload with
      | .error _ => 0
      | .ok _ => if hasFlag f.flags flagAck then 0 else frameHeaderLen + 8
  | some .windowUpdate =>
      match parseWindowUpdate f.header f.payload with
      | .error _ => 0
      | .ok increment =>
          if f.streamId = 0 then
            if c.connSendWindow + increment > int32Max then 0
            else c.deferredBytes (List.finRange connMaxStreams) (c.connSendWindow + increment)
          else
            match c.findStream f.streamId with
            | none => 0
            | some pos =>
                if (c.streams pos).sendWindow + increment > int32Max then 0
                else
                  (c.setStream pos ((c.streams pos).shift increment)).deferredBytes
                    (List.finRange connMaxStreams) c.connSendWindow
  | _ => 0

/-- A new initial window size that the first live slot takes. -/
def ShiftsFirst (c : Connection) (setting : Setting) : Prop :=
  setting.id = settingsInitialWindowSize ∧ (setting.value : Int) ≤ int32Max ∧
    match (List.finRange connMaxStreams).find? fun i => live (c.streams i) with
    | none => False
    | some pos => InRange ((c.streams pos).sendWindow + (setting.value - c.initialStreamWindow))

/-- A SETTINGS frame that fails after it has moved a send window. -/
def Tears (c : Connection) (f : Frame) : Prop :=
  f.type = FrameType.settings.toByte ∧
    match parseSettings f.header f.payload 32 with
    | .error _ => False
    | .ok settings =>
        match settings.find? fun s => ¬ c.SettingOk s with
        | none => False
        | some s => c.ShiftsFirst s

/-- **A frame that is dealt with even if it fails**: if it is admitted, the output has room for the
replies, and it moves no send window before it fails. -/
def Conclusive (c : Connection) (f : Frame) : Prop :=
  c.Admits f → c.output.length + c.replyBytes f ≤ connOutputCap ∧ ¬ c.Tears f

/-! ## DATA -/

/-- The refill of the connection window finds room for its frame. -/
theorem refreshConnRecvWindow_room (hc : Inv c)
    (hroom : c.output.length + refillBytes c.connRecvWindow ≤ connOutputCap) :
    c.refreshConnRecvWindow = (.ok, c.refillConn) := by
  apply refreshConnRecvWindow_ok hc
  rw [refreshConnRecvWindow_eq hc]
  split_ifs with hlow hfit
  · rfl
  · rw [Fits, windowUpdateFrame_wire_length] at hfit
    rw [refillBytes, if_pos hlow, frameHeaderLen] at hroom
    exact absurd hroom hfit
  · rfl

theorem refillConn_length (c : Connection) :
    c.refillConn.output.length = c.output.length + refillBytes c.connRecvWindow := by
  have hframes : (wireOf (refillFrames 0 c.connRecvWindow)).length
      = refillBytes c.connRecvWindow := by
    unfold refillFrames refillBytes
    split_ifs
    · rw [wireOf_singleton, windowUpdateFrame_wire_length]
      rfl
    · rfl
  rw [refillConn, List.length_append, hframes]

/-- The refill of a stream window finds room for its frame. -/
theorem refreshStreamRecvWindow_room (hc : Inv c)
    (hroom : c.output.length + refillBytes (c.streams pos).recvWindow ≤ connOutputCap) :
    (c.refreshStreamRecvWindow pos).1 = .ok := by
  rw [refreshStreamRecvWindow_eq hc]
  split_ifs with hlow hfit
  · rfl
  · rw [Fits, windowUpdateFrame_wire_length] at hfit
    rw [refillBytes, if_pos hlow, frameHeaderLen] at hroom
    exact absurd hroom hfit
  · rfl

theorem refreshRecvWindows_none_room (hc : Inv c)
    (hroom : c.output.length + refillBytes c.connRecvWindow ≤ connOutputCap) :
    c.refreshRecvWindows none = (.ok, c.refillConn) := by
  rw [refreshRecvWindows, refreshConnRecvWindow_room hc hroom, andThen_ok]

theorem refreshRecvWindows_some_room (hc : Inv c)
    (hroom : c.output.length + refillBytes c.connRecvWindow
      + refillBytes (c.streams pos).recvWindow ≤ connOutputCap) :
    (c.refreshRecvWindows (some pos)).1 = .ok := by
  have hfirst := refreshConnRecvWindow_room hc (by omega)
  have hinv := (refreshConnRecvWindow_does hc).inv hc
  rw [hfirst] at hinv
  rw [refreshRecvWindows, hfirst, andThen_ok]
  apply refreshStreamRecvWindow_room hinv
  rw [refillConn_length]
  exact hroom

/-- DATA that the connection window does not cover is rejected. -/
theorem rejects_beyond_window (ht : f.type = FrameType.data.toByte) {parsed : DataPayload}
    (hparse : parseData f.header f.payload = .ok parsed) (hfind : c.findStream f.streamId = some pos)
    (hlow : c.connRecvWindow < f.payload.length) : c.Rejects f := by
  refine rejects_of_handler ht fun p hp => ⟨.flowControlError, by decide, ?_⟩
  have hfind' : (c.withPipes p).findStream f.header.streamId = some pos := hfind
  have hlow' : (c.withPipes p).connRecvWindow < f.header.length := hlow
  rw [handler, processData_eq hp hparse hfind', if_pos hlow']

/-- **The refills after a DATA frame that is accepted** find room for their frames. -/
theorem received_room {s : Stream} {len : Nat} {endStream : Bool}
    (hinv : Inv ((c.charged len).setStream pos (received s len endStream))) (hopen : s.Receives)
    (hroom : c.output.length + (if endStream = true ∧ s.state = .halfClosedLocal then
        refillBytes (c.connRecvWindow - len)
      else refillBytes (c.connRecvWindow - len) + refillBytes (s.recvWindow - len))
        ≤ connOutputCap) :
    (((c.charged len).setStream pos (received s len endStream)).refreshRecvWindows
      (if (received s len endStream).state = .closed then none else some pos)).1 = .ok := by
  by_cases hlast : endStream = true ∧ s.state = .halfClosedLocal
  · -- the stream is closed, and only the connection window is refilled
    have hclosed : (received s len endStream).state = .closed := by
      rw [received, if_pos hlast.1, if_pos hlast.2]
      rfl
    rw [if_pos hlast] at hroom
    rw [if_pos hclosed, refreshRecvWindows_none_room hinv hroom]
  · have hstill : (received s len endStream).state ≠ .closed
        ∧ (received s len endStream).recvWindow = s.recvWindow - len := by
      unfold received
      split_ifs with hend hhcl
      · exact absurd ⟨hend, hhcl⟩ hlast
      · exact ⟨by simp, rfl⟩
      · refine ⟨?_, rfl⟩
        rcases hopen with h | h <;> simp [h]
    rw [if_neg hlast] at hroom
    rw [if_neg hstill.1]
    apply refreshRecvWindows_some_room hinv
    rw [setStream_streams_self, hstill.2, Nat.add_assoc]
    exact hroom

/-- **DATA that fails** is rejected from then on. If it is beyond the window of its stream it has
been charged to the connection, and what is left of that window does not cover it again. -/
theorem data_rejected (hc : Inv c) (hadmits : c.Admits f) (ht : f.type = FrameType.data.toByte)
    (hrecv : ∀ i, (c.streams i).Receives → 32768 ≤ (c.streams i).recvWindow)
    (hroom : c.output.length + c.replyBytes f ≤ connOutputCap) (herr : (c.handleFrame f).1 ≠ .ok) :
    (c.handleFrame f).2.Rejects f := by
  have hproc := processFrame_handler hadmits ht
  rw [replyBytes, ht, FrameType.ofByte?_toByte] at hroom
  rcases hparse : parseData f.header f.payload with ret | parsed
  · -- the payload is malformed, whatever the state
    have hrej : c.Rejects f := rejects_of_handler ht fun p _ =>
      ⟨ret, fatal_of (parseData_error hparse), by rw [handler, processData, hparse]⟩
    exact hrej.again hc
  · rcases hfind : c.findStream f.streamId with _ | pos
    · -- no slot
      have hrej : c.Rejects f := by
        refine rejects_of_handler ht fun p _ => ⟨.protocolError, by decide, ?_⟩
        have hfind' : (c.withPipes p).findStream f.header.streamId = none := hfind
        rw [handler, processData, hparse]
        simp only [hfind']
      exact hrej.again hc
    · have hdata := processFrame_data hc hadmits ht hparse hfind
      have hw := hc.conn_recv
      simp only [hparse, hfind, dataReplyBytes] at hroom
      by_cases hlow : c.connRecvWindow < f.payload.length
      · -- beyond the window of the connection
        exact (rejects_beyond_window ht hparse hfind hlow).again hc
      · have hcharge := charged_inv hc (not_lt.mp hlow)
        rw [if_neg hlow] at hdata hroom
        by_cases hst : (c.streams pos).state ≠ .opened ∧ (c.streams pos).state ≠ .halfClosedLocal
        · -- a stream error, and there is room for RST_STREAM
          rw [if_pos hst] at hdata hroom
          have h0 := parseData_streamId ht hparse
          have hfull : (c.charged f.payload.length).refillConn.output.length + 13
              ≤ connOutputCap := by
            rw [refillConn_length]
            simpa [charged, frameHeaderLen, Nat.add_assoc] using hroom
          have hrefresh := refreshRecvWindows_none_room hcharge (by
            rw [refillConn_length] at hfull
            omega)
          have hinv := (refreshRecvWindows_does hcharge none).inv hcharge
          rw [hrefresh] at hdata hinv
          rw [handleFrame_reset hdata rfl h0, resetStreamError_eq hinv h0, if_pos] at herr
          · exfalso
            rcases hfind' : (c.charged f.payload.length).refillConn.findStream f.streamId
              with _ | i <;> simp [hfind'] at herr
          · rw [Fits, rstStreamFrame_wire_length]
            exact hfull
        · rw [if_neg hst] at hdata hroom
          have hopen : (c.streams pos).Receives := by
            by_contra hno
            exact hst (not_or.mp hno)
          by_cases hsr : (c.streams pos).recvWindow < f.payload.length
          · -- the stream window is at least half full, so what is left of the other is less
            rw [if_pos hsr] at hdata
            have hhalf := hrecv pos hopen
            have hless : (c.charged f.payload.length).connRecvWindow < f.payload.length := by
              show c.connRecvWindow - f.payload.length < f.payload.length
              omega
            have hfind' : (c.charged f.payload.length).findStream f.streamId = some pos := hfind
            exact (rejects_beyond_window ht hparse hfind' hless).after hc hdata herr
          · -- the frame is accepted
            rw [if_neg hsr] at hdata hroom
            have hinv : Inv ((c.charged f.payload.length).setStream pos (received (c.streams pos)
                f.payload.length (hasFlag f.flags flagEndStream))) :=
              (@received_acts (c.charged f.payload.length) pos _ rfl (hc.slot pos) hopen
                f.payload.length (not_lt.mp hsr) (hasFlag f.flags flagEndStream) .ok).inv hcharge
            have hok : (c.processFrame f.header f.payload).1 = .ok := by
              rw [hdata]
              exact received_room hinv hopen hroom
            rw [handleFrame_ok (Prod.ext hok rfl)] at herr
            exact absurd rfl herr

/-! ## Header blocks -/

/-- A complete header block for an even id, or for one that is used up, is rejected. -/
theorem rejects_old (ht : f.type = FrameType.headers.toByte)
    (hend : hasFlag f.flags flagEndHeaders = true)
    (hold : f.streamId % 2 = 0 ∨ f.streamId ≤ c.lastStreamId) : c.Rejects f := by
  refine rejects_of_handler ht fun p _ => ?_
  rcases hparse : parseHeaders f.header f.payload with ret | parsed
  · exact ⟨ret, fatal_of (parseHeaders_error hparse), by rw [handler, processHeaders, hparse]⟩
  · have hwhole : ¬ hasFlag f.header.flags flagEndHeaders = false := by
      rw [Frame.header_flags, hend]
      decide
    have hold' : f.header.streamId % 2 = 0 ∨ f.header.streamId ≤ (c.withPipes p).lastStreamId := hold
    refine ⟨.protocolError, by decide, ?_⟩
    rw [handler, processHeaders, hparse]
    simp only [if_neg hwhole]
    exact finishHeaders_reject hold' _ _

/-- CONTINUATION outside of a header block is rejected. -/
theorem rejects_stray (ht : f.type = FrameType.continuation.toByte)
    (hclosed : c.headerBlockOpen = false) : c.Rejects f := by
  refine rejects_of_handler ht fun p _ => ⟨.protocolError, by decide, ?_⟩
  have hstray : (c.withPipes p).headerBlockOpen = false
      ∨ f.header.streamId ≠ (c.withPipes p).headerBlockStreamId := Or.inl hclosed
  rw [handler, processContinuation, if_pos hstray]

/-- Every other frame is rejected inside of a header block. -/
theorem rejects_inside (ht : f.type ≠ FrameType.continuation.toByte)
    (hopen : c.headerBlockOpen = true) : c.Rejects f :=
  rejects_of_not_admits fun hadmits => hadmits.2 ⟨hopen, Or.inl ht⟩

/-- A header block for a new id uses the id up, also if it fails, and opens no header block. -/
theorem finishHeaders_uses (hc : Inv c) (hfree : c.freeSlot = some pos) {streamId : Nat}
    (hodd : streamId % 2 = 1) (hlast : c.lastStreamId < streamId) (hlt : streamId < 2 ^ 31)
    (flags : UInt8) (block : List UInt8) :
    (c.finishHeaders streamId flags block).2.lastStreamId = streamId
      ∧ (c.finishHeaders streamId flags block).2.headerBlockOpen = c.headerBlockOpen := by
  rw [finishHeaders_eq hc hodd hlast, hfree]
  simp only
  by_cases hpath : (extractPath block streamPathCap).1 = .ok
  · obtain ⟨fs, hfs⟩ := opened_queueResponse_answers hc hfree hodd hlast hlt
      (extractPath_pathText block) (extractPath_ne_nil (Prod.ext hpath rfl))
      (hasFlag flags flagEndStream)
    rw [if_pos hpath]
    exact ⟨hfs.last, hfs.block.1⟩
  · rw [if_neg hpath]
    exact ⟨rfl, rfl⟩

/-- A frame that completes a header block. -/
theorem blockOf_parts {flags : UInt8} {block : List UInt8} (h : c.blockOf f = some (flags, block)) :
    f.type = FrameType.headers.toByte ∧ hasFlag f.flags flagEndHeaders = true
      ∨ f.type = FrameType.continuation.toByte := by
  unfold blockOf at h
  rcases htype : FrameType.ofByte? f.type with _ | t
  · simp [htype] at h
  · have ht := FrameType.ofByte?_eq_some htype
    simp only [htype] at h
    cases t with
    | headers =>
        rcases hparse : parseHeaders f.header f.payload with ret | parsed
        · simp [hparse] at h
        · simp only [hparse] at h
          split_ifs at h with hend
          exact Or.inl ⟨ht, hend⟩
    | continuation => exact Or.inr ht
    | _ => cases h

/-- **A complete header block that fails** is rejected from then on: its id is used up, or the
header block is closed. A request without a slot is refused, if RST_STREAM finds room. -/
theorem block_rejected (hc : Inv c) (hadmits : c.Admits f) {flags : UInt8} {block : List UInt8}
    (hblock : c.blockOf f = some (flags, block))
    (hroom : c.output.length + c.replyBytes f ≤ connOutputCap) (herr : (c.handleFrame f).1 ≠ .ok) :
    (c.handleFrame f).2.Rejects f := by
  obtain ⟨bytes, hproc⟩ := processFrame_block hadmits hblock
  have hd : Inv { c with headerBlockOpen := false, headerBlock := bytes } := { hc with }
  have hparts := blockOf_parts hblock
  -- the header block is closed, and the id of a HEADERS frame is no new one
  have hafter : ∀ {ret c'}, c.processFrame f.header f.payload = (ret, c') →
      c'.headerBlockOpen = false →
      (f.type = FrameType.headers.toByte → f.streamId % 2 = 0 ∨ f.streamId ≤ c'.lastStreamId) →
      (c.handleFrame f).2.Rejects f := by
    intro ret c' hres hclosed hold
    refine Rejects.after ?_ hc hres herr
    rcases hparts with ⟨ht, hend⟩ | ht
    · exact rejects_old ht hend (hold ht)
    · exact rejects_stray ht hclosed
  by_cases hbad : f.streamId % 2 = 0 ∨ f.streamId ≤ c.lastStreamId
  · have hreject := @finishHeaders_reject { c with headerBlockOpen := false, headerBlock := bytes }
      f.streamId hbad flags block
    exact hafter (hproc.trans hreject) rfl fun _ => hbad
  · have hodd : f.streamId % 2 = 1 := by omega
    have hlast : c.lastStreamId < f.streamId := by omega
    rcases hfree : c.freeSlot with _ | pos
    · have hfree' : freeSlot { c with headerBlockOpen := false, headerBlock := bytes } = none := hfree
      have hrefused := finishHeaders_eq hd hodd hlast flags block
      rw [hfree'] at hrefused
      have hres := hproc.trans hrefused
      refine hafter hres rfl fun ht => ?_
      -- the refusal of a HEADERS frame is no failure
      have h0 : f.streamId ≠ 0 := by omega
      have hfit : Fits { c with headerBlockOpen := false, headerBlock := bytes }
          (rstStreamFrame f.streamId .refusedStream) := by
        rw [replyBytes, ht, FrameType.ofByte?_toByte] at hroom
        simp only at hroom
        rw [if_pos ⟨by rw [hblock]; rfl, ⟨hodd, hlast⟩, hfree⟩] at hroom
        rw [Fits, rstStreamFrame_wire_length]
        exact hroom
      rw [handleFrame_reset hres rfl h0, resetStreamError_refused hd h0 hlast, if_pos hfit] at herr
      exact absurd rfl herr
    · have hfree' : freeSlot { c with headerBlockOpen := false, headerBlock := bytes } = some pos :=
        hfree
      obtain ⟨hused, hclosed⟩ := finishHeaders_uses hd hfree' hodd hlast f.streamId_lt flags block
      exact hafter (hproc.trans (Prod.ext rfl rfl)) hclosed fun _ => Or.inr hused.ge

/-- **A part of a header block that fails** is rejected from then on. -/
theorem part_rejected (hc : Inv c) (hadmits : c.Admits f) (hblock : c.blockOf f = none)
    (hparts : f.type = FrameType.headers.toByte ∨ f.type = FrameType.continuation.toByte)
    (herr : (c.handleFrame f).1 ≠ .ok) : (c.handleFrame f).2.Rejects f := by
  rcases hparts with ht | ht
  · -- HEADERS without END_HEADERS
    have hproc := processFrame_handler hadmits ht
    have hother : f.type ≠ FrameType.continuation.toByte := by
      rw [ht]
      decide
    rw [handler, processHeaders] at hproc
    rcases hparse : parseHeaders f.header f.payload with ret | parsed
    · have hrej : c.Rejects f := rejects_of_handler ht fun p _ =>
        ⟨ret, fatal_of (parseHeaders_error hparse), by rw [handler, processHeaders, hparse]⟩
      exact hrej.again hc
    · have hpart : hasFlag f.header.flags flagEndHeaders = false := by
        simpa using headers_part hblock ht hparse
      simp only [hparse, if_pos hpart] at hproc
      by_cases hopen : c.headerBlockOpen = true
      · exact (rejects_inside hother hopen).again hc
      · -- the fragment is too long for the buffer, and the header block is open
        rw [if_neg hopen, appendHeaderBlock] at hproc
        split_ifs at hproc
        · exact Rejects.after (rejects_inside hother rfl) hc hproc herr
        · exact Rejects.after (rejects_inside hother rfl) hc hproc herr
  · -- CONTINUATION
    have hproc := processFrame_handler hadmits ht
    rw [handler, processContinuation] at hproc
    by_cases hbad : c.headerBlockOpen = false ∨ f.header.streamId ≠ c.headerBlockStreamId
    · have hrej : c.Rejects f := by
        refine rejects_of_handler ht fun p _ => ⟨.protocolError, by decide, ?_⟩
        have hbad' : (c.withPipes p).headerBlockOpen = false
            ∨ f.header.streamId ≠ (c.withPipes p).headerBlockStreamId := hbad
        rw [handler, processContinuation, if_pos hbad']
      exact hrej.again hc
    · have hbad' : ∀ p, ¬ ((c.withPipes p).headerBlockOpen = false
          ∨ f.header.streamId ≠ (c.withPipes p).headerBlockStreamId) := fun _ => hbad
      rw [if_neg hbad] at hproc
      rcases hparse : parseContinuation f.header f.payload with ret | fragment
      · have hrej : c.Rejects f := rejects_of_handler ht fun p _ =>
          ⟨ret, fatal_of (parseContinuation_error hparse), by
            rw [handler, processContinuation, if_neg (hbad' p), hparse]⟩
        exact hrej.again hc
      · simp only [hparse, appendHeaderBlock] at hproc
        by_cases hbig : fragment.length > headerBlockCap - c.headerBlock.length
        · -- the fragment is too long for what is left of the buffer
          have hrej : c.Rejects f := by
            refine rejects_of_handler ht fun p _ => ⟨.compressionError, by decide, ?_⟩
            have hbig' : fragment.length > headerBlockCap - (c.withPipes p).headerBlock.length := hbig
            rw [handler, processContinuation, if_neg (hbad' p), hparse]
            simp only [appendHeaderBlock]
            rw [if_pos hbig', andThen_err (by decide)]
          exact hrej.again hc
        · -- a fragment that fits and does not end the block is accepted
          have hpart : hasFlag f.header.flags flagEndHeaders = false := by
            obtain ⟨hopen, hid⟩ := not_or.mp hbad
            by_contra hend
            exact continuation_part hblock ht hparse
              ⟨by simpa using hopen, not_not.mp hid, not_lt.mp hbig, by simpa using hend⟩
          rw [if_neg hbig, andThen_ok, if_pos hpart] at hproc
          rw [handleFrame_ok hproc] at herr
          exact absurd rfl herr

/-! ## SETTINGS -/

/-- An entry that is not accepted changes nothing, unless the first live slot takes it. -/
theorem applySetting_unchanged {setting : Setting} (h : ¬ c.SettingOk setting)
    (hfirst : ¬ c.ShiftsFirst setting) :
    ∃ ret : ErrorCode, ret.Fatal ∧ c.applySetting setting = (ret, c) := by
  rw [SettingOk] at h
  rw [applySetting]
  by_cases h1 : setting.id = settingsEnablePush
  · rw [if_pos h1] at h ⊢
    exact ⟨.protocolError, by decide, if_pos (by omega)⟩
  · rw [if_neg h1] at h ⊢
    by_cases h2 : setting.id = settingsInitialWindowSize
    · rw [if_pos h2] at h ⊢
      refine ⟨.flowControlError, by decide, ?_⟩
      by_cases hbig : (setting.value : Int) > int32Max
      · rw [if_pos hbig]
      · have hfail : ∃ i, live (c.streams i) = true
            ∧ ¬ InRange ((c.streams i).sendWindow + (setting.value - c.initialStreamWindow)) := by
          by_contra hno
          push Not at hno
          exact h ⟨not_lt.mp hbig, hno⟩
        -- some slot is live, so there is a first live one, and its window is out of range too
        obtain ⟨i, hi, -⟩ := hfail
        rcases hfind : (List.finRange connMaxStreams).find? fun i => live (c.streams i) with _ | pos
        · exact absurd hi (by simpa using List.find?_eq_none.mp hfind i (List.mem_finRange i))
        · have hrange : ¬ InRange ((c.streams pos).sendWindow
              + (setting.value - c.initialStreamWindow)) := by
            intro hrange
            refine hfirst ⟨h2, not_lt.mp hbig, ?_⟩
            rw [hfind]
            exact hrange
          rw [if_neg hbig, shiftSendWindows_first hfind hrange, andThen_err (by decide)]
    · rw [if_neg h2] at h ⊢
      by_cases h3 : setting.id = settingsMaxFrameSize
      · rw [if_pos h3] at h ⊢
        exact ⟨.protocolError, by decide, if_pos (by omega)⟩
      · rw [if_neg h3] at h
        exact absurd trivial h

theorem lastValue_nonneg (id : Nat) (settings : List Setting) {d : Int} (h : 0 ≤ d) :
    0 ≤ lastValue id settings d := by
  induction settings generalizing d with
  | nil => exact h
  | cons s rest ih =>
      rw [lastValue, List.foldl_cons]
      split_ifs
      · exact ih (Int.natCast_nonneg s.value)
      · exact ih h

/-- Entries that have been applied change nothing when they are applied again. -/
theorem foldl_applied_again (settings : List Setting) (c : Connection) :
    settings.foldl applied (settings.foldl applied c) = settings.foldl applied c := by
  rw [foldl_applied settings c]
  have hwindow := lastValue_lastValue settingsInitialWindowSize settings c.initialStreamWindow
  have hsize := lastValue_lastValue settingsMaxFrameSize settings c.maxFrameSize
  have hnonneg := lastValue_nonneg settingsMaxFrameSize settings (Int.natCast_nonneg c.maxFrameSize)
  generalize lastValue settingsInitialWindowSize settings c.initialStreamWindow = window at *
  generalize lastValue settingsMaxFrameSize settings c.maxFrameSize = size at *
  have hself := resizeWindows_self { c.resizeWindows window with maxFrameSize := size.toNat }
  have hlast : lastValue settingsInitialWindowSize settings
      ({ c.resizeWindows window with maxFrameSize := size.toNat } : Connection).initialStreamWindow
        = ({ c.resizeWindows window with maxFrameSize := size.toNat } : Connection).initialStreamWindow :=
    hwindow
  rw [foldl_applied, hlast, hself]
  simp only [Int.toNat_of_nonneg hnonneg, hsize]

/-- What an applied entry leaves in the slots decides about another entry as before. -/
theorem shiftsFirst_applied (c : Connection) (s t : Setting) :
    (c.applied s).ShiftsFirst t ↔ c.ShiftsFirst t := by
  rw [applied]
  split_ifs with h1 h2
  · rw [ShiftsFirst, ShiftsFirst]
    simp only [live_resizeWindows]
    refine and_congr_right fun _ => and_congr_right fun _ => ?_
    rcases hfind : (List.finRange connMaxStreams).find? fun i => live (c.streams i) with _ | pos
    · rfl
    · have hl : live (c.streams pos) = true := by simpa using List.find?_some hfind
      simp only
      rw [resizeWindows_offset c _ _ hl]
  · rfl
  · rfl

theorem shiftsFirst_foldl_applied (settings : List Setting) (c : Connection) (t : Setting) :
    (settings.foldl applied c).ShiftsFirst t ↔ c.ShiftsFirst t := by
  induction settings generalizing c with
  | nil => rfl
  | cons s rest ih => rw [List.foldl_cons, ih, shiftsFirst_applied]

theorem find?_first_bad {before rest : List Setting} {s : Setting}
    (hbefore : ∀ t ∈ before, c.SettingOk t) (hs : ¬ c.SettingOk s) :
    ((before ++ s :: rest).find? fun t => ¬ c.SettingOk t) = some s := by
  rw [List.find?_append, List.find?_eq_none.mpr fun t ht => by simpa using hbefore t ht]
  simp [hs]

/-- **A SETTINGS frame that fails** is rejected from then on, if it has not moved a send window
before: the entries before the bad one are applied already. -/
theorem settings_rejected (hc : Inv c) (hadmits : c.Admits f)
    (ht : f.type = FrameType.settings.toByte)
    (hroom : c.output.length + c.replyBytes f ≤ connOutputCap) (htears : ¬ c.Tears f)
    (herr : (c.handleFrame f).1 ≠ .ok) : (c.handleFrame f).2.Rejects f := by
  have hproc := processFrame_handler hadmits ht
  rw [handler] at hproc
  rcases hparse : parseSettings f.header f.payload 32 with ret | settings
  · have hrej : c.Rejects f := by
      refine rejects_of_handler ht fun p _ => ⟨ret, ?_, by rw [handler, applySettings, hparse]⟩
      rcases parseSettings_error hparse with rfl | rfl | rfl <;> decide
    exact hrej.again hc
  · by_cases hack : hasFlag f.header.flags flagAck = true
    · rw [applySettings, hparse] at hproc
      simp only [if_pos hack] at hproc
      rw [handleFrame_ok hproc] at herr
      exact absurd rfl herr
    · have hack' : hasFlag f.header.flags flagAck = false := by simpa using hack
      rcases settings_split c settings with hall | ⟨before, s, rest, rfl, hbefore, hs⟩
      · -- everything is applied, and there is room for the acknowledgement
        have hfit : c.Fits settingsAckFrame := by
          rw [replyBytes, ht, FrameType.ofByte?_toByte] at hroom
          simp only [hparse] at hroom
          rw [if_pos ⟨hack', hall⟩] at hroom
          exact hroom
        rw [applySettings_ok hc hparse hack' hall, if_pos hfit] at hproc
        rw [handleFrame_ok hproc] at herr
        exact absurd rfl herr
      · have hfirst : ¬ c.ShiftsFirst s := by
          intro hshifts
          refine htears ⟨ht, ?_⟩
          simp only [hparse, find?_first_bad hbefore hs]
          exact hshifts
        -- the same in every state in which the entries before the bad one are applied
        have hstop : ∀ d : Connection, (∀ t, d.SettingOk t ↔ c.SettingOk t) →
            (∀ t, d.ShiftsFirst t ↔ c.ShiftsFirst t) → ∃ ret : ErrorCode, ret.Fatal
              ∧ d.applySettings f.header f.payload = (ret, before.foldl applied d) := by
          intro d hok hshifts
          have hs' : ¬ (before.foldl applied d).SettingOk s := by
            rwa [settingOk_foldl_applied, hok]
          have hfirst' : ¬ (before.foldl applied d).ShiftsFirst s := by
            rwa [shiftsFirst_foldl_applied, hshifts]
          obtain ⟨ret, hfatal, heq⟩ := applySetting_unchanged hs' hfirst'
          refine ⟨ret, hfatal, ?_⟩
          rw [applySettings, hparse]
          simp only
          rw [if_neg hack, applySettingsLoop_stop (fun t ht => (hok t).mpr (hbefore t ht))
            (by rwa [hok]), heq, andThen_err hfatal.1]
        -- it stops there now, and again when the entries before it are applied a second time
        obtain ⟨ret, -, heq⟩ := hstop c (fun _ => Iff.rfl) (fun _ => Iff.rfl)
        rw [heq] at hproc
        refine Rejects.after ?_ hc hproc herr
        refine rejects_of_handler ht fun p _ => ?_
        obtain ⟨ret', hfatal', heq'⟩ := hstop ((before.foldl applied c).withPipes p)
          (fun t => settingOk_foldl_applied before c t)
          (fun t => shiftsFirst_foldl_applied before c t)
        refine ⟨ret', hfatal', heq'.trans ?_⟩
        have hpipes : before.foldl applied ((before.foldl applied c).withPipes p)
            = (before.foldl applied (before.foldl applied c)).withPipes p := by
          rw [foldl_applied, foldl_applied before (before.foldl applied c)]
          rfl
        rw [hpipes, foldl_applied_again]

/-! ## WINDOW_UPDATE -/

theorem deferredBytes_congr {ps : List (Fin connMaxStreams)}
    (h : ∀ i ∈ ps, c'.streams i = c.streams i) (window : Int) :
    c'.deferredBytes ps window = c.deferredBytes ps window := by
  induction ps generalizing window with
  | nil => rfl
  | cons pos rest ih =>
      have hrest := ih fun i hi => h i (List.mem_cons_of_mem _ hi)
      rw [deferredBytes, deferredBytes, h pos (List.mem_cons_self ..)]
      simp only [hrest]

theorem dataFrame_wire_length (hc : Inv c) (pos : Fin connMaxStreams) :
    (c.dataFrame pos).wire.length
      = frameHeaderLen + (responseBody (c.streams pos).path).length := by
  have hlen := responseBody_length_le hc pos
  rw [Frame.wire_length, dataFrame, responseData_payload (by omega)]

/-- **With room for the responses that are sent, the flush succeeds.** -/
theorem flushDeferredLoop_room (hc : Inv c) {ps : List (Fin connMaxStreams)} (hnodup : ps.Nodup)
    (hroom : c.output.length + c.deferredBytes ps c.connSendWindow ≤ connOutputCap) :
    (flushDeferredLoop ps c).1 = .ok := by
  induction ps generalizing c with
  | nil => rfl
  | cons pos rest ih =>
      obtain ⟨hpos, hnodup⟩ := List.nodup_cons.mp hnodup
      have hne : ∀ i ∈ rest, i ≠ pos := fun i hi heq => hpos (heq ▸ hi)
      rw [flushDeferredLoop]
      rw [deferredBytes] at hroom
      by_cases hd : live (c.streams pos) ∧ (c.streams pos).responseBodyDeferred
      · obtain ⟨hst, hhead, hbody, hpath⟩ := (hc.slot pos).deferred hd.2
        have hcan : (c.streams pos).CanSend := ⟨(live_iff.mp hd.1).1, hst⟩
        have hinv := (queueDeferredData_does hc hcan hhead hbody hpath).inv hc
        rw [if_pos hd, queueResponse_deferred hc hd.2]
        rw [queueDeferredData_eq hc hcan] at hinv ⊢
        by_cases hb : c.Blocked pos
        · -- the response is put off again
          have hskip : ¬ ((live (c.streams pos) = true ∧ (c.streams pos).responseBodyDeferred = true)
              ∧ ((responseBody (c.streams pos).path).length : Int) ≤ c.connSendWindow
              ∧ ((responseBody (c.streams pos).path).length : Int)
                ≤ (c.streams pos).sendWindow) := by
            rintro ⟨-, hconn, hstream⟩
            rcases hb with hb | hb <;> omega
          rw [if_pos hb] at hinv ⊢
          rw [if_neg hskip] at hroom
          rw [andThen_ok]
          refine ih hinv hnodup ?_
          rw [deferredBytes_congr fun i hi => setStream_streams_ne c (hne i hi) _]
          exact hroom
        · -- the response is sent, and the rest of the flush has that much less room and credit
          have hsend := not_or.mp hb
          rw [if_pos ⟨hd, not_lt.mp hsend.1, not_lt.mp hsend.2⟩] at hroom
          have hfit : c.Fits (c.dataFrame pos) := by
            rw [Fits, dataFrame_wire_length hc]
            omega
          rw [if_neg hb, if_pos hfit] at hinv ⊢
          rw [andThen_ok]
          refine ih hinv hnodup ?_
          have hout : ((c.push (c.dataFrame pos)).answered pos
              (responseBody (c.streams pos).path).length).output.length
              = c.output.length + (frameHeaderLen + (responseBody (c.streams pos).path).length) := by
            rw [← dataFrame_wire_length hc, ← List.length_append]
            rfl
          have hslots : ∀ i ∈ rest, ((c.push (c.dataFrame pos)).answered pos
              (responseBody (c.streams pos).path).length).streams i = c.streams i :=
            fun i hi => setStream_streams_ne _ (hne i hi) _
          have hwindow : ((c.push (c.dataFrame pos)).answered pos
              (responseBody (c.streams pos).path).length).connSendWindow
              = c.connSendWindow - (responseBody (c.streams pos).path).length := rfl
          rw [hout, deferredBytes_congr hslots, hwindow]
          omega
      · -- nothing waits in this slot
        have hskip : ¬ ((live (c.streams pos) = true ∧ (c.streams pos).responseBodyDeferred = true)
            ∧ ((responseBody (c.streams pos).path).length : Int) ≤ c.connSendWindow
            ∧ ((responseBody (c.streams pos).path).length : Int) ≤ (c.streams pos).sendWindow) :=
          fun h => hd h.1
        rw [if_neg hskip] at hroom
        rw [if_neg hd]
        exact ih hc hnodup hroom

/-- **A WINDOW_UPDATE frame that fails** is rejected from then on. -/
theorem windowUpdate_rejected (hc : Inv c) (hadmits : c.Admits f)
    (ht : f.type = FrameType.windowUpdate.toByte)
    (hroom : c.output.length + c.replyBytes f ≤ connOutputCap) (herr : (c.handleFrame f).1 ≠ .ok) :
    (c.handleFrame f).2.Rejects f := by
  have hproc := processFrame_handler hadmits ht
  -- credit that is applied makes no frame fail
  have hcredit : ∀ {d es}, Acts c es d → c.handler .windowUpdate f = d.flushDeferredResponses →
      d.output.length + d.deferredBytes (List.finRange connMaxStreams) d.connSendWindow
        ≤ connOutputCap → (c.handleFrame f).2.Rejects f := by
    intro d es hact heq hfits
    have hok := flushDeferredLoop_room (hact.inv hc) (List.nodup_finRange connMaxStreams) hfits
    rw [heq] at hproc
    rw [handleFrame_ok (hproc.trans (Prod.ext hok rfl))] at herr
    exact absurd rfl herr
  rw [handler] at hproc
  rw [replyBytes, ht, FrameType.ofByte?_toByte] at hroom
  rcases hparse : parseWindowUpdate f.header f.payload with ret | increment
  · have hrej : c.Rejects f := rejects_of_handler ht fun p _ =>
      ⟨ret, fatal_of (parseWindowUpdate_error hparse), by rw [handler, processWindowUpdate, hparse]⟩
    exact hrej.again hc
  · simp only [hparse] at hroom
    have heq : ∀ p, (c.withPipes p).handler .windowUpdate f = _ := fun p =>
      processWindowUpdate_eq (c.withPipes p) hparse
    have hself := processWindowUpdate_eq c hparse
    rw [hself] at hproc
    -- credit for the connection, or for a stream
    by_cases h0 : f.streamId = 0
    · have h0' : f.header.streamId = 0 := h0
      simp only [if_pos h0] at hroom
      by_cases hmax : c.connSendWindow + increment > int32Max
      · have hrej : c.Rejects f := by
          refine rejects_of_handler ht fun p _ => ⟨.flowControlError, by decide, ?_⟩
          have hmax' : (c.withPipes p).connSendWindow + increment > int32Max := hmax
          rw [heq, if_pos h0', if_pos hmax']
        exact hrej.again hc
      · rw [if_pos h0', if_neg hmax] at hself
        rw [if_neg hmax] at hroom
        have hact : Acts c [.credit 0 increment]
            { c with connSendWindow := c.connSendWindow + increment } :=
          .single (.creditConn c increment (not_lt.mp hmax))
        generalize hd : ({ c with connSendWindow := c.connSendWindow + increment } : Connection) = d
          at hact hself
        have hslots : ∀ i ∈ List.finRange connMaxStreams, d.streams i = c.streams i := by
          simp [← hd]
        have hout : d.output = c.output ∧ d.connSendWindow = c.connSendWindow + increment := by
          rw [← hd]
          exact ⟨rfl, rfl⟩
        refine hcredit hact hself ?_
        rw [deferredBytes_congr hslots, hout.1, hout.2]
        exact hroom
    · have h0' : ¬ f.header.streamId = 0 := h0
      simp only [if_neg h0] at hroom
      rw [if_neg h0'] at hproc hself
      rcases hfind : c.findStream f.streamId with _ | pos
      · have hfind' : c.findStream f.header.streamId = none := hfind
        rw [hfind'] at hproc
        rw [handleFrame_ok hproc] at herr
        exact absurd rfl herr
      · have hfind' : c.findStream f.header.streamId = some pos := hfind
        have hid := findStream_eq_some hfind
        simp only [hfind] at hroom
        simp only [hfind'] at hproc hself
        by_cases hmax : (c.streams pos).sendWindow + increment > int32Max
        · have hrej : c.Rejects f := by
            refine rejects_of_handler ht fun p _ => ⟨.flowControlError, by decide, ?_⟩
            have hfind'' : (c.withPipes p).findStream f.header.streamId = some pos := hfind
            have hmax' : ((c.withPipes p).streams pos).sendWindow + increment > int32Max := hmax
            rw [heq, if_neg h0', hfind'']
            simp only [if_pos hmax']
          exact hrej.again hc
        · -- the credit is applied, and the flush has room
          rw [if_neg hmax] at hself hroom
          have hact : Acts c [.credit (c.streams pos).id increment]
              (c.setStream pos ((c.streams pos).shift increment)) :=
            .single (.creditStream c pos increment (by rw [hid]; exact h0) (not_lt.mp hmax))
          have hwindow : (c.setStream pos ((c.streams pos).shift increment)).connSendWindow
              = c.connSendWindow := rfl
          refine hcredit hact hself ?_
          rw [hwindow]
          exact hroom

/-! ## Every frame -/

/-- **PING that fails** is rejected from then on. -/
theorem ping_rejected (hc : Inv c) (hadmits : c.Admits f) (ht : f.type = FrameType.ping.toByte)
    (hroom : c.output.length + c.replyBytes f ≤ connOutputCap) (herr : (c.handleFrame f).1 ≠ .ok) :
    (c.handleFrame f).2.Rejects f := by
  have hproc := processFrame_handler hadmits ht
  rw [handler, processPing] at hproc
  rcases hparse : parsePing f.header f.payload with ret | opaqueData
  · have hrej : c.Rejects f := rejects_of_handler ht fun p _ =>
      ⟨ret, fatal_of (parsePing_error hparse), by rw [handler, processPing, hparse]⟩
    exact hrej.again hc
  · obtain ⟨-, hlen, rfl⟩ := parsePing_payload ht hparse
    simp only [hparse] at hproc
    exfalso
    by_cases hack : hasFlag f.header.flags flagAck = true
    · rw [if_pos hack] at hproc
      rw [handleFrame_ok hproc] at herr
      exact herr rfl
    · have hfit : c.Fits (pingAckFrame f.payload) := by
        have hack' : ¬ hasFlag f.flags flagAck = true := hack
        rw [replyBytes, ht, FrameType.ofByte?_toByte] at hroom
        simp only [hparse, if_neg hack'] at hroom
        rw [Fits, Frame.wire_length, pingAckFrame, Frame.of_payload (by
          simp only [maxFrameSizeLimit]
          omega), hlen]
        exact hroom
      rw [if_neg hack, encodePing_eq (by omega), queueWire_wire hc, if_pos hfit] at hproc
      rw [handleFrame_ok hproc] at herr
      exact herr rfl

/-- RST_STREAM that fails is rejected from then on. -/
theorem rstStream_rejected (hc : Inv c) (hadmits : c.Admits f)
    (ht : f.type = FrameType.rstStream.toByte) (herr : (c.handleFrame f).1 ≠ .ok) :
    (c.handleFrame f).2.Rejects f := by
  have hproc := processFrame_handler hadmits ht
  rw [handler, processRstStream] at hproc
  rcases hparse : parseRstStream f.header f.payload with ret | code
  · have hrej : c.Rejects f := rejects_of_handler ht fun p _ =>
      ⟨ret, fatal_of (parseRstStream_error hparse), by rw [handler, processRstStream, hparse]⟩
    exact hrej.again hc
  · rcases hfind : c.findStream f.header.streamId with _ | pos
    · -- no slot: the parity of the id and `last_stream_id` decide
      have hnone : ∀ p, (c.withPipes p).handler .rstStream f
          = if f.header.streamId &&& 1 = 0 then (.protocolError, c.withPipes p)
            else if f.header.streamId > c.lastStreamId then (.protocolError, c.withPipes p)
            else (.ok, c.withPipes p) := by
        intro p
        have hfind' : (c.withPipes p).findStream f.header.streamId = none := hfind
        rw [handler, processRstStream, hparse]
        simp only [hfind']
        rfl
      simp only [hparse, hfind] at hproc
      by_cases heven : f.header.streamId &&& 1 = 0
      · have hrej : c.Rejects f := rejects_of_handler ht fun p _ =>
          ⟨.protocolError, by decide, by rw [hnone, if_pos heven]⟩
        exact hrej.again hc
      · rw [if_neg heven] at hproc
        by_cases hnew : f.header.streamId > c.lastStreamId
        · have hrej : c.Rejects f := rejects_of_handler ht fun p _ =>
            ⟨.protocolError, by decide, by rw [hnone, if_neg heven, if_pos hnew]⟩
          exact hrej.again hc
        · rw [if_neg hnew] at hproc
          rw [handleFrame_ok hproc] at herr
          exact absurd rfl herr
    · -- a slot is closed without an error
      simp only [hparse, hfind] at hproc
      rw [handleFrame_ok hproc] at herr
      exact absurd rfl herr

/-- **A conclusive frame that fails is rejected from then on.** -/
theorem handleFrame_rejects (hc : Inv c)
    (hrecv : ∀ i, (c.streams i).Receives → 32768 ≤ (c.streams i).recvWindow)
    (hdone : c.Conclusive f) (herr : (c.handleFrame f).1 ≠ .ok) :
    (c.handleFrame f).2.Rejects f := by
  by_cases hadmits : c.Admits f
  · -- the frame reaches its handler, and each handler fails for a reason that stays
    obtain ⟨hroom, htears⟩ := hdone hadmits
    rcases hblock : c.blockOf f with _ | ⟨flags, block⟩
    · rcases htype : FrameType.ofByte? f.type with _ | t
      · rw [handleFrame_ok (processFrame_unknown hadmits htype)] at herr
        exact absurd rfl herr
      · have ht := FrameType.ofByte?_eq_some htype
        have hproc := processFrame_handler hadmits ht
        cases t with
        | data => exact data_rejected hc hadmits ht hrecv hroom herr
        | headers => exact part_rejected hc hadmits hblock (Or.inl ht) herr
        | continuation => exact part_rejected hc hadmits hblock (Or.inr ht) herr
        | rstStream => exact rstStream_rejected hc hadmits ht herr
        | settings => exact settings_rejected hc hadmits ht hroom htears herr
        | ping => exact ping_rejected hc hadmits ht hroom herr
        | windowUpdate => exact windowUpdate_rejected hc hadmits ht hroom herr
        | pushPromise =>
            have hrej : c.Rejects f := rejects_of_handler ht fun p _ => ⟨.protocolError, by decide, rfl⟩
            exact hrej.again hc
        | priority =>
            rw [handler] at hproc
            rcases hparse : parsePriority f.header f.payload with ret | priority
            · have hrej : c.Rejects f := rejects_of_handler ht fun p _ =>
                ⟨ret, fatal_of (parsePriority_error hparse), by rw [handler, hparse]⟩
              exact hrej.again hc
            · rw [hparse] at hproc
              rw [handleFrame_ok hproc] at herr
              exact absurd rfl herr
        | goaway =>
            by_cases hvalid : validatePayload f.header = .ok
            · rw [handler, hvalid] at hproc
              rw [handleFrame_ok hproc] at herr
              exact absurd rfl herr
            · have hcases := validatePayload_cases f.header
              have hrej : c.Rejects f := rejects_of_handler ht fun p _ =>
                ⟨_, fatal_of (hcases.resolve_left hvalid), rfl⟩
              exact hrej.again hc
    · exact block_rejected hc hadmits hblock hroom herr
  · exact (rejects_of_not_admits hadmits).again hc

end Connection

end C11Omo.Http2
