import C11Omo.Http2.Run

set_option autoImplicit false

/-! # What the handlers do not look at

No handler reads the input buffer, and only HEADERS and CONTINUATION read the fields in which a
header block is collected. The connection with other values in these fields (`withScratch`) takes
the same steps: every handler commutes with the change (`moved`). So a frame has the same effect
whatever is behind it in the input (`handleFrame_withInput`), and frames that are fed in chunks
have the effect they have one by one (`feeds_delivers`).
-/

namespace C11Omo.Http2

open C11Omo.Lib

/-- The fields in which a header block is collected, and the input buffer. -/
structure Scratch where
  streamId : Nat
  flags : UInt8
  block : List UInt8
  input : List UInt8

namespace Connection

/-- The connection with other scratch fields. Whether a header block is open is not one of them. -/
def withScratch (c : Connection) (w : Scratch) : Connection :=
  { c with
    headerBlockStreamId := w.streamId
    headerBlockFlags := w.flags
    headerBlock := w.block
    input := w.input }

/-- The scratch fields of a connection, with another input. -/
def scratch (c : Connection) (input : List UInt8) : Scratch :=
  { streamId := c.headerBlockStreamId, flags := c.headerBlockFlags, block := c.headerBlock, input }

theorem withScratch_scratch (c : Connection) (input : List UInt8) :
    c.withScratch (c.scratch input) = { c with input := input } := rfl

/-- The result of a handler, with other scratch fields. -/
def moved (w : Scratch) (r : ErrorCode × Connection) : ErrorCode × Connection :=
  (r.1, r.2.withScratch w)

variable {c : Connection} {w : Scratch}

theorem andThen_moved {first : ErrorCode × Connection} {next : Connection → ErrorCode × Connection}
    (hnext : ∀ c : Connection, next (c.withScratch w) = moved w (next c)) :
    andThen (moved w first) next = moved w (andThen first next) := by
  obtain ⟨ret, c⟩ := first
  by_cases hret : ret = .ok
  · subst hret
    exact hnext c
  · rw [andThen_err hret, moved, andThen_err hret]

/-- A handler that commutes with a change of the scratch fields keeps them, and does not read the
input. -/
theorem withInput_of_moved (r : Connection → ErrorCode × Connection)
    (h : ∀ (c : Connection) (w : Scratch), r (c.withScratch w) = moved w (r c)) (c : Connection)
    (input : List UInt8) :
    r { c with input := input } = ((r c).1, { (r c).2 with input := input }) := by
  have hself : (r c).2 = (r c).2.withScratch (c.scratch c.input) :=
    congrArg Prod.snd (h c (c.scratch c.input))
  calc r { c with input := input }
      = moved (c.scratch input) (r c) := h c (c.scratch input)
    _ = ((r c).1, (r c).2.withScratch (c.scratch input)) := rfl
    _ = ((r c).1, { (r c).2 with input := input }) := by
        rw [hself]
        rfl

/-! ## The output queue -/

theorem compactOutput_withScratch (c : Connection) (w : Scratch) :
    (c.withScratch w).compactOutput = c.compactOutput.withScratch w := by
  unfold compactOutput
  by_cases h0 : c.outputSent = 0
  · rw [if_pos h0]
    exact if_pos h0
  · rw [if_neg h0]
    refine (if_neg h0).trans ?_
    by_cases hall : c.outputSent ≥ c.output.length
    · rw [if_pos hall]
      exact if_pos hall
    · rw [if_neg hall]
      exact if_neg hall

theorem queueBytes_withScratch (c : Connection) (w : Scratch) (data : List UInt8) :
    (c.withScratch w).queueBytes data = moved w (c.queueBytes data) := by
  unfold queueBytes
  rw [compactOutput_withScratch]
  by_cases hbig : data.length > connOutputCap - c.compactOutput.output.length
  · rw [if_pos hbig]
    exact if_pos hbig
  · rw [if_neg hbig]
    exact if_neg hbig

theorem queueWire_withScratch (c : Connection) (w : Scratch) (wire : Option (List UInt8)) :
    (c.withScratch w).queueWire wire = moved w (c.queueWire wire) := by
  rcases wire with _ | data
  · rfl
  · exact queueBytes_withScratch c w data

theorem queueGoaway_withScratch (c : Connection) (w : Scratch) (errorCode : ErrorCode) :
    (c.withScratch w).queueGoaway errorCode = moved w (c.queueGoaway errorCode) := by
  unfold queueGoaway
  by_cases hsent : c.goawaySent = true
  · rw [if_pos hsent]
    exact if_pos hsent
  · rw [if_neg hsent]
    refine (if_neg hsent).trans ?_
    rw [show (c.withScratch w).lastStreamId = c.lastStreamId from rfl]
    rcases encodeGoaway (frameHeaderLen + 8) c.lastStreamId errorCode.toNat [] with _ | wire
    · rfl
    · exact queueBytes_withScratch
        { c with goawaySent := true, goawayError := errorCode.toNat } w wire

/-- A frame is queued, and then the result is given one of two codes. -/
theorem queueWire_match_withScratch (c : Connection) (w : Scratch) (wire : Option (List UInt8))
    {next : Connection → ErrorCode × Connection}
    (hnext : ∀ c : Connection, next (c.withScratch w) = moved w (next c)) :
    (match (c.withScratch w).queueWire wire with
      | (.ok, conn) => next conn
      | (_, conn) => (.internalError, conn))
      = moved w (match c.queueWire wire with
          | (.ok, conn) => next conn
          | (_, conn) => (.internalError, conn)) := by
  rw [queueWire_withScratch]
  rcases c.queueWire wire with ⟨ret, c'⟩
  cases ret <;> first | exact hnext c' | rfl

/-! ## Receive windows -/

theorem refreshConnRecvWindow_withScratch (c : Connection) (w : Scratch) :
    (c.withScratch w).refreshConnRecvWindow = moved w c.refreshConnRecvWindow := by
  unfold refreshConnRecvWindow
  by_cases hlow : c.connRecvWindow ≤ 65535 / 2
  · rw [if_pos hlow]
    refine (if_pos hlow).trans ?_
    exact @queueWire_match_withScratch { c with connRecvWindow := _ } w _
      (fun conn => (.ok, conn)) fun _ => rfl
  · rw [if_neg hlow]
    exact if_neg hlow

theorem refreshStreamRecvWindow_withScratch (c : Connection) (w : Scratch)
    (pos : Fin connMaxStreams) :
    (c.withScratch w).refreshStreamRecvWindow pos = moved w (c.refreshStreamRecvWindow pos) := by
  unfold refreshStreamRecvWindow
  by_cases hlow : (c.streams pos).recvWindow ≤ 65535 / 2
  · simp only [if_pos hlow]
    refine (if_pos hlow).trans ?_
    exact @queueWire_match_withScratch (c.setStream pos _) w _
      (fun conn => (.ok, conn)) fun _ => rfl
  · simp only [if_neg hlow]
    exact if_neg hlow

theorem refreshRecvWindows_withScratch (c : Connection) (w : Scratch)
    (stream : Option (Fin connMaxStreams)) :
    (c.withScratch w).refreshRecvWindows stream = moved w (c.refreshRecvWindows stream) := by
  unfold refreshRecvWindows
  rw [refreshConnRecvWindow_withScratch]
  apply andThen_moved
  intro c
  rcases stream with _ | pos
  · rfl
  · exact refreshStreamRecvWindow_withScratch c w pos

/-! ## SETTINGS -/

theorem shiftSendWindows_withScratch (delta : Int) (ps : List (Fin connMaxStreams)) (c : Connection)
    (w : Scratch) : shiftSendWindows delta ps (c.withScratch w)
      = moved w (shiftSendWindows delta ps c) := by
  induction ps generalizing c with
  | nil => rfl
  | cons pos rest ih =>
      rw [shiftSendWindows, shiftSendWindows]
      show (if live (c.streams pos) then _ else _) = _
      by_cases hlive : live (c.streams pos) = true
      · rw [if_pos hlive, if_pos hlive]
        show (if (c.streams pos).sendWindow + delta < int32Min
          ∨ (c.streams pos).sendWindow + delta > int32Max then _ else _) = _
        by_cases hout : (c.streams pos).sendWindow + delta < int32Min
            ∨ (c.streams pos).sendWindow + delta > int32Max
        · simp only [if_pos hout]
          rfl
        · simp only [if_neg hout]
          exact ih (c.setStream pos { c.streams pos with
            sendWindow := (c.streams pos).sendWindow + delta })
      · rw [if_neg hlive, if_neg hlive]
        exact ih c

theorem applySetting_withScratch (c : Connection) (w : Scratch) (setting : Setting) :
    (c.withScratch w).applySetting setting = moved w (c.applySetting setting) := by
  unfold applySetting
  by_cases hpush : setting.id = settingsEnablePush
  · rw [if_pos hpush, if_pos hpush]
    split <;> rfl
  · rw [if_neg hpush, if_neg hpush]
    by_cases hwindow : setting.id = settingsInitialWindowSize
    · rw [if_pos hwindow, if_pos hwindow]
      by_cases hmax : (setting.value : Int) > int32Max
      · rw [if_pos hmax, if_pos hmax]
        rfl
      · rw [if_neg hmax, if_neg hmax]
        rw [shiftSendWindows_withScratch]
        exact andThen_moved fun _ => rfl
    · rw [if_neg hwindow, if_neg hwindow]
      split
      · split <;> rfl
      · rfl

theorem applySettingsLoop_withScratch (settings : List Setting) (c : Connection) (w : Scratch) :
    applySettingsLoop settings (c.withScratch w) = moved w (applySettingsLoop settings c) := by
  induction settings generalizing c with
  | nil => rfl
  | cons setting rest ih =>
      rw [applySettingsLoop, applySettingsLoop, applySetting_withScratch]
      exact andThen_moved ih

theorem applySettings_withScratch (c : Connection) (w : Scratch) (header : FrameHeader)
    (payload : List UInt8) :
    (c.withScratch w).applySettings header payload = moved w (c.applySettings header payload) := by
  unfold applySettings
  rcases parseSettings header payload 32 with ret | settings
  · rfl
  · simp only
    split
    · rfl
    · rw [applySettingsLoop_withScratch]
      exact andThen_moved fun c => queueWire_withScratch c w _

/-! ## Responses -/

theorem queueDeferredData_withScratch (c : Connection) (w : Scratch) (pos : Fin connMaxStreams)
    (body : List UInt8) :
    (c.withScratch w).queueDeferredData pos body = moved w (c.queueDeferredData pos body) := by
  unfold queueDeferredData
  by_cases hlow : c.connSendWindow < body.length ∨ (c.streams pos).sendWindow < body.length
  · rw [if_pos hlow]
    exact if_pos hlow
  · rw [if_neg hlow]
    refine (if_neg hlow).trans ?_
    exact queueWire_match_withScratch c w _ fun _ => rfl

theorem queueResponseHeaders_withScratch (c : Connection) (w : Scratch) (pos : Fin connMaxStreams)
    (contentLength : List UInt8) :
    (c.withScratch w).queueResponseHeaders pos contentLength
      = moved w (c.queueResponseHeaders pos contentLength) := by
  unfold queueResponseHeaders
  rcases responseHeaderBlock contentLength with _ | block
  · rfl
  · exact @queueWire_match_withScratch c w _
      (fun conn => (.ok, conn.setStream pos { conn.streams pos with responseHeadersSent := true }))
      fun _ => rfl

/-- The response to a request whose path has been filled in. -/
theorem queueResponseBody_withScratch (c : Connection) (w : Scratch) (pos : Fin connMaxStreams)
    (body : List UInt8) :
    andThen
      (if ((c.withScratch w).streams pos).responseHeadersSent then (.ok, c.withScratch w)
        else (c.withScratch w).queueResponseHeaders pos (decimal body.length))
      (fun conn => conn.queueDeferredData pos body)
      = moved w (andThen
          (if (c.streams pos).responseHeadersSent then (.ok, c)
            else c.queueResponseHeaders pos (decimal body.length))
          fun conn => conn.queueDeferredData pos body) := by
  rw [queueResponseHeaders_withScratch]
  have hfirst : (if ((c.withScratch w).streams pos).responseHeadersSent then (.ok, c.withScratch w)
      else moved w (c.queueResponseHeaders pos (decimal body.length)))
      = moved w (if (c.streams pos).responseHeadersSent then (.ok, c)
          else c.queueResponseHeaders pos (decimal body.length)) := by
    by_cases hsent : (c.streams pos).responseHeadersSent = true
    · rw [if_pos hsent]
      exact if_pos hsent
    · rw [if_neg hsent]
      exact if_neg hsent
  rw [hfirst]
  exact andThen_moved fun c => queueDeferredData_withScratch c w pos body

theorem queueResponse_withScratch (c : Connection) (w : Scratch) (pos : Fin connMaxStreams) :
    (c.withScratch w).queueResponse pos = moved w (c.queueResponse pos) := by
  unfold queueResponse
  by_cases hsent : (c.streams pos).responseSent = true
  · rw [if_pos hsent]
    exact if_pos hsent
  · rw [if_neg hsent]
    refine (if_neg hsent).trans ?_
    -- the path that is filled in does not depend on the scratch fields
    have hpath : (if ((c.withScratch w).streams pos).path = [] then
          (c.withScratch w).setStream pos { (c.withScratch w).streams pos with path := ascii "/" }
        else c.withScratch w)
        = (if (c.streams pos).path = [] then
            c.setStream pos { c.streams pos with path := ascii "/" } else c).withScratch w := by
      by_cases hnil : (c.streams pos).path = []
      · rw [if_pos hnil]
        exact if_pos hnil
      · rw [if_neg hnil]
        exact if_neg hnil
    rw [hpath]
    generalize (if (c.streams pos).path = [] then
      c.setStream pos { c.streams pos with path := ascii "/" } else c) = c'
    show (if (responseBody (c'.streams pos).path).length ≥ 320 then _ else _) = _
    by_cases hbody : (responseBody (c'.streams pos).path).length ≥ 320
    · simp only [if_pos hbody]
      rfl
    · simp only [if_neg hbody]
      show (if (decimal (responseBody (c'.streams pos).path).length).length ≥ 32 then _ else _) = _
      by_cases hdec : (decimal (responseBody (c'.streams pos).path).length).length ≥ 32
      · simp only [if_pos hdec]
        rfl
      · simp only [if_neg hdec]
        exact queueResponseBody_withScratch c' w pos _

theorem flushDeferredLoop_withScratch (ps : List (Fin connMaxStreams)) (c : Connection)
    (w : Scratch) : flushDeferredLoop ps (c.withScratch w) = moved w (flushDeferredLoop ps c) := by
  induction ps generalizing c with
  | nil => rfl
  | cons pos rest ih =>
      rw [flushDeferredLoop, flushDeferredLoop]
      show (if live (c.streams pos) ∧ (c.streams pos).responseBodyDeferred then _ else _) = _
      by_cases hd : live (c.streams pos) ∧ (c.streams pos).responseBodyDeferred
      · rw [if_pos hd, if_pos hd, queueResponse_withScratch]
        exact andThen_moved ih
      · rw [if_neg hd, if_neg hd]
        exact ih c

/-! ## Requests -/

/-- **A complete header block**: only its bytes, its stream and the END_STREAM flag count. -/
theorem finishHeaders_withScratch (c : Connection) (w : Scratch) (streamId : Nat)
    {flags flags' : UInt8} (hflags : hasFlag flags' flagEndStream = hasFlag flags flagEndStream)
    (block : List UInt8) : (c.withScratch w).finishHeaders streamId flags' block
      = moved w (c.finishHeaders streamId flags block) := by
  unfold finishHeaders
  by_cases heven : streamId &&& 1 = 0
  · rw [if_pos heven, if_pos heven]
    rfl
  · rw [if_neg heven, if_neg heven]
    by_cases hold : streamId ≤ c.lastStreamId
    · rw [if_pos hold]
      exact if_pos hold
    · rw [if_neg hold]
      refine (if_neg hold).trans ?_
      have hslot : (c.withScratch w).getStream streamId
          = ((c.getStream streamId).1, (c.getStream streamId).2.withScratch w) := by
        unfold getStream
        have hfind : (c.withScratch w).findStream streamId = c.findStream streamId := rfl
        have hstreams : (c.withScratch w).streams = c.streams := rfl
        rw [hfind]
        cases c.findStream streamId with
        | some pos => rfl
        | none =>
            simp only [hstreams]
            cases (List.finRange connMaxStreams).find? fun pos => reusable (c.streams pos) <;> rfl
      -- what follows the extraction of the path
      have hqueue : ∀ (c : Connection) (pos : Fin connMaxStreams) (r : ErrorCode × Stream),
          (if r.1 ≠ .ok then (r.1, (c.withScratch w).setStream pos r.2)
            else ((c.withScratch w).setStream pos r.2).queueResponse pos)
          = moved w (if r.1 ≠ .ok then (r.1, c.setStream pos r.2)
              else (c.setStream pos r.2).queueResponse pos) := by
        intro c pos r
        by_cases hret : r.1 ≠ .ok
        · rw [if_pos hret, if_pos hret]
          rfl
        · rw [if_neg hret, if_neg hret]
          exact queueResponse_withScratch (c.setStream pos r.2) w pos
      rw [hslot]
      rcases c.getStream streamId with ⟨_ | pos, c'⟩
      · rfl
      · simp only
        rcases extractPath block streamPathCap with ⟨ret, path⟩
        by_cases hret : ret = .ok
        · rw [if_neg (not_not.mpr hret), if_neg (not_not.mpr hret), hflags]
          exact hqueue ({ c' with lastStreamId := streamId }.setStream pos
            { c'.streams pos with path := path }) pos (Stream.receiveHeaders _ _)
        · rw [if_pos hret, if_pos hret]
          rfl

/-! ## The other frames -/

theorem processData_withScratch (c : Connection) (w : Scratch) (header : FrameHeader)
    (payload : List UInt8) :
    (c.withScratch w).processData header payload = moved w (c.processData header payload) := by
  unfold processData
  rcases parseData header payload with ret | parsed
  · rfl
  · simp only
    rw [show (c.withScratch w).findStream header.streamId = c.findStream header.streamId from rfl]
    rcases c.findStream header.streamId with _ | pos
    · rfl
    · have hcharged := refreshRecvWindows_withScratch
        { c with connRecvWindow := c.connRecvWindow - toInt32 header.length } w none
      -- what follows the charge to the stream
      have hrefresh : ∀ (c : Connection) (r : ErrorCode × Stream),
          (if r.1 ≠ .ok then (r.1, (c.withScratch w).setStream pos r.2)
            else ((c.withScratch w).setStream pos r.2).refreshRecvWindows
              (if r.2.state = .closed then none else some pos))
          = moved w (if r.1 ≠ .ok then (r.1, c.setStream pos r.2)
              else (c.setStream pos r.2).refreshRecvWindows
                (if r.2.state = .closed then none else some pos)) := by
        intro c r
        by_cases hret : r.1 ≠ .ok
        · rw [if_pos hret, if_pos hret]
          rfl
        · rw [if_neg hret, if_neg hret]
          exact refreshRecvWindows_withScratch (c.setStream pos r.2) w _
      by_cases hst : (c.streams pos).state ≠ .opened ∧ (c.streams pos).state ≠ .halfClosedLocal
      · simp only [if_pos hst]
        refine (if_pos hst).trans ?_
        by_cases hlow : toSize c.connRecvWindow < header.length
        · rw [if_pos hlow]
          exact if_pos hlow
        · rw [if_neg hlow]
          refine (if_neg hlow).trans ?_
          exact congrArg (fun r : ErrorCode × Connection => (ErrorCode.streamClosed, r.2)) hcharged
      · simp only [if_neg hst]
        refine (if_neg hst).trans ?_
        by_cases hlow : toSize c.connRecvWindow < header.length
        · rw [if_pos hlow]
          exact if_pos hlow
        · rw [if_neg hlow]
          refine (if_neg hlow).trans ?_
          exact hrefresh { c with connRecvWindow := c.connRecvWindow - toInt32 header.length }
            ((c.streams pos).receiveData header.length (hasFlag header.flags flagEndStream))

theorem flushDeferredResponses_withScratch (c : Connection) (w : Scratch) :
    (c.withScratch w).flushDeferredResponses = moved w c.flushDeferredResponses :=
  flushDeferredLoop_withScratch _ c w

theorem processWindowUpdate_withScratch (c : Connection) (w : Scratch) (header : FrameHeader)
    (payload : List UInt8) : (c.withScratch w).processWindowUpdate header payload
      = moved w (c.processWindowUpdate header payload) := by
  rcases hparse : parseWindowUpdate header payload with ret | increment
  · rw [processWindowUpdate, processWindowUpdate, hparse]
    rfl
  · rw [processWindowUpdate_eq _ hparse, processWindowUpdate_eq _ hparse]
    by_cases hid : header.streamId = 0
    · rw [if_pos hid, if_pos hid]
      by_cases hmax : c.connSendWindow + increment > int32Max
      · rw [if_pos hmax]
        exact if_pos hmax
      · rw [if_neg hmax]
        refine (if_neg hmax).trans ?_
        exact flushDeferredResponses_withScratch
          { c with connSendWindow := c.connSendWindow + increment } w
    · rw [if_neg hid, if_neg hid]
      rw [show (c.withScratch w).findStream header.streamId = c.findStream header.streamId from rfl]
      rcases c.findStream header.streamId with _ | pos
      · rfl
      · simp only
        by_cases hmax : (c.streams pos).sendWindow + increment > int32Max
        · rw [if_pos hmax]
          exact if_pos hmax
        · rw [if_neg hmax]
          refine (if_neg hmax).trans ?_
          exact flushDeferredResponses_withScratch
            (c.setStream pos ((c.streams pos).shift increment)) w

theorem processRstStream_withScratch (c : Connection) (w : Scratch) (header : FrameHeader)
    (payload : List UInt8) : (c.withScratch w).processRstStream header payload
      = moved w (c.processRstStream header payload) := by
  unfold processRstStream
  rcases parseRstStream header payload with ret | code
  · rfl
  · simp only
    rw [show (c.withScratch w).findStream header.streamId = c.findStream header.streamId from rfl]
    rcases c.findStream header.streamId with _ | pos
    · show (if header.streamId &&& 1 = 0 then _
        else if header.streamId > c.lastStreamId then _ else _) = _
      simp only
      split_ifs <;> rfl
    · rfl

theorem processPing_withScratch (c : Connection) (w : Scratch) (header : FrameHeader)
    (payload : List UInt8) :
    (c.withScratch w).processPing header payload = moved w (c.processPing header payload) := by
  unfold processPing
  rcases parsePing header payload with ret | opaqueData
  · rfl
  · simp only
    split
    · rfl
    · exact queueWire_withScratch c w _

theorem resetStreamError_withScratch (c : Connection) (w : Scratch) (streamId : Nat)
    (errorCode : ErrorCode) : (c.withScratch w).resetStreamError streamId errorCode
      = moved w (c.resetStreamError streamId errorCode) := by
  unfold resetStreamError queueRstStream
  rw [queueWire_withScratch,
    show (c.withScratch w).findStream streamId = c.findStream streamId from rfl]
  apply andThen_moved
  intro queued
  rcases c.findStream streamId with _ | pos <;> rfl

/-! ## The input -/

theorem finishHeaders_withInput (c : Connection) (streamId : Nat) (flags : UInt8)
    (block input : List UInt8) : { c with input := input }.finishHeaders streamId flags block
      = ((c.finishHeaders streamId flags block).1,
          { (c.finishHeaders streamId flags block).2 with input := input }) :=
  withInput_of_moved (fun c => c.finishHeaders streamId flags block)
    (fun c w => finishHeaders_withScratch c w streamId rfl block) c input

theorem processHeaders_withInput (c : Connection) (header : FrameHeader)
    (payload input : List UInt8) : { c with input := input }.processHeaders header payload
      = ((c.processHeaders header payload).1,
          { (c.processHeaders header payload).2 with input := input }) := by
  unfold processHeaders
  rcases parseHeaders header payload with ret | parsed
  · rfl
  · simp only
    by_cases hend : hasFlag header.flags flagEndHeaders = false
    · rw [if_pos hend, if_pos hend]
      by_cases hopen : c.headerBlockOpen = true
      · rw [if_pos hopen, if_pos hopen]
      · rw [if_neg hopen, if_neg hopen]
        unfold appendHeaderBlock
        split_ifs <;> rfl
    · rw [if_neg hend, if_neg hend]
      exact finishHeaders_withInput c _ _ _ input

theorem processContinuation_withInput (c : Connection) (header : FrameHeader)
    (payload input : List UInt8) : { c with input := input }.processContinuation header payload
      = ((c.processContinuation header payload).1,
          { (c.processContinuation header payload).2 with input := input }) := by
  unfold processContinuation
  by_cases hbad : c.headerBlockOpen = false ∨ header.streamId ≠ c.headerBlockStreamId
  · rw [if_pos hbad, if_pos hbad]
  · rw [if_neg hbad, if_neg hbad]
    rcases parseContinuation header payload with ret | fragment
    · rfl
    · simp only
      unfold appendHeaderBlock
      by_cases hbig : fragment.length > headerBlockCap - c.headerBlock.length
      · rw [if_pos hbig, if_pos hbig]
        rfl
      · rw [if_neg hbig, if_neg hbig, andThen_ok, andThen_ok]
        by_cases hend : hasFlag header.flags flagEndHeaders = false
        · rw [if_pos hend, if_pos hend]
        · rw [if_neg hend, if_neg hend]
          exact finishHeaders_withInput
            { c with headerBlock := c.headerBlock ++ fragment, headerBlockOpen := false } _ _ _ input

theorem handler_withInput (c : Connection) (t : FrameType) (f : Frame) (input : List UInt8) :
    { c with input := input }.handler t f
      = ((c.handler t f).1, { (c.handler t f).2 with input := input }) := by
  cases t with
  | data =>
      exact withInput_of_moved (fun c => c.processData f.header f.payload)
        (fun c w => processData_withScratch c w _ _) c input
  | headers => exact processHeaders_withInput c _ _ input
  | priority =>
      unfold handler
      rcases parsePriority f.header f.payload with ret | priority <;> rfl
  | rstStream =>
      exact withInput_of_moved (fun c => c.processRstStream f.header f.payload)
        (fun c w => processRstStream_withScratch c w _ _) c input
  | settings =>
      exact withInput_of_moved (fun c => c.applySettings f.header f.payload)
        (fun c w => applySettings_withScratch c w _ _) c input
  | pushPromise => rfl
  | ping =>
      exact withInput_of_moved (fun c => c.processPing f.header f.payload)
        (fun c w => processPing_withScratch c w _ _) c input
  | goaway => rfl
  | windowUpdate =>
      exact withInput_of_moved (fun c => c.processWindowUpdate f.header f.payload)
        (fun c w => processWindowUpdate_withScratch c w _ _) c input
  | continuation => exact processContinuation_withInput c _ _ input

theorem processFrame_withInput (c : Connection) (f : Frame) (input : List UInt8) :
    { c with input := input }.processFrame f.header f.payload
      = ((c.processFrame f.header f.payload).1,
          { (c.processFrame f.header f.payload).2 with input := input }) := by
  by_cases hadmits : c.Admits f
  · have hadmits' : Admits { c with input := input } f := hadmits
    rcases htype : FrameType.ofByte? f.type with _ | t
    · rw [processFrame_unknown hadmits htype, processFrame_unknown hadmits' htype]
    · have ht := FrameType.ofByte?_eq_some htype
      rw [processFrame_handler hadmits ht, processFrame_handler hadmits' ht]
      exact handler_withInput c t f input
  · rw [Admits, not_and_or, not_le, not_not] at hadmits
    unfold processFrame
    rw [Frame.header_length, Frame.header_type, Frame.header_streamId]
    by_cases hlen : f.payload.length > c.maxFrameSize
    · rw [if_pos hlen, if_pos hlen]
    · have hblock := hadmits.resolve_left hlen
      rw [if_neg hlen, if_pos hblock, if_neg hlen, if_pos hblock]

/-- **No frame depends on the input behind it.** -/
theorem handleFrame_withInput (c : Connection) (f : Frame) (input : List UInt8) :
    { c with input := input }.handleFrame f
      = ((c.handleFrame f).1, { (c.handleFrame f).2 with input := input }) := by
  have hproc := processFrame_withInput c f input
  rcases hres : c.processFrame f.header f.payload with ⟨ret, c'⟩
  rw [hres] at hproc
  by_cases hok : ret = .ok
  · subst hok
    rw [handleFrame_ok hres, handleFrame_ok hproc]
  · by_cases hreset : isStreamError ret = true ∧ f.streamId ≠ 0
    · rw [handleFrame_reset hres hreset.1 hreset.2, handleFrame_reset hproc hreset.1 hreset.2]
      exact withInput_of_moved (fun c => c.resetStreamError f.streamId ret)
        (fun c w => resetStreamError_withScratch c w _ _) c' input
    · rw [handleFrame_goaway hres hok hreset, handleFrame_goaway hproc hok hreset]
      have hgo := withInput_of_moved (fun c => c.queueGoaway ret)
        (fun c w => queueGoaway_withScratch c w ret) c' input
      rw [hgo]

end Connection

end C11Omo.Http2
