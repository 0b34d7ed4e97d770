import C11Omo.Http2.Delivery
import C11Omo.Http2.RoundTrip

set_option autoImplicit false

/-! # The first frame of a client

Nothing in the connection records that the SETTINGS of the client have come, so the first frame
behind the preface goes to its handler, whatever its type. It is refused only where the handler
finds a protocol error in it on a connection without streams (`RefusedFirst`). Exactly then the run
is what it should be for every first frame other than SETTINGS: it ends with a protocol error, and
nothing is queued but the settings of the server and a GOAWAY (`first_frame_settings`).
-/

namespace C11Omo.Http2

open C11Omo.Lib Connection

/-! ## Frames with a wrong stream id -/

/-- A stream id where there must be none, or none where there must be one. -/
def WrongStream (header : FrameHeader) : FrameType → Prop
  | .settings | .ping | .goaway => header.streamId ≠ 0
  | .windowUpdate => False
  | _ => header.streamId = 0

theorem validatePayload_wrongStream {header : FrameHeader} {t : FrameType}
    (htype : header.type = t.toByte) (hlen : header.length ≤ maxFrameSizeLimit) :
    validatePayload header = .protocolError ↔ WrongStream header t := by
  rw [validatePayload, if_neg (not_lt.mpr hlen), htype, FrameType.ofByte?_toByte]
  cases t <;> simp only [WrongStream, validateStreamNonzero] <;> split_ifs <;> simp_all

/-- With the right stream id the length may still be wrong. -/
theorem validatePayload_wrongLength {header : FrameHeader} {t : FrameType}
    (htype : header.type = t.toByte) (hlen : header.length ≤ maxFrameSizeLimit)
    (hright : ¬ WrongStream header t) (hno : ¬ HeaderAllowed header t) :
    validatePayload header = .frameSizeError := by
  rcases validatePayload_cases header with hcode | hcode | hcode
  · exact absurd ((validatePayload_ok_iff htype hlen).mp hcode) hno
  · exact absurd ((validatePayload_wrongStream htype hlen).mp hcode) hright
  · exact hcode

/-! ## The first frame and its handler -/

/-- The frames that their handlers refuse as a protocol error on a connection without streams,
without a trace. -/
def RefusedFirst (f : Frame) : Prop :=
  match FrameType.ofByte? f.type with
  | some .data => f.streamId = 0 ∨ ¬ (hasFlag f.flags flagPadded = true ∧ f.payload = [])
  | some .headers =>
      match parseHeaders f.header f.payload with
      | .error ret => ret = .protocolError
      | .ok _ => hasFlag f.flags flagEndHeaders = true ∧ f.streamId % 2 = 0
  | some .priority =>
      f.streamId ≠ 0 ∧ f.payload.length = 5 ∧ readU31 f.payload = f.streamId
  | some .rstStream => f.streamId = 0 ∨ f.payload.length = 4
  | some .settings => f.streamId ≠ 0
  | some .pushPromise => True
  | some .ping => f.streamId ≠ 0
  | some .goaway => f.streamId ≠ 0
  | some .windowUpdate => f.payload.length = 4 ∧ readU31 f.payload = 0
  | some .continuation => True
  | none => False

/-- A SETTINGS frame that is no acknowledgement. -/
def AppliesSettings (f : Frame) : Prop :=
  f.type = FrameType.settings.toByte ∧ hasFlag f.flags flagAck = false

instance (f : Frame) : Decidable (AppliesSettings f) := inferInstanceAs (Decidable (_ ∧ _))

/-- No stream has been opened and no window moved, on a connection that has had its preface. -/
structure Blank (c : Connection) : Prop where
  streams : c.streams = fun _ => Stream.zero
  lastStreamId : c.lastStreamId = 0
  connSendWindow : c.connSendWindow = defaultWindowSize
  connRecvWindow : c.connRecvWindow = defaultWindowSize
  initialStreamWindow : c.initialStreamWindow = defaultWindowSize
  maxFrameSize : c.maxFrameSize = defaultMaxFrameSize
  responsesSent : c.responsesSent = 0

/-- The connection behind the preface, but for its buffers and a GOAWAY. Nothing but the settings
of the server and the GOAWAY is in the output. -/
def Unused (c : Connection) : Prop :=
  c.output.length ≤ 32 ∧ ∃ input output sent code, c = { started with
    input := input, output := output, goawaySent := sent, goawayError := code }

section

variable {c : Connection} {f : Frame}

theorem Unused.findStream (h : Unused c) {streamId : Nat} (h0 : streamId ≠ 0) :
    c.findStream streamId = none := by
  obtain ⟨-, input, output, sent, code, rfl⟩ := h
  exact findStream_eq_none.mpr fun _ hid => h0 hid.symm

theorem Unused.admits (h : Unused c) (hlen : f.payload.length ≤ defaultMaxFrameSize) :
    c.Admits f := by
  obtain ⟨-, input, output, sent, code, rfl⟩ := h
  exact ⟨hlen, fun hopen => by cases hopen.1⟩

theorem Unused.inv (h : Unused c) : Inv c := by
  obtain ⟨hlen, input, output, sent, code, rfl⟩ := h
  exact { started_inv with output_le := hlen.trans (by decide) }

/-- Without streams no response is waiting. -/
theorem flushDeferredLoop_empty (h : c.streams = fun _ => Stream.zero)
    (ps : List (Fin connMaxStreams)) : Connection.flushDeferredLoop ps c = (.ok, c) := by
  induction ps with
  | nil => rfl
  | cons pos ps ih =>
      rw [Connection.flushDeferredLoop, if_neg (by rw [h]; rintro ⟨hlive, -⟩; cases hlive)]
      exact ih

theorem queueWire_code (c : Connection) (wire : Option (List UInt8)) :
    (c.queueWire wire).1 = .ok ∨ (c.queueWire wire).1 = .internalError := by
  rcases wire with _ | bytes
  · exact Or.inr rfl
  · show (c.queueBytes bytes).1 = _ ∨ (c.queueBytes bytes).1 = _
    rw [Connection.queueBytes]
    split
    · exact Or.inr rfl
    · exact Or.inl rfl

/-- The handler refuses the frame with a protocol error and leaves no trace if it is
`RefusedFirst`, and otherwise ends with another code, or with a stream id that is used up. -/
def HandledFirst (c : Connection) (f : Frame) (r : ErrorCode × Connection) : Prop :=
  (RefusedFirst f → r = (.protocolError, c))
    ∧ (¬ RefusedFirst f → r.1 = .protocolError → r.2.lastStreamId ≠ 0)

theorem HandledFirst.refused (h : RefusedFirst f) : HandledFirst c f (.protocolError, c) :=
  ⟨fun _ => rfl, fun hno => absurd h hno⟩

theorem HandledFirst.other {ret : ErrorCode} {c' : Connection} (h : ¬ RefusedFirst f)
    (hret : ret ≠ .protocolError) : HandledFirst c f (ret, c') :=
  ⟨fun hyes => absurd hyes h, fun _ hcode => absurd hcode hret⟩

theorem Unused.processData (hc : Unused c) (ht : f.type = FrameType.data.toByte) :
    HandledFirst c f (c.processData f.header f.payload) := by
  have hrefused : RefusedFirst f
      ↔ f.streamId = 0 ∨ ¬ (hasFlag f.flags flagPadded = true ∧ f.payload = []) := by
    rw [RefusedFirst, ht, FrameType.ofByte?_toByte]
  have hvalid := @validatePayload_ok_iff f.header .data ht f.payload_le
  rw [Connection.processData, parseData]
  by_cases hid : f.streamId = 0
  · rw [if_pos (Or.inr (mt hvalid.mp (not_not.mpr hid)))]
    exact .refused (hrefused.mpr (Or.inl hid))
  · -- a connection without streams: whatever is parsed meets no slot
    have hfind := hc.findStream hid
    have hguard : ¬ (f.header.type ≠ FrameType.data.toByte ∨ validatePayload f.header ≠ .ok) :=
      not_or.mpr ⟨not_not.mpr ht, not_not.mpr (hvalid.mpr hid)⟩
    rw [if_neg hguard, Frame.header_flags, Frame.header_length]
    by_cases hpad : hasFlag f.flags flagPadded = true
    · rw [if_pos hpad]
      by_cases hnil : f.payload = []
      · rw [if_pos (by rw [hnil]; rfl)]
        exact .other (by rw [hrefused]; simp [hid, hpad, hnil]) (by decide)
      · have hyes := hrefused.mpr (Or.inr fun h => hnil h.2)
        rw [if_neg (by simpa using hnil)]
        split
        · next hlong =>
            split_ifs at hlong
            · cases hlong
              exact .refused hyes
        · simp only [Frame.header_streamId, hfind]
          exact .refused hyes
    · rw [if_neg hpad]
      simp only [Frame.header_streamId, hfind]
      exact .refused (hrefused.mpr (Or.inr fun h => hpad h.1))

theorem Unused.processHeaders (hc : Unused c) (ht : f.type = FrameType.headers.toByte) :
    HandledFirst c f (c.processHeaders f.header f.payload) := by
  have hlast : c.lastStreamId = 0 := by
    obtain ⟨-, input, output, sent, code, rfl⟩ := hc
    rfl
  have hclosed : c.headerBlockOpen = false := by
    obtain ⟨-, input, output, sent, code, rfl⟩ := hc
    rfl
  rcases hparse : parseHeaders f.header f.payload with ret | parsed
  · -- the parser rejects it: its code is the code of the handler
    have hrefused : RefusedFirst f ↔ ret = .protocolError := by
      rw [RefusedFirst, ht, FrameType.ofByte?_toByte]
      simp only [hparse]
    rw [Connection.processHeaders, hparse]
    by_cases hret : ret = .protocolError
    · subst hret
      exact .refused (hrefused.mpr rfl)
    · exact .other (mt hrefused.mp hret) hret
  · have hrefused : RefusedFirst f
        ↔ hasFlag f.flags flagEndHeaders = true ∧ f.streamId % 2 = 0 := by
      rw [RefusedFirst, ht, FrameType.ofByte?_toByte]
      simp only [hparse]
    rw [Connection.processHeaders, hparse]
    dsimp only
    by_cases hend : hasFlag f.flags flagEndHeaders = true
    · have hwhole : ¬ hasFlag f.header.flags flagEndHeaders = false := by simp [hend]
      rw [if_neg hwhole]
      by_cases heven : f.streamId % 2 = 0
      · rw [Frame.header_streamId, finishHeaders_reject (Or.inl heven)]
        exact .refused (hrefused.mpr ⟨hend, heven⟩)
      · -- an odd id is new, and is used up
        have hodd : f.streamId % 2 = 1 := by omega
        have hnew : c.lastStreamId < f.streamId := by omega
        refine ⟨fun hyes => absurd (hrefused.mp hyes).2 heven, fun _ hcode => ?_⟩
        rw [Frame.header_streamId, finishHeaders_eq hc.inv hodd hnew] at hcode ⊢
        rcases hfree : c.freeSlot with _ | pos
        · rw [hfree] at hcode
          cases hcode
        · rw [hfree] at hcode
          simp only at hcode ⊢
          -- with a path or without one, `last_stream_id` is set before the block is read
          by_cases hpath : (extractPath parsed.headerBlock streamPathCap).1 = .ok
          · rw [if_pos hpath] at hcode ⊢
            have hne := extractPath_ne_nil (Prod.ext hpath rfl)
            obtain ⟨es, hacts, -⟩ := opened_queueResponse_does hc.inv hfree hodd hnew f.streamId_lt
              (extractPath_pathText parsed.headerBlock) hne (hasFlag f.flags flagEndStream)
            have hle : f.streamId ≤ _ := hacts.lastStreamId_le
            exact Nat.ne_of_gt (lt_of_lt_of_le (by omega) hle)
          · have hused : f.streamId ≠ 0 := by omega
            rw [if_neg hpath]
            exact hused
    · -- the block goes on in CONTINUATION frames
      have hno : ¬ RefusedFirst f := mt hrefused.mp fun h => hend h.1
      have hopen : hasFlag f.header.flags flagEndHeaders = false := by simpa using hend
      rw [if_pos hopen, if_neg (by simp [hclosed]), appendHeaderBlock]
      split
      · exact .other hno (by decide)
      · exact .other hno (by decide)

theorem Unused.processRstStream (hc : Unused c) (ht : f.type = FrameType.rstStream.toByte) :
    HandledFirst c f (c.processRstStream f.header f.payload) := by
  have hrefused : RefusedFirst f ↔ f.streamId = 0 ∨ f.payload.length = 4 := by
    rw [RefusedFirst, ht, FrameType.ofByte?_toByte]
  have htype : f.header.type = FrameType.rstStream.toByte := ht
  have hwrong := validatePayload_wrongStream htype f.payload_le
  have hvalid := validatePayload_ok_iff htype f.payload_le
  rw [Connection.processRstStream, parseRstStream, if_neg (not_not.mpr htype)]
  by_cases hid : f.streamId = 0
  · have hcode := hwrong.mpr hid
    rw [if_pos (by rw [hcode]; decide), hcode]
    exact .refused (hrefused.mpr (Or.inl hid))
  · by_cases hfour : f.payload.length = 4
    · have hfind : c.findStream f.header.streamId = none := hc.findStream hid
      have hyes := hrefused.mpr (Or.inr hfour)
      -- an odd id is above `last_stream_id`
      have hnew : f.header.streamId > c.lastStreamId := by
        obtain ⟨-, input, output, sent, code, rfl⟩ := hc
        exact Nat.pos_of_ne_zero hid
      rw [if_neg (not_not.mpr (hvalid.mpr ⟨hid, hfour⟩))]
      simp only [hfind, if_pos hnew, ite_self]
      exact .refused hyes
    · have hcode := validatePayload_wrongLength htype f.payload_le hid fun h => hfour h.2
      rw [hcode, if_pos (by decide)]
      exact .other (by rw [hrefused]; simp [hid, hfour]) (by decide)

theorem Unused.applySettings (ht : f.type = FrameType.settings.toByte)
    (hack : hasFlag f.flags flagAck = true) :
    HandledFirst c f (c.applySettings f.header f.payload) := by
  have hrefused : RefusedFirst f ↔ f.streamId ≠ 0 := by
    rw [RefusedFirst, ht, FrameType.ofByte?_toByte]
  have htype : f.header.type = FrameType.settings.toByte := ht
  have hwrong := validatePayload_wrongStream htype f.payload_le
  rw [Connection.applySettings, parseSettings, if_neg (not_not.mpr htype)]
  by_cases hid : f.streamId ≠ 0
  · have hcode := hwrong.mpr hid
    rw [if_pos (by rw [hcode]; decide), hcode]
    exact .refused (hrefused.mpr hid)
  · have hno := mt hrefused.mp hid
    rcases validatePayload_cases f.header with hcode | hcode | hcode
    · have hack' : hasFlag f.header.flags flagAck = true := hack
      rw [if_neg (not_not.mpr hcode), if_pos hack']
      simp only [if_pos hack']
      exact .other hno (by decide)
    · exact absurd (hwrong.mp hcode) hid
    · rw [hcode, if_pos (by decide)]
      exact .other hno (by decide)

theorem Unused.processPing (ht : f.type = FrameType.ping.toByte) :
    HandledFirst c f (c.processPing f.header f.payload) := by
  have hrefused : RefusedFirst f ↔ f.streamId ≠ 0 := by
    rw [RefusedFirst, ht, FrameType.ofByte?_toByte]
  have htype : f.header.type = FrameType.ping.toByte := ht
  have hwrong := validatePayload_wrongStream htype f.payload_le
  rw [Connection.processPing, parsePing, if_neg (not_not.mpr htype)]
  by_cases hid : f.streamId ≠ 0
  · have hcode := hwrong.mpr hid
    rw [if_pos (by rw [hcode]; decide), hcode]
    exact .refused (hrefused.mpr hid)
  · have hno := mt hrefused.mp hid
    rcases validatePayload_cases f.header with hcode | hcode | hcode
    · rw [if_neg (not_not.mpr hcode)]
      simp only
      split
      · exact .other hno (by decide)
      · refine ⟨fun hyes => absurd hyes hno, fun _ h => ?_⟩
        rcases queueWire_code c (encodePing (frameHeaderLen + 8) flagAck (f.payload.take 8))
          with hqueue | hqueue
        · cases hqueue.symm.trans h
        · cases hqueue.symm.trans h
    · exact absurd (hwrong.mp hcode) hid
    · rw [hcode, if_pos (by decide)]
      exact .other hno (by decide)

theorem Unused.processWindowUpdate (hc : Unused c)
    (ht : f.type = FrameType.windowUpdate.toByte) :
    HandledFirst c f (c.processWindowUpdate f.header f.payload) := by
  have hrefused : RefusedFirst f ↔ f.payload.length = 4 ∧ readU31 f.payload = 0 := by
    rw [RefusedFirst, ht, FrameType.ofByte?_toByte]
  have htype : f.header.type = FrameType.windowUpdate.toByte := ht
  have hvalid := validatePayload_ok_iff htype f.payload_le
  rcases hparse : parseWindowUpdate f.header f.payload with ret | increment
  · rw [Connection.processWindowUpdate, hparse]
    rw [parseWindowUpdate, if_neg (not_not.mpr htype)] at hparse
    by_cases hfour : f.payload.length = 4
    · rw [if_neg (not_not.mpr (hvalid.mpr hfour))] at hparse
      split_ifs at hparse with hzero
      obtain rfl := Except.error.inj hparse
      exact .refused (hrefused.mpr ⟨hfour, hzero⟩)
    · have hcode := validatePayload_wrongLength htype f.payload_le id hfour
      rw [hcode, if_pos (by decide)] at hparse
      obtain rfl := Except.error.inj hparse
      exact .other (mt hrefused.mp fun h => hfour h.1) (by decide)
  · -- an increment that is read is accepted, also for a stream that does not exist
    have hno : ¬ RefusedFirst f := by
      rw [hrefused]
      rintro ⟨hfour, hzero⟩
      rw [parseWindowUpdate, if_neg (not_not.mpr htype), if_neg (not_not.mpr (hvalid.mpr hfour)),
        if_pos hzero] at hparse
      cases hparse
    rw [processWindowUpdate_eq c hparse]
    by_cases hid : f.header.streamId = 0
    · rw [if_pos hid]
      split
      · exact .other hno (by decide)
      · -- no response is waiting
        have hflush := @flushDeferredLoop_empty
          { c with connSendWindow := c.connSendWindow + (increment : Int) } (by
            obtain ⟨-, input, output, sent, code, rfl⟩ := hc
            rfl) (List.finRange connMaxStreams)
        rw [flushDeferredResponses, hflush]
        exact .other hno (by decide)
    · rw [if_neg hid, hc.findStream hid]
      exact .other hno (by decide)

theorem Unused.priority (ht : f.type = FrameType.priority.toByte) :
    HandledFirst c f (match parsePriority f.header f.payload with
      | .error ret => (ret, c)
      | .ok _ => (.ok, c)) := by
  have hrefused : RefusedFirst f
      ↔ f.streamId ≠ 0 ∧ f.payload.length = 5 ∧ readU31 f.payload = f.streamId := by
    rw [RefusedFirst, ht, FrameType.ofByte?_toByte]
  have htype : f.header.type = FrameType.priority.toByte := ht
  have hvalid := validatePayload_ok_iff htype f.payload_le
  rw [parsePriority]
  by_cases hallowed : HeaderAllowed f.header .priority
  · have hguard : ¬ (f.header.type ≠ FrameType.priority.toByte ∨ validatePayload f.header ≠ .ok) :=
      not_or.mpr ⟨not_not.mpr htype, not_not.mpr (hvalid.mpr hallowed)⟩
    rw [if_neg hguard]
    by_cases hself : readU31 f.payload = f.header.streamId
    · rw [if_pos hself]
      exact .refused (hrefused.mpr ⟨hallowed.1, hallowed.2, hself⟩)
    · rw [if_neg hself]
      exact .other (mt hrefused.mp fun h => hself h.2.2) (by decide)
  · rw [if_pos (Or.inr (mt hvalid.mp hallowed))]
    exact .other (mt hrefused.mp fun h => hallowed ⟨h.1, h.2.1⟩) (by decide)

theorem Unused.goaway (ht : f.type = FrameType.goaway.toByte) :
    HandledFirst c f (validatePayload f.header, c) := by
  have hrefused : RefusedFirst f ↔ f.streamId ≠ 0 := by
    rw [RefusedFirst, ht, FrameType.ofByte?_toByte]
  have htype : f.header.type = FrameType.goaway.toByte := ht
  have hwrong := validatePayload_wrongStream htype f.payload_le
  by_cases hid : f.streamId ≠ 0
  · rw [hwrong.mpr hid]
    exact .refused (hrefused.mpr hid)
  · exact .other (mt hrefused.mp hid) (mt hwrong.mp hid)

/-- **The first frame and its handler.** -/
theorem Unused.processFrame (hc : Unused c) (hlen : f.payload.length ≤ defaultMaxFrameSize)
    (hfirst : ¬ AppliesSettings f) : HandledFirst c f (c.processFrame f.header f.payload) := by
  have hadmits := hc.admits hlen
  rcases htype : FrameType.ofByte? f.type with _ | t
  · have hno : ¬ RefusedFirst f := by
      rw [RefusedFirst, htype]
      exact id
    rw [processFrame_unknown hadmits htype]
    exact .other hno (by decide)
  · have ht := FrameType.ofByte?_eq_some htype
    rw [processFrame_handler hadmits ht]
    cases t with
    | data => exact hc.processData ht
    | headers => exact hc.processHeaders ht
    | priority => exact Unused.priority ht
    | rstStream => exact hc.processRstStream ht
    | settings =>
        exact Unused.applySettings ht (by simpa [AppliesSettings, ht] using hfirst)
    | pushPromise => exact .refused (by rw [RefusedFirst, htype]; trivial)
    | ping => exact Unused.processPing ht
    | goaway => exact Unused.goaway ht
    | windowUpdate => exact hc.processWindowUpdate ht
    | continuation =>
        have hrefused : RefusedFirst f := by
          rw [RefusedFirst, htype]
          trivial
        obtain ⟨-, input, output, sent, code, rfl⟩ := hc
        exact .refused hrefused

theorem Unused.handleFrame (hc : Unused c) (hlen : f.payload.length ≤ defaultMaxFrameSize)
    (hfirst : ¬ AppliesSettings f) :
    (RefusedFirst f → c.handleFrame f = (.protocolError, (c.queueGoaway .protocolError).2))
      ∧ (¬ RefusedFirst f → (c.handleFrame f).1 = .protocolError →
        (c.handleFrame f).2.lastStreamId ≠ 0) := by
  obtain ⟨hyes, hno⟩ := hc.processFrame hlen hfirst
  refine ⟨fun h => handleFrame_goaway (hyes h) (by decide) (by simp [isStreamError]), ?_⟩
  intro h hcode
  obtain ⟨es, hacts, -⟩ := processFrame_acts hc.inv f
  have hne := hno h
  rcases hres : c.processFrame f.header f.payload with ⟨ret, c'⟩
  rw [hres] at hne hacts
  have hinv : Inv c' := hacts.inv hc.inv
  by_cases hok : ret = .ok
  · subst hok
    rw [handleFrame_ok hres] at hcode
    cases hcode
  · by_cases hreset : isStreamError ret = true ∧ f.streamId ≠ 0
    · -- the stream is reset, or its reset does not fit
      rw [handleFrame_reset hres hreset.1 hreset.2] at hcode
      rcases resetStreamError_code hinv hreset.2 ret with hret | hret
      · cases hret.symm.trans hcode
      · rw [hret] at hcode
        cases hcode
    · rw [handleFrame_goaway hres hok hreset] at hcode ⊢
      have hkeep : (c'.queueGoaway ret).2.lastStreamId = c'.lastStreamId := by
        rw [queueGoaway_eq hinv]
        split_ifs <;> rfl
      rw [hkeep]
      exact hne hcode

end

/-! ## Runs -/

/-- The first frame is not complete yet: nothing but the settings of the server has been queued. -/
structure Expecting (r : Run) : Prop where
  steps : r.steps = []
  codes : ∃ m, r.codes = List.replicate m .ok
  conn : r.received.length < clientPrefaceLen
      ∧ r.conn = { Connection.init with input := r.received } ∧ r.sent = []
    ∨ clientPrefaceLen ≤ r.received.length
      ∧ ∃ output, r.conn = { started with
          input := r.received.drop clientPrefaceLen, output := output }
        ∧ r.sent ++ output = serverSettingsFrame.wire

/-- The first frame has been refused, once or several times. -/
structure Refused (f : Frame) (r : Run) : Prop where
  steps : ∀ st ∈ r.steps, ∃ c, Unused c ∧ st = c.frameStep f
  codes : ∃ m n, r.codes = List.replicate m .ok ++ List.replicate (n + 1) .protocolError
  conn : ∃ output, r.conn = { started with
      input := r.received.drop clientPrefaceLen, output := output, goawaySent := true,
      goawayError := ErrorCode.protocolError.toNat }
    ∧ r.sent ++ output = wireOf [serverSettingsFrame, goawayFrame 0 .protocolError]

/-- The first frame has been handled. -/
def Handled (f : Frame) (r : Run) : Prop := ∃ c, Unused c ∧ c.frameStep f ∈ r.steps

namespace Connection

variable {c : Connection}

/-- A loop without a complete frame does nothing. -/
theorem feedLoop_none (h : cutFrame c.input = none) (fuel : Nat) :
    c.feedLoop fuel = (.ok, c) ∧ c.loopSteps fuel = [] := by
  cases fuel with
  | zero => exact ⟨rfl, rfl⟩
  | succ fuel =>
      rw [feedLoop, feedStep_of_cut_none h, loopSteps, h]
      exact ⟨rfl, rfl⟩

/-- A loop starts with the frame at the front, and ends there if it fails. -/
theorem feedLoop_some (hc : Inv c) {f : Frame} {rest : List UInt8}
    (h : cutFrame c.input = some (f, rest)) {fuel : Nat} (hfuel : 0 < fuel) :
    c.frameStep f ∈ c.loopSteps fuel
      ∧ ((c.handleFrame f).1 ≠ .ok →
        c.feedLoop fuel = c.handleFrame f ∧ c.loopSteps fuel = [c.frameStep f]) := by
  obtain ⟨n, rfl⟩ : ∃ n, fuel = n + 1 := ⟨fuel - 1, by omega⟩
  rw [feedLoop, feedStep_of_cut hc h, loopSteps, h]
  refine ⟨List.mem_cons_self .., fun herr => ?_⟩
  rw [if_neg herr]
  dsimp only
  rw [if_neg herr]
  exact ⟨rfl, rfl⟩

end Connection

/-- A chunk that completes the preface, or comes behind it, is for the loop. -/
theorem Expecting.feed_loop {r : Run} (h : Expecting r) {data : List UInt8}
    (hfit : r.conn.input.length + data.length ≤ connInputCap)
    (hpre : clientPreface <+: r.received ++ data) :
    ∃ output, r.sent ++ output = serverSettingsFrame.wire ∧
      ∀ c, c = { started with
          input := (r.received ++ data).drop clientPrefaceLen, output := output } →
        r.conn.feed data = c.feedLoop c.input.length
          ∧ r.conn.feedSteps data = c.loopSteps c.input.length := by
  have hbig : ¬ data.length > connInputCap - r.conn.input.length := by omega
  have hlen : ¬ (r.received ++ data).length < clientPrefaceLen := not_lt.mpr hpre.length_le
  -- either this call completes the preface, or an earlier one has
  rcases h.conn with ⟨-, hconn, hsent⟩ | ⟨hseen, output, hconn, hsent⟩
  · refine ⟨started.output, by rw [hsent]; rfl, ?_⟩
    rintro c rfl
    have hinv : Inv { Connection.init with input := r.received ++ data } := { Inv.init with }
    have hgreet := feedPreface_good hinv (fun _ => ⟨rfl, Nat.zero_le _, fun _ => rfl⟩) rfl (by
      obtain ⟨rest, hrest⟩ := hpre
      show (r.received ++ data).take clientPrefaceLen = clientPreface
      rw [← hrest]
      rfl)
    have hnew : ¬ ({ Connection.init with input := r.received ++ data } : Connection).prefaceSeen
        = true := by simp [Connection.init]
    rw [Connection.feed, Connection.feedSteps, if_neg hbig, if_neg hbig, hconn]
    dsimp only
    rw [if_neg hnew, if_neg hnew, if_neg hlen, if_neg hlen, hgreet, andThen_ok, if_pos rfl]
    exact ⟨rfl, rfl⟩
  · refine ⟨output, hsent, ?_⟩
    rintro c rfl
    have hloop := feed_of_seen (by rw [hconn]; rfl) (not_lt.mpr (Nat.le_sub_of_add_le' hfit))
    rw [hconn] at hloop ⊢
    rw [List.drop_append_of_le_length hseen]
    exact hloop

/-- The first frame comes to a connection that is unused, and which frame it is decides. -/
theorem Unused.feedLoop {c : Connection} (hc : Unused c) {f : Frame} {rest : List UInt8}
    (hcut : cutFrame c.input = some (f, rest)) (hlen : f.payload.length ≤ defaultMaxFrameSize)
    (hfirst : ¬ AppliesSettings f) :
    c.frameStep f ∈ c.loopSteps c.input.length
      ∧ (RefusedFirst f →
        c.feedLoop c.input.length = (.protocolError, (c.queueGoaway .protocolError).2)
          ∧ c.loopSteps c.input.length = [c.frameStep f]) := by
  have hpos : 0 < c.input.length := Nat.zero_lt_of_lt (frameFraming.cut_length_lt hcut)
  obtain ⟨hmem, herr⟩ := Connection.feedLoop_some hc.inv hcut hpos
  refine ⟨hmem, fun hrefused => ?_⟩
  have hhandled := (hc.handleFrame hlen hfirst).1 hrefused
  obtain ⟨hloop, hsteps⟩ := herr (by rw [hhandled]; exact ErrorCode.noConfusion)
  exact ⟨hloop.trans hhandled, hsteps⟩

/-- Where a run is with its first frame, which comes in the bytes `front`. -/
def Stage (f : Frame) (front : List UInt8) (r : Run) : Prop :=
  Expecting r ∧ r.received.length < (clientPreface ++ front).length
    ∨ Handled f r ∧ clientPreface ++ front <+: r.received ∧ (RefusedFirst f → Refused f r)

section

variable {r : Run} {f : Frame} {front data : List UInt8}

/-- As long as the first frame is not complete nothing happens. -/
theorem Expecting.feed_short (h : Expecting r)
    (hfit : r.conn.input.length + data.length ≤ connInputCap)
    (hfront : cutFrame front = some (f, [])) (hpre : r.received ++ data <+: clientPreface ++ front)
    (hshort : (r.received ++ data).length < (clientPreface ++ front).length) :
    Expecting (r.call (.feed data)) := by
  obtain ⟨m, hm⟩ := h.codes
  -- a call that returns `H2_OK` and handles no frame
  have hquiet : ∀ {c : Connection}, r.conn.feed data = (.ok, c) → r.conn.feedSteps data = [] →
      ((r.received ++ data).length < clientPrefaceLen
          ∧ c = { Connection.init with input := r.received ++ data } ∧ r.sent = []
        ∨ clientPrefaceLen ≤ (r.received ++ data).length
          ∧ ∃ output, c = { started with
              input := (r.received ++ data).drop clientPrefaceLen, output := output }
            ∧ r.sent ++ output = serverSettingsFrame.wire) →
      Expecting (r.call (.feed data)) := by
    intro c hfeed hsteps hconn
    have hcodes : (r.call (.feed data)).codes = List.replicate (m + 1) .ok := by
      rw [Run.call_feed_codes, hfeed, hm, List.replicate_succ']
    refine ⟨?_, ⟨m + 1, hcodes⟩, ?_⟩
    · show r.steps ++ _ = []
      rw [h.steps, hsteps]
      rfl
    · rw [Run.call_feed_conn, hfeed]
      exact hconn
  -- the preface itself may still be cut, or only the frame behind it
  by_cases hlen : (r.received ++ data).length < clientPrefaceLen
  · rcases h.conn with ⟨-, hconn, hsent⟩ | ⟨hseen, -⟩
    · have hbig : ¬ data.length > connInputCap - r.conn.input.length := by omega
      have hnew : ¬ ({ Connection.init with input := r.received ++ data } : Connection).prefaceSeen
          = true := by simp [Connection.init]
      apply hquiet (c := { Connection.init with input := r.received ++ data })
      · rw [Connection.feed, if_neg hbig, hconn]
        dsimp only
        rw [if_neg hnew, if_pos hlen]
      · rw [Connection.feedSteps, if_neg hbig, hconn]
        dsimp only
        rw [if_neg hnew, if_pos hlen]
      · exact Or.inl ⟨hlen, rfl, hsent⟩
    · rw [List.length_append] at hlen
      omega
  · have hseen : clientPrefaceLen ≤ (r.received ++ data).length := not_lt.mp hlen
    have hpreface : clientPreface <+: r.received ++ data :=
      List.prefix_of_prefix_length_le (List.prefix_append _ _) hpre hseen
    obtain ⟨output, hsent, hloop⟩ := h.feed_loop hfit hpreface
    obtain ⟨hfeed, hsteps⟩ := hloop _ rfl
    have hdrop : (r.received ++ data).drop clientPrefaceLen <+: front :=
      hpre.drop clientPrefaceLen
    have hcut : cutFrame ((r.received ++ data).drop clientPrefaceLen) = none := by
      obtain ⟨tail, htail⟩ := hdrop
      apply @cutFrame_incomplete _ tail f
      · rw [htail]
        exact hfront
      · rintro rfl
        rw [List.append_nil] at htail
        have hlenFront := congrArg List.length htail
        rw [List.length_drop] at hlenFront
        have hwhole : (clientPreface ++ front).length = clientPrefaceLen + front.length :=
          List.length_append
        omega
    obtain ⟨hstop, hnone⟩ := @Connection.feedLoop_none { started with
      input := (r.received ++ data).drop clientPrefaceLen, output := output } hcut
      ((r.received ++ data).drop clientPrefaceLen).length
    exact hquiet (hfeed.trans hstop) (hsteps.trans hnone) (Or.inr ⟨hseen, output, rfl, hsent⟩)

/-- The output of the server settings, or a part of it, has room for a GOAWAY. -/
theorem unused_started {input sent output : List UInt8}
    (hsent : sent ++ output = serverSettingsFrame.wire) :
    Unused { started with input := input, output := output } := by
  have hlen := congrArg List.length hsent
  rw [List.length_append, serverSettingsFrame_wire_length] at hlen
  exact ⟨show output.length ≤ 32 by omega, input, output, false, started.goawayError, rfl⟩

/-- The GOAWAY behind the server settings. -/
theorem queueGoaway_started_settings {input sent output : List UInt8}
    (hsent : sent ++ output = serverSettingsFrame.wire) :
    ({ started with input := input, output := output }.queueGoaway .protocolError).2
      = { started with
          input := input, goawaySent := true, goawayError := ErrorCode.protocolError.toNat,
          output := output ++ (goawayFrame 0 .protocolError).wire } := by
  have hunused := @unused_started input sent output hsent
  have hnew : ¬ ({ started with input := input, output := output } : Connection).goawaySent
      = true := by
    show ¬ false = true
    decide
  have hfit : ({ started with input := input, output := output } : Connection).Fits
      (goawayFrame 0 .protocolError) := by
    have hlen := congrArg List.length hsent
    rw [List.length_append, serverSettingsFrame_wire_length] at hlen
    show output.length + _ ≤ connOutputCap
    rw [goawayFrame_wire_length, connOutputCap]
    omega
  rw [queueGoaway_eq hunused.inv, if_neg hnew]
  exact congrArg Prod.snd (if_pos hfit)

theorem Expecting.feed_whole (h : Expecting r)
    (hfit : r.conn.input.length + data.length ≤ connInputCap)
    (hfront : cutFrame front = some (f, [])) (hlen : f.payload.length ≤ defaultMaxFrameSize)
    (hfirst : ¬ AppliesSettings f) (hpre : clientPreface ++ front <+: r.received ++ data) :
    Stage f front (r.call (.feed data)) := by
  obtain ⟨rest, hrest⟩ := hpre
  have hpreface : clientPreface <+: r.received ++ data := by
    refine ⟨front ++ rest, ?_⟩
    rw [← hrest, List.append_assoc]
  have hdrop : (r.received ++ data).drop clientPrefaceLen = front ++ rest := by
    rw [← hrest, List.append_assoc]
    rfl
  have hcut : cutFrame ((r.received ++ data).drop clientPrefaceLen) = some (f, rest) := by
    rw [hdrop]
    exact frameFraming.cut_append hfront rest
  obtain ⟨output, hsent, hloop⟩ := h.feed_loop hfit hpreface
  obtain ⟨hfeed, hsteps⟩ := hloop _ rfl
  have hunused := @unused_started ((r.received ++ data).drop clientPrefaceLen) r.sent output hsent
  obtain ⟨hmem, hrefused⟩ := hunused.feedLoop hcut hlen hfirst
  rw [← hsteps, ← hfeed] at hrefused
  rw [← hsteps] at hmem
  -- the loop meets the frame in the state that the greeting left
  refine Or.inr ⟨⟨_, hunused, List.mem_append_right _ hmem⟩, ⟨rest, hrest⟩, fun hf => ?_⟩
  obtain ⟨hcode, hone⟩ := hrefused hf
  rw [queueGoaway_started_settings hsent] at hcode
  obtain ⟨m, hm⟩ := h.codes
  constructor
  · intro st hst
    have hst' : st ∈ r.steps ++ r.conn.feedSteps data := hst
    rw [h.steps, List.nil_append, hone, List.mem_singleton] at hst'
    exact ⟨_, hunused, hst'⟩
  · exact ⟨m, 0, by rw [Run.call_feed_codes, hcode, hm]; rfl⟩
  · refine ⟨output ++ (goawayFrame 0 .protocolError).wire, ?_, ?_⟩
    · rw [Run.call_feed_conn, hcode]
      rfl
    · calc r.sent ++ (output ++ (goawayFrame 0 .protocolError).wire)
          = serverSettingsFrame.wire ++ (goawayFrame 0 .protocolError).wire := by
            rw [← List.append_assoc, hsent]
        _ = wireOf [serverSettingsFrame, goawayFrame 0 .protocolError] := by decide

/-- A refused first frame is refused again in every later call. -/
theorem Refused.feed (h : Refused f r)
    (hfit : r.conn.input.length + data.length ≤ connInputCap)
    (hfront : cutFrame front = some (f, [])) (hlen : f.payload.length ≤ defaultMaxFrameSize)
    (hfirst : ¬ AppliesSettings f) (hpre : clientPreface ++ front <+: r.received)
    (hf : RefusedFirst f) : Refused f (r.call (.feed data)) := by
  obtain ⟨rest, hrest⟩ := hpre
  obtain ⟨hsteps, ⟨m, n, hm⟩, output, hconn, hsent⟩ := h
  have hreceived : clientPrefaceLen ≤ r.received.length := by
    rw [← hrest, List.append_assoc, List.length_append]
    exact Nat.le_add_right _ _
  have hdrop : (r.received ++ data).drop clientPrefaceLen = front ++ (rest ++ data) := by
    rw [← hrest, List.append_assoc, List.append_assoc]
    rfl
  have hcut : cutFrame ((r.received ++ data).drop clientPrefaceLen) = some (f, rest ++ data) := by
    rw [hdrop]
    exact frameFraming.cut_append hfront _
  obtain ⟨hfeed, hfeedSteps⟩ := feed_of_seen (by rw [hconn]; rfl) (not_lt.mpr (Nat.le_sub_of_add_le' hfit))
  have hunused : Unused { started with
      input := (r.received ++ data).drop clientPrefaceLen, output := output, goawaySent := true,
      goawayError := ErrorCode.protocolError.toNat } := by
    have hout := congrArg List.length hsent
    have htotal : (wireOf [serverSettingsFrame, goawayFrame 0 .protocolError]).length = 32 := by
      decide
    rw [List.length_append, htotal] at hout
    exact ⟨show output.length ≤ 32 by omega, _, _, _, _, rfl⟩
  have hinput : { r.conn with input := r.conn.input ++ data } = { started with
      input := (r.received ++ data).drop clientPrefaceLen, output := output, goawaySent := true,
      goawayError := ErrorCode.protocolError.toNat } := by
    rw [hconn, List.drop_append_of_le_length hreceived]
  have hinput' : r.conn.input ++ data = (r.received ++ data).drop clientPrefaceLen := by
    rw [hconn, List.drop_append_of_le_length hreceived]
  obtain ⟨-, hrefused⟩ := hunused.feedLoop hcut hlen hfirst
  obtain ⟨hcode, hone⟩ := hrefused hf
  -- the frame is still at the front of the input; only the GOAWAY is not queued again
  rw [hinput, hinput'] at hfeed hfeedSteps
  rw [← hfeed, queueGoaway_eq hunused.inv, if_pos rfl] at hcode
  rw [← hfeedSteps] at hone
  constructor
  · intro st hst
    rcases List.mem_append.mp hst with hst | hst
    · exact hsteps st hst
    · rw [hone, List.mem_singleton] at hst
      exact ⟨_, hunused, hst⟩
  · refine ⟨m, n + 1, ?_⟩
    rw [Run.call_feed_codes, hcode, hm, List.append_assoc, List.replicate_succ' (n := n + 1)]
  · exact ⟨output, by rw [Run.call_feed_conn, hcode]; rfl, hsent⟩

/-- Taking output off the queue changes nothing about the first frame. -/
theorem Stage.consume (h : Stage f front r) (sentLen : Nat) :
    Stage f front (r.call (.consume sentLen)) := by
  -- what is taken off the queue is counted as sent
  have hmove : ∀ {c : Connection}, r.conn = c → c.outputSent = 0 →
      (r.call (.consume sentLen)).conn = { c with output := c.output.drop sentLen }
        ∧ (r.call (.consume sentLen)).sent ++ c.output.drop sentLen = r.sent ++ c.output := by
    rintro c rfl h0
    have hpend : r.conn.pending = r.conn.output := by
      rw [Connection.pending, h0, List.drop_zero]
    refine ⟨consumeOutput_eq h0 sentLen, ?_⟩
    show r.sent ++ r.conn.pending.take sentLen ++ _ = _
    rw [hpend, List.append_assoc, List.take_append_drop]
  rcases h with ⟨⟨hsteps, hcodes, hconn⟩, hlen⟩ | ⟨hhandled, hpre, hrefused⟩
  · refine Or.inl ⟨⟨hsteps, hcodes, ?_⟩, hlen⟩
    rcases hconn with ⟨hshort, hconn, hsent⟩ | ⟨hseen, output, hconn, hsent⟩
    · obtain ⟨hconn', hsent'⟩ := hmove hconn rfl
      have hnil : ({ Connection.init with input := r.received } : Connection).output.drop sentLen
          = [] := List.drop_nil
      rw [hnil] at hconn' hsent'
      refine Or.inl ⟨hshort, hconn', ?_⟩
      calc (r.call (.consume sentLen)).sent
          = (r.call (.consume sentLen)).sent ++ [] := (List.append_nil _).symm
        _ = r.sent ++ [] := hsent'
        _ = [] := by rw [hsent, List.nil_append]
    · obtain ⟨hconn', hsent'⟩ := hmove hconn rfl
      exact Or.inr ⟨hseen, output.drop sentLen, hconn', hsent'.trans hsent⟩
  · refine Or.inr ⟨hhandled, hpre, fun hf => ?_⟩
    obtain ⟨hsteps, hcodes, output, hconn, hsent⟩ := hrefused hf
    obtain ⟨hconn', hsent'⟩ := hmove hconn rfl
    exact ⟨hsteps, hcodes, output.drop sentLen, hconn', hsent'.trans hsent⟩

/-- **One call** keeps the stage, as far as the bytes are those of the preface and the frame. -/
theorem Stage.call (h : Stage f front r) {op : Op} (hfit : r.ChunksFit [op])
    (hfront : cutFrame front = some (f, [])) (hlen : f.payload.length ≤ defaultMaxFrameSize)
    (hfirst : ¬ AppliesSettings f) {stream : List UInt8} (hpre : clientPreface ++ front <+: stream)
    (hop : (r.call op).received <+: stream) : Stage f front (r.call op) := by
  cases op with
  | consume sentLen => exact h.consume sentLen
  | feed data =>
      rcases h with ⟨hexpect, hshort⟩ | ⟨⟨c, hc, hmem⟩, hopen, hrefused⟩
      · rcases lt_or_ge (r.received ++ data).length (clientPreface ++ front).length with hlt | hge
        · have hpart := List.prefix_of_prefix_length_le hop hpre hlt.le
          exact Or.inl ⟨hexpect.feed_short hfit.1 hfront hpart hlt, hlt⟩
        · have hwhole := List.prefix_of_prefix_length_le hpre hop hge
          exact hexpect.feed_whole hfit.1 hfront hlen hfirst hwhole
      · refine Or.inr ⟨⟨c, hc, List.mem_append_left _ hmem⟩,
          hopen.trans (List.prefix_append _ _), fun hf => ?_⟩
        exact (hrefused hf).feed hfit.1 hfront hlen hfirst hopen hf

theorem received_grows (r : Run) (ops : List Op) : r.received <+: (r.calls ops).received := by
  induction ops generalizing r with
  | nil => exact List.prefix_refl _
  | cons op ops ih =>
      refine List.IsPrefix.trans ?_ (ih (r.call op))
      cases op with
      | feed data => exact List.prefix_append _ _
      | consume sentLen => exact List.prefix_refl _

/-- **Every run** keeps the stage. -/
theorem Stage.calls (h : Stage f front r) {ops : List Op} (hfit : r.ChunksFit ops)
    (hfront : cutFrame front = some (f, [])) (hlen : f.payload.length ≤ defaultMaxFrameSize)
    (hfirst : ¬ AppliesSettings f) (hpre : clientPreface ++ front <+: (r.calls ops).received) :
    Stage f front (r.calls ops) := by
  induction ops generalizing r with
  | nil => exact h
  | cons op ops ih =>
      have hone : r.ChunksFit [op] ∧ (r.call op).ChunksFit ops := by
        cases op with
        | feed data => exact ⟨⟨hfit.1, trivial⟩, hfit.2⟩
        | consume sentLen => exact ⟨trivial, hfit⟩
      exact ih (h.call hone.1 hfront hlen hfirst hpre (received_grows _ ops)) hone.2 hpre

theorem stage_start (f : Frame) (front : List UInt8) : Stage f front Run.start := by
  refine Or.inl ⟨⟨rfl, ⟨0, rfl⟩, Or.inl ⟨by decide, rfl, rfl⟩⟩, ?_⟩
  show 0 < (clientPreface ++ front).length
  rw [List.length_append]
  exact Nat.lt_of_lt_of_le (by decide) (Nat.le_add_right clientPreface.length _)

end

/-! ## The first frame decides -/

/-- What must come of a run whose first frame is `f`, and no SETTINGS: the frame has been refused
as a protocol error, once or several times, and nothing else has been handled, every call since
has returned that error, the output is the settings of the server and a GOAWAY, and all is as it
was. -/
structure SettingsEnforced (r : Run) (f : Frame) : Prop where
  handled : r.steps ≠ []
  steps : ∀ st ∈ r.steps, st.frame = f ∧ st.code = .protocolError ∧ Blank st.after
  codes : ∃ m n, r.codes = List.replicate m .ok ++ List.replicate (n + 1) .protocolError
  total : r.total = wireOf [serverSettingsFrame, goawayFrame 0 .protocolError]
  blank : Blank r.conn

theorem Unused.blank {c : Connection} (h : Unused c) : Blank c := by
  obtain ⟨-, input, output, sent, code, rfl⟩ := h
  exact ⟨rfl, rfl, rfl, rfl, rfl, rfl, rfl⟩

theorem Refused.enforced {r : Run} {f : Frame} (h : Refused f r) (hhandled : Handled f r)
    (hlen : f.payload.length ≤ defaultMaxFrameSize) (hfirst : ¬ AppliesSettings f)
    (hf : RefusedFirst f) : SettingsEnforced r f := by
  obtain ⟨hsteps, hcodes, output, hconn, hsent⟩ := h
  obtain ⟨c₀, -, hmem⟩ := hhandled
  constructor
  · exact List.ne_nil_of_mem hmem
  · intro st hst
    obtain ⟨c, hc, rfl⟩ := hsteps st hst
    have hcode := (hc.handleFrame hlen hfirst).1 hf
    refine ⟨rfl, congrArg Prod.fst hcode, ?_⟩
    show Blank (c.handleFrame f).2
    have hblank := hc.blank
    rw [hcode, queueGoaway_eq hc.inv]
    split_ifs
    · exact hblank
    · exact { hblank with }
    · exact { hblank with }
  · exact hcodes
  · rw [← hsent, Obs.total, hconn]
    rfl
  · rw [hconn]
    exact ⟨rfl, rfl, rfl, rfl, rfl, rfl, rfl⟩

theorem Handled.refused {r : Run} {f : Frame} (h : Handled f r)
    (hlen : f.payload.length ≤ defaultMaxFrameSize) (hfirst : ¬ AppliesSettings f)
    (henforced : SettingsEnforced r f) : RefusedFirst f := by
  obtain ⟨c, hc, hmem⟩ := h
  obtain ⟨-, hcode, hblank⟩ := henforced.steps _ hmem
  by_contra hno
  exact (hc.handleFrame hlen hfirst).2 hno hcode hblank.lastStreamId

/-- **The first frame of a client** that is no SETTINGS, or its acknowledgement, is refused as it
must be, in every chunking and with the output drained at any time, exactly if the handler of its
type finds a protocol error in it by chance. -/
theorem first_frame_settings {ops : List Op} {f : Frame} {rest : List UInt8}
    (hfit : Run.start.ChunksFit ops) (hpre : clientPreface <+: (exec ops).received)
    (hcut : cutFrame ((exec ops).received.drop clientPrefaceLen) = some (f, rest))
    (hlen : f.payload.length ≤ defaultMaxFrameSize) (hfirst : ¬ AppliesSettings f) :
    SettingsEnforced (exec ops) f ↔ RefusedFirst f := by
  obtain ⟨front, hsplit, hfront⟩ := cutFrame_front hcut
  obtain ⟨tail, htail⟩ := hpre
  have hdrop : tail = front ++ rest := by
    rw [← hsplit, ← htail]
    rfl
  have hopening : clientPreface ++ front <+: (exec ops).received :=
    ⟨rest, by rw [List.append_assoc, ← hdrop, htail]⟩
  rcases (stage_start f front).calls hfit hfront hlen hfirst hopening
    with ⟨-, hshort⟩ | ⟨hhandled, -, hrefused⟩
  · exact absurd hopening.length_le (not_le.mpr hshort)
  · exact ⟨fun h => hhandled.refused hlen hfirst h,
      fun hf => (hrefused hf).enforced hhandled hlen hfirst hf⟩

/-- A CONTINUATION frame as the first frame is refused, and again with the next chunk. -/
theorem first_frame_settings_continuation :
    SettingsEnforced
      (exec [.feed (clientInput [Frame.of FrameType.continuation.toByte 0 1 [0x84]]), .consume 20,
        .feed [0x50]])
      (Frame.of FrameType.continuation.toByte 0 1 [0x84]) := by
  have hfit : Run.start.ChunksFit
      [.feed (clientInput [Frame.of FrameType.continuation.toByte 0 1 [0x84]]), .consume 20,
        .feed [0x50]] := ⟨by decide, by decide +kernel, trivial⟩
  have hcut : cutFrame ((exec
      [.feed (clientInput [Frame.of FrameType.continuation.toByte 0 1 [0x84]]), .consume 20,
        .feed [0x50]]).received.drop clientPrefaceLen)
      = some (Frame.of FrameType.continuation.toByte 0 1 [0x84], [0x50]) := by decide +kernel
  exact (first_frame_settings hfit (by decide +kernel) hcut (by decide) (by decide)).mpr trivial

/-- A request as the first frame is answered. -/
theorem first_frame_answered :
    Run.start.ChunksFit [.feed (clientInput [getRequest 1])]
      ∧ clientPreface <+: (exec [.feed (clientInput [getRequest 1])]).received
      ∧ cutFrame ((exec [.feed (clientInput [getRequest 1])]).received.drop clientPrefaceLen)
        = some (getRequest 1, [])
      ∧ (getRequest 1).payload.length ≤ defaultMaxFrameSize
      ∧ ¬ AppliesSettings (getRequest 1)
      ∧ (exec [.feed (clientInput [getRequest 1])]).codes = [.ok]
      ∧ (exec [.feed (clientInput [getRequest 1])]).conn.responsesSent = 1
      ∧ ¬ SettingsEnforced (exec [.feed (clientInput [getRequest 1])]) (getRequest 1) := by
  have hsent : (exec [.feed (clientInput [getRequest 1])]).conn.responsesSent = 1 := by
    decide +kernel
  refine ⟨⟨by decide, trivial⟩, by decide +kernel, by decide +kernel, by decide, by decide,
    by decide +kernel, hsent, fun henforced => ?_⟩
  rw [henforced.blank.responsesSent] at hsent
  cases hsent

end C11Omo.Http2
