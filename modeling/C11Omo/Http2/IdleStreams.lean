import C11Omo.Http2.LargeFrames

set_option autoImplicit false

/-! # Frames on idle streams

A stream is idle if its id is even, or above `last_stream_id`. Every handler finds out on its own
whether the stream of its frame is idle: `h2_connection_process_data` and the RST_STREAM case of
`h2_connection_process_frame` make it a connection error, `h2_connection_process_window_update`
ignores the frame.
-/

namespace C11Omo.Http2

open C11Omo.Lib Connection

namespace Connection

variable {c : Connection} {f : Frame}

/-- The client has not opened a stream with this id. -/
def IdleStream (c : Connection) (streamId : Nat) : Prop :=
  streamId % 2 = 0 ∨ c.lastStreamId < streamId

/-- A well-formed DATA, RST_STREAM or WINDOW_UPDATE frame on a stream. -/
def StreamFrame (c : Connection) (f : Frame) : Prop :=
  f.streamId ≠ 0 ∧ f.payload.length ≤ c.maxFrameSize
    ∧ (f.type = FrameType.data.toByte ∧ (∃ parsed, parseData f.header f.payload = .ok parsed)
      ∨ f.type = FrameType.rstStream.toByte ∧ (∃ code, parseRstStream f.header f.payload = .ok code)
      ∨ f.type = FrameType.windowUpdate.toByte
        ∧ ∃ increment, parseWindowUpdate f.header f.payload = .ok increment)

/-- An idle stream has no slot. -/
theorem IdleStream.no_slot (hc : Inv c) {streamId : Nat} (hidle : c.IdleStream streamId)
    (h0 : streamId ≠ 0) (i : Fin connMaxStreams) : (c.streams i).id ≠ streamId := by
  intro hi
  have hne : (c.streams i).id ≠ 0 := by rwa [hi]
  have hodd := hc.id_odd i hne
  have hle := hc.id_le i
  rcases hidle with heven | hlast
  · omega
  · omega

/-- RST_STREAM on an idle stream is a connection error. -/
theorem handleFrame_rstStream_idle (hc : Inv c) (hadmits : c.Admits f)
    (ht : f.type = FrameType.rstStream.toByte) {code : Nat}
    (hparse : parseRstStream f.header f.payload = .ok code) (h0 : f.streamId ≠ 0)
    (hidle : c.IdleStream f.streamId) :
    c.handleFrame f = (.protocolError, (c.queueGoaway .protocolError).2) := by
  have hfind : c.findStream f.header.streamId = none := findStream_eq_none.mpr (hidle.no_slot hc h0)
  have hproc := processFrame_handler hadmits ht
  rw [handler, processRstStream, hparse] at hproc
  simp only [hfind] at hproc
  have hfail : c.processFrame f.header f.payload = (.protocolError, c) := by
    by_cases heven : f.header.streamId &&& 1 = 0
    · rwa [if_pos heven] at hproc
    · have hlast : f.header.streamId > c.lastStreamId := by
        rw [and_one_eq_zero] at heven
        exact hidle.resolve_left heven
      rwa [if_neg heven, if_pos hlast] at hproc
  exact handleFrame_goaway hfail (by decide) (fun h => by cases h.1)

theorem parseWindowUpdate_length {header : FrameHeader} {payload : List UInt8} {increment : Nat}
    (h : parseWindowUpdate header payload = .ok increment) : header.length = 4 := by
  unfold parseWindowUpdate at h
  split_ifs at h with htype hvalid hzero
  exact validatePayload_fixedLength (not_not.mp htype) (not_not.mp hvalid) rfl

/-- WINDOW_UPDATE on a stream without a slot is ignored. -/
theorem handleFrame_windowUpdate_untracked (hadmits : c.Admits f)
    (ht : f.type = FrameType.windowUpdate.toByte) {increment : Nat}
    (hparse : parseWindowUpdate f.header f.payload = .ok increment) (h0 : f.streamId ≠ 0)
    (hnone : ∀ i, (c.streams i).id ≠ f.streamId) : c.handleFrame f = (.ok, c) := by
  have hfind : c.findStream f.header.streamId = none := findStream_eq_none.mpr hnone
  have hproc := processFrame_handler hadmits ht
  rw [handler, processWindowUpdate, hparse] at hproc
  simp only [hfind] at hproc
  rw [Frame.header_streamId, if_neg h0] at hproc
  exact handleFrame_ok hproc

/-- What a GOAWAY leaves of the streams and the output, before one has been sent. -/
theorem queueGoaway_unsent (hc : Inv c) (hunsent : c.goawaySent = false) (errorCode : ErrorCode) :
    (c.queueGoaway errorCode).2.streams = c.streams
      ∧ (c.queueGoaway errorCode).2.output = c.output
        ++ if c.Fits (goawayFrame c.lastStreamId errorCode) then
          (goawayFrame c.lastStreamId errorCode).wire else [] := by
  rw [queueGoaway_eq hc, if_neg (by simp [hunsent])]
  by_cases hfit : c.Fits (goawayFrame c.lastStreamId errorCode)
  · rw [if_pos hfit, if_pos hfit]
    exact ⟨rfl, rfl⟩
  · rw [if_neg hfit, if_neg hfit, List.append_nil]
    exact ⟨rfl, rfl⟩

theorem feedLoop_incomplete (hcut : cutFrame c.input = none) (fuel : Nat) :
    c.feedLoop fuel = (.ok, c) := by
  cases fuel with
  | zero => rfl
  | succ fuel => rw [feedLoop, feedStep_of_cut_none hcut]

/-- More fuel than input makes no difference. -/
theorem feedLoop_fuel (hc : Inv c) {fuel fuel' : Nat} (hfuel : c.input.length ≤ fuel)
    (hfuel' : c.input.length ≤ fuel') : c.feedLoop fuel = c.feedLoop fuel' := by
  induction fuel generalizing c fuel' with
  | zero =>
      have hcut : cutFrame c.input = none := by
        rw [List.length_eq_zero_iff.mp (Nat.le_zero.mp hfuel)]
        rfl
      rw [feedLoop_incomplete hcut, feedLoop_incomplete hcut]
  | succ fuel ih =>
      rcases hcut : cutFrame c.input with _ | ⟨f, rest⟩
      · rw [feedLoop_incomplete hcut, feedLoop_incomplete hcut]
      · have hlt : rest.length < c.input.length := frameFraming.cut_length_lt hcut
        obtain ⟨n, rfl⟩ : ∃ n, fuel' = n + 1 := ⟨fuel' - 1, by omega⟩
        rw [feedLoop, feedLoop, feedStep_of_cut hc hcut]
        by_cases hok : (c.handleFrame f).1 = .ok
        · simp only [if_pos hok]
          have hinv : Inv (c.handleFrame f).2 := handleFrame_inv hc f
          have hinv' : Inv { (c.handleFrame f).2 with input := rest } := { hinv with }
          exact ih hinv' (show rest.length ≤ fuel by omega) (show rest.length ≤ n by omega)
        · simp only [if_neg hok]

/-- **A frame that is ignored** might as well not have come, whatever comes behind it. -/
theorem feed_ignored (hc : Inv c) (hseen : c.prefaceSeen = true) {data tail : List UInt8}
    (hwire : c.input ++ data = f.wire ++ tail)
    (hfit : c.input.length + data.length ≤ connInputCap)
    (hsame : ∀ input, { c with input := input }.handleFrame f = (.ok, { c with input := input })) :
    c.feed data = { c with input := [] }.feed tail := by
  have hsum : c.input.length + data.length = f.wire.length + tail.length := by
    rw [← List.length_append, hwire, List.length_append]
  have hc' : ∀ input, Inv { c with input := input } := fun _ => { hc with }
  have hfirst := (@feed_of_seen c hseen data (by omega)).1
  have hrest := (@feed_of_seen { c with input := [] } hseen tail
    (by simp only [List.length_nil]; omega)).1
  rw [List.nil_append] at hrest
  rw [hfirst, hrest, hwire, List.length_append]
  obtain ⟨n, hn⟩ : ∃ n, f.wire.length = n + 1 := by
    refine ⟨f.payload.length + 8, ?_⟩
    rw [Frame.wire_length, frameHeaderLen]
    omega
  have hcut : cutFrame ({ c with input := f.wire ++ tail } : Connection).input = some (f, tail) :=
    cutFrame_wire f tail
  rw [hn, Nat.add_right_comm, feedLoop, feedStep_of_cut (hc' _) hcut, hsame]
  exact feedLoop_fuel (hc' tail) (Nat.le_add_left _ _) le_rfl

/-- A frame on an idle stream is answered as a connection error: `feed` returns
`H2_PROTOCOL_ERROR`, the output grows by a GOAWAY if it has room for one, and by nothing else, and
no slot changes. -/
def AnsweredIdle (c : Connection) (data : List UInt8) : Prop :=
  (c.feed data).1 = .protocolError
    ∧ (c.feed data).2.streams = c.streams
    ∧ (c.feed data).2.output = c.output
      ++ if c.Fits (goawayFrame c.lastStreamId .protocolError) then
        (goawayFrame c.lastStreamId .protocolError).wire else []

end Connection

/-- **Frames on idle streams.** In a state without errors and outside a header block, let a chunk
complete a well-formed frame on an idle stream, whatever comes behind it in the chunk. The frame is
answered as a connection error exactly if the input buffer has room for the chunk and the frame is no
WINDOW_UPDATE, or what comes behind it is answered so. A WINDOW_UPDATE is accepted, and the chunk is as
good as what comes behind it. -/
theorem idle_stream_error {ops : List Op} (hok : (exec ops).AllOk)
    (hseen : (exec ops).conn.prefaceSeen = true) (hblock : (exec ops).conn.headerBlockOpen = false)
    {f : Frame} (hframe : (exec ops).conn.StreamFrame f)
    (hidle : (exec ops).conn.IdleStream f.streamId) {data tail : List UInt8}
    (hwire : (exec ops).conn.input ++ data = f.wire ++ tail) :
    ((exec ops).conn.AnsweredIdle data
      ↔ (exec ops).conn.input.length + data.length ≤ connInputCap
        ∧ (f.type = FrameType.windowUpdate.toByte →
          { (exec ops).conn with input := [] }.AnsweredIdle tail))
      ∧ (f.type = FrameType.windowUpdate.toByte →
        (exec ops).conn.input.length + data.length ≤ connInputCap →
          (exec ops).conn.feed data = { (exec ops).conn with input := [] }.feed tail)
      ∧ (tail = [] →
        ((exec ops).conn.AnsweredIdle data
          ↔ f.type ≠ FrameType.windowUpdate.toByte
            ∧ frameHeaderLen + f.payload.length ≤ connInputCap)
        ∧ (f.type = FrameType.windowUpdate.toByte →
          (exec ops).conn.feed data = (.ok, { (exec ops).conn with input := [] }))) := by
  have hc := (exec_good ops).inv
  have hin := (exec_good ops).input_le
  have hunsent := exec_goaway_unsent hok
  generalize (exec ops).conn = c at *
  obtain ⟨h0, hlen, hkind⟩ := hframe
  have hadmits : c.Admits f := ⟨hlen, fun h => absurd (hblock.symm.trans h.1) (by decide)⟩
  have hnone := hidle.no_slot hc h0
  have hsum : c.input.length + data.length = f.wire.length + tail.length := by
    rw [← List.length_append, hwire, List.length_append]
  -- a chunk without room
  have hover : connInputCap < c.input.length + data.length → ¬ c.AnsweredIdle data := by
    intro hbig h
    have hcode := h.1
    rw [feed, if_pos (by omega)] at hcode
    cases hcode
  -- a WINDOW_UPDATE
  have hupdate : f.type = FrameType.windowUpdate.toByte →
      f.wire.length ≤ connInputCap ∧ (c.input.length + data.length ≤ connInputCap →
        c.feed data = { c with input := [] }.feed tail) := by
    intro ht
    rcases hkind with ⟨hdata, -⟩ | ⟨hrst, -⟩ | ⟨-, increment, hparse⟩
    · rw [hdata] at ht
      exact absurd ht (by decide)
    · rw [hrst] at ht
      exact absurd ht (by decide)
    · have hfour : f.payload.length = 4 := parseWindowUpdate_length hparse
      refine ⟨by rw [Frame.wire_length, hfour]; decide, fun hfit => ?_⟩
      refine feed_ignored hc hseen hwire hfit fun input => ?_
      exact handleFrame_windowUpdate_untracked hadmits ht hparse h0 hnone
  -- any other frame
  have hother : f.type ≠ FrameType.windowUpdate.toByte →
      c.input.length + data.length ≤ connInputCap → c.AnsweredIdle data := by
    intro ht hfit
    have hhandle : c.handleFrame f = (.protocolError, (c.queueGoaway .protocolError).2) := by
      rcases hkind with ⟨hdata, parsed, hparse⟩ | ⟨hrst, code, hparse⟩ | ⟨hup, -⟩
      · exact handleFrame_untracked hadmits hdata hparse hnone
      · exact handleFrame_rstStream_idle hc hadmits hrst hparse h0 hidle
      · exact absurd hup ht
    have hfail : (c.handleFrame f).1 ≠ .ok := by
      rw [hhandle]
      exact show ErrorCode.protocolError ≠ .ok by decide
    obtain ⟨hcode, hstate⟩ := feed_fails hc hseen hwire hfit hfail
    obtain ⟨hstreams, hout⟩ := queueGoaway_unsent hc hunsent .protocolError
    rw [hhandle] at hcode hstate
    refine ⟨hcode, ?_, ?_⟩
    · rw [hstate]
      exact hstreams
    · rw [hstate]
      exact hout
  have hexact : c.AnsweredIdle data ↔ c.input.length + data.length ≤ connInputCap
      ∧ (f.type = FrameType.windowUpdate.toByte → { c with input := [] }.AnsweredIdle tail) := by
    by_cases hfit : c.input.length + data.length ≤ connInputCap
    · by_cases ht : f.type = FrameType.windowUpdate.toByte
      · have hfeed := (hupdate ht).2 hfit
        have hsame : c.AnsweredIdle data ↔ { c with input := [] }.AnsweredIdle tail := by
          unfold AnsweredIdle
          rw [hfeed]
          rfl
        exact ⟨fun h => ⟨hfit, fun _ => hsame.mp h⟩, fun h => hsame.mpr (h.2 ht)⟩
      · exact ⟨fun _ => ⟨hfit, fun h => absurd h ht⟩, fun _ => hother ht hfit⟩
    · exact iff_of_false (hover (not_le.mp hfit)) fun h => hfit h.1
  refine ⟨hexact, fun ht => (hupdate ht).2, fun htail => ?_⟩
  -- the frame alone
  subst htail
  have hnothing : { c with input := [] }.feed [] = (.ok, { c with input := [] }) :=
    @feed_incomplete { c with input := [] } { hc with } hseen [] (Nat.zero_le _) rfl
  have hlong : c.input.length + data.length = frameHeaderLen + f.payload.length := by
    rw [hsum, List.length_nil, Nat.add_zero, Frame.wire_length]
  refine ⟨?_, fun ht => ?_⟩
  · rw [hexact, hlong]
    constructor
    · rintro ⟨hfit, hrest⟩
      refine ⟨fun ht => ?_, hfit⟩
      have hcode := (hrest ht).1
      rw [hnothing] at hcode
      cases hcode
    · rintro ⟨ht, hfit⟩
      exact ⟨hfit, fun h => absurd h ht⟩
  · obtain ⟨hfit, hfeed⟩ := hupdate ht
    rw [hfeed (by rwa [hlong, ← Frame.wire_length]), hnothing]

theorem idle_stream_error_data :
    ((exec prefaceOnly).conn.feed ((threeBytes 5).wire ++ [0, 0])).1 = .protocolError := by
  obtain ⟨hok, hseen, hinput, hmax, -⟩ := prefaceOnly_state
  have hblock : (exec prefaceOnly).conn.headerBlockOpen = false := by decide +kernel
  have hlast : (exec prefaceOnly).conn.lastStreamId < 5 := by decide +kernel
  have hframe : (exec prefaceOnly).conn.StreamFrame (threeBytes 5) :=
    ⟨by decide, by rw [hmax]; decide, Or.inl ⟨rfl, { data := [1, 2, 3], padLen := 0 }, by decide⟩⟩
  have hwire : (exec prefaceOnly).conn.input ++ ((threeBytes 5).wire ++ [0, 0])
      = (threeBytes 5).wire ++ [0, 0] := by rw [hinput, List.nil_append]
  exact ((idle_stream_error hok hseen hblock hframe (Or.inr hlast) hwire).1.mpr
    ⟨by rw [hinput]; decide, fun h => absurd h (by decide)⟩).1

/-- Credit for a stream that the client has not opened. -/
theorem idle_windowUpdate_ignored : (exec prefaceOnly).AllOk
    ∧ (exec prefaceOnly).conn.headerBlockOpen = false
    ∧ (exec prefaceOnly).conn.StreamFrame (windowUpdateFrame 5 1)
    ∧ (exec prefaceOnly).conn.IdleStream 5
    ∧ ((exec prefaceOnly).conn.feed (windowUpdateFrame 5 1).wire).1 = .ok := by
  obtain ⟨hok, -, -, hmax, -⟩ := prefaceOnly_state
  have hframe : (exec prefaceOnly).conn.StreamFrame (windowUpdateFrame 5 1) :=
    ⟨by decide, by rw [hmax]; decide, Or.inr (Or.inr ⟨rfl, 1, by decide⟩)⟩
  exact ⟨hok, by decide +kernel, hframe, Or.inr (by decide +kernel), by decide +kernel⟩

end C11Omo.Http2
