import C11Omo.Http2.Delivery
import C11Omo.Http2.StreamErrors

set_option autoImplicit false

/-! # Frames that come late

The client may still send on a stream that the server has closed or refused. RST_STREAM for such a
stream is judged by `last_stream_id`, DATA by the slot table. So a late DATA frame is a stream
error as long as the stream keeps its slot, and a connection error once a newer stream has taken
the slot (`late_data_answered`). A stream that was refused for lack of a slot has neither: what
the client had in flight for it fails the connection until a later id is accepted, and its DATA
until the id has a slot (`refused_stream_tolerated`).
-/

namespace C11Omo.Http2

open C11Omo.Lib Connection

namespace Connection

variable {c : Connection} {f : Frame} {pos : Fin connMaxStreams}

/-! ## One frame -/

/-- The bytes of a frame that has been announced with its flow control are within the input
capacity. -/
theorem wire_le_inputCap (hc : Inv c) (hconn : (f.payload.length : Int) ≤ c.connRecvWindow) :
    f.wire.length ≤ connInputCap := by
  have hw := hc.conn_recv
  rw [Frame.wire_length, frameHeaderLen, connInputCap]
  omega

/-- DATA on a stream without a slot is a connection error, and is not charged. -/
theorem handleFrame_untracked (hadmits : c.Admits f) (ht : f.type = FrameType.data.toByte)
    {parsed : DataPayload} (hparse : parseData f.header f.payload = .ok parsed)
    (hnone : ∀ i, (c.streams i).id ≠ f.streamId) :
    c.handleFrame f = (.protocolError, (c.queueGoaway .protocolError).2) := by
  have hfind : c.findStream f.header.streamId = none := findStream_eq_none.mpr hnone
  have hproc := processFrame_handler hadmits ht
  rw [handler, processData, hparse] at hproc
  simp only [hfind] at hproc
  exact handleFrame_goaway hproc (by decide) (fun h => by cases h.1)

/-- DATA on a closed stream that still has its slot. -/
theorem handleFrame_closed (hc : Inv c) (hadmits : c.Admits f) (ht : f.type = FrameType.data.toByte)
    {parsed : DataPayload} (hparse : parseData f.header f.payload = .ok parsed)
    (hfind : c.findStream f.streamId = some pos) (hclosed : (c.streams pos).state = .closed)
    (hconn : (f.payload.length : Int) ≤ c.connRecvWindow)
    (hroom : c.output.length + 26 ≤ connOutputCap) :
    c.handleFrame f = (.ok, (((c.charged f.payload.length).refillConn).push
      (rstStreamFrame f.streamId .streamClosed)).setStream pos (c.streams pos).close) := by
  have hst : (c.streams pos).state ≠ .opened ∧ (c.streams pos).state ≠ .halfClosedLocal := by
    rw [hclosed]
    decide
  have hproc := processFrame_data hc hadmits ht hparse hfind
  rw [if_neg (not_lt.mpr hconn), if_pos hst] at hproc
  exact handleFrame_lateData hc (parseData_streamId ht hparse) hfind hconn hproc hroom

/-- With room for two frames both windows are refilled. -/
theorem refreshRecvWindows_fit_two (hc : Inv c) (stream : Option (Fin connMaxStreams))
    (hroom : c.output.length + 26 ≤ connOutputCap) : (c.refreshRecvWindows stream).1 = .ok := by
  have hconn := refreshRecvWindows_fit hc (by omega)
  cases stream with
  | none => rw [hconn]
  | some pos =>
      have hinv := (refreshRecvWindows_does hc none).inv hc
      have hlen := refillConn_output_length c
      have hfirst : c.refreshConnRecvWindow = (.ok, c.refillConn) := by
        apply refreshConnRecvWindow_ok hc
        by_contra hne
        rw [refreshRecvWindows] at hconn
        rcases hres : c.refreshConnRecvWindow with ⟨ret, c'⟩
        rw [hres] at hne hconn
        rw [andThen_err hne] at hconn
        exact hne (Prod.mk.inj hconn).1
      rw [hconn] at hinv
      rw [refreshRecvWindows, hfirst, andThen_ok]
      simp only
      rw [refreshStreamRecvWindow_eq hinv]
      split_ifs with hlow hfit
      · rfl
      · rw [Fits, windowUpdateFrame_wire_length] at hfit
        exact absurd (show c.refillConn.output.length + 13 ≤ connOutputCap by omega) hfit
      · rfl

/-- A frame that is no part of a header block is admitted if none is open. -/
theorem admits_iff (hlen : f.payload.length ≤ c.maxFrameSize)
    (ht : f.type ≠ FrameType.continuation.toByte) : c.Admits f ↔ c.headerBlockOpen = false := by
  constructor
  · intro hadmits
    by_contra hopen
    exact hadmits.2 ⟨by simpa using hopen, Or.inl ht⟩
  · intro hblock
    exact ⟨hlen, fun h => absurd (hblock.symm.trans h.1) (by decide)⟩

theorem handleFrame_not_admitted (h : ¬ c.Admits f) : (c.handleFrame f).1 ≠ .ok := by
  obtain ⟨ret, hret, hproc⟩ := processFrame_rejected h
  rcases hret with rfl | rfl
  · exact handleFrame_fails hproc (by simp) rfl
  · exact handleFrame_fails hproc (by simp) rfl

/-- **When DATA is accepted**, with room for two frames: its stream has a slot, and its receive
window covers the frame unless it is closed. -/
theorem handleFrame_data_iff (hc : Inv c) (hlen : f.payload.length ≤ c.maxFrameSize)
    (ht : f.type = FrameType.data.toByte) {parsed : DataPayload}
    (hparse : parseData f.header f.payload = .ok parsed)
    (hconn : (f.payload.length : Int) ≤ c.connRecvWindow)
    (hroom : c.output.length + 26 ≤ connOutputCap) :
    (c.handleFrame f).1 = .ok ↔ c.headerBlockOpen = false ∧ ∃ pos,
      (c.streams pos).id = f.streamId
        ∧ ((c.streams pos).Receives → (f.payload.length : Int) ≤ (c.streams pos).recvWindow) := by
  have hiff := @admits_iff c f hlen (by rw [ht]; decide)
  by_cases hadmits : c.Admits f
  · rw [and_iff_right (hiff.mp hadmits)]
    rcases hfind : c.findStream f.streamId with _ | pos
    · have hnone := findStream_eq_none.mp hfind
      rw [handleFrame_untracked hadmits ht hparse hnone]
      exact ⟨fun h => (by cases h), fun ⟨pos, hpos, _⟩ => absurd hpos (hnone pos)⟩
    · have hid := findStream_eq_some hfind
      have h0 := parseData_streamId ht hparse
      have hproc := processFrame_data hc hadmits ht hparse hfind
      -- the stream has one slot only
      have hone : (∃ pos, (c.streams pos).id = f.streamId ∧ ((c.streams pos).Receives →
          (f.payload.length : Int) ≤ (c.streams pos).recvWindow))
          ↔ ((c.streams pos).Receives → (f.payload.length : Int) ≤ (c.streams pos).recvWindow) := by
        constructor
        · rintro ⟨i, hi, hwin⟩
          obtain rfl := hc.id_inj i pos (by rw [hi]; exact h0) (by rw [hi, hid])
          exact hwin
        · exact fun hwin => ⟨pos, hid, hwin⟩
      rw [if_neg (not_lt.mpr hconn)] at hproc
      rw [hone]
      by_cases hst : (c.streams pos).state ≠ .opened ∧ (c.streams pos).state ≠ .halfClosedLocal
      · rw [if_pos hst] at hproc
        rw [handleFrame_lateData hc h0 hfind hconn hproc hroom]
        exact ⟨fun _ hrecv => absurd hrecv (not_or.mpr hst), fun _ => rfl⟩
      · have hrecv : (c.streams pos).Receives := by
          by_contra hno
          exact hst (not_or.mp hno)
        rw [if_neg hst] at hproc
        rw [forall_prop_of_true hrecv]
        by_cases hsr : (c.streams pos).recvWindow < f.payload.length
        · rw [if_pos hsr] at hproc
          rw [handleFrame_goaway hproc (by decide) (fun h => by cases h.1)]
          exact ⟨fun h => (by cases h), fun hle => absurd hsr (not_lt.mpr hle)⟩
        · have hinv : Inv ((c.charged f.payload.length).setStream pos (received (c.streams pos)
              f.payload.length (hasFlag f.flags flagEndStream))) :=
            (@received_acts (c.charged f.payload.length) pos _ rfl (hc.slot pos) hrecv
              f.payload.length (not_lt.mp hsr) (hasFlag f.flags flagEndStream) .ok).inv
                (charged_inv hc hconn)
          have hfit := refreshRecvWindows_fit_two hinv (if (received (c.streams pos)
            f.payload.length (hasFlag f.flags flagEndStream)).state = .closed then none else some pos)
            hroom
          rw [if_neg hsr] at hproc
          rw [← hproc] at hfit
          rw [handleFrame_ok (Prod.ext hfit rfl)]
          exact ⟨fun _ => not_lt.mp hsr, fun _ => rfl⟩
  · have hopen := mt hiff.mpr hadmits
    exact ⟨fun h => absurd h (handleFrame_not_admitted hadmits), fun h => absurd h.1 hopen⟩

/-- **When RST_STREAM is accepted**: its stream is not above `last_stream_id`. -/
theorem handleFrame_rstStream_iff (hc : Inv c) (hlen : f.payload.length ≤ c.maxFrameSize)
    (ht : f.type = FrameType.rstStream.toByte) {code : Nat}
    (hparse : parseRstStream f.header f.payload = .ok code) (hodd : f.streamId % 2 = 1) :
    (c.handleFrame f).1 = .ok
      ↔ c.headerBlockOpen = false ∧ f.streamId ≤ c.lastStreamId := by
  have hiff := @admits_iff c f hlen (by rw [ht]; decide)
  by_cases hadmits : c.Admits f
  · rw [and_iff_right (hiff.mp hadmits)]
    have hproc := processFrame_handler hadmits ht
    rw [handler, processRstStream, hparse] at hproc
    have hone : ¬ f.header.streamId &&& 1 = 0 := by
      rw [and_one_eq_zero, Frame.header_streamId]
      omega
    rcases hfind : c.findStream f.header.streamId with _ | pos
    · simp only [hfind, if_neg hone] at hproc
      by_cases hlast : f.header.streamId > c.lastStreamId
      · rw [if_pos hlast] at hproc
        rw [handleFrame_goaway hproc (by decide) (fun h => by cases h.1)]
        exact ⟨fun h => (by cases h), fun hle => absurd hlast (not_lt.mpr hle)⟩
      · rw [if_neg hlast] at hproc
        rw [handleFrame_ok hproc]
        exact ⟨fun _ => not_lt.mp hlast, fun _ => rfl⟩
    · simp only [hfind] at hproc
      have hid : (c.streams pos).id = f.streamId := findStream_eq_some hfind
      rw [handleFrame_ok hproc]
      exact ⟨fun _ => hid ▸ hc.id_le pos, fun _ => rfl⟩
  · have hopen := mt hiff.mpr hadmits
    exact ⟨fun h => absurd h (handleFrame_not_admitted hadmits), fun h => absurd h.1 hopen⟩

theorem queueGoaway_recvWindow (hc : Inv c) (errorCode : ErrorCode) :
    (c.queueGoaway errorCode).2.connRecvWindow = c.connRecvWindow := by
  rw [queueGoaway_eq hc]
  split_ifs <;> rfl

end Connection

/-! ## Closed streams -/

/-- A stream that has had a slot. -/
def Obs.Opened (o : Obs) (streamId : Nat) : Prop :=
  ∃ st ∈ o.steps, ∃ pos, (st.after.streams pos).id = streamId

/-- Frames are handled behind the preface only. -/
theorem exec_steps_seen {ops : List Op} (hok : (exec ops).AllOk) {st : FrameStep}
    (hst : st ∈ (exec ops).steps) : (exec ops).conn.prefaceSeen = true := by
  by_contra hnew
  have hnil := ((exec_cut hok).unseen (by simpa using hnew)).2
  rw [hnil] at hst
  cases hst

/-- **DATA on a closed stream**, with room for two frames in the output, is charged to the
connection and answered with RST_STREAM exactly if the stream still has a slot. If a newer stream
has taken the slot it is a connection error, and it is not charged. -/
theorem late_data_answered {ops : List Op} (hok : (exec ops).AllOk) {f : Frame}
    (ht : f.type = FrameType.data.toByte) {parsed : DataPayload}
    (hparse : parseData f.header f.payload = .ok parsed)
    (hopened : (exec ops).Opened f.streamId)
    (hclosed : ∀ pos, ((exec ops).conn.streams pos).id = f.streamId →
      ((exec ops).conn.streams pos).state = .closed)
    (hblock : (exec ops).conn.headerBlockOpen = false)
    (hlen : f.payload.length ≤ (exec ops).conn.maxFrameSize)
    (hconn : (f.payload.length : Int) ≤ (exec ops).conn.connRecvWindow)
    (hroom : (exec ops).conn.output.length + 26 ≤ connOutputCap) {data : List UInt8}
    (hwire : (exec ops).conn.input ++ data = f.wire) :
    (((exec ops).conn.feed data).1 = .ok
        ∧ ((exec ops).conn.feed data).2.connRecvWindow
          = refill ((exec ops).conn.connRecvWindow - f.payload.length)
        ∧ ((exec ops).conn.feed data).2.output = (exec ops).conn.output
          ++ wireOf (refillFrames 0 ((exec ops).conn.connRecvWindow - f.payload.length)
            ++ [rstStreamFrame f.streamId .streamClosed])
      ↔ ∃ pos, ((exec ops).conn.streams pos).id = f.streamId)
      ∧ ((∀ pos, ((exec ops).conn.streams pos).id ≠ f.streamId) →
        ((exec ops).conn.feed data).1 = .protocolError
          ∧ ((exec ops).conn.feed data).2.connRecvWindow = (exec ops).conn.connRecvWindow) := by
  obtain ⟨st, hst, -⟩ := hopened
  have hseen := exec_steps_seen hok hst
  have hc := (exec_good ops).inv
  generalize (exec ops).conn = c at *
  have hadmits : c.Admits f := ⟨hlen, fun h => absurd (hblock.symm.trans h.1) (by decide)⟩
  obtain ⟨hcode, hstate, -⟩ := feed_completes hc hseen hwire (wire_le_inputCap hc hconn)
  have hrecv : (c.feed data).2.connRecvWindow = (c.handleFrame f).2.connRecvWindow := by rw [hstate]
  have hout : (c.feed data).2.output = (c.handleFrame f).2.output := by rw [hstate]
  have hgone : (∀ pos, (c.streams pos).id ≠ f.streamId) → (c.feed data).1 = .protocolError
      ∧ (c.feed data).2.connRecvWindow = c.connRecvWindow := by
    intro hnone
    have hhandle := handleFrame_untracked hadmits ht hparse hnone
    rw [hcode, hrecv, hhandle]
    exact ⟨rfl, queueGoaway_recvWindow hc _⟩
  refine ⟨⟨fun h => ?_, ?_⟩, hgone⟩
  · -- the slot has gone: a connection error, and the window is not charged
    by_contra hno
    have hfail := (hgone (not_exists.mp hno)).1
    rw [h.1] at hfail
    cases hfail
  · rintro ⟨i, hi⟩
    obtain ⟨pos, hfind⟩ := exists_findStream hi
    have hhandle := handleFrame_closed hc hadmits ht hparse hfind
      (hclosed pos (findStream_eq_some hfind)) hconn hroom
    rw [hcode, hrecv, hout, hhandle]
    refine ⟨rfl, rfl, ?_⟩
    rw [wireOf_append, wireOf_singleton, ← List.append_assoc]
    rfl

instance (o : Obs) (streamId : Nat) : Decidable (o.Opened streamId) :=
  inferInstanceAs (Decidable (∃ st ∈ o.steps, ∃ pos, (st.after.streams pos).id = streamId))

/-- Three bytes for a stream. -/
def threeBytes (streamId : Nat) : Frame :=
  Frame.of FrameType.data.toByte flagEndStream streamId [1, 2, 3]

theorem threeBytes_parse :
    parseData (threeBytes 1).header (threeBytes 1).payload = .ok { data := [1, 2, 3], padLen := 0 } := by
  decide

set_option maxRecDepth 20000 in
theorem late_data_answered_slot :
    ((exec [.feed (clientInput [getRequest 1])]).conn.feed (threeBytes 1).wire).1 = .ok := by
  have hstate : (exec [.feed (clientInput [getRequest 1])]).AllOk
      ∧ (exec [.feed (clientInput [getRequest 1])]).Opened 1
      ∧ (∀ pos, ((exec [.feed (clientInput [getRequest 1])]).conn.streams pos).id = 1 →
        ((exec [.feed (clientInput [getRequest 1])]).conn.streams pos).state = .closed)
      ∧ (exec [.feed (clientInput [getRequest 1])]).conn.headerBlockOpen = false
      ∧ 3 ≤ (exec [.feed (clientInput [getRequest 1])]).conn.maxFrameSize
      ∧ 3 ≤ (exec [.feed (clientInput [getRequest 1])]).conn.connRecvWindow
      ∧ (exec [.feed (clientInput [getRequest 1])]).conn.output.length + 26 ≤ connOutputCap
      ∧ (exec [.feed (clientInput [getRequest 1])]).conn.input = []
      ∧ ((exec [.feed (clientInput [getRequest 1])]).conn.streams 0).id = 1 := by
    decide +kernel
  obtain ⟨hok, hopened, hclosed, hblock, hlen, hconn, hroom, hinput, hslot⟩ := hstate
  exact ((late_data_answered hok (show (threeBytes 1).type = FrameType.data.toByte from rfl)
    threeBytes_parse hopened hclosed hblock hlen hconn hroom
    (congrArg (fun input => input ++ (threeBytes 1).wire) hinput)).1.mpr ⟨0, hslot⟩).1

/-- A second request takes the slot of the first, which is closed. -/
def servedTwice : List Op := [.feed (clientInput [getRequest 1, getRequest 3])]

set_option maxRecDepth 20000 in
theorem late_data_fails : (exec servedTwice).AllOk ∧ (exec servedTwice).Opened 1
    ∧ (∀ pos, ((exec servedTwice).conn.streams pos).id = 1 →
      ((exec servedTwice).conn.streams pos).state = .closed)
    ∧ (exec servedTwice).conn.headerBlockOpen = false
    ∧ 3 ≤ (exec servedTwice).conn.connRecvWindow
    ∧ (exec servedTwice).conn.output.length + 26 ≤ connOutputCap
    ∧ ((exec servedTwice).conn.feed (threeBytes 1).wire).1 = .protocolError := by
  decide +kernel

/-! ## Refused streams -/

/-- The connection goes on: `feed` returns `H2_OK` and queues no GOAWAY. -/
def Connection.Tolerates (c : Connection) (data : List UInt8) : Prop :=
  (c.feed data).1 = .ok ∧ ∃ fs, (c.feed data).2.output = c.output ++ wireOf fs
    ∧ ∀ g ∈ fs, g.type ≠ FrameType.goaway.toByte

/-- A well-formed RST_STREAM frame, or a DATA frame within the receive window of the connection. -/
def Connection.InFlight (c : Connection) (f : Frame) : Prop :=
  f.payload.length ≤ c.maxFrameSize
    ∧ (f.type = FrameType.rstStream.toByte ∧ (∃ code, parseRstStream f.header f.payload = .ok code)
      ∨ f.type = FrameType.data.toByte ∧ (∃ parsed, parseData f.header f.payload = .ok parsed)
        ∧ (f.payload.length : Int) ≤ c.connRecvWindow)

/-- No header block is open, and the stream of the frame is known: for RST_STREAM by its id, for
DATA by its slot. -/
def Connection.Knows (c : Connection) (f : Frame) : Prop :=
  c.headerBlockOpen = false
    ∧ (f.type = FrameType.rstStream.toByte → f.streamId ≤ c.lastStreamId)
    ∧ (f.type = FrameType.data.toByte → ∃ pos, (c.streams pos).id = f.streamId
      ∧ ((c.streams pos).Receives → (f.payload.length : Int) ≤ (c.streams pos).recvWindow))

theorem parseRstStream_length {header : FrameHeader} {payload : List UInt8} {code : Nat}
    (h : parseRstStream header payload = .ok code) : header.length = 4 := by
  unfold parseRstStream at h
  by_cases htype : header.type = FrameType.rstStream.toByte
  · by_cases hvalid : validatePayload header = .ok
    · exact validatePayload_fixedLength htype hvalid rfl
    · rw [if_neg (not_not.mpr htype), if_pos hvalid] at h
      cases h
  · rw [if_pos htype] at h
    cases h

/-- No action queues a GOAWAY. -/
theorem Acts.no_goaway {c c' : Connection} {es : List Event} (h : Acts c es c') :
    ∀ g ∈ queuedFrames es, g.type ≠ FrameType.goaway.toByte := by
  have hact : ∀ {c c' : Connection} {es : List Event}, Act c es c' →
      ∀ g ∈ queuedFrames es, g.type ≠ FrameType.goaway.toByte := by
    intro c c' es hact g hg
    -- the handlers queue control frames, responses and nothing else
    cases hact with
    | control f hf hroom =>
        rw [List.mem_singleton.mp hg]
        exact hf.2.2
    | sendHeaders pos hcan hnew hroom =>
        have htype : g.type = FrameType.headers.toByte := by
          rw [List.mem_singleton.mp hg]
          rfl
        rw [htype]
        decide
    | sendData pos hcan hhead hbody hpath hconn hstream hroom =>
        have htype : g.type = FrameType.data.toByte := by
          rw [List.mem_singleton.mp hg]
          rfl
        rw [htype]
        decide
    | _ => cases hg
  induction h with
  | refl => exact fun g hg => by cases hg
  | head h _ ih =>
      intro g hg
      rw [queuedFrames_append] at hg
      rcases List.mem_append.mp hg with hg | hg
      · exact hact h g hg
      · exact ih g hg

namespace Connection

variable {c : Connection} {f : Frame}

/-- A frame is tolerated if it is accepted. -/
theorem tolerates_iff (hc : Inv c) (hseen : c.prefaceSeen = true) {data : List UInt8}
    (hwire : c.input ++ data = f.wire) (hfit : f.wire.length ≤ connInputCap) :
    c.Tolerates data ↔ (c.handleFrame f).1 = .ok := by
  obtain ⟨hcode, hstate, -⟩ := feed_completes hc hseen hwire hfit
  have hout : (c.feed data).2.output = (c.handleFrame f).2.output := by rw [hstate]
  rw [Tolerates, hcode, hout]
  constructor
  · exact fun h => h.1
  · intro hok
    have hacts := frameStep_acts hc hok
    exact ⟨hok, _, hacts.output, hacts.no_goaway⟩

/-- **A frame in flight is tolerated** exactly if its stream is known. -/
theorem tolerates_inFlight_iff (hc : Inv c) (hseen : c.prefaceSeen = true)
    (hflight : c.InFlight f) (hodd : f.streamId % 2 = 1)
    (hroom : c.output.length + 26 ≤ connOutputCap) {data : List UInt8}
    (hwire : c.input ++ data = f.wire) : c.Tolerates data ↔ c.Knows f := by
  obtain ⟨hlen, ⟨ht, code, hparse⟩ | ⟨ht, ⟨parsed, hparse⟩, hconn⟩⟩ := hflight
  · have hfit : f.wire.length ≤ connInputCap := by
      have hfour : f.payload.length = 4 := parseRstStream_length hparse
      rw [Frame.wire_length, hfour]
      decide
    rw [tolerates_iff hc hseen hwire hfit, handleFrame_rstStream_iff hc hlen ht hparse hodd, Knows]
    have hdata : f.type ≠ FrameType.data.toByte := by
      rw [ht]
      decide
    rw [forall_prop_of_true ht, forall_prop_of_false hdata, and_true]
  · rw [tolerates_iff hc hseen hwire (wire_le_inputCap hc hconn),
      handleFrame_data_iff hc hlen ht hparse hconn hroom, Knows]
    have hrst : f.type ≠ FrameType.rstStream.toByte := by
      rw [ht]
      decide
    rw [forall_prop_of_true ht, forall_prop_of_false hrst, true_and]

end Connection

/-- No slot is in use before the preface has arrived. -/
theorem exec_slots_seen {ops : List Op} {pos : Fin connMaxStreams}
    (hlive : live ((exec ops).conn.streams pos) = true) : (exec ops).conn.prefaceSeen = true := by
  have hinv : (exec ops).conn.prefaceSeen = false → ∀ i, ((exec ops).conn.streams i).id = 0 := by
    refine exec_invariant (P := fun o => o.conn.prefaceSeen = false → ∀ i,
      (o.conn.streams i).id = 0) (fun _ _ => rfl) ?_ ops
    intro o es o' hg hs hall
    cases hs with
    | preface hnew hlen hpre => exact fun h => by cases h
    | badPreface hnew hlen hpre =>
        intro h i
        have hsame : (o.conn.queueGoaway .protocolError).2.streams = o.conn.streams := by
          rw [queueGoaway_eq hg.inv]
          split_ifs <;> rfl
        rw [hsame]
        exact hall hnew i
    | frame f rest hseen hcut hok =>
        intro h
        have hsame := (handleFrame_input hg.inv f).2.trans hseen
        exact absurd (hsame.symm.trans h) (by decide)
    | fail f rest hseen hcut herr =>
        intro h
        have hsame := (handleFrame_input hg.inv f).2.trans hseen
        exact absurd (hsame.symm.trans h) (by decide)
    | _ => exact hall
  by_contra hnew
  exact (live_iff.mp hlive).1 (hinv (by simpa using hnew) pos)

/-- The preface stays seen. -/
theorem calls_seen {r : Run} (hg : Good r.toObs) (hseen : r.conn.prefaceSeen = true)
    (ops : List Op) : (r.calls ops).conn.prefaceSeen = true := by
  refine calls_invariant (P := fun o => o.conn.prefaceSeen = true) ?_ hg hseen ops
  intro o es o' hg hs hseen
  cases hs with
  | preface hnew hlen hpre => rfl
  | badPreface hnew hlen hpre => exact absurd (hseen.symm.trans hnew) (by decide)
  | frame f rest hseen hcut hok => exact (handleFrame_input hg.inv f).2.trans hseen
  | fail f rest hseen hcut herr => exact (handleFrame_input hg.inv f).2.trans hseen
  | _ => exact hseen

/-- **A refused stream**: a request that finds the table full is answered with RST_STREAM. What the
client had in flight for the stream, RST_STREAM or DATA, is tolerated later exactly if the stream
is known by then, and so never directly after the refusal. -/
theorem refused_stream_tolerated {ops : List Op} (hok : (exec ops).AllOk) {h : Frame}
    (hfull : ∀ pos, live ((exec ops).conn.streams pos) = true)
    (hblock : (exec ops).conn.headerBlockOpen = false) (ht : h.type = FrameType.headers.toByte)
    (hend : hasFlag h.flags flagEndHeaders = true) {parsed : HeadersPayload}
    (hparse : parseHeaders h.header h.payload = .ok parsed) (hodd : h.streamId % 2 = 1)
    (hlast : (exec ops).conn.lastStreamId < h.streamId)
    (hlen : h.payload.length ≤ (exec ops).conn.maxFrameSize)
    (hfit : h.wire.length ≤ connInputCap)
    (hroom : (exec ops).conn.Fits (rstStreamFrame h.streamId .refusedStream)) {data : List UInt8}
    (hwire : (exec ops).conn.input ++ data = h.wire) :
    (exec (ops ++ [.feed data])).AllOk
      ∧ (exec (ops ++ [.feed data])).conn = { (exec ops).conn with
          input := []
          output := (exec ops).conn.output ++ (rstStreamFrame h.streamId .refusedStream).wire }
      ∧ ∀ later, (exec (ops ++ .feed data :: later)).AllOk → ∀ f : Frame,
          f.streamId = h.streamId → (exec (ops ++ .feed data :: later)).conn.InFlight f →
          (exec (ops ++ .feed data :: later)).conn.output.length + 26 ≤ connOutputCap →
          ∀ data', (exec (ops ++ .feed data :: later)).conn.input ++ data' = f.wire →
            ((exec (ops ++ .feed data :: later)).conn.Tolerates data'
              ↔ (exec (ops ++ .feed data :: later)).conn.Knows f)
            ∧ (later = [] → ¬ (exec (ops ++ .feed data :: later)).conn.Tolerates data') := by
  have hc := (exec_good ops).inv
  have hseen : (exec ops).conn.prefaceSeen = true := exec_slots_seen (hfull ⟨0, by decide⟩)
  have hhandle := handleFrame_refused hc hblock hfull ht hend hparse hodd hlast hlen hroom
  obtain ⟨hcode, hstate, hrest⟩ := feed_completes hc hseen hwire hfit
  rw [hhandle] at hcode hstate
  have hone : exec (ops ++ [Op.feed data]) = (exec ops).call (.feed data) := exec_append ops [.feed data]
  have hconn : (exec (ops ++ [Op.feed data])).conn = { (exec ops).conn with
      input := []
      output := (exec ops).conn.output ++ (rstStreamFrame h.streamId .refusedStream).wire } := by
    rw [hone, Run.call_feed_conn, hstate, hrest hcode]
    rfl
  refine ⟨?_, hconn, ?_⟩
  · intro code hmem
    rw [hone, Run.call_feed_codes] at hmem
    rcases List.mem_append.mp hmem with hmem | hmem
    · exact hok code hmem
    · rw [List.mem_singleton.mp hmem, hcode]
  · intro later hlater f hid hflight hroom' data' hwire'
    have hsplit : exec (ops ++ Op.feed data :: later) = (exec (ops ++ [Op.feed data])).calls later := by
      rw [← exec_append, List.append_assoc]
      rfl
    have hseen' : (exec (ops ++ Op.feed data :: later)).conn.prefaceSeen = true := by
      rw [hsplit]
      exact calls_seen (exec_good _) (by rw [hconn]; exact hseen) later
    have hiff := tolerates_inFlight_iff (exec_good _).inv hseen' hflight (by rw [hid]; exact hodd)
      hroom' hwire'
    refine ⟨hiff, ?_⟩
    rintro rfl htol
    -- the refusal has left neither an id nor a slot behind
    obtain ⟨-, hrst, hdata⟩ := hiff.mp htol
    rw [hconn] at hrst hdata
    obtain ⟨-, ⟨hrtype, -⟩ | ⟨hdtype, -⟩⟩ := hflight
    · have hle : f.streamId ≤ (exec ops).conn.lastStreamId := hrst hrtype
      omega
    · obtain ⟨pos, hpos, -⟩ := hdata hdtype
      have hle := hc.id_le pos
      have hpos' : ((exec ops).conn.streams pos).id = f.streamId := hpos
      omega

/-- The table is full, and the next request is refused. -/
def refusedRequest : List Op := fillTable ++ [.feed (postRequest 257).wire]

theorem postRequest_parse : parseHeaders (postRequest 257).header (postRequest 257).payload
    = .ok { headerBlock := [0x84], padLen := 0, priority := none } := by decide

theorem Filled.fits {r : Run} (h : Filled connMaxStreams r) :
    r.conn.Fits (rstStreamFrame 257 .refusedStream) := by
  have hout : r.conn.output.length ≤ 15 + 81 * 128 := h.output
  rw [Fits, rstStreamFrame_wire_length, connOutputCap]
  omega

theorem Filled.last_lt {r : Run} (h : Filled connMaxStreams r) :
    r.conn.lastStreamId < (postRequest 257).streamId := by
  have hlast : r.conn.lastStreamId ≤ 256 := h.last
  have hid : (postRequest 257).streamId = 257 := rfl
  omega

/-- The connection after the refusal. -/
theorem Filled.refused {r : Run} (h : Filled connMaxStreams r) {c : Connection}
    (heq : c = r.conn.push (rstStreamFrame 257 .refusedStream)) :
    c.input = [] ∧ c.prefaceSeen = true ∧ c.maxFrameSize = 16384 ∧ c.connRecvWindow = 65535
      ∧ c.lastStreamId < 257 ∧ c.output.length + 26 ≤ connOutputCap := by
  have hle : r.conn.output.length ≤ 15 + 81 * 128 := h.output
  have hgrown : c.output.length = r.conn.output.length + 13 := by
    rw [heq, push, List.length_append, rstStreamFrame_wire_length]
  rw [hgrown, heq, connOutputCap]
  exact ⟨h.input, h.seen, h.frame_size, h.conn_recv, h.last_lt, by omega⟩

theorem refused_stream_tolerated_full : (exec refusedRequest).AllOk := by
  have hfill := fillTable_filled
  have hlen : (postRequest 257).payload.length ≤ (exec fillTable).conn.maxFrameSize := by
    rw [hfill.frame_size]
    decide
  exact (refused_stream_tolerated hfill.ok hfill.full hfill.block
    (show (postRequest 257).type = FrameType.headers.toByte from rfl) (by decide) postRequest_parse
    (by decide) hfill.last_lt hlen (by decide) hfill.fits
    (congrArg (fun input => input ++ (postRequest 257).wire) hfill.input)).1

/-- What the client had in flight for the refused stream fails the connection. -/
theorem refused_stream_fails : (exec fillTable).AllOk
    ∧ (∀ pos, live ((exec fillTable).conn.streams pos) = true)
    ∧ (exec refusedRequest).AllOk
    ∧ ¬ (exec refusedRequest).conn.Tolerates (rstStreamFrame 257 .cancel).wire
    ∧ ¬ (exec refusedRequest).conn.Tolerates (threeBytes 257).wire := by
  have hfill := fillTable_filled
  have hrefuse := hfill.refuse
  have hone : exec refusedRequest = (exec fillTable).call (.feed (postRequest 257).wire) :=
    exec_append fillTable [.feed (postRequest 257).wire]
  have hconn : (exec refusedRequest).conn
      = (exec fillTable).conn.push (rstStreamFrame 257 .refusedStream) := by
    rw [hone, Run.call_feed_conn, hrefuse]
  have hc := (exec_good refusedRequest).inv
  obtain ⟨hinput, hseen, hmax, hrecv, hnew, hout⟩ := hfill.refused hconn
  refine ⟨hfill.ok, hfill.full, ?_, ?_, ?_⟩
  · intro code hcode
    rw [hone, Run.call_feed_codes, hrefuse] at hcode
    rcases List.mem_append.mp hcode with hcode | hcode
    · exact hfill.ok code hcode
    · rw [List.mem_singleton.mp hcode]
  · have hflight : (exec refusedRequest).conn.InFlight (rstStreamFrame 257 .cancel) :=
      ⟨by rw [hmax]; decide, Or.inl ⟨rfl, 8, by decide⟩⟩
    rw [tolerates_inFlight_iff hc hseen hflight (by decide) hout (by rw [hinput]; rfl)]
    -- the refusal has left `last_stream_id` below 257, so 257 counts as idle
    rintro ⟨-, hle, -⟩
    have hle' : 257 ≤ (exec refusedRequest).conn.lastStreamId := hle rfl
    omega
  · have hflight : (exec refusedRequest).conn.InFlight (threeBytes 257) :=
      ⟨by rw [hmax]; decide, Or.inr ⟨rfl, ⟨{ data := [1, 2, 3], padLen := 0 }, by decide⟩,
        by rw [hrecv]; decide⟩⟩
    rw [tolerates_inFlight_iff hc hseen hflight (by decide) hout (by rw [hinput]; rfl)]
    rintro ⟨-, -, hslot⟩
    obtain ⟨pos, hpos, -⟩ := hslot rfl
    have hle := hc.id_le pos
    have hpos' : ((exec refusedRequest).conn.streams pos).id = 257 := hpos
    omega

end C11Omo.Http2
