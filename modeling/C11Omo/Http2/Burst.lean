import C11Omo.Http2.Fragments
import C11Omo.Http2.Requests
import C11Omo.Http2.Server

set_option autoImplicit false

/-! # A burst of requests

A client that sends the preface, a SETTINGS frame and requests that the send windows cover is
answered from the output buffer alone: `h2_read_client` feeds until the socket is empty, and
nothing is flushed before. So the requests are answered exactly if the SETTINGS frame has no more
entries than the server can hold and all answers together fit the output buffer (`burst_answered`).
-/

namespace C11Omo.Http2

open C11Omo.Lib Connection

/-! ## What the client sends -/

/-- The frames in which a header block comes. -/
inductive Carries (streamId : Nat) (endStream : Bool) (block : List UInt8) : List Frame → Prop
  | whole {f : Frame} (h : f.Opens streamId endStream true block) :
      Carries streamId endStream block [f]
  | split {first last : Frame} {middle : List Frame} {b : List UInt8}
      (hfirst : first.Opens streamId endStream false b)
      (hmiddle : ∀ f ∈ middle, f.Continues streamId false) (hlast : last.Continues streamId true)
      (hblock : block = b ++ (middle ++ [last]).flatMap Frame.payload) :
      Carries streamId endStream block (first :: (middle ++ [last]))

/-- A request without a body, with the path that its header block carries. -/
structure GetRequest where
  streamId : Nat
  path : List UInt8
  block : List UInt8
  frames : List Frame
  streamId_odd : streamId % 2 = 1
  streamId_lt : streamId < 2 ^ 31
  extract : extractPath block streamPathCap = (.ok, path)
  block_le : block.length ≤ headerBlockCap
  carries : Carries streamId true block frames
  payload_le : ∀ f ∈ frames, f.payload.length ≤ defaultMaxFrameSize

/-- The response to a request. -/
def GetRequest.reply (r : GetRequest) : List Frame :=
  [responseHeaders r.streamId (r.path.length + 1), responseData r.streamId (responseBody r.path)]

/-- A SETTINGS frame with valid entries, any number of them. -/
structure ClientSettings where
  frame : Frame
  entries : List Setting
  notAck : hasFlag frame.flags flagAck = false
  parse : parseSettings frame.header frame.payload frame.payload.length = .ok entries
  valid : ∀ s ∈ entries, Connection.init.SettingOk s
  payload_le : frame.payload.length ≤ defaultMaxFrameSize

/-- The initial window size after the SETTINGS frame. -/
def ClientSettings.window (s : ClientSettings) : Int :=
  lastValue settingsInitialWindowSize s.entries defaultWindowSize

/-- All that the server sends to a burst of requests. -/
def burstReply (rs : List GetRequest) : List Frame :=
  serverSettingsFrame :: settingsAckFrame :: rs.flatMap GetRequest.reply

namespace Connection

variable {c : Connection} {pos : Fin connMaxStreams} {streamId : Nat} {endStream : Bool}
  {block path : List UInt8}

/-! ## Header blocks -/

/-- A request whose response does not fit the output is an internal error. -/
theorem finishHeaders_full (hc : Inv c) (hodd : streamId % 2 = 1)
    (hlast : c.lastStreamId < streamId) (hlt : streamId < 2 ^ 31) (hfree : c.freeSlot = some pos)
    {flags : UInt8} (hpath : extractPath block streamPathCap = (.ok, path))
    (hconn : (path.length + 1 : Int) ≤ c.connSendWindow)
    (hinit : (path.length + 1 : Int) ≤ c.initialStreamWindow)
    (hfull : connOutputCap < c.output.length + (wireOf [responseHeaders streamId (path.length + 1),
      responseData streamId (responseBody path)]).length) :
    (c.finishHeaders streamId flags block).1 = .internalError := by
  have h0 : streamId ≠ 0 := by omega
  have htext := extractPath_pathText block
  rw [hpath] at htext
  have hne := extractPath_ne_nil hpath
  obtain ⟨state, hstate⟩ : ∃ state, state = (if hasFlag flags flagEndStream then
      StreamState.halfClosedRemote else .opened) := ⟨_, rfl⟩
  have hopen : Inv (c.withStream pos streamId path state) := by
    rw [hstate]
    exact (withStream_opened hfree hodd hlast hlt htext _).inv hc
  have hcan : ((c.withStream pos streamId path state).streams pos).CanSend := by
    rw [hstate]
    exact withStream_canSend c pos h0 path _
  have hslot := withStream_streams c pos streamId path state
  rw [wireOf, List.flatMap_cons, List.flatMap_singleton, List.length_append] at hfull
  rw [finishHeaders_eq hc hodd hlast, hfree, hpath]
  simp only [if_true]
  rw [← hstate, queueResponse_eq hopen (by rw [hslot]; rfl) (by rw [hslot]; exact hne),
    if_neg (by rw [hslot]; simp [Stream.init, Stream.zero])]
  -- either the headers do not fit, or they do and the body does not
  have hheaders := @queueResponseHeaders_eq _ pos hopen hcan.1
  have hdoes := queueResponseHeaders_does hopen hcan (by rw [hslot]; rfl)
  rw [hheaders] at hdoes ⊢
  by_cases hfit : (c.withStream pos streamId path state).Fits
      ((c.withStream pos streamId path state).headersFrame pos)
  · rw [if_pos hfit] at hdoes ⊢
    rw [andThen_ok]
    have hsent := hdoes.inv hopen
    have hdata := @queueDeferredData_eq _ pos hsent (by
      rw [setStream_streams_self]
      exact hcan)
    rw [setStream_streams_self, hslot] at hdata
    rw [hslot]
    refine (congrArg Prod.fst hdata).trans ?_
    rw [if_neg, if_neg]
    · rw [Fits, dataFrame, setStream_streams_self, headersFrame, hslot]
      show ¬ (c.output ++ (responseHeaders streamId (path.length + 1)).wire).length
        + (responseData streamId (responseBody path)).wire.length ≤ connOutputCap
      rw [List.length_append]
      omega
    · rw [Blocked, setStream_streams_self]
      show ¬ (c.connSendWindow < (responseBody path).length
        ∨ c.initialStreamWindow < (responseBody path).length)
      rw [responseBody_length]
      push_cast
      omega
  · rw [if_neg hfit, andThen_err (by decide)]

/-- **A header block ends as its last frame does**, in one frame or in fragments: accepted with
the state that `finish_headers` leaves, or with its internal error. -/
theorem handleFrames_carries (hclosed : c.headerBlockOpen = false) {fs : List Frame}
    (hfs : Carries streamId endStream block fs)
    (hlen : ∀ f ∈ fs, f.payload.length ≤ c.maxFrameSize) (h0 : streamId ≠ 0)
    (hcap : block.length ≤ headerBlockCap) :
    ∃ (flags : UInt8) (w : Scratch), hasFlag flags flagEndStream = endStream
      ∧ ((c.finishHeaders streamId flags block).1 = .ok →
          c.handleFrames fs = moved w (c.finishHeaders streamId flags block))
      ∧ ((c.finishHeaders streamId flags block).1 = .internalError →
          (c.handleFrames fs).1 = .internalError) := by
  -- the end of the frame that finishes the block
  have hend : ∀ {d : Connection} {f : Frame} {r : ErrorCode × Connection} {w : Scratch},
      d.processFrame f.header f.payload = moved w r →
      (r.1 = .ok → d.handleFrame f = moved w r)
        ∧ (r.1 = .internalError → (d.handleFrame f).1 = .internalError) := by
    rintro d f ⟨ret, c'⟩ w hproc
    constructor
    · rintro rfl
      exact handleFrame_ok hproc
    · rintro rfl
      rw [handleFrame_goaway hproc (by simp) (by simp [isStreamError])]
  cases hfs with
  | @whole f h =>
      have hproc := processFrame_whole hclosed (hlen f (by simp)) h h0
      obtain ⟨hok, herr⟩ := @hend c f (c.finishHeaders streamId f.flags block)
        ((c.finishHeaders streamId f.flags block).2.scratch
          (c.finishHeaders streamId f.flags block).2.input) hproc
      rw [handleFrames_singleton]
      exact ⟨f.flags, _, h.endStream, hok, herr⟩
  | @split first last middle b hfirst hmiddle hlast hblock =>
      obtain ⟨d, w, hframes, hproc⟩ := handleFrames_last hclosed hlen hfirst hmiddle hlast h0 hblock
        hcap
      obtain ⟨hok, herr⟩ := hend hproc
      rw [hframes]
      exact ⟨first.flags, w, hfirst.endStream, hok, herr⟩

/-! ## One request after the other -/

/-- A connection on which all requests so far have been answered. -/
structure Idle (c : Connection) (window : Int) : Prop where
  inv : Inv c
  closed : c.headerBlockOpen = false
  free : ∀ i, live (c.streams i) = false
  window : c.initialStreamWindow = window

/-- **One request**: it is answered if the output has room for the response, and is an internal
error otherwise. -/
theorem Idle.request {window : Int} (h : Idle c window) (r : GetRequest)
    (hlast : c.lastStreamId < r.streamId) (hconn : (r.path.length + 1 : Int) ≤ c.connSendWindow)
    (hinit : (r.path.length + 1 : Int) ≤ window) :
    (c.output.length + (wireOf r.reply).length ≤ connOutputCap →
      ∃ c', c.handleFrames r.frames = (.ok, c') ∧ Idle c' window ∧ c'.lastStreamId = r.streamId
        ∧ c'.connSendWindow = c.connSendWindow - (r.path.length + 1)
        ∧ c'.output = c.output ++ wireOf r.reply)
      ∧ (connOutputCap < c.output.length + (wireOf r.reply).length →
          (c.handleFrames r.frames).1 = .internalError) := by
  have hodd := r.streamId_odd
  have hsize := h.inv.max_frame.1
  obtain ⟨pos, hfree⟩ := exists_freeSlot (c := c) ⟨0, by rw [reusable_eq_not_live, h.free 0]; rfl⟩
  obtain ⟨flags, w, hend, hok, herr⟩ := handleFrames_carries h.closed r.carries
    (fun f hf => (r.payload_le f hf).trans hsize) (by omega) r.block_le
  rw [← h.window] at hinit
  constructor
  · intro hroom
    have hserved : c.finishHeaders r.streamId flags r.block = _ :=
      finishHeaders_served h.inv hodd hlast r.streamId_lt hfree r.extract hconn hinit hroom
    have hinv := finishHeaders_does h.inv r.streamId_lt flags r.block
    rw [hserved] at hok hinv
    refine ⟨_, hok rfl, ⟨{ hinv.inv h.inv with }, h.closed, fun i => ?_, h.window⟩, rfl, rfl, rfl⟩
    -- no slot stays in use, so the next request finds the same state
    show live ((c.served pos r.streamId r.path (hasFlag flags flagEndStream)).streams i) = false
    by_cases hi : i = pos
    · -- both sides have ended the stream
      subst hi
      show live (Function.update c.streams i _ i) = false
      rw [Function.update_self, hend]
      simp [live, servedStream, Stream.close]
    · rw [served_streams_ne hi]
      exact h.free i
  · intro hfull
    exact herr (finishHeaders_full h.inv hodd hlast r.streamId_lt hfree r.extract hconn hinit hfull)

/-- **All requests**: they are answered if the output has room for all responses, and one of them
is an internal error otherwise. -/
theorem Idle.requests {window : Int} (h : Idle c window) {rs : List GetRequest}
    (hnew : ∀ r ∈ rs, c.lastStreamId < r.streamId)
    (hsorted : rs.Pairwise fun r r' => r.streamId < r'.streamId)
    (hconn : (rs.map fun r => (r.path.length + 1 : Int)).sum ≤ c.connSendWindow)
    (hinit : ∀ r ∈ rs, (r.path.length + 1 : Int) ≤ window) :
    (c.output.length + (wireOf (rs.flatMap GetRequest.reply)).length ≤ connOutputCap →
      ∃ c', c.handleFrames (rs.flatMap GetRequest.frames) = (.ok, c')
        ∧ c'.output = c.output ++ wireOf (rs.flatMap GetRequest.reply))
      ∧ (connOutputCap < c.output.length + (wireOf (rs.flatMap GetRequest.reply)).length →
          (c.handleFrames (rs.flatMap GetRequest.frames)).1 = .internalError) := by
  induction rs generalizing c with
  | nil =>
      refine ⟨fun _ => ⟨c, rfl, by simp⟩, fun hfull => ?_⟩
      have hle := h.inv.output_le
      simp only [List.flatMap_nil, wireOf_nil, List.length_nil, Nat.add_zero] at hfull
      omega
  | cons r rs ih =>
      obtain ⟨hless, hsorted⟩ := List.pairwise_cons.mp hsorted
      have hrest : 0 ≤ (rs.map fun r => (r.path.length + 1 : Int)).sum :=
        List.sum_nonneg fun x hx => by
          obtain ⟨r, -, rfl⟩ := List.mem_map.mp hx
          omega
      rw [List.map_cons, List.sum_cons] at hconn
      obtain ⟨hroom, hfull⟩ := h.request r (hnew r (List.mem_cons_self ..)) (by omega)
        (hinit r (List.mem_cons_self ..))
      rw [List.flatMap_cons, List.flatMap_cons, wireOf_append, List.length_append,
        handleFrames_append]
      -- the first request is answered and the rest follows, or it already finds no room
      by_cases hfit : c.output.length + (wireOf r.reply).length ≤ connOutputCap
      · obtain ⟨c', hframes, hidle, hid, hwindow, hout⟩ := hroom hfit
        obtain ⟨hroom', hfull'⟩ := ih hidle (fun r' hr' => by rw [hid]; exact hless r' hr') hsorted
          (by rw [hwindow]; omega) fun r' hr' => hinit r' (List.mem_cons_of_mem _ hr')
        have hlen : c'.output.length = c.output.length + (wireOf r.reply).length := by
          rw [hout, List.length_append]
        rw [hframes, andThen_ok]
        refine ⟨fun hall => ?_, fun hall => hfull' (by omega)⟩
        obtain ⟨c'', hframes', hout'⟩ := hroom' (by omega)
        exact ⟨c'', hframes', by rw [hout', hout, List.append_assoc]⟩
      · have hcode := hfull (by omega)
        refine ⟨fun hall => absurd hall (by omega), fun _ => ?_⟩
        rcases hres : c.handleFrames r.frames with ⟨ret, c'⟩
        rw [hres] at hcode
        obtain rfl : ret = .internalError := hcode
        rfl

/-! ## The SETTINGS frame -/

theorem handleFrame_settings (s : ClientSettings) :
    (s.entries.length ≤ 32 → ∃ c', started.handleFrame s.frame = (.ok, c') ∧ Idle c' s.window
        ∧ c'.lastStreamId = 0 ∧ c'.connSendWindow = 65535
        ∧ c'.output = wireOf [serverSettingsFrame, settingsAckFrame])
      ∧ (32 < s.entries.length → (started.handleFrame s.frame).1 = .internalError) := by
  have htype : s.frame.type = FrameType.settings.toByte := by
    by_contra hne
    have hne' : s.frame.header.type ≠ FrameType.settings.toByte := hne
    have hp := s.parse
    rw [parseSettings, if_pos hne'] at hp
    cases hp
  have hadmits : started.Admits s.frame := admits_closed rfl s.payload_le
  have hparse := parseSettings_max s.parse s.notAck 32
  have hproc := processFrame_handler hadmits htype
  rw [handler] at hproc
  constructor
  · intro hlen
    rw [if_pos hlen] at hparse
    -- no stream is open, so no send window can overflow
    have hall : ∀ e ∈ s.entries, started.SettingOk e := s.valid
    have hfits : started.Fits settingsAckFrame := by decide
    have happly := applySettings_ok started_inv hparse s.notAck hall
    rw [if_pos hfits] at happly
    rw [happly] at hproc
    have hinv := (foldl_applied_inv started_inv hall).push (f := settingsAckFrame) (by
      rw [Fits, foldl_applied_output]
      exact hfits)
    refine ⟨_, handleFrame_ok hproc, ⟨hinv, ?_, fun i => ?_, ?_⟩, ?_, ?_, ?_⟩
    all_goals rw [foldl_applied]
    · rfl
    · show live ((started.resizeWindows (lastValue settingsInitialWindowSize s.entries
        started.initialStreamWindow)).streams i) = false
      rw [live_resizeWindows]
      rfl
    · rfl
    · rfl
    · rfl
    · rfl
  · intro hlen
    rw [if_neg (by omega)] at hparse
    have hfail : started.applySettings s.frame.header s.frame.payload = (.internalError, started) := by
      rw [applySettings, hparse]
    rw [hfail] at hproc
    rw [handleFrame_goaway hproc (by decide) (by simp [isStreamError])]

/-- **The whole burst**, frame by frame. -/
theorem handleFrames_burst (s : ClientSettings) {rs : List GetRequest}
    (hsorted : rs.Pairwise fun r r' => r.streamId < r'.streamId)
    (hconn : (rs.map fun r => (r.path.length + 1 : Int)).sum ≤ 65535)
    (hinit : ∀ r ∈ rs, (r.path.length + 1 : Int) ≤ s.window) :
    (s.entries.length ≤ 32 ∧ (wireOf (burstReply rs)).length ≤ connOutputCap →
      ∃ c', started.handleFrames (s.frame :: rs.flatMap GetRequest.frames) = (.ok, c')
        ∧ c'.output = wireOf (burstReply rs) ∧ Inv c')
      ∧ (¬ (s.entries.length ≤ 32 ∧ (wireOf (burstReply rs)).length ≤ connOutputCap) →
          (started.handleFrames (s.frame :: rs.flatMap GetRequest.frames)).1 = .internalError) := by
  obtain ⟨hfew, hmany⟩ := handleFrame_settings s
  have hreply : burstReply rs = [serverSettingsFrame, settingsAckFrame]
      ++ rs.flatMap GetRequest.reply := rfl
  rw [handleFrames_cons, hreply, wireOf_append, List.length_append]
  by_cases hlen : s.entries.length ≤ 32
  · obtain ⟨c', hframe, hidle, hid, hwindow, hout⟩ := hfew hlen
    obtain ⟨hroom, hfull⟩ := hidle.requests
      (fun r _ => by have := r.streamId_odd; omega) hsorted (by rw [hwindow]; exact hconn) hinit
    rw [hout] at hroom hfull
    rw [hframe, andThen_ok]
    refine ⟨fun hall => ?_, fun hno => hfull (by by_contra h; exact hno ⟨hlen, not_lt.mp h⟩)⟩
    obtain ⟨c'', hframes, hout'⟩ := hroom hall.2
    have hinv := (handleFrames_inv hidle.inv (rs.flatMap GetRequest.frames)).1
    rw [hframes] at hinv
    exact ⟨c'', hframes, hout', hinv⟩
  · have hcode := hmany (by omega)
    refine ⟨fun hall => absurd hall.1 hlen, fun _ => ?_⟩
    rcases hres : started.handleFrame s.frame with ⟨ret, c'⟩
    rw [hres] at hcode
    obtain rfl : ret = .internalError := hcode
    rfl

end Connection

/-! ## The reads -/

/-- The bytes that `read` returns. -/
def chunksOf (outcomes : List ReadOutcome) : List (List UInt8) :=
  outcomes.filterMap fun
    | .got chunk => some chunk.bytes
    | .interrupted => none

/-- **Reading feeds chunk by chunk**: it ends with `EAGAIN` and all codes are `H2_OK` if feeding
the chunks in a row succeeds, and otherwise the first error is among the codes. -/
theorem readClient_feeds (client : Client) (outcomes : List ReadOutcome) :
    ((client.conn.feeds (chunksOf outcomes)).1 = .ok →
      (readClient client outcomes .again).ret = 0
        ∧ (∀ call ∈ (readClient client outcomes .again).fed, call.2 = .ok)
        ∧ (readClient client outcomes .again).client.conn
          = (client.conn.feeds (chunksOf outcomes)).2)
      ∧ ((client.conn.feeds (chunksOf outcomes)).1 ≠ .ok →
          ∃ call ∈ (readClient client outcomes .again).fed,
            call.2 = (client.conn.feeds (chunksOf outcomes)).1) := by
  induction outcomes generalizing client with
  | nil => exact ⟨fun _ => ⟨rfl, by simp [readClient], rfl⟩, fun h => absurd rfl h⟩
  | cons outcome rest ih =>
      cases outcome with
      | interrupted => exact ih client
      | got chunk =>
          have hchunks : chunksOf (.got chunk :: rest) = chunk.bytes :: chunksOf rest := rfl
          rw [hchunks, feeds, readClient]
          rcases client.conn.feed chunk.bytes with ⟨code, conn⟩
          obtain ⟨hok, herr⟩ := ih { client with conn }
          by_cases hcode : code = .ok
          · subst hcode
            rw [andThen_ok]
            simp only [ne_eq, not_true_eq_false, false_and, if_false]
            refine ⟨fun hall => ?_, fun hfail => ?_⟩
            · obtain ⟨hret, hcodes, hconn⟩ := hok hall
              refine ⟨hret, fun call hcall => ?_, hconn⟩
              rcases List.mem_cons.mp hcall with rfl | hcall
              · rfl
              · exact hcodes call hcall
            · obtain ⟨call, hcall, heq⟩ := herr hfail
              exact ⟨call, List.mem_cons_of_mem _ hcall, heq⟩
          · rw [andThen_err hcode]
            refine ⟨fun h => absurd h hcode, fun _ => ⟨(chunk, code), ?_, rfl⟩⟩
            simp only
            split <;> exact List.mem_cons_self ..

section

variable {s : ClientSettings} {rs : List GetRequest} {outcomes : List ReadOutcome} {client : Client}

/-- What `h2_read_client` does with a burst on a fresh connection is what its frames do. -/
theorem burst_delivers (hfresh : client.conn = Connection.init)
    (hbytes : (chunksOf outcomes).flatten
      = clientInput (s.frame :: rs.flatMap GetRequest.frames)) :
    Delivers (client.conn.feeds (chunksOf outcomes))
      (started.handleFrames (s.frame :: rs.flatMap GetRequest.frames)) [] := by
  have hcut : ∀ (f : Frame) (tail : List UInt8),
      frameFraming.cut (f.wire ++ tail) = some (f, tail) := cutFrame_wire
  have hsplit : frameFraming.split (wireOf (s.frame :: rs.flatMap GetRequest.frames))
      = (s.frame :: rs.flatMap GetRequest.frames, []) := frameFraming.split_flatMap hcut _
  have hchunks : ∀ data ∈ chunksOf outcomes, data.length ≤ readBufferLen := by
    intro data hdata
    obtain ⟨outcome, -, hsome⟩ := List.mem_filterMap.mp hdata
    cases outcome with
    | interrupted => cases hsome
    | got chunk =>
        obtain rfl := Option.some.inj hsome
        exact chunk.length_le
  have hsize : ∀ f ∈ s.frame :: rs.flatMap GetRequest.frames,
      f.payload.length ≤ defaultMaxFrameSize := by
    intro f hf
    rcases List.mem_cons.mp hf with rfl | hf
    · exact s.payload_le
    · obtain ⟨r, -, hr⟩ := List.mem_flatMap.mp hf
      exact r.payload_le f hr
  have hstart := @feeds_start _ _ _ defaultMaxFrameSize hchunks (by decide) (by decide)
    (by rw [hsplit]) (by rw [hsplit]; exact hsize) hbytes
  rw [hsplit] at hstart
  rw [hfresh]
  exact hstart

/-- A burst that fits is answered without an error. -/
theorem readClient_burst_ok (hfresh : client.conn = Connection.init)
    (hsorted : rs.Pairwise fun r r' => r.streamId < r'.streamId)
    (hconn : (rs.map fun r => (r.path.length + 1 : Int)).sum ≤ 65535)
    (hinit : ∀ r ∈ rs, (r.path.length + 1 : Int) ≤ s.window)
    (hbytes : (chunksOf outcomes).flatten = clientInput (s.frame :: rs.flatMap GetRequest.frames))
    (hfits : s.entries.length ≤ 32 ∧ (wireOf (burstReply rs)).length ≤ connOutputCap) :
    (readClient client outcomes .again).ret = 0
      ∧ (∀ call ∈ (readClient client outcomes .again).fed, call.2 = .ok)
      ∧ (readClient client outcomes .again).client.conn.pending = wireOf (burstReply rs) := by
  obtain ⟨c', hframes, hout, hinv⟩ := (handleFrames_burst s hsorted hconn hinit).1 hfits
  have hdel := burst_delivers hfresh hbytes
  rw [hframes] at hdel
  obtain ⟨hret, hcodes, hconn'⟩ := (readClient_feeds client outcomes).1 hdel.code
  refine ⟨hret, hcodes, ?_⟩
  rw [hconn', hdel.state]
  show c'.output.drop c'.outputSent = _
  rw [hinv.output_sent, List.drop_zero, hout]

/-- A burst that does not fit ends in an internal error. -/
theorem readClient_burst_full (hfresh : client.conn = Connection.init)
    (hsorted : rs.Pairwise fun r r' => r.streamId < r'.streamId)
    (hconn : (rs.map fun r => (r.path.length + 1 : Int)).sum ≤ 65535)
    (hinit : ∀ r ∈ rs, (r.path.length + 1 : Int) ≤ s.window)
    (hbytes : (chunksOf outcomes).flatten = clientInput (s.frame :: rs.flatMap GetRequest.frames))
    (hfull : ¬ (s.entries.length ≤ 32 ∧ (wireOf (burstReply rs)).length ≤ connOutputCap)) :
    ∃ call ∈ (readClient client outcomes .again).fed, call.2 = .internalError := by
  have hcode := (handleFrames_burst s hsorted hconn hinit).2 hfull
  have hdel := burst_delivers hfresh hbytes
  have hfeeds : (client.conn.feeds (chunksOf outcomes)).1 = .internalError := hdel.code.trans hcode
  obtain ⟨call, hcall, heq⟩ := (readClient_feeds client outcomes).2 (by rw [hfeeds]; decide)
  exact ⟨call, hcall, heq.trans hfeeds⟩

/-- **A burst of requests is answered** exactly if the SETTINGS frame has at most 32 entries and the
answers together fit the output buffer: then every `feed` returns `H2_OK` and the pending output is
the answer to every request, and otherwise some `feed` returns `H2_INTERNAL_ERROR`. -/
theorem burst_answered (s : ClientSettings) (rs : List GetRequest) (outcomes : List ReadOutcome)
    (client : Client) (hfresh : client.conn = Connection.init)
    (hsorted : rs.Pairwise fun r r' => r.streamId < r'.streamId)
    (hconn : (rs.map fun r => (r.path.length + 1 : Int)).sum ≤ 65535)
    (hinit : ∀ r ∈ rs, (r.path.length + 1 : Int) ≤ s.window)
    (hbytes : (chunksOf outcomes).flatten
      = clientInput (s.frame :: rs.flatMap GetRequest.frames)) :
    ((∀ call ∈ (readClient client outcomes .again).fed, call.2 ≠ .internalError)
        ∧ (readClient client outcomes .again).client.conn.pending = wireOf (burstReply rs)
      ↔ s.entries.length ≤ 32 ∧ (wireOf (burstReply rs)).length ≤ connOutputCap)
      ∧ ((∀ call ∈ (readClient client outcomes .again).fed, call.2 ≠ .internalError)
        ↔ s.entries.length ≤ 32 ∧ (wireOf (burstReply rs)).length ≤ connOutputCap) := by
  have hall : s.entries.length ≤ 32 ∧ (wireOf (burstReply rs)).length ≤ connOutputCap →
      (∀ call ∈ (readClient client outcomes .again).fed, call.2 ≠ .internalError)
        ∧ (readClient client outcomes .again).client.conn.pending = wireOf (burstReply rs) := by
    intro hfits
    obtain ⟨-, hcodes, hpending⟩ := readClient_burst_ok hfresh hsorted hconn hinit hbytes hfits
    refine ⟨fun call hcall => ?_, hpending⟩
    rw [hcodes call hcall]
    decide
  have hsome : (∀ call ∈ (readClient client outcomes .again).fed, call.2 ≠ .internalError) →
      s.entries.length ≤ 32 ∧ (wireOf (burstReply rs)).length ≤ connOutputCap := by
    intro hnone
    by_contra hfull
    obtain ⟨call, hcall, heq⟩ := readClient_burst_full hfresh hsorted hconn hinit hbytes hfull
    exact hnone call hcall heq
  exact ⟨⟨fun h => hsome h.1, hall⟩, ⟨hsome, fun h => (hall h).1⟩⟩

end

/-! ## A burst that does not fit -/

/-- A SETTINGS frame without entries. -/
def emptySettings : ClientSettings where
  frame := Frame.of FrameType.settings.toByte 0 0 []
  entries := []
  notAck := rfl
  parse := rfl
  valid := by simp
  payload_le := by decide

theorem getRequest_payload (streamId : Nat) : (getRequest streamId).payload = [0x84] :=
  Frame.of_payload (by decide) _ _ _

/-- The request for `/` on the stream `2 * k + 1`. -/
def rootRequest (k : Fin 2048) : GetRequest where
  streamId := 2 * k + 1
  path := ascii "/"
  block := [0x84]
  frames := [getRequest (2 * k + 1)]
  streamId_odd := by omega
  streamId_lt := by omega
  extract := by decide
  block_le := by decide
  carries := by
    have hpad : hasFlag (flagEndHeaders ||| flagEndStream) flagPadded = false := by decide
    have hprio : hasFlag (flagEndHeaders ||| flagEndStream) flagPriority = false := by decide
    have h := @Frame.opens_plain (getRequest (2 * k + 1)) rfl hpad hprio
    have hid : (getRequest (2 * k + 1)).streamId = 2 * k + 1 := Frame.of_streamId (by omega) _ _ _
    have hend : hasFlag (flagEndHeaders ||| flagEndStream) flagEndStream = true := by decide
    have hheaders : hasFlag (flagEndHeaders ||| flagEndStream) flagEndHeaders = true := by decide
    have hflags : (getRequest (2 * k + 1)).flags = flagEndHeaders ||| flagEndStream := rfl
    rw [hid, getRequest_payload, hflags, hend, hheaders] at h
    exact .whole h
  payload_le := by
    intro f hf
    rw [List.mem_singleton.mp hf, getRequest_payload]
    decide

/-- `n` requests for `/`. -/
def rootRequests (n : Nat) (h : n ≤ 2048) : List GetRequest :=
  (List.finRange n).map fun k => rootRequest (k.castLE h)

theorem rootRequests_sorted (n : Nat) (h : n ≤ 2048) :
    (rootRequests n h).Pairwise fun r r' => r.streamId < r'.streamId := by
  rw [rootRequests, List.pairwise_map]
  refine (List.pairwise_lt_finRange n).imp ?_
  intro i j hij
  show 2 * (i : Nat) + 1 < 2 * (j : Nat) + 1
  have hlt : (i : Nat) < j := hij
  omega

theorem mem_rootRequests {n : Nat} {h : n ≤ 2048} {r : GetRequest} (hr : r ∈ rootRequests n h) :
    ∃ k, r = rootRequest k := by
  obtain ⟨k, -, rfl⟩ := List.mem_map.mp hr
  exact ⟨_, rfl⟩

/-- The bytes of a burst, one frame with every `read`. -/
def rootReads (n : Nat) : List ReadOutcome :=
  .got prefaceChunk
    :: .got ⟨emptySettings.frame.wire, by decide, by decide⟩
    :: (List.finRange n).map fun k : Fin n => .got ⟨(getRequest (2 * (k : Nat) + 1)).wire,
        by simp [frameHeaderLen], by rw [Frame.wire_length, getRequest_payload]; decide⟩

theorem rootReads_bytes (n : Nat) (h : n ≤ 2048) : (chunksOf (rootReads n)).flatten
    = clientInput (emptySettings.frame :: (rootRequests n h).flatMap GetRequest.frames) := by
  have hchunks : chunksOf (rootReads n) = clientPreface :: emptySettings.frame.wire
      :: (List.finRange n).map fun k : Fin n => (getRequest (2 * (k : Nat) + 1)).wire := by
    rw [chunksOf, rootReads]
    simp [prefaceChunk]
  have hframes : (rootRequests n h).flatMap GetRequest.frames
      = (List.finRange n).map fun k : Fin n => getRequest (2 * (k : Nat) + 1) := by
    rw [rootRequests, List.flatMap_map, List.map_eq_flatMap]
    rfl
  rw [hchunks, hframes, List.flatten_cons, List.flatten_cons, clientInput, wireOf,
    List.flatMap_cons, List.flatMap_map, ← List.flatMap_def]

/-- The answer to a request for `/` has 79 bytes. -/
theorem rootReply_length (k : Fin 2048) : (wireOf (rootRequest k).reply).length = 79 := by
  have hheaders : (responseHeaders (2 * k + 1) ((ascii "/").length + 1)).payload
      = responseBlock ((ascii "/").length + 1) := responseHeaders_payload (by decide) _
  have hdata : (responseData (2 * k + 1) (responseBody (ascii "/"))).payload
      = responseBody (ascii "/") := responseData_payload (by decide) _
  show (wireOf [responseHeaders (2 * k + 1) ((ascii "/").length + 1),
    responseData (2 * k + 1) (responseBody (ascii "/"))]).length = 79
  rw [wireOf, List.flatMap_cons, List.flatMap_singleton, List.length_append, Frame.wire_length,
    Frame.wire_length, hheaders, hdata]
  decide

theorem rootReplies_length (n : Nat) (h : n ≤ 2048) :
    (wireOf (burstReply (rootRequests n h))).length = 24 + 79 * n := by
  have hreplies : ∀ rs : List GetRequest, (∀ r ∈ rs, ∃ k, r = rootRequest k) →
      (wireOf (rs.flatMap GetRequest.reply)).length = 79 * rs.length := by
    intro rs hrs
    induction rs with
    | nil => rfl
    | cons r rs ih =>
        obtain ⟨k, rfl⟩ := hrs r (List.mem_cons_self ..)
        rw [List.flatMap_cons, wireOf_append, List.length_append, rootReply_length,
          ih fun r hr => hrs r (List.mem_cons_of_mem _ hr), List.length_cons]
        omega
  have hgreeting : (wireOf [serverSettingsFrame, settingsAckFrame]).length = 24 := by decide
  have hsplit : burstReply (rootRequests n h) = [serverSettingsFrame, settingsAckFrame]
      ++ (rootRequests n h).flatMap GetRequest.reply := rfl
  have hcount : (rootRequests n h).length = n := by simp [rootRequests]
  rw [hsplit, wireOf_append, List.length_append, hgreeting,
    hreplies _ fun r hr => mem_rootRequests hr, hcount]

/-- `n` requests for `/` take `2 * n` bytes of the send windows. -/
theorem rootRequests_windows (n : Nat) (h : n ≤ 2048) :
    ((rootRequests n h).map fun r => (r.path.length + 1 : Int)).sum ≤ 65535
      ∧ ∀ r ∈ rootRequests n h, (r.path.length + 1 : Int) ≤ emptySettings.window := by
  constructor
  · have hsum : ∀ x ∈ (rootRequests n h).map (fun r => (r.path.length + 1 : Int)), x ≤ 2 := by
      intro x hx
      obtain ⟨r, hr, rfl⟩ := List.mem_map.mp hx
      obtain ⟨k, rfl⟩ := mem_rootRequests hr
      exact le_of_eq rfl
    have hle := List.sum_le_card_nsmul _ 2 hsum
    rw [List.length_map, show (rootRequests n h).length = n by simp [rootRequests],
      nsmul_eq_mul] at hle
    omega
  · intro r hr
    obtain ⟨k, rfl⟩ := mem_rootRequests hr
    show ((ascii "/").length + 1 : Int) ≤ emptySettings.window
    decide

/-- A client after `accept`. -/
def freshClient : Client := { fd := 7, used := true, conn := Connection.init }

/-- 1658 requests for `/` bring `24 + 79 * 1658 = 131006` bytes of answers, and get them. -/
theorem burst_answered_roots :
    (readClient freshClient (rootReads 1658) .again).client.conn.pending
      = wireOf (burstReply (rootRequests 1658 (by decide))) :=
  ((burst_answered emptySettings (rootRequests 1658 (by decide)) (rootReads 1658) freshClient rfl
    (rootRequests_sorted _ _) (rootRequests_windows _ _).1 (rootRequests_windows _ _).2
    (rootReads_bytes _ _)).1.mpr ⟨by decide, by rw [rootReplies_length]; decide⟩).2

/-- One more request is one too many: the answers have `24 + 79 * 1659 = 131085` bytes. -/
theorem burst_overflows : ∃ call ∈ (readClient freshClient (rootReads 1659) .again).fed,
    call.2 = .internalError := by
  refine readClient_burst_full rfl (rootRequests_sorted _ _) (rootRequests_windows _ _).1
    (rootRequests_windows _ _).2 (rootReads_bytes 1659 (by decide)) ?_
  rintro ⟨-, hle⟩
  rw [rootReplies_length] at hle
  exact absurd hle (by decide)

end C11Omo.Http2
