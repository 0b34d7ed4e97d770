import C11Omo.Http2.SlotTable

set_option autoImplicit false

/-! # Stream errors

A stream error comes from one of three places (`StreamError`): a request finds no slot, its path
cannot be used, or DATA arrives on a stream that does not take any more. With room in the output
the stream is reset, the loop of `feed` goes on, and no other stream is touched
(`stream_error_contained`).
-/

namespace C11Omo.Http2

open C11Omo.Lib Connection

namespace Connection

variable {c c' : Connection} {f : Frame} {pos : Fin connMaxStreams}

/-- **Where a stream error comes from**, with the connection at that point. -/
inductive StreamError (c : Connection) (f : Frame) : ErrorCode → Connection → Prop
  /-- A request finds no slot. -/
  | refused (bytes : List UInt8) (hcomp : c.Completes f) (hodd : f.streamId % 2 = 1)
      (hlast : c.lastStreamId < f.streamId) (hfull : c.freeSlot = none) :
      StreamError c f .refusedStream { c with headerBlockOpen := false, headerBlock := bytes }
  /-- The path of a request cannot be used. -/
  | badPath (pos : Fin connMaxStreams) (bytes path : List UInt8) (ret : ErrorCode)
      (hcomp : c.Completes f) (hodd : f.streamId % 2 = 1) (hlast : c.lastStreamId < f.streamId)
      (hfree : c.freeSlot = some pos) (hpath : PathText path) (hret : isStreamError ret = true) :
      StreamError c f ret ({ c with headerBlockOpen := false, headerBlock := bytes }.withStream pos
        f.streamId path .idle)
  /-- DATA arrives on a stream that does not take any more. -/
  | lateData (pos : Fin connMaxStreams) (ht : f.type = FrameType.data.toByte) (h0 : f.streamId ≠ 0)
      (hfind : c.findStream f.streamId = some pos)
      (hst : (c.streams pos).state ≠ .opened ∧ (c.streams pos).state ≠ .halfClosedLocal)
      (hconn : (f.payload.length : Int) ≤ c.connRecvWindow) :
      StreamError c f .streamClosed ((c.charged f.payload.length).refreshRecvWindows none).2

/-- DATA is not accepted on stream 0. -/
theorem parseData_streamId {parsed : DataPayload} (ht : f.type = FrameType.data.toByte)
    (hparse : parseData f.header f.payload = .ok parsed) : f.streamId ≠ 0 := by
  intro h0
  have hvalid : validatePayload f.header = .ok := by
    unfold parseData at hparse
    split_ifs at hparse with hbad
    all_goals exact not_not.mp (not_or.mp hbad).2
  have hlen := f.payload_le
  unfold validatePayload at hvalid
  rw [if_neg (by rw [Frame.header_length]; omega), Frame.header_type, ht,
    FrameType.ofByte?_toByte] at hvalid
  simp [validateStreamNonzero, h0] at hvalid

/-- A DATA frame that is a stream error. -/
theorem processData_late (hc : Inv c) (hadmits : c.Admits f) (ht : f.type = FrameType.data.toByte)
    {ret : ErrorCode} (hproc : c.processFrame f.header f.payload = (ret, c'))
    (herr : isStreamError ret = true) : StreamError c f ret c' := by
  have hhandler := processFrame_handler hadmits ht
  rw [handler] at hhandler
  rcases hparse : parseData f.header f.payload with code | parsed
  · rw [processData, hparse] at hhandler
    obtain ⟨rfl, rfl⟩ := Prod.mk.inj (hproc.symm.trans hhandler)
    rcases parseData_error hparse with rfl | rfl <;> cases herr
  · rcases hfind : c.findStream f.streamId with _ | pos
    · rw [processData, hparse] at hhandler
      simp only [Frame.header_streamId, hfind] at hhandler
      obtain ⟨rfl, rfl⟩ := Prod.mk.inj (hproc.symm.trans hhandler)
      cases herr
    · have heq := processFrame_data hc hadmits ht hparse hfind
      -- no other branch ends in a stream error
      by_cases hlow : c.connRecvWindow < f.payload.length
      · rw [if_pos hlow] at heq
        obtain ⟨rfl, rfl⟩ := Prod.mk.inj (hproc.symm.trans heq)
        cases herr
      · have hconn : (f.payload.length : Int) ≤ c.connRecvWindow := not_lt.mp hlow
        rw [if_neg hlow] at heq
        by_cases hst : (c.streams pos).state ≠ .opened ∧ (c.streams pos).state ≠ .halfClosedLocal
        · rw [if_pos hst] at heq
          obtain ⟨rfl, rfl⟩ := Prod.mk.inj (hproc.symm.trans heq)
          exact .lateData pos ht (parseData_streamId ht hparse) hfind hst hconn
        · -- the stream takes the data
          rw [if_neg hst] at heq
          by_cases hsr : (c.streams pos).recvWindow < f.payload.length
          · rw [if_pos hsr] at heq
            obtain ⟨rfl, rfl⟩ := Prod.mk.inj (hproc.symm.trans heq)
            cases herr
          · have hst' : (c.streams pos).Receives := by
              by_contra hno
              exact hst (not_or.mp hno)
            have hrecv : Inv ((c.charged f.payload.length).setStream pos (received (c.streams pos)
                f.payload.length (hasFlag f.flags flagEndStream))) :=
              (@received_acts (c.charged f.payload.length) pos _ rfl (hc.slot pos) hst'
                f.payload.length (not_lt.mp hsr) (hasFlag f.flags flagEndStream) .ok).inv
                  (charged_inv hc hconn)
            rw [if_neg hsr] at heq
            have hcode := refreshRecvWindows_code hrecv (if (received (c.streams pos)
              f.payload.length (hasFlag f.flags flagEndStream)).state = .closed then none else some pos)
            rw [← heq, hproc] at hcode
            rw [hcode] at herr
            cases herr

/-- **Every stream error is one of the cases.** -/
theorem processFrame_streamError (hc : Inv c) {ret : ErrorCode}
    (hproc : c.processFrame f.header f.payload = (ret, c')) (herr : isStreamError ret = true) :
    StreamError c f ret c' := by
  by_cases hadmits : c.Admits f
  · rcases hblock : c.blockOf f with _ | ⟨flags, block⟩
    · rcases htype : FrameType.ofByte? f.type with _ | t
      · rw [processFrame_unknown hadmits htype] at hproc
        obtain ⟨rfl, rfl⟩ := Prod.mk.inj hproc
        cases herr
      · have ht := FrameType.ofByte?_eq_some htype
        by_cases hdata : t = .data
        · subst hdata
          exact processData_late hc hadmits ht hproc herr
        · have hcode := part_code hc hblock ht hdata
          rw [← processFrame_handler hadmits ht, hproc, herr] at hcode
          cases hcode
    · have hcomp : c.Completes f := ⟨hadmits, by rw [hblock]; rfl⟩
      obtain ⟨bytes, hcase | ⟨⟨hodd, hlast⟩, ⟨hfull, hcase⟩ | ⟨pos, path, hfree, hpath,
        ⟨code, hcode, hcase⟩ | ⟨hne, hcase⟩⟩⟩⟩ := processFrame_block_cases hc hadmits hblock
      · obtain ⟨rfl, rfl⟩ := Prod.mk.inj (hproc.symm.trans hcase)
        cases herr
      · obtain ⟨rfl, rfl⟩ := Prod.mk.inj (hproc.symm.trans hcase)
        exact .refused bytes hcomp hodd hlast hfull
      · obtain ⟨rfl, rfl⟩ := Prod.mk.inj (hproc.symm.trans hcase)
        exact .badPath pos bytes path ret hcomp hodd hlast hfree hpath herr
      · -- a response is never a stream error
        have hc' : Inv { c with headerBlockOpen := false, headerBlock := bytes } := { hc with }
        have hfree' : freeSlot { c with headerBlockOpen := false, headerBlock := bytes }
            = some pos := hfree
        have hcode := queueResponse_code
          ((withStream_opened hfree' hodd hlast f.streamId_lt hpath
            (hasFlag flags flagEndStream)).inv hc')
          (withStream_canSend _ pos (by omega) _ (hasFlag flags flagEndStream))
          (by rw [withStream_streams]; rfl) (by rw [withStream_streams]; rfl)
          (by rw [withStream_streams]; exact hne)
        rw [← hcase, hproc] at hcode
        rcases hcode with rfl | rfl <;> cases herr
  · obtain ⟨code, hcode, heq⟩ := processFrame_rejected hadmits
    obtain ⟨rfl, rfl⟩ := Prod.mk.inj (hproc.symm.trans heq)
    rcases hcode with rfl | rfl <;> cases herr

/-! ## The reset -/

/-- A stream is closed, and no other stream and no setting is touched. -/
structure Contained (c : Connection) (streamId : Nat) (c' : Connection) : Prop where
  own : ∀ i, (c'.streams i).id = streamId → (c'.streams i).state = .closed
    ∧ (c'.streams i).responseBodyDeferred = false
  others : ∀ i, live (c.streams i) = true → (c.streams i).id ≠ streamId →
    c'.streams i = c.streams i
  conn_send : c'.connSendWindow = c.connSendWindow
  initial : c'.initialStreamWindow = c.initialStreamWindow
  max_frame : c'.maxFrameSize = c.maxFrameSize

/-- With room for a WINDOW_UPDATE the connection window is refilled. -/
theorem refreshRecvWindows_fit (hc : Inv c) (hroom : c.output.length + 13 ≤ connOutputCap) :
    c.refreshRecvWindows none = (.ok, c.refillConn) := by
  refine refreshRecvWindows_none_ok hc ?_
  rw [refreshRecvWindows, refreshConnRecvWindow_eq hc]
  by_cases hlow : c.connRecvWindow ≤ 32767
  · have hfit : c.Fits (windowUpdateFrame 0 (65535 - c.connRecvWindow).toNat) := by
      rw [Fits, windowUpdateFrame_wire_length]
      exact hroom
    rw [if_pos hlow, if_pos hfit, andThen_ok]
  · rw [if_neg hlow, andThen_ok]

theorem refillConn_output_length (c : Connection) :
    c.refillConn.output.length ≤ c.output.length + 13 := by
  show (c.output ++ wireOf (refillFrames 0 c.connRecvWindow)).length ≤ _
  unfold refillFrames
  split_ifs
  · rw [wireOf_singleton, List.length_append, windowUpdateFrame_wire_length]
  · rw [wireOf_nil, List.append_nil]
    exact Nat.le_add_right _ _

/-- Late DATA is charged to the connection, and its stream is reset. -/
theorem handleFrame_lateData (hc : Inv c) (h0 : f.streamId ≠ 0)
    (hfind : c.findStream f.streamId = some pos) (hconn : (f.payload.length : Int) ≤ c.connRecvWindow)
    (hproc : c.processFrame f.header f.payload
      = (.streamClosed, ((c.charged f.payload.length).refreshRecvWindows none).2))
    (hroom : c.output.length + 26 ≤ connOutputCap) :
    c.handleFrame f = (.ok, (((c.charged f.payload.length).refillConn).push
      (rstStreamFrame f.streamId .streamClosed)).setStream pos (c.streams pos).close) := by
  have hcharge := charged_inv hc hconn
  have hsame : (c.charged f.payload.length).output.length = c.output.length := rfl
  have hfill := refreshRecvWindows_fit hcharge (by omega)
  have hlen := refillConn_output_length (c.charged f.payload.length)
  have hfit : Fits (c.charged f.payload.length).refillConn
      (rstStreamFrame f.streamId .streamClosed) := by
    rw [Fits, rstStreamFrame_wire_length]
    omega
  have hslot : (c.charged f.payload.length).refillConn.findStream f.streamId = some pos := hfind
  have hinv := (refreshRecvWindows_does hcharge none).inv hcharge
  rw [hfill] at hproc hinv
  have hreset := resetStreamError_eq hinv h0 .streamClosed
  rw [if_pos hfit, hslot] at hreset
  exact (handleFrame_reset hproc rfl h0).trans hreset

/-- **With room for two frames the stream is reset and nothing else is touched.** -/
theorem StreamError.handle (hc : Inv c) {ret : ErrorCode} (h : StreamError c f ret c')
    (hproc : c.processFrame f.header f.payload = (ret, c')) (herr : isStreamError ret = true)
    (hroom : c.output.length + 26 ≤ connOutputCap) : ∃ credit c'',
    (credit = [] ∨ ∃ increment, credit = [windowUpdateFrame 0 increment])
      ∧ c.handleFrame f = (.ok, c'')
      ∧ c''.output = c.output ++ wireOf (credit ++ [rstStreamFrame f.streamId ret])
      ∧ Contained c f.streamId c'' := by
  cases h with
  | refused bytes hcomp hodd hlast hfull =>
      have h0 : f.streamId ≠ 0 := by omega
      have hc' : Inv { c with headerBlockOpen := false, headerBlock := bytes } := { hc with }
      have hfit : Fits { c with headerBlockOpen := false, headerBlock := bytes }
          (rstStreamFrame f.streamId .refusedStream) := by
        rw [Fits, rstStreamFrame_wire_length]
        show c.output.length + 13 ≤ connOutputCap
        omega
      refine ⟨[], { c with headerBlockOpen := false, headerBlock := bytes }.push
        (rstStreamFrame f.streamId .refusedStream), Or.inl rfl, ?_, by simp [push], ?_⟩
      · rw [handleFrame_reset hproc rfl h0, resetStreamError_refused hc' h0 hlast, if_pos hfit]
      · refine ⟨fun i hi => ?_, fun i _ _ => rfl, rfl, rfl, rfl⟩
        -- the id is new, so it has no slot
        have hle := hc.id_le i
        have hi' : (c.streams i).id = f.streamId := hi
        omega
  | badPath pos bytes path ret hcomp hodd hlast hfree hpath hret =>
      have h0 : f.streamId ≠ 0 := by omega
      have hc' : Inv { c with headerBlockOpen := false, headerBlock := bytes } := { hc with }
      have hfree' : freeSlot { c with headerBlockOpen := false, headerBlock := bytes } = some pos :=
        hfree
      have hfit : Fits (withStream { c with headerBlockOpen := false, headerBlock := bytes } pos
          f.streamId path .idle) (rstStreamFrame f.streamId ret) := by
        rw [Fits, rstStreamFrame_wire_length]
        show c.output.length + 13 ≤ connOutputCap
        omega
      have hhandle := (handleFrame_reset hproc herr h0).trans
        (resetStreamError_new hc' hfree' hodd hlast f.streamId_lt hpath ret)
      rw [if_pos hfit] at hhandle
      refine ⟨[], _, Or.inl rfl, hhandle, ?_, ?_⟩
      · simp [push, withStream, Connection.setStream]
      · have hother : ∀ i, i ≠ pos → (withStream { c with
            headerBlockOpen := false, headerBlock := bytes } pos f.streamId path .idle).streams i
            = c.streams i := fun i hi => withStream_streams_ne hi _ _ _
        refine ⟨fun i hi => ?_, fun i hlive _ => ?_, rfl, rfl, rfl⟩
        · by_cases hpos : i = pos
          · rw [hpos, setStream_streams_self]
            exact ⟨rfl, rfl⟩
          · have hi' : (c.streams i).id = f.streamId := by
              rw [setStream_streams_ne _ hpos] at hi
              rw [← hother i hpos]
              exact hi
            have hle := hc.id_le i
            omega
        · have hpos : i ≠ pos := by
            rintro rfl
            have hreuse := freeSlot_eq_some hfree
            rw [reusable_eq_not_live, hlive] at hreuse
            cases hreuse
          rw [setStream_streams_ne _ hpos]
          exact hother i hpos
  | lateData pos ht h0 hfind hst hconn =>
      have hhandle := handleFrame_lateData hc h0 hfind hconn hproc hroom
      refine ⟨refillFrames 0 (c.connRecvWindow - f.payload.length), _, ?_, hhandle, ?_, ?_⟩
      · unfold refillFrames
        split_ifs
        · exact Or.inr ⟨_, rfl⟩
        · exact Or.inl rfl
      · rw [wireOf_append, wireOf_singleton, ← List.append_assoc]
        rfl
      · have hid := findStream_eq_some hfind
        refine ⟨fun i hi => ?_, fun i _ hne => ?_, rfl, rfl, rfl⟩
        · by_cases hpos : i = pos
          · rw [hpos, setStream_streams_self]
            exact ⟨rfl, rfl⟩
          · have hi' : (c.streams i).id = f.streamId := by
              rw [setStream_streams_ne _ hpos] at hi
              exact hi
            exact absurd (hc.id_inj i pos (by rw [hi']; exact h0) (by rw [hi', hid])) hpos
        · have hpos : i ≠ pos := by
            rintro rfl
            exact hne hid
          rw [setStream_streams_ne _ hpos]
          rfl

end Connection

/-! ## All runs -/

/-- A frame that is handled stands at the front of the input. -/
theorem exec_steps_cut (ops : List Op) : ∀ st ∈ (exec ops).steps, Inv st.before
    ∧ (∃ rest, cutFrame st.before.input = some (st.frame, rest))
    ∧ st = st.before.frameStep st.frame := by
  refine exec_invariant (P := fun o => ∀ st ∈ o.steps, Inv st.before
    ∧ (∃ rest, cutFrame st.before.input = some (st.frame, rest))
    ∧ st = st.before.frameStep st.frame) (by simp [Run.start]) ?_ ops
  intro o es o' hg hs hall
  have hsnoc : ∀ f rest, cutFrame o.conn.input = some (f, rest) →
      ∀ st ∈ o.steps ++ [o.conn.frameStep f], Inv st.before
        ∧ (∃ rest, cutFrame st.before.input = some (st.frame, rest))
        ∧ st = st.before.frameStep st.frame := by
    intro f rest hcut st hst
    rcases List.mem_append.mp hst with hst | hst
    · exact hall st hst
    · rw [List.mem_singleton.mp hst]
      exact ⟨hg.inv, ⟨rest, hcut⟩, rfl⟩
  cases hs with
  | frame f rest hseen hcut hok => exact hsnoc f rest hcut
  | fail f rest hseen hcut herr => exact hsnoc f rest hcut
  | _ => exact hall

/-- **A stream error touches only its own stream**: whenever `process_frame` reports one and two
more frames fit the output, RST_STREAM with its code is queued for the stream of the frame, behind
at most a WINDOW_UPDATE for the connection, `feed` goes on, the stream is closed, and the other
streams and the settings stay as they are. Sending deferred responses never is a stream error. The
steps are those of the loop in `feed`, whose result is that of the last one (`feed_made`). -/
theorem stream_error_contained (ops : List Op) {st : FrameStep} (hst : st ∈ (exec ops).steps) :
    (∀ ret c', st.before.processFrame st.frame.header st.frame.payload = (ret, c') →
      ret = .refusedStream ∨ ret = .streamClosed →
      st.before.output.length + 26 ≤ connOutputCap →
      st.code = .ok
      ∧ (∃ credit, (credit = [] ∨ ∃ increment, credit = [windowUpdateFrame 0 increment])
        ∧ st.queued = credit ++ [rstStreamFrame st.frame.streamId ret]
        ∧ st.after.output = st.before.output ++ wireOf st.queued)
      ∧ (∃ rest, cutFrame st.before.input = some (st.frame, rest)
        ∧ st.before.feedStep = .next { st.after with input := rest })
      ∧ Contained st.before st.frame.streamId st.after)
    ∧ isStreamError st.before.flushDeferredResponses.1 = false
    ∧ (st.frame.type = FrameType.windowUpdate.toByte →
        isStreamError (st.before.processFrame st.frame.header st.frame.payload).1 = false) := by
  obtain ⟨hc, ⟨rest, hcut⟩, heq⟩ := exec_steps_cut ops st hst
  have hcode : st.code = (st.before.handleFrame st.frame).1 := congrArg FrameStep.code heq
  have hafter : st.after = (st.before.handleFrame st.frame).2 := congrArg FrameStep.after heq
  refine ⟨fun ret c' hproc hret hroom => ?_, ?_, fun ht => ?_⟩
  · have herr : isStreamError ret = true := by
      rcases hret with rfl | rfl <;> rfl
    obtain ⟨credit, c'', hcredit, hhandle, hout, hcontained⟩ :=
      (processFrame_streamError hc hproc herr).handle hc hproc herr hroom
    -- with room for 26 bytes the credit and RST_STREAM are both queued
    have hstep := feedStep_of_cut hc hcut
    rw [hhandle] at hcode hafter hstep
    obtain rfl : c'' = st.after := hafter.symm
    have hqueued : st.queued = credit ++ [rstStreamFrame st.frame.streamId ret] := framesOf_drop hout
    exact ⟨hcode, ⟨credit, hcredit, hqueued, by rw [hqueued]; exact hout⟩, ⟨rest, hcut, hstep⟩,
      hcontained⟩
  · rcases flushDeferredLoop_code hc (List.finRange connMaxStreams) with hflush | hflush
    · rw [flushDeferredResponses, hflush]
      rfl
    · rw [flushDeferredResponses, hflush]
      rfl
  · -- a frame that brings no data and completes no header block
    rcases hres : st.before.processFrame st.frame.header st.frame.payload with ⟨ret, c'⟩
    by_contra herr
    rw [Bool.not_eq_false] at herr
    have hnone : ¬ st.before.Completes st.frame := by
      intro hcomp
      have hsome := hcomp.2
      rw [blockOf_windowUpdate ht] at hsome
      cases hsome
    cases processFrame_streamError hc hres herr with
    | refused bytes hcomp hodd hlast hfull => exact hnone hcomp
    | badPath pos bytes path ret hcomp hodd hlast hfree hpath hret => exact hnone hcomp
    | lateData pos hdata h0 hfind hclosed hconn => simp [ht] at hdata

/-- DATA on a stream that is closed. -/
def dataAfterEnd : List Op :=
  [.feed (clientInput [getRequest 1, Frame.of FrameType.data.toByte 0 1 [1, 2, 3]])]

set_option maxRecDepth 20000 in
theorem stream_error_contained_data : ∃ request data, (exec dataAfterEnd).steps = [request, data]
    ∧ data.code = .ok ∧ ∃ credit, data.queued = credit ++ [rstStreamFrame 1 .streamClosed] := by
  have hall : (exec dataAfterEnd).steps.map (fun st => (st.frame.streamId,
      (st.before.processFrame st.frame.header st.frame.payload).1, st.before.output.length))
      = [(1, .ok, 15), (1, .streamClosed, 94)] := by decide +kernel
  obtain ⟨request, rest, hsteps, -, hrest⟩ := List.map_eq_cons_iff.mp hall
  obtain ⟨data, rest', rfl, hdata, hnil⟩ := List.map_eq_cons_iff.mp hrest
  obtain rfl := List.map_eq_nil_iff.mp hnil
  simp only [Prod.mk.injEq] at hdata
  have hcontained := (@stream_error_contained dataAfterEnd data (by rw [hsteps]; simp)).1
    .streamClosed _ (Prod.ext hdata.2.1 rfl) (Or.inr rfl) (by rw [hdata.2.2]; decide)
  obtain ⟨credit, -, hqueued, -⟩ := hcontained.2.1
  rw [hdata.1] at hqueued
  exact ⟨request, data, hsteps, hcontained.1, credit, hqueued⟩

end C11Omo.Http2
