import C11Omo.Http2.Table

set_option autoImplicit false

/-! # Stream ids

The client numbers its streams upwards, and the server remembers the last id it has opened. A
header block for that id or a smaller one is rejected, so an id cannot be used twice. The id of a
request that is refused because the table is full is not remembered, though: when a slot is free
again, the same id is accepted (`refused_id_reused`). Otherwise ids are never reused
(`stream_ids_not_reused`).
-/

namespace C11Omo.Http2

open C11Omo.Lib

namespace Connection

variable {c : Connection} {f : Frame}

/-! ## Complete header blocks -/

/-- The header block that a frame completes, with its flags. -/
def blockOf (c : Connection) (f : Frame) : Option (UInt8 × List UInt8) :=
  match FrameType.ofByte? f.type with
  | some .headers =>
      match parseHeaders f.header f.payload with
      | .error _ => none
      | .ok parsed =>
          if hasFlag f.flags flagEndHeaders then some (f.flags, parsed.headerBlock) else none
  | some .continuation =>
      match parseContinuation f.header f.payload with
      | .error _ => none
      | .ok fragment =>
          if c.headerBlockOpen ∧ f.streamId = c.headerBlockStreamId
              ∧ fragment.length ≤ headerBlockCap - c.headerBlock.length
              ∧ hasFlag f.flags flagEndHeaders then
            some (c.headerBlockFlags, c.headerBlock ++ fragment)
          else none
  | _ => none

/-- The frame is admitted and completes a header block for its stream. -/
def Completes (c : Connection) (f : Frame) : Prop := c.Admits f ∧ (c.blockOf f).isSome = true

/-- **A complete header block goes to `finish_headers`**, whether one frame brings it or several. -/
theorem processFrame_block (hadmits : c.Admits f) {flags : UInt8} {block : List UInt8}
    (h : c.blockOf f = some (flags, block)) : ∃ bytes,
      c.processFrame f.header f.payload
        = { c with headerBlockOpen := false, headerBlock := bytes }.finishHeaders f.streamId flags
            block := by
  unfold blockOf at h
  rcases htype : FrameType.ofByte? f.type with _ | t
  · rw [htype] at h
    cases h
  · have ht := FrameType.ofByte?_eq_some htype
    simp only [htype] at h
    cases t with
    | headers =>
        rcases hparse : parseHeaders f.header f.payload with ret | parsed
        · simp [hparse] at h
        · simp only [hparse] at h
          by_cases hend : hasFlag f.flags flagEndHeaders = true
          · rw [if_pos hend, Option.some.injEq, Prod.mk.injEq] at h
            obtain ⟨rfl, rfl⟩ := h
            -- while a header block is open no HEADERS frame is admitted
            have hclosed : c.headerBlockOpen = false := by
              by_contra hopen
              refine hadmits.2 ⟨by simpa using hopen, Or.inl ?_⟩
              rw [ht]
              decide
            refine ⟨c.headerBlock, ?_⟩
            rw [processFrame_headers hadmits ht hparse hend, ← hclosed]
          · rw [if_neg hend] at h
            cases h
    | continuation =>
        rcases hparse : parseContinuation f.header f.payload with ret | fragment
        · simp [hparse] at h
        · simp only [hparse] at h
          by_cases hcond : c.headerBlockOpen ∧ f.streamId = c.headerBlockStreamId
              ∧ fragment.length ≤ headerBlockCap - c.headerBlock.length
              ∧ hasFlag f.flags flagEndHeaders
          · rw [if_pos hcond, Option.some.injEq, Prod.mk.injEq] at h
            obtain ⟨rfl, rfl⟩ := h
            obtain ⟨hopen, hid, hroom, hend⟩ := hcond
            have hopen' : ¬ (c.headerBlockOpen = false ∨ f.header.streamId ≠ c.headerBlockStreamId) := by
              rintro (hno | hno)
              · rw [hopen] at hno
                cases hno
              · exact hno hid
            have hend' : ¬ hasFlag f.header.flags flagEndHeaders = false := by
              rw [Frame.header_flags, hend]
              decide
            refine ⟨c.headerBlock ++ fragment, ?_⟩
            rw [processFrame_handler hadmits ht, handler, processContinuation, if_neg hopen', hparse]
            simp only
            rw [appendHeaderBlock, if_neg (by omega), andThen_ok, if_neg hend']
            simp only [hid]
          · rw [if_neg hcond] at h
            cases h
    | _ => cases h

instance (c : Connection) (f : Frame) : Decidable (c.Completes f) :=
  inferInstanceAs (Decidable (_ ∧ _))

theorem Completes.block (h : c.Completes f) : ∃ flags block bytes,
    c.processFrame f.header f.payload
      = { c with headerBlockOpen := false, headerBlock := bytes }.finishHeaders f.streamId flags
          block := by
  obtain ⟨hadmits, hsome⟩ := h
  obtain ⟨⟨flags, block⟩, hblock⟩ := Option.isSome_iff_exists.mp hsome
  obtain ⟨bytes, hproc⟩ := processFrame_block hadmits hblock
  exact ⟨flags, block, bytes, hproc⟩

/-- A header block for an id that is not new is rejected. -/
theorem Completes.reject (hc : Inv c) (h : c.Completes f) (hlast : f.streamId ≤ c.lastStreamId) :
    (c.handleFrame f).1 = .protocolError
      ∧ ∀ g ∈ (c.frameStep f).queued, g.type = FrameType.goaway.toByte := by
  obtain ⟨flags, block, bytes, hproc⟩ := h.block
  have hc' : Inv { c with headerBlockOpen := false, headerBlock := bytes } := { hc with }
  have hreject := @finishHeaders_reject { c with headerBlockOpen := false, headerBlock := bytes }
    f.streamId (Or.inr hlast) flags block
  rw [hreject] at hproc
  have hhandle := handleFrame_goaway hproc (by decide) (fun h => by cases h.1)
  obtain ⟨fs, hfs, gs, ge, hgo⟩ := queueGoaway_cases hc' .protocolError
  have hqueued : (c.frameStep f).queued = fs := by
    rw [FrameStep.queued, frameStep, hhandle, hgo]
    exact framesOf_drop rfl
  rw [hhandle, hqueued]
  refine ⟨rfl, fun g hg => ?_⟩
  rcases hfs with rfl | rfl
  · cases hg
  · rw [List.mem_singleton.mp hg]
    rfl

/-! ## Stream errors -/

theorem queueResponse_code (hc : Inv c) {pos : Fin connMaxStreams} (hcan : (c.streams pos).CanSend)
    (hnew : (c.streams pos).responseHeadersSent = false)
    (hbody : (c.streams pos).responseSent = false) (hpath : (c.streams pos).path ≠ []) :
    (c.queueResponse pos).1 = .ok ∨ (c.queueResponse pos).1 = .internalError := by
  rw [queueResponse_eq hc hbody hpath, hnew, if_neg (by decide), queueResponseHeaders_eq hc hcan.1]
  by_cases hfit : c.Fits (c.headersFrame pos)
  · have hdoes := queueResponseHeaders_does hc hcan hnew
    rw [queueResponseHeaders_eq hc hcan.1, if_pos hfit] at hdoes
    have hcode := @queueDeferredData_code _ pos (hdoes.inv hc) (by
      rw [setStream_streams_self]
      exact hcan)
    rw [setStream_streams_self] at hcode
    rw [if_pos hfit, andThen_ok]
    exact hcode
  · rw [if_neg hfit, andThen_err (by decide)]
    exact Or.inr rfl

/-- A header block that ends in a stream error: there was no slot for it, or the stream has one. -/
theorem finishHeaders_streamError (hc : Inv c) {streamId : Nat} (hlt : streamId < 2 ^ 31)
    (flags : UInt8) (block : List UInt8)
    (herr : isStreamError (c.finishHeaders streamId flags block).1 = true) :
    (∃ pos, ((c.finishHeaders streamId flags block).2.streams pos).id = streamId)
      ∨ streamId % 2 = 1 ∧ c.lastStreamId < streamId ∧ c.freeSlot = none := by
  by_cases hbad : streamId % 2 = 0 ∨ streamId ≤ c.lastStreamId
  · rw [finishHeaders_reject hbad] at herr
    cases herr
  · have hodd : streamId % 2 = 1 := by omega
    have hlast : c.lastStreamId < streamId := by omega
    rcases hfree : c.freeSlot with _ | pos
    · -- no slot is free
      exact Or.inr ⟨hodd, hlast, rfl⟩
    · have heq := finishHeaders_eq hc hodd hlast flags block
      rw [hfree] at heq
      simp only at heq
      by_cases hpath : (extractPath block streamPathCap).1 = .ok
      · -- the response to a request is no stream error
        rw [if_pos hpath] at heq
        have hne : (extractPath block streamPathCap).2 ≠ [] := extractPath_ne_nil (Prod.ext hpath rfl)
        have hopen := withStream_opened hfree hodd hlast hlt (extractPath_pathText block)
          (hasFlag flags flagEndStream)
        have hcode := queueResponse_code (hopen.inv hc)
          (withStream_canSend c pos (by omega) _ (hasFlag flags flagEndStream))
          (by rw [withStream_streams]; rfl) (by rw [withStream_streams]; rfl)
          (by rw [withStream_streams]; exact hne)
        rw [heq] at herr
        rcases hcode with h | h <;> rw [h] at herr <;> cases herr
      · rw [if_neg hpath] at heq
        rw [heq]
        refine Or.inl ⟨pos, ?_⟩
        simp [withStream, Connection.setStream, Stream.init]

/-- Refilling the windows fails only for lack of room. -/
theorem refreshRecvWindows_cases (hc : Inv c) (stream : Option (Fin connMaxStreams)) :
    (c.refreshRecvWindows stream).1 = .ok ∨ (c.refreshRecvWindows stream).1 = .internalError := by
  have hconn : c.refreshConnRecvWindow.1 = .ok ∨ c.refreshConnRecvWindow.1 = .internalError := by
    rw [refreshConnRecvWindow_eq hc]
    split_ifs
    · exact Or.inl rfl
    · exact Or.inr rfl
    · exact Or.inl rfl
  have hdoes := refreshConnRecvWindow_does hc
  rw [refreshRecvWindows]
  rcases hres : c.refreshConnRecvWindow with ⟨ret, c'⟩
  rw [hres] at hconn hdoes
  by_cases hret : ret = .ok
  · subst hret
    rw [andThen_ok]
    rcases stream with _ | pos
    · exact Or.inl rfl
    · simp only
      rw [refreshStreamRecvWindow_eq (hdoes.inv hc)]
      split_ifs
      · exact Or.inl rfl
      · exact Or.inr rfl
      · exact Or.inl rfl
  · rw [andThen_err hret]
    exact hconn

theorem refreshRecvWindows_code (hc : Inv c) (stream : Option (Fin connMaxStreams)) :
    isStreamError (c.refreshRecvWindows stream).1 = false := by
  rcases refreshRecvWindows_cases hc stream with h | h <;> rw [h] <;> rfl

theorem refreshConnRecvWindow_streams (hc : Inv c) :
    (c.refreshRecvWindows none).2.streams = c.streams := by
  rw [refreshRecvWindows, refreshConnRecvWindow_eq hc]
  split_ifs <;> rfl

/-- A DATA frame on a closed stream leaves the stream in its slot. -/
theorem processData_streamError (hc : Inv c) {header : FrameHeader} {payload : List UInt8}
    (herr : isStreamError (c.processData header payload).1 = true) :
    ∃ pos, ((c.processData header payload).2.streams pos).id = header.streamId := by
  rcases hparse : parseData header payload with ret | parsed
  · rw [processData, hparse] at herr
    rcases parseData_error hparse with rfl | rfl <;> cases herr
  · rcases hfind : c.findStream header.streamId with _ | pos
    · rw [processData, hparse] at herr
      simp only [hfind] at herr
      cases herr
    · have hid := findStream_eq_some hfind
      have hw := hc.conn_recv
      rw [processData_eq hc hparse hfind] at herr ⊢
      by_cases hlow : c.connRecvWindow < header.length
      · rw [if_pos hlow] at herr
        cases herr
      · have hcharge : Inv { c with connRecvWindow := c.connRecvWindow - header.length } :=
          (Act.recvConn c _ (by omega)).inv hc
        rw [if_neg hlow] at herr ⊢
        -- the one branch with a stream error, in which the stream keeps its slot
        by_cases hst : (c.streams pos).state ≠ .opened ∧ (c.streams pos).state ≠ .halfClosedLocal
        · rw [if_pos hst]
          refine ⟨pos, ?_⟩
          rw [refreshConnRecvWindow_streams hcharge]
          exact hid
        · have hst' : (c.streams pos).state = .opened ∨ (c.streams pos).state = .halfClosedLocal := by
            by_contra hno
            exact hst (not_or.mp hno)
          rw [if_neg hst] at herr
          by_cases hsr : (c.streams pos).recvWindow < header.length
          · rw [if_pos hsr] at herr
            cases herr
          · -- an open stream takes the frame
            have hrecv := @received_acts { c with connRecvWindow := c.connRecvWindow - header.length }
              pos _ rfl (hc.slot pos) hst' header.length (not_lt.mp hsr)
              (hasFlag header.flags flagEndStream) .ok
            rw [if_neg hsr, refreshRecvWindows_code (hrecv.inv hcharge)] at herr
            cases herr

/-- A part of a header block that does not complete it is no stream error. -/
theorem appendHeaderBlock_code (c : Connection) (data : List UInt8) :
    isStreamError (c.appendHeaderBlock data).1 = false := by
  rw [appendHeaderBlock]
  split_ifs <;> rfl

theorem processHeaders_code {parsed : HeadersPayload}
    (hparse : parseHeaders f.header f.payload = .ok parsed)
    (hend : ¬ hasFlag f.flags flagEndHeaders = true) :
    isStreamError (c.processHeaders f.header f.payload).1 = false := by
  have hpart : hasFlag f.header.flags flagEndHeaders = false := by simpa using hend
  rw [processHeaders, hparse]
  simp only [if_pos hpart]
  split_ifs
  · rfl
  · exact appendHeaderBlock_code _ _

theorem processContinuation_code {fragment : List UInt8}
    (hparse : parseContinuation f.header f.payload = .ok fragment)
    (hpart : ¬ (c.headerBlockOpen ∧ f.streamId = c.headerBlockStreamId
      ∧ fragment.length ≤ headerBlockCap - c.headerBlock.length
      ∧ hasFlag f.flags flagEndHeaders)) :
    isStreamError (c.processContinuation f.header f.payload).1 = false := by
  rw [processContinuation]
  by_cases hbad : c.headerBlockOpen = false ∨ f.header.streamId ≠ c.headerBlockStreamId
  · rw [if_pos hbad]
    rfl
  · obtain ⟨hopen, hid⟩ := not_or.mp hbad
    rw [if_neg hbad, hparse]
    simp only
    rw [appendHeaderBlock]
    by_cases hbig : fragment.length > headerBlockCap - c.headerBlock.length
    · rw [if_pos hbig, andThen_err (by decide)]
      rfl
    · have hend : hasFlag f.header.flags flagEndHeaders = false := by
        by_contra hend
        exact hpart ⟨by simpa using hopen, not_not.mp hid, not_lt.mp hbig, by simpa using hend⟩
      rw [if_neg hbig, andThen_ok, if_pos hend]
      rfl

/-- Frames that carry no header block and no data are never stream errors. -/
theorem handler_code (hc : Inv c) {t : FrameType} (ht : t ≠ .data ∧ t ≠ .headers ∧ t ≠ .continuation) :
    isStreamError (c.handler t f).1 = false := by
  cases t with
  | data => exact absurd rfl ht.1
  | headers => exact absurd rfl ht.2.1
  | continuation => exact absurd rfl ht.2.2
  | priority =>
      rw [handler]
      rcases hparse : parsePriority f.header f.payload with ret | priority
      · rcases parsePriority_error hparse with rfl | rfl <;> rfl
      · rfl
  | rstStream => exact processRstStream_code c f.header f.payload
  | settings =>
      obtain ⟨-, -, -, herr⟩ := applySettings_acts hc f.header f.payload
      exact herr
  | pushPromise => rfl
  | ping =>
      rw [handler, processPing]
      rcases hparse : parsePing f.header f.payload with ret | opaqueData
      · rcases parsePing_error hparse with rfl | rfl <;> rfl
      · simp only
        rw [encodePing_eq (parsePing_length hparse), queueWire_wire hc]
        split_ifs <;> rfl
  | goaway =>
      rw [handler]
      rcases validatePayload_cases f.header with h | h | h <;> rw [h] <;> rfl
  | windowUpdate =>
      obtain ⟨-, -, -, herr⟩ := processWindowUpdate_acts hc f.header f.payload
      exact herr

/-- A HEADERS frame that does not complete a header block says so. -/
theorem headers_part (hblock : c.blockOf f = none) (ht : f.type = FrameType.headers.toByte)
    {parsed : HeadersPayload} (hparse : parseHeaders f.header f.payload = .ok parsed) :
    ¬ hasFlag f.flags flagEndHeaders = true := by
  unfold blockOf at hblock
  rw [ht, FrameType.ofByte?_toByte] at hblock
  simp only [hparse] at hblock
  intro hend
  rw [if_pos hend] at hblock
  cases hblock

/-- A CONTINUATION frame that does not complete a header block does not fit it or says so. -/
theorem continuation_part (hblock : c.blockOf f = none)
    (ht : f.type = FrameType.continuation.toByte) {fragment : List UInt8}
    (hparse : parseContinuation f.header f.payload = .ok fragment) :
    ¬ (c.headerBlockOpen ∧ f.streamId = c.headerBlockStreamId
      ∧ fragment.length ≤ headerBlockCap - c.headerBlock.length
      ∧ hasFlag f.flags flagEndHeaders) := by
  unfold blockOf at hblock
  rw [ht, FrameType.ofByte?_toByte] at hblock
  simp only [hparse] at hblock
  intro hcond
  rw [if_pos hcond] at hblock
  cases hblock

/-- A frame that brings no data and completes no header block is never a stream error. -/
theorem part_code (hc : Inv c) (hblock : c.blockOf f = none) {t : FrameType}
    (ht : f.type = t.toByte) (hdata : t ≠ .data) : isStreamError (c.handler t f).1 = false := by
  cases t with
  | data => exact absurd rfl hdata
  | headers =>
      rw [handler]
      rcases hparse : parseHeaders f.header f.payload with ret | parsed
      · rw [processHeaders, hparse]
        rcases parseHeaders_error hparse with rfl | rfl <;> rfl
      · exact processHeaders_code hparse (headers_part hblock ht hparse)
  | continuation =>
      rw [handler]
      rcases hparse : parseContinuation f.header f.payload with ret | fragment
      · rw [processContinuation, hparse]
        by_cases hbad : c.headerBlockOpen = false ∨ f.header.streamId ≠ c.headerBlockStreamId
        · rw [if_pos hbad]
          rfl
        · rw [if_neg hbad]
          rcases parseContinuation_error hparse with rfl | rfl <;> rfl
      · exact processContinuation_code hparse (continuation_part hblock ht hparse)
  | _ => exact handler_code hc (by decide)

/-- **Where a stream error comes from**: the stream has a slot, or it is a request that found
none. -/
theorem streamError_slot (hc : Inv c)
    (herr : isStreamError (c.processFrame f.header f.payload).1 = true) :
    (∃ pos, ((c.processFrame f.header f.payload).2.streams pos).id = f.streamId)
      ∨ c.Completes f ∧ f.streamId % 2 = 1 ∧ c.lastStreamId < f.streamId ∧ c.freeSlot = none := by
  by_cases hadmits : c.Admits f
  · rcases hblock : c.blockOf f with _ | ⟨flags, block⟩
    · rcases htype : FrameType.ofByte? f.type with _ | t
      · rw [processFrame_unknown hadmits htype] at herr
        cases herr
      · have ht := FrameType.ofByte?_eq_some htype
        rw [processFrame_handler hadmits ht] at herr ⊢
        by_cases hdata : t = .data
        · subst hdata
          exact Or.inl (processData_streamError hc herr)
        · rw [part_code hc hblock ht hdata] at herr
          cases herr
    · obtain ⟨bytes, hproc⟩ := processFrame_block hadmits hblock
      have hc' : Inv { c with headerBlockOpen := false, headerBlock := bytes } := { hc with }
      rw [hproc] at herr ⊢
      rcases finishHeaders_streamError hc' f.streamId_lt flags block herr with h | h
      · exact Or.inl h
      · exact Or.inr ⟨⟨hadmits, by rw [hblock]; rfl⟩, h⟩
  · obtain ⟨ret, hret, heq⟩ := processFrame_rejected hadmits
    rw [heq] at herr
    rcases hret with rfl | rfl <;> cases herr

/-! ## The last stream id -/

theorem processFrame_lastStreamId_le (hc : Inv c) (f : Frame) :
    (c.processFrame f.header f.payload).2.lastStreamId ≤ (c.handleFrame f).2.lastStreamId := by
  obtain ⟨es, hes, -⟩ := processFrame_acts hc f
  rcases hres : c.processFrame f.header f.payload with ⟨ret, c₁⟩
  rw [hres] at hes
  have hc₁ := hes.inv hc
  by_cases hok : ret = .ok
  · subst hok
    rw [handleFrame_ok hres]
  · by_cases hreset : isStreamError ret = true ∧ f.streamId ≠ 0
    · obtain ⟨q, hq, -⟩ := resetStreamError_acts hc₁ hreset.2 ret
      rw [handleFrame_reset hres hreset.1 hreset.2]
      exact hq.lastStreamId_le
    · obtain ⟨fs, -, gs, ge, hgo⟩ := queueGoaway_cases hc₁ ret
      rw [handleFrame_goaway hres hok hreset, hgo]

theorem handleFrame_lastStreamId_le (hc : Inv c) (f : Frame) :
    c.lastStreamId ≤ (c.handleFrame f).2.lastStreamId := by
  obtain ⟨es, hes, -⟩ := processFrame_acts hc f
  exact hes.lastStreamId_le.trans (processFrame_lastStreamId_le hc f)

/-- If the frame completes a header block for a new stream, a slot is free for it. -/
def FindsSlot (c : Connection) (f : Frame) : Prop :=
  c.Completes f → f.streamId % 2 = 1 → c.lastStreamId < f.streamId →
    ∃ i, reusable (c.streams i) = true

instance (c : Connection) (f : Frame) : Decidable (c.FindsSlot f) :=
  inferInstanceAs (Decidable (_ → _ → _ → _))

/-- **A header block that is accepted uses its id up**, if it finds a slot. -/
theorem Completes.opened (hc : Inv c) (h : c.Completes f) (hslot : c.FindsSlot f)
    (hok : (c.handleFrame f).1 = .ok) : f.streamId ≤ (c.handleFrame f).2.lastStreamId := by
  obtain ⟨flags, block, bytes, hproc⟩ := h.block
  have hc' : Inv { c with headerBlockOpen := false, headerBlock := bytes } := { hc with }
  have hnew : f.streamId % 2 = 1 ∧ c.lastStreamId < f.streamId := by
    by_contra hbad
    have hreject := @finishHeaders_reject { c with headerBlockOpen := false, headerBlock := bytes }
      f.streamId (by show f.streamId % 2 = 0 ∨ f.streamId ≤ c.lastStreamId; omega) flags block
    rw [hreject] at hproc
    rw [handleFrame_goaway hproc (by decide) (fun h => by cases h.1)] at hok
    cases hok
  obtain ⟨hodd, hlast⟩ := hnew
  obtain ⟨pos, hfree⟩ := exists_freeSlot (hslot h hodd hlast)
  refine le_trans ?_ (processFrame_lastStreamId_le hc f)
  have hfree' : freeSlot { c with headerBlockOpen := false, headerBlock := bytes } = some pos := hfree
  rw [hproc, finishHeaders_eq hc' hodd hlast, hfree']
  simp only
  by_cases hpath : (extractPath block streamPathCap).1 = .ok
  · obtain ⟨es, hes, -⟩ := opened_queueResponse_does hc' hfree' hodd hlast f.streamId_lt
      (extractPath_pathText block) (extractPath_ne_nil (Prod.ext hpath rfl))
      (hasFlag flags flagEndStream)
    rw [if_pos hpath]
    exact hes.lastStreamId_le
  · rw [if_neg hpath]
    exact le_rfl

/-- **A stream that the server resets is dead**, if its header block has found a slot. -/
theorem reset_dead (hc : Inv c) (hslot : c.FindsSlot f) (hok : (c.handleFrame f).1 = .ok) {g : Frame}
    (hg : g ∈ (c.frameStep f).queued) (ht : g.type = FrameType.rstStream.toByte) :
    Dead g.streamId (c.handleFrame f).2 := by
  obtain ⟨es, hes, hquiet⟩ := processFrame_acts hc f
  have hqueued : ∀ fs, (c.handleFrame f).2.output = c.output ++ wireOf fs → g ∈ fs := by
    intro fs hout
    rw [FrameStep.queued, frameStep, framesOf_drop hout] at hg
    exact hg
  -- the handler itself queues no RST_STREAM
  have hnot : ∀ q, Quiet q → g ∉ queuedFrames (frameEvents c f ++ q) := by
    intro q hq hmem
    rw [queuedFrames_append, queuedFrames_frameEvents, List.nil_append] at hmem
    obtain ⟨e, he, hge⟩ := List.mem_filterMap.mp hmem
    obtain ⟨g', rfl, hne⟩ := hq e he
    obtain rfl := Option.some.inj hge
    exact hne ht
  rcases hres : c.processFrame f.header f.payload with ⟨ret, c₁⟩
  rw [hres] at hes hquiet
  have hc₁ := hes.inv hc
  by_cases hret : ret = .ok
  · subst hret
    obtain ⟨q, rfl, hq⟩ := hquiet (Or.inl rfl)
    exact absurd (hqueued _ (by rw [handleFrame_ok hres]; exact hes.output)) (hnot q hq)
  · by_cases hreset : isStreamError ret = true ∧ f.streamId ≠ 0
    · obtain ⟨q, rfl, hq⟩ := hquiet (Or.inr hreset.1)
      have heq := handleFrame_reset hres hreset.1 hreset.2
      have hspec := resetStreamError_eq hc₁ hreset.2 ret
      by_cases hfit : c₁.Fits (rstStreamFrame f.streamId ret)
      · rw [if_pos hfit] at hspec
        -- the stream has a slot
        obtain ⟨i, hi⟩ : ∃ i, (c₁.streams i).id = f.streamId := by
          have hstream := @streamError_slot c f hc
          rw [hres] at hstream
          rcases hstream hreset.1 with h | ⟨hcomp, hodd, hlast, hnone⟩
          · exact h
          · obtain ⟨pos, hfree⟩ := exists_freeSlot (hslot hcomp hodd hlast)
            rw [hnone] at hfree
            cases hfree
        obtain ⟨pos, hpos⟩ := exists_findStream hi
        have hid := findStream_eq_some hpos
        rw [hpos] at hspec
        rw [heq, hspec]
        have hmem := hqueued (queuedFrames (frameEvents c f ++ q) ++ [rstStreamFrame f.streamId ret])
          (by
            rw [heq, hspec, wireOf_append, ← List.append_assoc, ← hes.output]
            simp [push, Connection.setStream])
        have hgid : g.streamId = f.streamId := by
          rcases List.mem_append.mp hmem with hmem | hmem
          · exact absurd hmem (hnot q hq)
          · rw [List.mem_singleton.mp hmem]
            exact Frame.of_streamId f.streamId_lt _ _ _
        have hdead := Dead.of_close hc₁ hid hreset.2
        rw [hgid]
        exact ⟨hdead.opened, hdead.closed⟩
      · rw [if_neg hfit] at hspec
        rw [heq, hspec] at hok
        cases hok
    · rw [handleFrame_goaway hres hret hreset] at hok
      exact absurd hok hret

end Connection

/-! ## Runs -/

open Connection

/-- **Stream ids are never reused**, as long as every header block for a new stream finds a free
slot: once a header block for a stream has been accepted, a later one for the same or a smaller id
is rejected, and the server sends no response on a stream that it has reset. -/
theorem stream_ids_not_reused (ops : List Op) {before after : List FrameStep} {st : FrameStep}
    (hsteps : (exec ops).steps = before ++ st :: after) (hok : st.code = .ok)
    (hslot : st.before.FindsSlot st.frame) :
    (st.before.Completes st.frame → ∀ later ∈ after, later.before.Completes later.frame →
      later.frame.streamId ≤ st.frame.streamId →
        later.code = .protocolError ∧ .protocolError ∈ (exec ops).codes
        ∧ ∀ g ∈ later.queued, g.type = FrameType.goaway.toByte)
    ∧ ∀ reset ∈ st.queued, reset.type = FrameType.rstStream.toByte →
        ∀ later ∈ after, ∀ g ∈ later.queued, ¬ g.Response reset.streamId := by
  constructor
  · intro hcomp later hlater hcomp' hle
    -- `last_stream_id` has passed the id, and it never goes back
    have hsince := exec_since (R := fun c => st.frame.streamId ≤ c.lastStreamId)
      (Q := fun st' => st'.code = .ok ∧ st'.before.FindsSlot st'.frame
        ∧ st'.before.Completes st'.frame ∧ st'.frame.streamId = st.frame.streamId)
      (S := fun st' => st'.before.Completes st'.frame → st'.frame.streamId ≤ st.frame.streamId →
        st'.code = .protocolError ∧ ∀ g ∈ st'.queued, g.type = FrameType.goaway.toByte)
      (fun h _ _ _ _ _ _ => h)
      (fun hc hq => by
        obtain ⟨hok, hslot, hcomp, hid⟩ := hq
        rw [← hid]
        exact Completes.opened hc hcomp hslot hok)
      (fun hc hr => ⟨hr.trans (handleFrame_lastStreamId_le hc _),
        fun hcomp hle => Completes.reject hc hcomp (hle.trans hr)⟩)
      ops before st after hsteps ⟨hok, hslot, hcomp, rfl⟩
    obtain ⟨hcode, hqueued⟩ := hsince.2 later hlater hcomp' hle
    refine ⟨hcode, ?_, hqueued⟩
    have hmem : later ∈ (exec ops).steps := by
      rw [hsteps]
      exact List.mem_append_right _ (List.mem_cons_of_mem _ hlater)
    rw [← hcode]
    exact exec_codes ops later hmem (by rw [hcode]; decide)
  · intro reset hreset ht later hlater g hg
    -- the id has been opened, and no live slot has it: both stay so
    have hsince := exec_since (R := Dead reset.streamId)
      (Q := fun st' => st'.code = .ok ∧ st'.before.FindsSlot st'.frame ∧ reset ∈ st'.queued)
      (S := fun st' => ∀ g ∈ st'.queued, ¬ g.Response reset.streamId)
      (fun h _ _ _ _ _ _ => ⟨h.opened, h.closed⟩)
      (fun hc hq => by
        obtain ⟨hok, hslot, hmem⟩ := hq
        exact reset_dead hc hslot hok hmem ht)
      (fun hc hd => hd.handleFrame hc _) ops before st after hsteps ⟨hok, hslot, hreset⟩
    exact hsince.2 later hlater g hg

set_option maxRecDepth 20000 in
theorem stream_ids_not_reused_get :
    ∃ first second, (exec [.feed (clientInput [getRequest 1, getRequest 1])]).steps = [first, second]
      ∧ second.code = .protocolError := by
  have hall : (exec [.feed (clientInput [getRequest 1, getRequest 1])]).steps.map
      (fun st => (st.code, st.frame.streamId, decide (st.before.Completes st.frame),
        decide (st.before.FindsSlot st.frame)))
      = [(.ok, 1, true, true), (.protocolError, 1, true, true)] := by decide +kernel
  obtain ⟨first, rest, hsteps, hfirst, hrest⟩ := List.map_eq_cons_iff.mp hall
  obtain ⟨second, rest', rfl, hsecond, hnil⟩ := List.map_eq_cons_iff.mp hrest
  obtain rfl := List.map_eq_nil_iff.mp hnil
  simp only [Prod.mk.injEq, decide_eq_true_eq] at hfirst hsecond
  refine ⟨first, second, hsteps, ?_⟩
  exact ((@stream_ids_not_reused _ [] _ _ hsteps hfirst.1 hfirst.2.2.2).1 hfirst.2.2.1 second
    (by simp) hsecond.2.2.1 (by rw [hfirst.2.1, hsecond.2.1])).1

/-- A full table refuses the next request. -/
theorem Filled.refuse {r : Run} (h : Filled connMaxStreams r) :
    r.conn.feed (postRequest 257).wire = (.ok, r.conn.push (rstStreamFrame 257 .refusedStream)) := by
  have hlast : r.conn.lastStreamId ≤ 256 := h.last
  have hout : r.conn.output.length ≤ 15 + 81 * 128 := h.output
  have hid : (postRequest 257).streamId = 257 := rfl
  have hlen : (postRequest 257).payload.length = 1 := rfl
  have hparse : parseHeaders (postRequest 257).header (postRequest 257).payload
      = .ok { headerBlock := [0x84], padLen := 0, priority := none } := by decide
  have hreset : (rstStreamFrame 257 .refusedStream).wire.length = 13 := by decide
  refine feed_refused h.good.inv h.seen h.input h.block h.full rfl (by decide) hparse (by decide) ?_ ?_
    (by decide) ?_
  · rw [hid]
    omega
  · rw [hlen, h.frame_size]
    decide
  · rw [hid, Fits, hreset, connOutputCap]
    omega

/-- RST_STREAM for stream 1 frees its slot. -/
theorem Filled.free {r : Run} (h : Filled connMaxStreams r) : ∃ pos,
    (r.conn.push (rstStreamFrame 257 .refusedStream)).feed (rstStreamFrame 1 .cancel).wire
      = (.ok, (r.conn.push (rstStreamFrame 257 .refusedStream)).setStream pos
          (r.conn.streams pos).close) := by
  have hout : r.conn.output.length ≤ 15 + 81 * 128 := h.output
  have hreset : (rstStreamFrame 257 .refusedStream).wire.length = 13 := by decide
  have hfit : r.conn.Fits (rstStreamFrame 257 .refusedStream) := by
    rw [Fits, hreset, connOutputCap]
    omega
  have hcancel : parseRstStream (rstStreamFrame 1 .cancel).header (rstStreamFrame 1 .cancel).payload
      = .ok 8 := by decide
  have hid : (rstStreamFrame 1 .cancel).streamId = 1 := rfl
  have hlen : (rstStreamFrame 1 .cancel).payload.length = 4 := rfl
  obtain ⟨i, -, hi⟩ := h.holds 0 (by decide)
  have hi' : ((r.conn.push (rstStreamFrame 257 .refusedStream)).streams i).id = 1 := hi
  obtain ⟨pos, hfind⟩ := exists_findStream hi'
  have hmax : (r.conn.push (rstStreamFrame 257 .refusedStream)).maxFrameSize = 16384 := h.frame_size
  refine ⟨pos, ?_⟩
  have hfeed := feed_rstStream (h.good.inv.push hfit) h.seen h.input h.block
    (show (rstStreamFrame 1 .cancel).type = FrameType.rstStream.toByte from rfl) hcancel
    (by rw [hlen, hmax]; decide) (by decide) (by rw [hid]; exact hfind)
  exact hfeed

/-- The table is full, a request is refused, the client resets another stream, and the refused
request comes again. -/
def refusedThenReused : List Op :=
  fillTable ++ [.feed (postRequest 257).wire, .feed (rstStreamFrame 1 .cancel).wire,
    .feed (postRequest 257).wire]

/-- With a free slot the same request is answered. -/
theorem Filled.reuse {r : Run} (h : Filled connMaxStreams r) {c : Connection} (hc : Inv c)
    {pos : Fin connMaxStreams}
    (heq : c = (r.conn.push (rstStreamFrame 257 .refusedStream)).setStream pos
      (r.conn.streams pos).close) :
    (c.feed (postRequest 257).wire).1 = .ok ∧ (c.feed (postRequest 257).wire).2.output
      = c.output ++ wireOf [responseHeaders 257 2, responseData 257 [0x2f, 0x0a]] := by
  have hlast : r.conn.lastStreamId ≤ 256 := h.last
  have hout : r.conn.output.length ≤ 15 + 81 * 128 := h.output
  have hsend : r.conn.connSendWindow = 65535 - 2 * 128 := h.conn_send
  have hreset : (rstStreamFrame 257 .refusedStream).wire.length = 13 := by decide
  obtain ⟨req, hreq, hblock, hend, hpayload, hframe⟩ := @postRequest_eq 257 (by decide) (by decide)
  -- the refusal is all that has been queued since the table was filled
  have hgrown : c.output.length = r.conn.output.length + 13 := by
    rw [heq]
    show (r.conn.output ++ (rstStreamFrame 257 .refusedStream).wire).length = _
    rw [List.length_append, hreset]
  have hwire : (wireOf [responseHeaders 257 2, responseData 257 [0x2f, 0x0a]]).length ≤ 100 := by
    decide
  have hone : (ascii "/").length = 1 := rfl
  have hbody : responseBody (ascii "/") = [0x2f, 0x0a] := rfl
  -- slot `pos` is free again, and `last_stream_id` is still below 257
  obtain ⟨pos', -, hserved⟩ := feed_request hc (by rw [heq]; exact h.seen)
    (by rw [heq]; exact h.input) (by rw [heq]; exact h.block)
    ⟨pos, by rw [heq, setStream_streams_self]; exact reusable_iff.mpr (Or.inr rfl)⟩ req (by rw [hreq])
    (by rw [hreq, heq]; show r.conn.lastStreamId < 257; omega)
    (by rw [hpayload, heq]; show 1 ≤ r.conn.maxFrameSize; rw [h.frame_size]; decide)
    (by rw [hpayload]; decide) (show extractPath req.block streamPathCap = (.ok, ascii "/") by
      rw [hblock]; decide)
    (by rw [heq, hone]; show _ ≤ r.conn.connSendWindow; rw [hsend]; decide)
    (by rw [heq, hone]; show _ ≤ r.conn.initialStreamWindow; rw [h.initial]; decide)
    (by rw [hreq, hone, hbody, hgrown, connOutputCap]; exact (Nat.add_le_add_left hwire _).trans (by omega))
  rw [hframe, hreq] at hserved
  rw [hserved]
  exact ⟨rfl, rfl⟩

/-- The server answers on a stream that it has reset. -/
theorem refused_id_reused : (exec refusedThenReused).AllOk
    ∧ ∃ earlier, (exec refusedThenReused).frames = earlier
      ++ [rstStreamFrame 257 .refusedStream, responseHeaders 257 2, responseData 257 [0x2f, 0x0a]] := by
  have hfill := fillTable_filled
  have hlogged := (exec_logged hfill.ok).total
  rw [Obs.total_eq hfill.good] at hlogged
  have hops : exec refusedThenReused = (((exec fillTable).call (.feed (postRequest 257).wire)).call
      (.feed (rstStreamFrame 1 .cancel).wire)).call (.feed (postRequest 257).wire) := by
    rw [refusedThenReused, exec_append]
    simp only [Run.calls, List.foldl_cons, List.foldl_nil]
  have hgood := exec_good refusedThenReused
  rw [hops] at hgood ⊢
  -- from here on only what `Filled` says of the run is used: 257 refused, 1 reset, 257 again
  generalize exec fillTable = r at hfill hlogged hgood ⊢
  have hrefuse := hfill.refuse
  obtain ⟨pos, hfree⟩ := hfill.free
  have hgood₂ := call_good (call_good hfill.good (.feed (postRequest 257).wire))
    (.feed (rstStreamFrame 1 .cancel).wire)
  have hconn₂ : ((r.call (.feed (postRequest 257).wire)).call
      (.feed (rstStreamFrame 1 .cancel).wire)).conn
      = (r.conn.push (rstStreamFrame 257 .refusedStream)).setStream pos
        (r.conn.streams pos).close := by
    simp only [Run.call, hrefuse, hfree]
  obtain ⟨hok, hout⟩ := hfill.reuse hgood₂.inv hconn₂
  generalize hr₂ : (r.call (.feed (postRequest 257).wire)).call
    (.feed (rstStreamFrame 1 .cancel).wire) = r₂ at hok hout hconn₂ hgood hgood₂ ⊢
  have hsent : r₂.sent = r.sent := by
    rw [← hr₂, Run.call_feed_sent, Run.call_feed_sent]
  have hcodes : r₂.codes = r.codes ++ [.ok] ++ [.ok] := by
    rw [← hr₂, Run.call_feed_codes, Run.call_feed_codes, Run.call_feed_conn, hrefuse, hfree]
  refine ⟨?_, queuedFrames r.toObs.history, ?_⟩
  · intro code hcode
    rw [Run.call_feed_codes, hcodes, hok] at hcode
    simp only [List.mem_append, List.mem_singleton] at hcode
    rcases hcode with ((hcode | rfl) | rfl) | rfl
    · exact hfill.ok code hcode
    all_goals rfl
  · have hframes : r.sent ++ ((r.conn.push (rstStreamFrame 257 .refusedStream)).setStream pos
        (r.conn.streams pos).close).output
          ++ wireOf [responseHeaders 257 2, responseData 257 [0x2f, 0x0a]]
        = wireOf (queuedFrames r.toObs.history ++ [rstStreamFrame 257 .refusedStream,
          responseHeaders 257 2, responseData 257 [0x2f, 0x0a]]) := by
      rw [wireOf_append, ← hlogged]
      simp [push, Connection.setStream, wireOf]
    rw [Obs.frames, Obs.total_eq hgood, Run.call_feed_sent, Run.call_feed_conn, hsent, hout, hconn₂,
      ← List.append_assoc, hframes, framesOf_wireOf]

end C11Omo.Http2
