import C11Omo.Http2.Settings

set_option autoImplicit false

/-! # The handlers as actions

Every handler of `connection.c`, started in a state with the structural invariant, is a sequence
of protocol actions, also when it fails half way. Most handlers are quiet: they leave nothing but
queued frames in the history (`Does`). WINDOW_UPDATE records the credit it applies, and a SETTINGS
frame that fails may leave torn windows behind.
-/

namespace C11Omo.Http2

open C11Omo.Lib Connection

namespace Connection

variable {c : Connection} {pos : Fin connMaxStreams}

/-! ## Queueing -/

theorem queueWire_does (hc : Inv c) {f : Frame} (hf : f.Control)
    (hrst : f.type ≠ FrameType.rstStream.toByte) : Does c (c.queueWire (some f.wire)) := by
  rw [queueWire_wire hc]
  by_cases hfit : c.Fits f
  · rw [if_pos hfit]
    exact .push hf hrst hfit _
  · rw [if_neg hfit]
    exact .refl _ c

theorem windowUpdateFrame_control (streamId increment : Nat) :
    (windowUpdateFrame streamId increment).Control := control_of (by simp) _ _ _

theorem refreshConnRecvWindow_does (hc : Inv c) : Does c c.refreshConnRecvWindow := by
  have hact : Act c [] { c with connRecvWindow := 65535 } :=
    .recvConn c 65535 ⟨by norm_num, le_refl _⟩
  rw [refreshConnRecvWindow_eq hc]
  by_cases hlow : c.connRecvWindow ≤ 32767
  · rw [if_pos hlow]
    refine .after hact ?_
    by_cases hfit : c.Fits (windowUpdateFrame 0 (65535 - c.connRecvWindow).toNat)
    · have hfit' : Fits { c with connRecvWindow := 65535 }
          (windowUpdateFrame 0 (65535 - c.connRecvWindow).toNat) := hfit
      rw [if_pos hfit]
      exact .push (windowUpdateFrame_control _ _) (ne_rstStream_of (by decide) _ _ _) hfit' _
    · rw [if_neg hfit]
      exact .refl _ _
  · rw [if_neg hlow]
    exact .refl _ c

theorem refreshStreamRecvWindow_does (hc : Inv c) : Does c (c.refreshStreamRecvWindow pos) := by
  have hact : Act c [] (c.setStream pos { c.streams pos with recvWindow := 65535 }) :=
    .recvStream c pos 65535 ⟨by norm_num, le_refl _⟩
  rw [refreshStreamRecvWindow_eq hc]
  by_cases hlow : (c.streams pos).recvWindow ≤ 32767
  · rw [if_pos hlow]
    refine .after hact ?_
    by_cases hfit : c.Fits (windowUpdateFrame (c.streams pos).id
        (65535 - (c.streams pos).recvWindow).toNat)
    · have hfit' : Fits (c.setStream pos { c.streams pos with recvWindow := 65535 })
          (windowUpdateFrame (c.streams pos).id (65535 - (c.streams pos).recvWindow).toNat) := hfit
      rw [if_pos hfit]
      exact .push (windowUpdateFrame_control _ _) (ne_rstStream_of (by decide) _ _ _) hfit' _
    · rw [if_neg hfit]
      exact .refl _ _
  · rw [if_neg hlow]
    exact .refl _ c

theorem refreshRecvWindows_does (hc : Inv c) (stream : Option (Fin connMaxStreams)) :
    Does c (c.refreshRecvWindows stream) := by
  have hfirst := refreshConnRecvWindow_does hc
  refine hfirst.andThen ?_
  cases stream with
  | none => exact .refl _ _
  | some pos => exact refreshStreamRecvWindow_does (hfirst.inv hc)

/-! ## Responses -/

theorem queueDeferredData_does (hc : Inv c) (hcan : (c.streams pos).CanSend)
    (hhead : (c.streams pos).responseHeadersSent = true)
    (hbody : (c.streams pos).responseSent = false) (hpath : (c.streams pos).path ≠ []) :
    Does c (c.queueDeferredData pos (responseBody (c.streams pos).path)) := by
  rw [queueDeferredData_eq hc hcan]
  by_cases hb : c.Blocked pos
  · rw [if_pos hb]
    exact .act (.defer c pos hcan hhead hbody hpath hb) .nil _
  · rw [if_neg hb]
    rw [Blocked, not_or, not_lt, not_lt] at hb
    by_cases hfit : c.Fits (c.dataFrame pos)
    · rw [if_pos hfit]
      exact .act (.sendData c pos hcan hhead hbody hpath hb.1 hb.2 hfit)
        (.queued (ne_rstStream_of (by decide) _ _ _)) _
    · rw [if_neg hfit]
      exact .refl _ c

theorem queueResponseHeaders_does (hc : Inv c) (hcan : (c.streams pos).CanSend)
    (hnew : (c.streams pos).responseHeadersSent = false) :
    Does c (c.queueResponseHeaders pos
      (decimal (responseBody (c.streams pos).path).length)) := by
  rw [queueResponseHeaders_eq hc hcan.1]
  by_cases hfit : c.Fits (c.headersFrame pos)
  · rw [if_pos hfit]
    exact .act (.sendHeaders c pos hcan hnew hfit) (.queued (ne_rstStream_of (by decide) _ _ _)) _
  · rw [if_neg hfit]
    exact .refl _ c

/-- A whole response on a stream that has just received its request. -/
theorem queueResponse_does (hc : Inv c) (hcan : (c.streams pos).CanSend)
    (hnew : (c.streams pos).responseHeadersSent = false)
    (hbody : (c.streams pos).responseSent = false) (hpath : (c.streams pos).path ≠ []) :
    Does c (c.queueResponse pos) := by
  have hhead := queueResponseHeaders_does hc hcan hnew
  rw [queueResponse_eq hc hbody hpath, if_neg (by simp [hnew]), queueResponseHeaders_eq hc hcan.1]
  rw [queueResponseHeaders_eq hc hcan.1] at hhead
  by_cases hfit : c.Fits (c.headersFrame pos)
  · rw [if_pos hfit] at hhead ⊢
    refine hhead.andThen ?_
    have hs : ((c.push (c.headersFrame pos)).setStream pos
        { c.streams pos with responseHeadersSent := true }).streams pos
          = { c.streams pos with responseHeadersSent := true } := setStream_streams_self _ _ _
    have hdata := @queueDeferredData_does _ pos (hhead.inv hc)
    rw [hs] at hdata
    exact hdata hcan rfl hbody hpath
  · rw [if_neg hfit] at hhead ⊢
    exact hhead

theorem flushDeferredLoop_does (hc : Inv c) (ps : List (Fin connMaxStreams)) :
    Does c (flushDeferredLoop ps c) := by
  induction ps generalizing c with
  | nil => exact .refl _ c
  | cons pos rest ih =>
      rw [flushDeferredLoop]
      by_cases hd : live (c.streams pos) ∧ (c.streams pos).responseBodyDeferred
      · obtain ⟨hst, hhead, hbody, hpath⟩ := (hc.slot pos).deferred hd.2
        have hfirst : Does c (c.queueResponse pos) := by
          rw [queueResponse_deferred hc hd.2]
          exact queueDeferredData_does hc ⟨(live_iff.mp hd.1).1, hst⟩ hhead hbody hpath
        rw [if_pos hd]
        exact hfirst.andThen (ih (hfirst.inv hc))
      · rw [if_neg hd]
        exact ih hc

theorem flushDeferredResponses_does (hc : Inv c) : Does c c.flushDeferredResponses :=
  flushDeferredLoop_does hc _

/-! ## Paths -/

end Connection

/-- A text that fits a path buffer. -/
def PathText (path : List UInt8) : Prop := path.length < streamPathCap ∧ (0 : UInt8) ∉ path

theorem PathText.nil : PathText [] := ⟨by decide, by simp⟩

theorem copyText_pathText {src path : List UInt8} (h : copyText streamPathCap src = .ok path) :
    PathText path := by
  unfold copyText at h
  split_ifs at h with h0 hlen
  obtain rfl := Except.ok.inj h
  exact ⟨by omega, zero_notMem_cstr src⟩

theorem maybeCopyPath_pathText {path : List UInt8} (h : PathText path) (name value : List UInt8) :
    PathText (maybeCopyPath name value path streamPathCap).2 := by
  unfold maybeCopyPath
  split
  · rcases hcopy : copyText streamPathCap value with ret | p
    · exact h
    · exact copyText_pathText hcopy
  · exact h

theorem extractPathValue_pathText {path : List UInt8} (h : PathText path)
    (name wire : List UInt8) : PathText (extractPathValue name wire path streamPathCap).2.1 := by
  unfold extractPathValue
  split
  · rcases decodeString wire headerValueCap with ret | ⟨value, used⟩
    · exact h
    · rcases hcopy : copyText streamPathCap value with ret | p
      · simp only [hcopy]
        exact h
      · simp only [hcopy]
        exact copyText_pathText hcopy
  · rcases skipStringCapped wire headerValueCap with ret | used
    · exact h
    · exact h

theorem extractPathLoop_pathText (fuel : Nat) (wire : List UInt8) {path : List UInt8}
    (h : PathText path) : PathText (extractPathLoop fuel wire path streamPathCap).2 := by
  induction fuel generalizing wire path with
  | zero => exact h
  | succ fuel ih =>
      cases wire with
      | nil => exact h
      | cons first rest =>
          rw [extractPathLoop]
          split
          · -- an indexed field
            rcases decodeInteger (first :: rest) 7 with ret | ⟨index, used⟩
            · exact h
            · simp only
              rcases staticGet index with _ | entry
              · exact h
              · have hcopy := maybeCopyPath_pathText h entry.name entry.value
                simp only
                rcases hres : maybeCopyPath entry.name entry.value path streamPathCap with ⟨ret, p⟩
                rw [hres] at hcopy
                cases ret <;> first | exact ih _ hcopy | exact hcopy
          · split
            · -- a table size update
              rcases decodeInteger (first :: rest) 5 with ret | ⟨size, used⟩
              · exact h
              · exact ih _ h
            · -- a literal
              rcases decodeIndexedLiteralName (first :: rest) (literalPrefixBits first) headerNameCap
                with ret | ⟨name, nameUsed⟩
              · exact h
              · have hval := extractPathValue_pathText h name ((first :: rest).drop nameUsed)
                simp only
                rcases hres : extractPathValue name ((first :: rest).drop nameUsed) path streamPathCap
                  with ⟨ret, p, used⟩
                rw [hres] at hval
                cases ret <;> first | exact ih _ hval | exact hval

/-- Whatever `extract_path` leaves in the path buffer is a text that fits. -/
theorem extractPath_pathText (block : List UInt8) : PathText (extractPath block streamPathCap).2 := by
  have h := extractPathLoop_pathText block.length block PathText.nil
  rw [extractPath, if_neg (by decide)]
  rcases hres : extractPathLoop block.length block [] streamPathCap with ⟨ret, p⟩
  rw [hres] at h
  cases ret <;> first | exact h | (simp only; split <;> exact h)

theorem extractPath_ne_nil {block path : List UInt8}
    (h : extractPath block streamPathCap = (.ok, path)) : path ≠ [] := by
  rw [extractPath, if_neg (by decide)] at h
  rcases hres : extractPathLoop block.length block [] streamPathCap with ⟨ret, p⟩
  rw [hres] at h
  cases ret
  case ok =>
    simp only at h
    by_cases hp : p = []
    · rw [if_pos hp] at h
      cases h
    · rw [if_neg hp] at h
      obtain ⟨-, rfl⟩ := Prod.mk.inj h
      exact hp
  all_goals cases h

namespace Connection

variable {c : Connection} {pos : Fin connMaxStreams}

/-! ## Requests -/

/-- The slot a new stream gets. -/
def freeSlot (c : Connection) : Option (Fin connMaxStreams) :=
  (List.finRange connMaxStreams).find? (fun pos => reusable (c.streams pos))

/-- The state after the slot of a new stream has been filled. -/
def withStream (c : Connection) (pos : Fin connMaxStreams) (streamId : Nat) (path : List UInt8)
    (state : StreamState) : Connection :=
  { c.setStream pos { Stream.init streamId c.initialStreamWindow with path := path, state := state } with
    lastStreamId := streamId }

theorem and_one_eq_zero {n : Nat} : n &&& 1 = 0 ↔ n % 2 = 0 := by
  rw [Nat.and_one_is_mod]

/-- Header blocks for even ids and for ids that are not new are rejected. -/
theorem finishHeaders_reject {streamId : Nat} (h : streamId % 2 = 0 ∨ streamId ≤ c.lastStreamId)
    (flags : UInt8) (block : List UInt8) :
    c.finishHeaders streamId flags block = (.protocolError, c) := by
  rw [finishHeaders]
  by_cases heven : streamId % 2 = 0
  · rw [if_pos (and_one_eq_zero.mpr heven)]
  · rw [if_neg (mt and_one_eq_zero.mp heven), if_pos (h.resolve_left heven)]

/-- No slot in the table has an id above `last_stream_id`. -/
theorem findStream_new (hc : Inv c) {streamId : Nat} (h : c.lastStreamId < streamId) :
    c.findStream streamId = none := by
  refine findStream_eq_none.mpr fun i hi => ?_
  have := hc.id_le i
  omega

/-- **A header block for a new id**: refused without a slot, failed with a bad path, or answered. -/
theorem finishHeaders_eq (hc : Inv c) {streamId : Nat} (hodd : streamId % 2 = 1)
    (hlast : c.lastStreamId < streamId) (flags : UInt8) (block : List UInt8) :
    c.finishHeaders streamId flags block
      = match c.freeSlot with
        | none => (.refusedStream, c)
        | some pos =>
            if (extractPath block streamPathCap).1 = .ok then
              (c.withStream pos streamId (extractPath block streamPathCap).2
                (if hasFlag flags flagEndStream then .halfClosedRemote else .opened)).queueResponse pos
            else
              ((extractPath block streamPathCap).1,
                c.withStream pos streamId (extractPath block streamPathCap).2 .idle) := by
  have heven : ¬ streamId &&& 1 = 0 := by
    rw [and_one_eq_zero]
    omega
  rw [finishHeaders, if_neg heven, if_neg (by omega), getStream, findStream_new hc hlast]
  simp only
  rcases hfree : c.freeSlot with _ | pos
  · rw [freeSlot] at hfree
    rw [hfree]
  · rw [freeSlot] at hfree
    rw [hfree]
    rcases hpath : extractPath block streamPathCap with ⟨ret, path⟩
    by_cases hret : ret = .ok
    · subst hret
      simp [Stream.receiveHeaders, withStream, Stream.init, Connection.setStream]
    · simp [hret, withStream, Connection.setStream, Stream.init]

theorem freeSlot_eq_some (h : c.freeSlot = some pos) : reusable (c.streams pos) = true := by
  simpa using List.find?_some h

theorem freeSlot_eq_none : c.freeSlot = none ↔ ∀ i, live (c.streams i) = true := by
  simp [freeSlot, reusable_eq_not_live]

/-- Filling a slot is opening it, writing the path and leaving the idle state. -/
theorem withStream_does (hfree : c.freeSlot = some pos) {streamId : Nat}
    (hodd : streamId % 2 = 1) (hlast : c.lastStreamId < streamId) (hlt : streamId < 2 ^ 31)
    {path : List UInt8} (hpath : PathText path) (ret : ErrorCode) :
    Does c (ret, c.withStream pos streamId path .idle) := by
  refine .after (.openSlot c pos streamId (freeSlot_eq_some hfree) hodd hlast hlt) ?_
  have hact := Act.path
    { c.setStream pos (Stream.init streamId c.initialStreamWindow) with lastStreamId := streamId }
    pos path (by simp [Connection.setStream, Stream.init]) (by
      have := hpath.1
      simp only [streamPathCap] at this
      omega) hpath.2
  have heq : c.withStream pos streamId path .idle
      = Connection.setStream { c.setStream pos (Stream.init streamId c.initialStreamWindow) with
          lastStreamId := streamId } pos { Stream.init streamId c.initialStreamWindow with
            path := path } := by
    simp [withStream, Connection.setStream, Stream.init]
  rw [heq]
  refine .act ?_ .nil _
  simpa [Connection.setStream] using hact

/-- The request is complete: the stream is not idle any more. -/
theorem withStream_opened (hfree : c.freeSlot = some pos) {streamId : Nat} (hodd : streamId % 2 = 1)
    (hlast : c.lastStreamId < streamId) (hlt : streamId < 2 ^ 31) {path : List UInt8}
    (hpath : PathText path) (endStream : Bool) :
    Does c (.ok, c.withStream pos streamId path
      (if endStream then .halfClosedRemote else .opened)) := by
  have hreq := Act.request (c.withStream pos streamId path .idle) pos endStream
    (by simp [withStream, Connection.setStream])
  have heq : (c.withStream pos streamId path .idle).setStream pos
      { (c.withStream pos streamId path .idle).streams pos with
        state := if endStream then .halfClosedRemote else .opened }
      = c.withStream pos streamId path (if endStream then .halfClosedRemote else .opened) := by
    simp [withStream, Connection.setStream]
  rw [heq] at hreq
  exact (withStream_does hfree hodd hlast hlt hpath .ok).trans (.act hreq .nil _)

theorem withStream_streams (c : Connection) (pos : Fin connMaxStreams) (streamId : Nat)
    (path : List UInt8) (state : StreamState) :
    (c.withStream pos streamId path state).streams pos
      = { Stream.init streamId c.initialStreamWindow with path := path, state := state } :=
  setStream_streams_self _ _ _

theorem withStream_canSend (c : Connection) (pos : Fin connMaxStreams) {streamId : Nat}
    (h0 : streamId ≠ 0) (path : List UInt8) (endStream : Bool) :
    ((c.withStream pos streamId path
      (if endStream then .halfClosedRemote else .opened)).streams pos).CanSend := by
  rw [withStream_streams]
  refine ⟨h0, ?_⟩
  by_cases hend : endStream = true <;> simp [hend]

/-- The response to a new request. -/
theorem opened_queueResponse_does (hc : Inv c) (hfree : c.freeSlot = some pos) {streamId : Nat}
    (hodd : streamId % 2 = 1) (hlast : c.lastStreamId < streamId) (hlt : streamId < 2 ^ 31)
    {path : List UInt8} (hpath : PathText path) (hne : path ≠ []) (endStream : Bool) :
    Does (c.withStream pos streamId path (if endStream then .halfClosedRemote else .opened))
      ((c.withStream pos streamId path
        (if endStream then .halfClosedRemote else .opened)).queueResponse pos) := by
  have hopen := withStream_opened hfree hodd hlast hlt hpath endStream
  refine queueResponse_does (hopen.inv hc)
    (withStream_canSend c pos (by omega) path endStream) ?_ ?_ ?_
  · rw [withStream_streams]
    rfl
  · rw [withStream_streams]
    rfl
  · rw [withStream_streams]
    exact hne

theorem finishHeaders_does (hc : Inv c) {streamId : Nat} (hlt : streamId < 2 ^ 31) (flags : UInt8)
    (block : List UInt8) : Does c (c.finishHeaders streamId flags block) := by
  by_cases hbad : streamId % 2 = 0 ∨ streamId ≤ c.lastStreamId
  · rw [finishHeaders_reject hbad]
    exact .refl _ c
  · have hodd : streamId % 2 = 1 := by omega
    have hlast : c.lastStreamId < streamId := by omega
    rw [finishHeaders_eq hc hodd hlast]
    rcases hfree : c.freeSlot with _ | pos
    · exact .refl _ c
    · have htext := extractPath_pathText block
      simp only
      rcases hpath : extractPath block streamPathCap with ⟨ret, path⟩
      rw [hpath] at htext
      by_cases hret : ret = .ok
      · subst hret
        rw [if_pos rfl]
        exact (withStream_opened hfree hodd hlast hlt htext _).trans
          (opened_queueResponse_does hc hfree hodd hlast hlt htext (extractPath_ne_nil hpath) _)
      · rw [if_neg hret]
        exact withStream_does hfree hodd hlast hlt htext ret

/-! ## HEADERS and CONTINUATION -/

theorem appendHeaderBlock_does (c : Connection) (data : List UInt8) :
    Does c (c.appendHeaderBlock data) := by
  rw [appendHeaderBlock]
  split
  · exact .refl _ c
  · exact .act (.block c c.headerBlockOpen c.headerBlockStreamId c.headerBlockFlags _) .nil _

theorem processHeaders_does (hc : Inv c) {header : FrameHeader} (hlt : header.streamId < 2 ^ 31)
    (payload : List UInt8) : Does c (c.processHeaders header payload) := by
  rw [processHeaders]
  rcases parseHeaders header payload with ret | parsed
  · exact .refl _ c
  · simp only
    split
    · split
      · exact .refl _ c
      · exact .after (.block c true header.streamId header.flags []) (appendHeaderBlock_does _ _)
    · exact finishHeaders_does hc hlt _ _

theorem processContinuation_does (hc : Inv c) {header : FrameHeader}
    (hlt : header.streamId < 2 ^ 31) (payload : List UInt8) :
    Does c (c.processContinuation header payload) := by
  rw [processContinuation]
  split
  · exact .refl _ c
  · next hopen =>
      have hid : header.streamId = c.headerBlockStreamId := by
        by_contra hne
        exact hopen (Or.inr hne)
      rcases parseContinuation header payload with ret | fragment
      · exact .refl _ c
      · have hblock : (c.appendHeaderBlock fragment).2.headerBlockStreamId = c.headerBlockStreamId := by
          rw [appendHeaderBlock]
          split <;> rfl
        have happend := appendHeaderBlock_does c fragment
        refine happend.andThen ?_
        split
        · exact .refl _ _
        · refine .after (.block _ false _ _ _) (finishHeaders_does ?_ ?_ _ _)
          · exact { happend.inv hc with }
          · rw [hblock, ← hid]
            exact hlt

/-! ## DATA -/

/-- A stream after a DATA frame of `len` bytes. -/
def received (s : Stream) (len : Nat) (endStream : Bool) : Stream :=
  if endStream then
    if s.state = .halfClosedLocal then { s with recvWindow := s.recvWindow - len }.close
    else { s with recvWindow := s.recvWindow - len, state := .halfClosedRemote }
  else { s with recvWindow := s.recvWindow - len }

/-- **A DATA frame on a stream that has a slot**: it is charged to the connection, and then to
the stream if that can still receive. -/
theorem processData_eq (hc : Inv c) {header : FrameHeader} {payload : List UInt8}
    {parsed : DataPayload} (hparse : parseData header payload = .ok parsed)
    (hfind : c.findStream header.streamId = some pos) :
    c.processData header payload
      = if c.connRecvWindow < header.length then (.flowControlError, c)
        else if (c.streams pos).state ≠ .opened ∧ (c.streams pos).state ≠ .halfClosedLocal then
          (.streamClosed, ({ c with
            connRecvWindow := c.connRecvWindow - header.length }.refreshRecvWindows none).2)
        else if (c.streams pos).recvWindow < header.length then
          (.flowControlError, { c with connRecvWindow := c.connRecvWindow - header.length })
        else
          ({ c with connRecvWindow := c.connRecvWindow - header.length }.setStream pos
            (received (c.streams pos) header.length (hasFlag header.flags flagEndStream))).refreshRecvWindows
              (if (received (c.streams pos) header.length
                (hasFlag header.flags flagEndStream)).state = StreamState.closed then none else some pos) := by
  have hw := hc.conn_recv
  have hsize : (toSize c.connRecvWindow : Int) = c.connRecvWindow :=
    toSize_of_nonneg hw.1 (by omega)
  rw [processData, hparse]
  simp only [hfind]
  by_cases hlow : c.connRecvWindow < header.length
  · -- both branches of the source test the window of the connection first
    have hlow' : toSize c.connRecvWindow < header.length := by omega
    rw [if_pos hlow]
    by_cases hst : (c.streams pos).state ≠ .opened ∧ (c.streams pos).state ≠ .halfClosedLocal
    · rw [if_pos hst, if_pos hlow']
    · rw [if_neg hst, if_pos hlow']
  · -- the frame is charged to the connection
    have hlow' : ¬ toSize c.connRecvWindow < header.length := by omega
    have hint : toInt32 header.length = header.length := toInt32_of_le (by omega)
    rw [if_neg hlow, hint]
    by_cases hst : (c.streams pos).state ≠ .opened ∧ (c.streams pos).state ≠ .halfClosedLocal
    · rw [if_pos hst, if_pos hst, if_neg hlow']
    · have hbig : ¬ (header.length : Int) > int32Max := by
        simp only [int32Max]
        omega
      rw [if_neg hst, if_neg hst, if_neg hlow', Stream.receiveData, if_neg hbig, if_neg hst, hint]
      by_cases hsr : (c.streams pos).recvWindow < header.length
      · rw [if_pos hsr, if_pos hsr]
        simp [Connection.setStream]
      · rw [if_neg hsr, if_neg hsr]
        -- END_STREAM closes a stream that is half closed, and half closes an open one
        by_cases hend : hasFlag header.flags flagEndStream = true
        · by_cases hhcl : (c.streams pos).state = .halfClosedLocal
          · simp [hend, hhcl, received, Stream.close]
          · simp [hend, hhcl, received]
        · simp [hend, received]

theorem received_acts {s : Stream} (hs : c.streams pos = s) (hsok : SlotOk s)
    (hst : s.state = .opened ∨ s.state = .halfClosedLocal) {len : Nat}
    (hlen : (len : Int) ≤ s.recvWindow) (endStream : Bool) (ret : ErrorCode) :
    Does c (ret, c.setStream pos (received s len endStream)) := by
  subst hs
  have hrecv := hsok.recv
  have hact : Act c [] (c.setStream pos { c.streams pos with
      recvWindow := (c.streams pos).recvWindow - len }) := .recvStream c pos _ (by omega)
  refine .after hact ?_
  rw [received]
  by_cases hend : endStream = true
  · by_cases hhcl : (c.streams pos).state = .halfClosedLocal
    · have hclose := Act.close (c.setStream pos { c.streams pos with
        recvWindow := (c.streams pos).recvWindow - len }) pos
      rw [setStream_streams_self, setStream_setStream] at hclose
      rw [if_pos hend, if_pos hhcl]
      exact .act hclose .nil _
    · have hopened : (c.streams pos).state = .opened := hst.resolve_right hhcl
      have hremote := Act.endRemote (c.setStream pos { c.streams pos with
        recvWindow := (c.streams pos).recvWindow - len }) pos (by simpa using hopened)
      rw [setStream_streams_self, setStream_setStream] at hremote
      rw [if_pos hend, if_neg hhcl]
      exact .act hremote .nil _
  · rw [if_neg hend]
    exact .refl _ _

theorem processData_does (hc : Inv c) (header : FrameHeader) (payload : List UInt8) :
    Does c (c.processData header payload) := by
  rcases hparse : parseData header payload with ret | parsed
  · rw [processData, hparse]
    exact .refl _ c
  · rcases hfind : c.findStream header.streamId with _ | pos
    · rw [processData, hparse]
      simp only [hfind]
      exact .refl _ c
    · have hw := hc.conn_recv
      rw [processData_eq hc hparse hfind]
      by_cases hlow : c.connRecvWindow < header.length
      · rw [if_pos hlow]
        exact .refl _ c
      · have hcharge : Act c [] { c with connRecvWindow := c.connRecvWindow - header.length } :=
          .recvConn c _ (by omega)
        have hc' := hcharge.inv hc
        rw [if_neg hlow]
        by_cases hst : (c.streams pos).state ≠ .opened ∧ (c.streams pos).state ≠ .halfClosedLocal
        · -- too late for the stream: the connection is charged and refilled all the same
          rw [if_pos hst]
          exact .after hcharge (refreshRecvWindows_does hc' none)
        · rw [if_neg hst]
          by_cases hsr : (c.streams pos).recvWindow < header.length
          · -- beyond the window of the stream: only the connection is charged
            rw [if_pos hsr]
            exact .act hcharge .nil _
          · have hst' : (c.streams pos).state = .opened ∨ (c.streams pos).state = .halfClosedLocal := by
              by_contra hno
              exact hst (not_or.mp hno)
            -- both are charged, and both are refilled
            have hrecv := @received_acts { c with connRecvWindow := c.connRecvWindow - header.length }
              pos _ rfl (hc.slot pos) hst' header.length (not_lt.mp hsr)
              (hasFlag header.flags flagEndStream) .ok
            rw [if_neg hsr]
            exact .after hcharge (hrecv.trans (refreshRecvWindows_does (hrecv.inv hc') _))

/-! ## RST_STREAM and PING -/

theorem processRstStream_does (c : Connection) (header : FrameHeader) (payload : List UInt8) :
    Does c (c.processRstStream header payload) := by
  rw [processRstStream]
  rcases parseRstStream header payload with ret | code
  · exact .refl _ c
  · rcases c.findStream header.streamId with _ | pos
    · simp only
      split
      · exact .refl _ c
      · split <;> exact .refl _ c
    · exact .act (.close c pos) .nil _

theorem parsePing_length {header : FrameHeader} {payload opaqueData : List UInt8}
    (h : parsePing header payload = .ok opaqueData) : opaqueData.length ≤ 8 := by
  unfold parsePing at h
  split_ifs at h
  obtain rfl := Except.ok.inj h
  exact List.length_take_le _ _

theorem processPing_does (hc : Inv c) (header : FrameHeader) (payload : List UInt8) :
    Does c (c.processPing header payload) := by
  rw [processPing]
  rcases hparse : parsePing header payload with ret | opaqueData
  · exact .refl _ c
  · simp only
    split
    · exact .refl _ c
    · rw [encodePing_eq (parsePing_length hparse)]
      exact queueWire_does hc (control_of (by simp) _ _ _) (ne_rstStream_of (by decide) _ _ _)

/-! ## WINDOW_UPDATE -/

/-- The credit a WINDOW_UPDATE frame brings: an increment for the connection or for a stream
that has a slot. -/
def windowCredit (c : Connection) (header : FrameHeader) (payload : List UInt8) : List Event :=
  match parseWindowUpdate header payload with
  | .error _ => []
  | .ok increment =>
      if header.streamId = 0 ∨ (c.findStream header.streamId).isSome then
        [.credit header.streamId increment]
      else []

theorem parseWindowUpdate_ok {header : FrameHeader} {payload : List UInt8} {increment : Nat}
    (h : parseWindowUpdate header payload = .ok increment) :
    increment ≠ 0 ∧ increment < 2 ^ 31 := by
  unfold parseWindowUpdate at h
  split_ifs at h with h1 h2 h3
  obtain rfl := Except.ok.inj h
  exact ⟨h3, readU31_lt payload⟩

/-- **A WINDOW_UPDATE frame**: the credit is applied, unless it overflows the window, and then
the responses it unblocks are sent. -/
theorem processWindowUpdate_eq (c : Connection) {header : FrameHeader} {payload : List UInt8}
    {increment : Nat} (hparse : parseWindowUpdate header payload = .ok increment) :
    c.processWindowUpdate header payload
      = if header.streamId = 0 then
          if c.connSendWindow + increment > int32Max then (.flowControlError, c)
          else { c with connSendWindow := c.connSendWindow + increment }.flushDeferredResponses
        else
          match c.findStream header.streamId with
          | none => (.ok, c)
          | some pos =>
              if (c.streams pos).sendWindow + increment > int32Max then (.flowControlError, c)
              else (c.setStream pos ((c.streams pos).shift increment)).flushDeferredResponses := by
  obtain ⟨h0, hlt⟩ := parseWindowUpdate_ok hparse
  have hint : toInt32 increment = increment := toInt32_of_le (by omega)
  rw [processWindowUpdate, hparse]
  simp only [hint]
  by_cases hid : header.streamId = 0
  · rw [if_pos hid, if_pos hid]
  · rw [if_neg hid, if_neg hid]
    rcases c.findStream header.streamId with _ | pos
    · rfl
    · simp only [Stream.addSendWindow, if_neg h0, hint]
      by_cases hmax : (c.streams pos).sendWindow + increment > int32Max
      · simp [if_pos hmax]
      · simp [if_neg hmax, Stream.shift]


theorem queueDeferredData_code (hc : Inv c) (hcan : (c.streams pos).CanSend) :
    (c.queueDeferredData pos (responseBody (c.streams pos).path)).1 = .ok ∨
      (c.queueDeferredData pos (responseBody (c.streams pos).path)).1 = .internalError := by
  rw [queueDeferredData_eq hc hcan]
  split
  · exact Or.inl rfl
  · split
    · exact Or.inl rfl
    · exact Or.inr rfl

theorem flushDeferredLoop_code (hc : Inv c) (ps : List (Fin connMaxStreams)) :
    (flushDeferredLoop ps c).1 = .ok ∨ (flushDeferredLoop ps c).1 = .internalError := by
  induction ps generalizing c with
  | nil => exact Or.inl rfl
  | cons pos rest ih =>
      rw [flushDeferredLoop]
      by_cases hd : live (c.streams pos) ∧ (c.streams pos).responseBodyDeferred
      · obtain ⟨hst, hhead, hbody, hpath⟩ := (hc.slot pos).deferred hd.2
        have hcan : (c.streams pos).CanSend := ⟨(live_iff.mp hd.1).1, hst⟩
        have hfirst := queueDeferredData_does hc hcan hhead hbody hpath
        have hcode := queueDeferredData_code hc hcan
        rw [if_pos hd, queueResponse_deferred hc hd.2]
        rcases hres : c.queueDeferredData pos (responseBody (c.streams pos).path) with ⟨ret, c₁⟩
        rw [hres] at hfirst hcode
        rcases hcode with hcode | hcode
        · obtain rfl : ret = .ok := hcode
          exact ih (hfirst.inv hc)
        · obtain rfl : ret = .internalError := hcode
          exact Or.inr rfl
      · rw [if_neg hd]
        exact ih hc

theorem processWindowUpdate_acts (hc : Inv c) (header : FrameHeader) (payload : List UInt8) :
    ∃ es, Acts c es (c.processWindowUpdate header payload).2
      ∧ ((c.processWindowUpdate header payload).1 = .ok →
          ∃ q, es = windowCredit c header payload ++ q ∧ Quiet q)
      ∧ isStreamError (c.processWindowUpdate header payload).1 = false := by
  -- credit that is applied, with the responses it unblocks
  have hcredit : ∀ {c' e}, Act c [e] c' → ∃ es, Acts c es c'.flushDeferredResponses.2
      ∧ (c'.flushDeferredResponses.1 = .ok → ∃ q, es = [e] ++ q ∧ Quiet q)
      ∧ isStreamError c'.flushDeferredResponses.1 = false := by
    intro c' e hact
    have hc' := hact.inv hc
    obtain ⟨q, hq, hquiet⟩ := flushDeferredResponses_does hc'
    refine ⟨[e] ++ q, .head hact hq, fun _ => ⟨q, rfl, hquiet⟩, ?_⟩
    rcases flushDeferredLoop_code hc' (List.finRange connMaxStreams) with h | h
    · rw [flushDeferredResponses, h]; rfl
    · rw [flushDeferredResponses, h]; rfl
  rcases hparse : parseWindowUpdate header payload with ret | increment
  · rw [processWindowUpdate, windowCredit, hparse]
    refine ⟨[], .refl c, fun _ => ⟨[], rfl, .nil⟩, ?_⟩
    rcases parseWindowUpdate_error hparse with rfl | rfl <;> rfl
  · rw [processWindowUpdate_eq c hparse, windowCredit, hparse]
    simp only
    by_cases hid : header.streamId = 0
    · rw [if_pos hid, if_pos (Or.inl hid), hid]
      by_cases hmax : c.connSendWindow + increment > int32Max
      · rw [if_pos hmax]
        exact ⟨[], .refl c, by simp, rfl⟩
      · rw [if_neg hmax]
        exact hcredit (.creditConn c increment (not_lt.mp hmax))
    · rw [if_neg hid]
      rcases hfind : c.findStream header.streamId with _ | pos
      · rw [if_neg (by simp [hid])]
        exact ⟨[], .refl c, fun _ => ⟨[], rfl, .nil⟩, rfl⟩
      · have hpos := findStream_eq_some hfind
        rw [if_pos (by simp)]
        simp only
        by_cases hmax : (c.streams pos).sendWindow + increment > int32Max
        · rw [if_pos hmax]
          exact ⟨[], .refl c, by simp, rfl⟩
        · rw [if_neg hmax, ← hpos]
          exact hcredit (.creditStream c pos increment (by rwa [hpos]) (not_lt.mp hmax))

/-! ## A whole frame -/

/-- The two checks in front of the `switch` of `h2_connection_process_frame`. -/
def Admits (c : Connection) (f : Frame) : Prop :=
  f.payload.length ≤ c.maxFrameSize ∧ ¬ (c.headerBlockOpen = true ∧
    (f.type ≠ FrameType.continuation.toByte ∨ f.streamId ≠ c.headerBlockStreamId))

instance (c : Connection) (f : Frame) : Decidable (c.Admits f) :=
  inferInstanceAs (Decidable (_ ∧ _))

/-- The `switch` of `h2_connection_process_frame`. -/
def handler (c : Connection) (t : FrameType) (f : Frame) : ErrorCode × Connection :=
  match t with
  | .data => c.processData f.header f.payload
  | .headers => c.processHeaders f.header f.payload
  | .priority =>
      match parsePriority f.header f.payload with
      | .error ret => (ret, c)
      | .ok _ => (.ok, c)
  | .rstStream => c.processRstStream f.header f.payload
  | .settings => c.applySettings f.header f.payload
  | .pushPromise => (.protocolError, c)
  | .ping => c.processPing f.header f.payload
  | .goaway => (validatePayload f.header, c)
  | .windowUpdate => c.processWindowUpdate f.header f.payload
  | .continuation => c.processContinuation f.header f.payload

/-- A frame that does not pass the checks is an error and changes nothing. -/
theorem processFrame_rejected {f : Frame} (h : ¬ c.Admits f) : ∃ ret,
    (ret = .frameSizeError ∨ ret = .protocolError) ∧
      c.processFrame f.header f.payload = (ret, c) := by
  rw [processFrame, Frame.header_length, Frame.header_type, Frame.header_streamId]
  by_cases hlen : f.payload.length > c.maxFrameSize
  · rw [if_pos hlen]
    exact ⟨_, Or.inl rfl, rfl⟩
  · rw [if_neg hlen]
    rw [Admits, not_and_or, not_not] at h
    have hblock := h.resolve_left fun hle => hlen (not_le.mp hle)
    rw [if_pos hblock]
    exact ⟨_, Or.inr rfl, rfl⟩

theorem processFrame_handler {f : Frame} (h : c.Admits f) {t : FrameType}
    (ht : f.type = t.toByte) : c.processFrame f.header f.payload = c.handler t f := by
  rw [processFrame, Frame.header_length, Frame.header_type, Frame.header_streamId,
    if_neg (not_lt.mpr h.1), if_neg h.2, ht, FrameType.ofByte?_toByte]
  cases t <;> rfl

/-- Frames of unknown types are ignored. -/
theorem processFrame_unknown {f : Frame} (h : c.Admits f) (ht : FrameType.ofByte? f.type = none) :
    c.processFrame f.header f.payload = (.ok, c) := by
  rw [processFrame, Frame.header_length, Frame.header_type, Frame.header_streamId,
    if_neg (not_lt.mpr h.1), if_neg h.2, ht]

/-- What an accepted frame leaves in the history before the frames it makes the server queue. -/
def frameEvents (c : Connection) (f : Frame) : List Event :=
  match FrameType.ofByte? f.type with
  | some .windowUpdate => windowCredit c f.header f.payload
  | some .settings => settingsEvents f.header f.payload
  | _ => []

/-- **Every frame is handled by protocol actions.** A frame that is accepted, or that is a stream
error, brings its credit or its settings and queues frames, nothing else. -/
theorem processFrame_acts (hc : Inv c) (f : Frame) :
    ∃ es, Acts c es (c.processFrame f.header f.payload).2
      ∧ ((c.processFrame f.header f.payload).1 = .ok
          ∨ isStreamError (c.processFrame f.header f.payload).1 = true →
        ∃ q, es = frameEvents c f ++ q ∧ Quiet q) := by
  -- a handler of a frame that does nothing but queue
  have hdoes : ∀ {r}, Does c r → frameEvents c f = [] →
      ∃ es, Acts c es r.2 ∧ (r.1 = .ok ∨ isStreamError r.1 = true →
        ∃ q, es = frameEvents c f ++ q ∧ Quiet q) := by
    rintro r ⟨es, hes, hq⟩ hnil
    exact ⟨es, hes, fun _ => ⟨es, by rw [hnil, List.nil_append], hq⟩⟩
  -- a handler that is never a stream error
  have hfatal : ∀ {r : ErrorCode × Connection}, (∃ es, Acts c es r.2 ∧
      (r.1 = .ok → ∃ q, es = frameEvents c f ++ q ∧ Quiet q) ∧ isStreamError r.1 = false) →
      ∃ es, Acts c es r.2 ∧ (r.1 = .ok ∨ isStreamError r.1 = true →
        ∃ q, es = frameEvents c f ++ q ∧ Quiet q) := by
    rintro r ⟨es, hes, hq, herr⟩
    refine ⟨es, hes, ?_⟩
    rintro (hok | hok)
    · exact hq hok
    · rw [herr] at hok
      cases hok
  -- a frame that is not handled at all
  have hskip : ∀ ret : ErrorCode, ret ≠ .ok → isStreamError ret = false → ∃ es, Acts c es c ∧
      (ret = .ok ∨ isStreamError ret = true → ∃ q, es = frameEvents c f ++ q ∧ Quiet q) := by
    intro ret hret herr
    exact hfatal (r := (ret, c)) ⟨[], .refl c, fun h => absurd h hret, herr⟩
  by_cases hadmits : c.Admits f
  · rcases htype : FrameType.ofByte? f.type with _ | t
    · rw [processFrame_unknown hadmits htype]
      exact hdoes (.refl .ok c) (by rw [frameEvents, htype])
    · have hnil : t ≠ .windowUpdate → t ≠ .settings → frameEvents c f = [] := by
        intro h1 h2
        rw [frameEvents, htype]
        cases t <;> first | rfl | exact absurd rfl h1 | exact absurd rfl h2
      rw [processFrame_handler hadmits (FrameType.ofByte?_eq_some htype)]
      cases t with
      | data => exact hdoes (processData_does hc _ _) (hnil (by decide) (by decide))
      | headers =>
          exact hdoes (processHeaders_does hc f.streamId_lt _) (hnil (by decide) (by decide))
      | priority =>
          rw [handler]
          rcases parsePriority f.header f.payload with ret | priority
          · exact hdoes (.refl ret c) (hnil (by decide) (by decide))
          · exact hdoes (.refl .ok c) (hnil (by decide) (by decide))
      | rstStream => exact hdoes (processRstStream_does c _ _) (hnil (by decide) (by decide))
      | settings =>
          have hev : frameEvents c f = settingsEvents f.header f.payload := by
            rw [frameEvents, htype]
          have hacts := applySettings_acts hc f.header f.payload
          rw [← hev] at hacts
          exact hfatal hacts
      | pushPromise => exact hskip .protocolError (by decide) rfl
      | ping => exact hdoes (processPing_does hc _ _) (hnil (by decide) (by decide))
      | goaway => exact hdoes (.refl _ c) (hnil (by decide) (by decide))
      | windowUpdate =>
          have hev : frameEvents c f = windowCredit c f.header f.payload := by
            rw [frameEvents, htype]
          have hacts := processWindowUpdate_acts hc f.header f.payload
          rw [← hev] at hacts
          exact hfatal hacts
      | continuation =>
          exact hdoes (processContinuation_does hc f.streamId_lt _) (hnil (by decide) (by decide))
  · -- too long, or in the middle of a header block
    obtain ⟨ret, hret, heq⟩ := processFrame_rejected hadmits
    rw [heq]
    rcases hret with rfl | rfl
    · exact hskip .frameSizeError (by decide) rfl
    · exact hskip .protocolError (by decide) rfl

/-- The reset of a stream: RST_STREAM, and its slot is closed. -/
theorem resetStreamError_eq (hc : Inv c) {streamId : Nat} (h0 : streamId ≠ 0)
    (errorCode : ErrorCode) : c.resetStreamError streamId errorCode
      = if c.Fits (rstStreamFrame streamId errorCode) then
          match c.findStream streamId with
          | none => (.ok, c.push (rstStreamFrame streamId errorCode))
          | some pos =>
              (.ok, (c.push (rstStreamFrame streamId errorCode)).setStream pos (c.streams pos).close)
        else (.internalError, c) := by
  rw [resetStreamError, queueRstStream, encodeRstStream_eq h0, queueWire_wire hc]
  by_cases hfit : c.Fits (rstStreamFrame streamId errorCode)
  · rw [if_pos hfit, if_pos hfit, andThen_ok]
    rfl
  · rw [if_neg hfit, if_neg hfit, andThen_err (by decide)]

theorem resetStreamError_acts (hc : Inv c) {streamId : Nat} (h0 : streamId ≠ 0)
    (errorCode : ErrorCode) :
    ∃ q, Acts c q (c.resetStreamError streamId errorCode).2 ∧ Queues q := by
  rw [resetStreamError_eq hc h0]
  by_cases hfit : c.Fits (rstStreamFrame streamId errorCode)
  · have hpush := Act.control c (rstStreamFrame streamId errorCode) (control_of (by simp) _ _ _) hfit
    rw [if_pos hfit]
    refine ⟨[.queued (rstStreamFrame streamId errorCode)], ?_, fun e he =>
      ⟨_, List.mem_singleton.mp he⟩⟩
    rcases c.findStream streamId with _ | pos
    · exact .single hpush
    · exact .head hpush (.single (.close _ pos))
  · rw [if_neg hfit]
    exact ⟨[], .refl c, by simp [Queues]⟩

end Connection

end C11Omo.Http2
