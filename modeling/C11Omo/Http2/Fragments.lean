import C11Omo.Http2.Delivery

set_option autoImplicit false

/-! # Header blocks in fragments

A header block comes in one HEADERS frame, or in a HEADERS frame and CONTINUATION frames. The
connection collects the fragments in its scratch fields, and when the block is complete it does
what it does with a block that comes whole. `header_fragments_invisible` is the main result.
-/

namespace C11Omo.Http2

open C11Omo.Lib

/-- A HEADERS frame that carries `block`, with or without padding and priority. On stream `0` no
frame carries anything. -/
structure Frame.Opens (f : Frame) (streamId : Nat) (endStream endHeaders : Bool)
    (block : List UInt8) : Prop where
  type : f.type = FrameType.headers.toByte
  id : f.streamId = streamId
  endStream : hasFlag f.flags flagEndStream = endStream
  endHeaders : hasFlag f.flags flagEndHeaders = endHeaders
  parse : streamId ≠ 0 → ∃ parsed, parseHeaders f.header f.payload = .ok parsed
    ∧ parsed.headerBlock = block

/-- A CONTINUATION frame; its payload is the fragment. -/
structure Frame.Continues (f : Frame) (streamId : Nat) (endHeaders : Bool) : Prop where
  type : f.type = FrameType.continuation.toByte
  id : f.streamId = streamId
  endHeaders : hasFlag f.flags flagEndHeaders = endHeaders

/-- A HEADERS frame without padding and priority carries its payload. -/
theorem Frame.opens_plain {f : Frame} (ht : f.type = FrameType.headers.toByte)
    (hpad : hasFlag f.flags flagPadded = false) (hprio : hasFlag f.flags flagPriority = false) :
    f.Opens f.streamId (hasFlag f.flags flagEndStream) (hasFlag f.flags flagEndHeaders)
      f.payload where
  type := ht
  id := rfl
  endStream := rfl
  endHeaders := rfl
  parse := by
    intro h0
    have hvalid : validatePayload f.header = .ok := by
      have hlen := f.payload_le
      have h0' : ¬ f.header.streamId = 0 := h0
      rw [validatePayload, Frame.header_length, if_neg (by omega), Frame.header_type, ht,
        FrameType.ofByte?_toByte]
      exact if_neg h0'
    have hcond : ¬ (f.header.type ≠ FrameType.headers.toByte ∨ validatePayload f.header ≠ .ok) := by
      rw [Frame.header_type, ht, hvalid]
      simp
    have hpad' : ¬ hasFlag f.header.flags flagPadded = true := by
      rw [Frame.header_flags, hpad]
      simp
    have hprio' : ¬ hasFlag f.header.flags flagPriority = true := by
      rw [Frame.header_flags, hprio]
      simp
    rw [parseHeaders, if_neg hcond, if_neg hpad', parseHeadersBlock, if_neg hprio']
    exact ⟨_, rfl, by rw [Frame.header_length]; simp⟩

namespace Connection

variable {c d : Connection} {w : Scratch} {f g : Frame} {streamId : Nat} {endStream : Bool}
  {block : List UInt8}

/-- The same connection but for the fields in which header blocks are collected and for the
input. -/
def SameButScratch (c d : Connection) : Prop := ∃ w, c = d.withScratch w

/-! ## A block that comes whole -/

/-- Without an open header block the size is the only check in front of the `switch`. -/
theorem admits_closed (hclosed : c.headerBlockOpen = false)
    (hlen : f.payload.length ≤ c.maxFrameSize) : c.Admits f :=
  ⟨hlen, fun h => by simp [hclosed] at h⟩

theorem processFrame_whole (hclosed : c.headerBlockOpen = false)
    (hlen : f.payload.length ≤ c.maxFrameSize) (hf : f.Opens streamId endStream true block)
    (h0 : streamId ≠ 0) : c.processFrame f.header f.payload
      = c.finishHeaders streamId f.flags block := by
  obtain ⟨parsed, hparse, rfl⟩ := hf.parse h0
  have hend : ¬ hasFlag f.flags flagEndHeaders = false := by
    rw [hf.endHeaders]
    simp
  rw [processFrame_handler (admits_closed hclosed hlen) hf.type, handler, processHeaders, hparse]
  simp only [Frame.header_flags, Frame.header_streamId, if_neg hend, hf.id]

/-- On stream `0` both ways end at the first frame, with the same error. -/
theorem handleFrame_zero (hclosed : c.headerBlockOpen = false)
    (hlen : f.payload.length ≤ c.maxFrameSize) (ht : f.type = FrameType.headers.toByte)
    (h0 : f.streamId = 0) :
    c.handleFrame f = (.protocolError, (c.queueGoaway .protocolError).2) := by
  have hvalid : validatePayload f.header ≠ .ok := by
    have hle := f.payload_le
    rw [validatePayload, Frame.header_length, if_neg (by omega), Frame.header_type, ht,
      FrameType.ofByte?_toByte]
    simp [validateStreamNonzero, h0]
  refine handleFrame_goaway ?_ (by decide) (by simp [h0])
  rw [processFrame_handler (admits_closed hclosed hlen) ht, handler, processHeaders, parseHeaders,
    if_pos (Or.inr hvalid)]

/-! ## A block in fragments -/

/-- The connection while a header block is collected. -/
def collecting (c : Connection) (streamId : Nat) (flags : UInt8) (block : List UInt8) :
    Connection :=
  { c with
    headerBlockOpen := true
    headerBlockStreamId := streamId
    headerBlockFlags := flags
    headerBlock := block }

/-- The first fragment opens the block. -/
theorem handleFrame_first (hclosed : c.headerBlockOpen = false)
    (hlen : f.payload.length ≤ c.maxFrameSize) (hf : f.Opens streamId endStream false block)
    (h0 : streamId ≠ 0) (hcap : block.length ≤ headerBlockCap) :
    c.handleFrame f = (.ok, c.collecting streamId f.flags block) := by
  obtain ⟨parsed, hparse, rfl⟩ := hf.parse h0
  refine handleFrame_ok ?_
  rw [processFrame_handler (admits_closed hclosed hlen) hf.type, handler, processHeaders, hparse]
  simp only [Frame.header_flags, Frame.header_streamId, if_pos hf.endHeaders, hf.id]
  rw [if_neg (by simp [hclosed]), appendHeaderBlock, if_neg (by simpa using hcap)]
  rfl

/-- What a CONTINUATION frame of the open block does first: its fragment is appended. -/
theorem processFrame_fragment {flags : UInt8} {endHeaders : Bool}
    (hlen : f.payload.length ≤ c.maxFrameSize) (hf : f.Continues streamId endHeaders)
    (h0 : streamId ≠ 0) (hcap : block.length + f.payload.length ≤ headerBlockCap) :
    (c.collecting streamId flags block).processFrame f.header f.payload
      = if endHeaders then
          { c.collecting streamId flags (block ++ f.payload) with
            headerBlockOpen := false }.finishHeaders streamId flags (block ++ f.payload)
        else (.ok, c.collecting streamId flags (block ++ f.payload)) := by
  have hadmits : (c.collecting streamId flags block).Admits f := by
    refine ⟨hlen, ?_⟩
    rintro ⟨-, h | h⟩
    · exact h hf.type
    · exact h hf.id
  have hvalid : validatePayload f.header = .ok := by
    have hle := f.payload_le
    have h0' : ¬ f.header.streamId = 0 := by
      rw [Frame.header_streamId, hf.id]
      exact h0
    rw [validatePayload, Frame.header_length, if_neg (by omega), Frame.header_type, hf.type,
      FrameType.ofByte?_toByte]
    exact if_neg h0'
  have hparse : parseContinuation f.header f.payload = .ok f.payload := by
    rw [parseContinuation, if_neg (by simp [hf.type, hvalid]), Frame.header_length,
      List.take_length]
  have hopen : ¬ ((c.collecting streamId flags block).headerBlockOpen = false
      ∨ f.header.streamId ≠ (c.collecting streamId flags block).headerBlockStreamId) := by
    rw [Frame.header_streamId, hf.id]
    simp [collecting]
  -- the fragment fits, so the block grows by it
  have happend : (c.collecting streamId flags block).appendHeaderBlock f.payload
      = (.ok, c.collecting streamId flags (block ++ f.payload)) := by
    rw [appendHeaderBlock, if_neg]
    · rfl
    · show ¬ f.payload.length > headerBlockCap - block.length
      omega
  rw [processFrame_handler hadmits hf.type, handler, processContinuation, if_neg hopen, hparse]
  simp only
  rw [happend, andThen_ok, Frame.header_flags, hf.endHeaders]
  cases endHeaders <;> rfl

/-- The fragments in the middle are collected. -/
theorem handleFrames_fragments {flags : UInt8} {fs : List Frame} (h0 : streamId ≠ 0)
    (hlen : ∀ f ∈ fs, f.payload.length ≤ c.maxFrameSize)
    (hfs : ∀ f ∈ fs, f.Continues streamId false)
    (hcap : (block ++ fs.flatMap Frame.payload).length ≤ headerBlockCap) :
    (c.collecting streamId flags block).handleFrames fs
      = (.ok, c.collecting streamId flags (block ++ fs.flatMap Frame.payload)) := by
  induction fs generalizing block with
  | nil =>
      rw [List.flatMap_nil, List.append_nil]
      rfl
  | cons f fs ih =>
      rw [List.flatMap_cons, ← List.append_assoc] at hcap ⊢
      have hfirst := @processFrame_fragment c f streamId block flags false
        (hlen f (List.mem_cons_self ..)) (hfs f (List.mem_cons_self ..)) h0 (by
          rw [List.length_append, List.length_append] at hcap
          omega)
      rw [handleFrames_cons, handleFrame_ok hfirst, andThen_ok]
      exact ih (fun g hg => hlen g (List.mem_cons_of_mem _ hg))
        (fun g hg => hfs g (List.mem_cons_of_mem _ hg)) hcap

/-- The end of a frame is decided by the result of its handler and by its stream. -/
theorem handleFrame_moved (hid : g.streamId = f.streamId)
    (h : d.processFrame g.header g.payload = moved w (c.processFrame f.header f.payload)) :
    d.handleFrame g = moved w (c.handleFrame f) := by
  rcases hres : c.processFrame f.header f.payload with ⟨ret, c'⟩
  rw [hres] at h
  by_cases hok : ret = .ok
  · subst hok
    rw [handleFrame_ok hres, handleFrame_ok h]
    rfl
  · by_cases hreset : isStreamError ret = true ∧ f.streamId ≠ 0
    · rw [handleFrame_reset hres hreset.1 hreset.2,
        handleFrame_reset h hreset.1 (by rw [hid]; exact hreset.2), hid]
      exact resetStreamError_withScratch c' w f.streamId ret
    · rw [handleFrame_goaway hres hok hreset,
        handleFrame_goaway h hok (by rw [hid]; exact hreset), queueGoaway_withScratch]
      rfl

/-- A block in fragments comes to its last fragment, and that finishes it. -/
theorem handleFrames_last {first last : Frame} {middle : List Frame} {b : List UInt8}
    (hclosed : c.headerBlockOpen = false)
    (hlen : ∀ f ∈ first :: (middle ++ [last]), f.payload.length ≤ c.maxFrameSize)
    (hfirst : first.Opens streamId endStream false b)
    (hmiddle : ∀ f ∈ middle, f.Continues streamId false) (hlast : last.Continues streamId true)
    (h0 : streamId ≠ 0) (hblock : block = b ++ (middle ++ [last]).flatMap Frame.payload)
    (hcap : block.length ≤ headerBlockCap) : ∃ (d : Connection) (w : Scratch),
      c.handleFrames (first :: (middle ++ [last])) = d.handleFrame last
        ∧ d.processFrame last.header last.payload
          = moved w (c.finishHeaders streamId first.flags block) := by
  rw [List.flatMap_append, List.flatMap_singleton, ← List.append_assoc] at hblock
  subst hblock
  rw [List.length_append] at hcap
  have hb : (b ++ middle.flatMap Frame.payload).length ≤ headerBlockCap := by omega
  have hfirst' := handleFrame_first hclosed (hlen first (by simp)) hfirst h0 (by
    rw [List.length_append] at hb
    omega)
  have hmiddle' := @handleFrames_fragments c streamId b first.flags middle h0
    (fun f hf => hlen f (by simp [hf])) hmiddle hb
  have hlast' := @processFrame_fragment c last streamId (b ++ middle.flatMap Frame.payload)
    first.flags true (hlen last (by simp)) hlast h0 hcap
  refine ⟨c.collecting streamId first.flags (b ++ middle.flatMap Frame.payload),
    { streamId := streamId, flags := first.flags,
      block := b ++ middle.flatMap Frame.payload ++ last.payload, input := c.input }, ?_, ?_⟩
  · rw [handleFrames_cons, hfirst', andThen_ok, handleFrames_append, hmiddle', andThen_ok,
      handleFrames_singleton]
  · -- the block is complete: what is left is the connection with other scratch fields
    rw [hlast', if_pos rfl, ← finishHeaders_withScratch c _ streamId rfl]
    congr 1
    rw [withScratch, collecting, ← hclosed]

/-- **A block in fragments does what the block does whole.** -/
theorem handleFrames_split {first whole last : Frame} {middle : List Frame} {b : List UInt8}
    (hclosed : c.headerBlockOpen = false)
    (hlen : ∀ f ∈ whole :: first :: (middle ++ [last]), f.payload.length ≤ c.maxFrameSize)
    (hwhole : whole.Opens streamId endStream true block)
    (hfirst : first.Opens streamId endStream false b)
    (hmiddle : ∀ f ∈ middle, f.Continues streamId false) (hlast : last.Continues streamId true)
    (hblock : block = b ++ (middle ++ [last]).flatMap Frame.payload)
    (hcap : block.length ≤ headerBlockCap) :
    (c.handleFrames (first :: (middle ++ [last]))).1 = (c.handleFrame whole).1
      ∧ SameButScratch (c.handleFrames (first :: (middle ++ [last]))).2 (c.handleFrame whole).2 := by
  have hlen₀ := hlen first (by simp)
  have hlen₁ := hlen whole (by simp)
  by_cases h0 : streamId = 0
  · have hzero := handleFrame_zero hclosed hlen₁ hwhole.type (hwhole.id.trans h0)
    rw [handleFrames_cons, handleFrame_zero hclosed hlen₀ hfirst.type (hfirst.id.trans h0), hzero,
      andThen_err (by decide)]
    exact ⟨rfl, scratch _ _, rfl⟩
  · obtain ⟨d, w, hframes, hproc⟩ := handleFrames_last hclosed
      (fun f hf => hlen f (List.mem_cons_of_mem _ hf)) hfirst hmiddle hlast h0 hblock hcap
    have hend : hasFlag first.flags flagEndStream = hasFlag whole.flags flagEndStream :=
      hfirst.endStream.trans hwhole.endStream.symm
    -- of the flags of the first frame only END_STREAM counts
    have hmoved : d.processFrame last.header last.payload
        = moved w (c.processFrame whole.header whole.payload) := by
      rw [hproc, processFrame_whole hclosed hlen₁ hwhole h0,
        ← finishHeaders_withScratch c w streamId rfl, finishHeaders_withScratch c w streamId hend]
    rw [hframes, handleFrame_moved (hlast.id.trans hwhole.id.symm) hmoved]
    exact ⟨rfl, w, rfl⟩

theorem SameButScratch.withInput (h : SameButScratch c d) (input input' : List UInt8) :
    SameButScratch { c with input := input } { d with input := input' } := by
  obtain ⟨w, rfl⟩ := h
  exact ⟨{ w with input := input }, rfl⟩

/-! ## Any other frame in an open block -/

/-- A frame had no effect but that an error was announced: the streams and the windows are as they
were. -/
structure Untouched (c d : Connection) : Prop where
  streams : d.streams = c.streams
  connSendWindow : d.connSendWindow = c.connSendWindow
  connRecvWindow : d.connRecvWindow = c.connRecvWindow
  initialStreamWindow : d.initialStreamWindow = c.initialStreamWindow
  maxFrameSize : d.maxFrameSize = c.maxFrameSize
  lastStreamId : d.lastStreamId = c.lastStreamId

theorem queueGoaway_untouched (hc : Inv c) (errorCode : ErrorCode) :
    Untouched c (c.queueGoaway errorCode).2 := by
  rw [queueGoaway_eq hc]
  split_ifs <;> exact ⟨rfl, rfl, rfl, rfl, rfl, rfl⟩

/-- **An open block admits nothing but its CONTINUATION frames.** -/
theorem handleFrame_intruder (hopen : c.headerBlockOpen = true)
    (hlen : f.payload.length ≤ c.maxFrameSize)
    (hother : f.type ≠ FrameType.continuation.toByte ∨ f.streamId ≠ c.headerBlockStreamId) :
    c.handleFrame f = (.protocolError, (c.queueGoaway .protocolError).2) := by
  refine handleFrame_goaway ?_ (by decide) (by simp [isStreamError])
  rw [processFrame, Frame.header_length, Frame.header_type, Frame.header_streamId,
    if_neg (not_lt.mpr hlen), if_pos ⟨hopen, hother⟩]

end Connection

open Connection

/-- Before the preface no header block is open. -/
theorem exec_open_seen {ops : List Op} (hok : (exec ops).AllOk)
    (hopen : (exec ops).conn.headerBlockOpen = true) : (exec ops).conn.prefaceSeen = true := by
  have hinv := exec_invariant_ok
    (P := fun o => o.conn.prefaceSeen = true ∨ o.conn.headerBlockOpen = false) (Or.inr rfl)
    (fun {o o'} hg hs h => by
      cases hs with
      | preface hnew hlen hpre => exact Or.inl rfl
      | frame f rest hseen hcut hframe =>
          exact Or.inl ((handleFrame_input hg.inv f).2.trans hseen)
      | _ => exact h) hok
  refine hinv.resolve_right ?_
  rw [hopen]
  decide

/-- **Fragmentation of header blocks is invisible.** Let a state be reached without errors. If no
header block is open there, a HEADERS frame with a first fragment and CONTINUATION frames with the
rest give the same code and the same connection as one HEADERS frame with the whole block, frame by
frame and in whatever chunks they are fed. If a header block is open, every other frame is a
PROTOCOL_ERROR without effect on streams and windows. -/
theorem header_fragments_invisible {ops : List Op} (hok : (exec ops).AllOk) :
    ((exec ops).conn.headerBlockOpen = false →
      ∀ (streamId : Nat) (endStream : Bool) (block b : List UInt8) (first whole last : Frame)
        (middle : List Frame), block.length ≤ 16384 →
        whole.Opens streamId endStream true block → first.Opens streamId endStream false b →
        (∀ f ∈ middle, f.Continues streamId false) → last.Continues streamId true →
        block = b ++ (middle ++ [last]).flatMap Frame.payload →
        whole.payload.length ≤ (exec ops).conn.maxFrameSize →
        first.payload.length ≤ (exec ops).conn.maxFrameSize →
        ((exec ops).conn.handleFrames (first :: (middle ++ [last]))).1
            = ((exec ops).conn.handleFrame whole).1
          ∧ SameButScratch ((exec ops).conn.handleFrames (first :: (middle ++ [last]))).2
              ((exec ops).conn.handleFrame whole).2
          ∧ ∀ chunks chunks', (exec ops).conn.prefaceSeen = true →
              (exec ops).conn.FeedsFit chunks → (exec ops).conn.FeedsFit chunks' →
              (exec ops).conn.input ++ chunks.flatten = wireOf (first :: (middle ++ [last])) →
              (exec ops).conn.input ++ chunks'.flatten = whole.wire →
              ((exec ops).conn.feeds chunks).1 = ((exec ops).conn.feeds chunks').1
                ∧ SameButScratch ((exec ops).conn.feeds chunks).2 ((exec ops).conn.feeds chunks').2)
      ∧ ((exec ops).conn.headerBlockOpen = true →
          ∀ f : Frame, f.payload.length ≤ (exec ops).conn.maxFrameSize →
            (f.type ≠ FrameType.continuation.toByte
              ∨ f.streamId ≠ (exec ops).conn.headerBlockStreamId) →
            ((exec ops).conn.handleFrame f).1 = .protocolError
              ∧ Untouched (exec ops).conn ((exec ops).conn.handleFrame f).2
              ∧ ∀ chunks tail, (exec ops).conn.FeedsFit chunks →
                  (exec ops).conn.input ++ chunks.flatten = f.wire ++ tail →
                  ((exec ops).conn.feeds chunks).1 = .protocolError
                    ∧ Untouched (exec ops).conn ((exec ops).conn.feeds chunks).2) := by
  have hc := (exec_good ops).inv
  have hstop := (exec_stop hok).1
  constructor
  · intro hclosed streamId endStream block b first whole last middle hcap hwhole hfirst hmiddle hlast
      hblock hlen₁ hlen₀
    -- the fragments behind the first are no longer than the block
    have hsize := hc.max_frame.1
    have hlen : ∀ f ∈ whole :: first :: (middle ++ [last]),
        f.payload.length ≤ (exec ops).conn.maxFrameSize := by
      intro f hf
      rcases List.mem_cons.mp hf with rfl | hf
      · exact hlen₁
      rcases List.mem_cons.mp hf with rfl | hf
      · exact hlen₀
      have hle : f.payload.length ≤ ((middle ++ [last]).flatMap Frame.payload).length := by
        rw [List.length_flatMap]
        exact List.single_le_sum (by simp) _ (List.mem_map_of_mem hf)
      rw [hblock, List.length_append] at hcap
      simp only [defaultMaxFrameSize] at hsize
      omega
    obtain ⟨hcode, hsame⟩ := handleFrames_split hclosed hlen hwhole hfirst hmiddle hlast hblock
      (hcap.trans (by decide))
    refine ⟨hcode, hsame, fun chunks chunks' hseen hfit hfit' hwire hwire' => ?_⟩
    have hfed := feeds_delivers hc hseen (hstop hseen) hfit
    have hfed' := feeds_delivers hc hseen (hstop hseen) hfit'
    have hone : (frameFraming.split whole.wire).1 = [whole] := by
      rw [← wireOf_singleton]
      exact framesOf_wireOf [whole]
    have hmany : (frameFraming.split (wireOf (first :: (middle ++ [last])))).1
        = first :: (middle ++ [last]) := framesOf_wireOf _
    rw [hwire, hmany] at hfed
    rw [hwire', hone, handleFrames_singleton] at hfed'
    refine ⟨hfed.code.trans (hcode.trans hfed'.code.symm), ?_⟩
    rw [hfed.state, hfed'.state]
    exact hsame.withInput _ _
  · intro hopen f hlen hother
    have hframe := handleFrame_intruder hopen hlen hother
    have huntouched := queueGoaway_untouched hc .protocolError
    rw [hframe]
    refine ⟨rfl, huntouched, fun chunks tail hfit hwire => ?_⟩
    have hseen := exec_open_seen hok hopen
    have hfed := feeds_delivers hc hseen (hstop hseen) hfit
    have hfront : frameFraming.cut (f.wire ++ tail) = some (f, tail) := cutFrame_wire f tail
    rw [hwire, frameFraming.split_of_cut_eq_some hfront, handleFrames_cons, hframe,
      andThen_err (by decide)] at hfed
    refine ⟨hfed.code, ?_⟩
    rw [hfed.state]
    exact { huntouched with }

/-- The request `getRequest 1` in two fragments, the second of them empty. -/
def splitRequest : Frame × Frame :=
  (Frame.of FrameType.headers.toByte flagEndStream 1 [0x84],
    Frame.of FrameType.continuation.toByte flagEndHeaders 1 [])

theorem header_fragments_invisible_split :
    (((exec [.feed (clientInput [])]).conn.handleFrames [splitRequest.1, splitRequest.2]).1
        = ((exec [.feed (clientInput [])]).conn.handleFrame (getRequest 1)).1
      ∧ SameButScratch
          ((exec [.feed (clientInput [])]).conn.handleFrames [splitRequest.1, splitRequest.2]).2
          ((exec [.feed (clientInput [])]).conn.handleFrame (getRequest 1)).2)
      ∧ ((exec [.feed (clientInput [splitRequest.1])]).conn.handleFrame serverSettingsFrame).1
          = .protocolError := by
  constructor
  · have h := (@header_fragments_invisible [.feed (clientInput [])] (by decide)).1
      (by decide) 1 true [0x84] [0x84] splitRequest.1 (getRequest 1) splitRequest.2 [] (by decide)
      (Frame.opens_plain rfl rfl rfl) (Frame.opens_plain rfl rfl rfl) (by simp) ⟨rfl, rfl, rfl⟩ rfl
      (by decide) (by decide)
    exact ⟨h.1, h.2.1⟩
  · exact ((@header_fragments_invisible [.feed (clientInput [splitRequest.1])]
      (by decide)).2 (by decide) serverSettingsFrame (by decide) (by decide)).1

end C11Omo.Http2
