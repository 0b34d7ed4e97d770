import C11Omo.Http2.OutputCost
import C11Omo.Http2.Run

set_option autoImplicit false

/-! # One read never overflows the output queue

The costs of the frames, in the loads of `OutputCost`: a frame costs no more than eleven times its
length on the wire (`frameCost_le`), and no frame costs more than 352 bytes. What a chunk of 8192
bytes completes is one frame that began before it and frames that lie in it, and what is owed at
the beginning is bounded by the slots (`load_le`). All of it fits the output
(`read_fits_output`).
-/

namespace C11Omo.Http2

open C11Omo.Lib Connection

namespace Connection

variable {c : Connection} {pos : Fin connMaxStreams}

/-! ## Requests -/

/-- Filling a slot leaves nothing owed to it. -/
theorem load_withStream (c : Connection) (pos : Fin connMaxStreams) (streamId : Nat)
    (path : List UInt8) (state : StreamState) : load (c.withStream pos streamId path state) ≤ load c := by
  have hset := @load_setStream_le c pos
    { Stream.init streamId c.initialStreamWindow with path := path, state := state }
    (Nat.zero_le _)
  exact (load_congr rfl rfl rfl).le.trans hset

/-- `finish_headers` for a new id, as `finishHeaders_eq`. -/
theorem strict_finishHeaders_eq (hc : Inv c) {streamId : Nat} (hodd : streamId % 2 = 1)
    (hlast : c.lastStreamId < streamId) (flags : UInt8) (block : List UInt8) :
    Strict.finishHeaders c streamId flags block
      = match c.freeSlot with
        | none => some (.refusedStream, c)
        | some pos =>
            if (extractPath block streamPathCap).1 = .ok then
              Strict.queueResponse
                (c.withStream pos streamId (extractPath block streamPathCap).2
                  (if hasFlag flags flagEndStream then .halfClosedRemote else .opened))
                pos
            else
              some ((extractPath block streamPathCap).1,
                c.withStream pos streamId (extractPath block streamPathCap).2 .idle) := by
  have heven : ¬ streamId &&& 1 = 0 := by
    rw [and_one_eq_zero]
    omega
  rw [Strict.finishHeaders, if_neg heven, if_neg (by omega), getStream, findStream_new hc hlast]
  simp only
  rcases hfree : c.freeSlot with _ | pos
  · rw [freeSlot] at hfree
    rw [hfree]
  · rw [freeSlot] at hfree
    rw [hfree]
    rcases hpath : extractPath block streamPathCap with ⟨ret, path⟩
    by_cases hret : ret = .ok
    · subst hret
      simp [Stream.receiveHeaders, withStream, Stream.init, Connection.setStream]
    · simp [hret, withStream, Connection.setStream, Stream.init]

/-- What a complete header block of `len` bytes costs at most: a response with the longest path
that the block has room for. -/
def blockCost (len : Nat) : Nat := 80 + min 255 (11 * len)

theorem finishHeaders_spends (hc : Inv c) {streamId : Nat} (hlt : streamId < 2 ^ 31) (flags : UInt8)
    (block : List UInt8) :
    Spends c (blockCost block.length) (Strict.finishHeaders c streamId flags block)
      (c.finishHeaders streamId flags block) := by
  by_cases hbad : streamId % 2 = 0 ∨ streamId ≤ c.lastStreamId
  · have hstrict : Strict.finishHeaders c streamId flags block = some (.protocolError, c) := by
      unfold Strict.finishHeaders
      by_cases heven : streamId % 2 = 0
      · rw [if_pos (and_one_eq_zero.mpr heven)]
      · rw [if_neg (mt and_one_eq_zero.mp heven), if_pos (hbad.resolve_left heven)]
    rw [hstrict, finishHeaders_reject hbad]
    exact .skip le_rfl _
  · have hodd : streamId % 2 = 1 := by omega
    have hlast : c.lastStreamId < streamId := by omega
    rw [strict_finishHeaders_eq hc hodd hlast, finishHeaders_eq hc hodd hlast]
    rcases hfree : c.freeSlot with _ | pos
    · exact .skip le_rfl _
    · have htext := extractPath_pathText block
      have hlen := extractPath_length_le block
      simp only
      rcases hpath : extractPath block streamPathCap with ⟨ret, path⟩
      rw [hpath] at htext hlen
      -- the cost of the response is bounded by the block, since its path comes from there
      by_cases hret : ret = .ok
      · subst hret
        rw [if_pos rfl, if_pos rfl]
        have hslot := withStream_streams c pos streamId path
          (if hasFlag flags flagEndStream then .halfClosedRemote else .opened)
        have hopen := withStream_opened hfree hodd hlast hlt htext (hasFlag flags flagEndStream)
        have hresponse := @queueResponse_spends _ pos (hopen.inv hc)
        rw [hslot] at hresponse
        have h0 : streamId ≠ 0 := by omega
        refine Spends.after (Spends.mono (hresponse h0 rfl rfl (extractPath_ne_nil hpath)) ?_)
          (load_withStream c pos streamId path _)
        exact Nat.add_le_add_left hlen 80
      · rw [if_neg hret, if_neg hret]
        exact .skip (load_withStream c pos streamId path .idle) _

theorem appendHeaderBlock_load (c : Connection) (data : List UInt8) :
    load (c.appendHeaderBlock data).2 ≤ load c + min 255 (11 * data.length) := by
  unfold appendHeaderBlock
  split
  · exact Nat.le_add_right _ _
  · have hblock : blockLoad { c with headerBlock := c.headerBlock ++ data }
        ≤ c.blockLoad + min 255 (11 * data.length) := by
      unfold blockLoad
      dsimp only
      split
      · rw [List.length_append]
        omega
      · exact Nat.zero_le _
    have hpend : pending { c with headerBlock := c.headerBlock ++ data } = c.pending := rfl
    unfold load
    rw [hpend]
    dsimp only
    omega

theorem parseHeadersBlock_block_le {header : FrameHeader} {payload : List UInt8}
    {pos blockLen padLen : Nat} {parsed : HeadersPayload}
    (h : parseHeadersBlock header payload pos blockLen padLen = .ok parsed) :
    parsed.headerBlock.length ≤ blockLen := by
  unfold parseHeadersBlock at h
  split_ifs at h
  · split at h
    · cases h
    · obtain rfl := Except.ok.inj h
      exact (List.length_take_le _ _).trans (Nat.sub_le _ _)
  · obtain rfl := Except.ok.inj h
    exact List.length_take_le _ _

theorem parseHeaders_block_le {header : FrameHeader} {payload : List UInt8}
    {parsed : HeadersPayload} (h : parseHeaders header payload = .ok parsed) :
    parsed.headerBlock.length ≤ header.length := by
  unfold parseHeaders at h
  split_ifs at h
  · exact (parseHeadersBlock_block_le h).trans (by omega)
  · exact parseHeadersBlock_block_le h

theorem parseContinuation_block_le {header : FrameHeader} {payload fragment : List UInt8}
    (h : parseContinuation header payload = .ok fragment) :
    fragment.length ≤ header.length := by
  unfold parseContinuation at h
  split_ifs at h
  obtain rfl := Except.ok.inj h
  exact List.length_take_le _ _

theorem blockCost_mono {m n : Nat} (h : m ≤ n) : blockCost m ≤ blockCost n := by
  unfold blockCost
  omega

theorem processHeaders_spends (hc : Inv c) {header : FrameHeader} (hlt : header.streamId < 2 ^ 31)
    (payload : List UInt8) : Spends c (blockCost header.length)
      (Strict.processHeaders c header payload) (c.processHeaders header payload) := by
  unfold Strict.processHeaders processHeaders
  rcases hparse : parseHeaders header payload with ret | parsed
  · exact .skip le_rfl _
  · have hlen := blockCost_mono (parseHeaders_block_le hparse)
    dsimp only
    split
    · split
      · exact .skip le_rfl _
      · next hclosed =>
          -- an open block starts empty
          have happend := appendHeaderBlock_load { c with
            headerBlockOpen := true
            headerBlockStreamId := header.streamId
            headerBlockFlags := header.flags
            headerBlock := [] } parsed.headerBlock
          have hempty : load { c with
              headerBlockOpen := true
              headerBlockStreamId := header.streamId
              headerBlockFlags := header.flags
              headerBlock := [] } = load c := by
            have hblock : c.blockLoad = 0 := if_neg hclosed
            exact load_congr rfl rfl hblock.symm
          rw [hempty] at happend
          refine .pay (happend.trans ?_) _
          unfold blockCost at hlen ⊢
          omega
    · exact (finishHeaders_spends hc hlt _ _).mono hlen

/-- Closing a header block releases the path that was counted for it. -/
theorem load_closeBlock (hopen : c.headerBlockOpen = true) :
    load { c with headerBlockOpen := false } + min 255 (11 * c.headerBlock.length) = load c := by
  have hblock : c.blockLoad = min 255 (11 * c.headerBlock.length) := if_pos hopen
  have hpend : pending { c with headerBlockOpen := false } = c.pending := rfl
  have hclosed : blockLoad { c with headerBlockOpen := false } = 0 := rfl
  unfold load
  rw [hblock, hpend, hclosed, Nat.add_zero]

/-- **The last CONTINUATION** pays for its own fragment, those before it have been paid for. -/
theorem processContinuation_spends (hc : Inv c) {header : FrameHeader}
    (hlt : header.streamId < 2 ^ 31) (payload : List UInt8) :
    Spends c (blockCost header.length) (Strict.processContinuation c header payload)
      (c.processContinuation header payload) := by
  unfold Strict.processContinuation processContinuation
  split
  · exact .skip le_rfl _
  · next hmatch =>
      obtain ⟨hopen, hid⟩ := not_or.mp hmatch
      rw [not_not] at hid
      rcases hparse : parseContinuation header payload with ret | fragment
      · exact .skip le_rfl _
      · have hlen := blockCost_mono (parseContinuation_block_le hparse)
        have hinv := (appendHeaderBlock_does c fragment).inv hc
        have hload := appendHeaderBlock_load c fragment
        have hblock : (c.appendHeaderBlock fragment).2.headerBlockStreamId = c.headerBlockStreamId
            ∧ (c.appendHeaderBlock fragment).2.headerBlockOpen = c.headerBlockOpen := by
          unfold appendHeaderBlock
          split <;> exact ⟨rfl, rfl⟩
        dsimp only
        rcases hres : c.appendHeaderBlock fragment with ⟨ret, c'⟩
        rw [hres] at hinv hload hblock
        have happend : Spends c (min 255 (11 * fragment.length)) (some (ret, c')) (ret, c') :=
          .pay hload ret
        refine Spends.mono (happend.andThen 80 fun _ => ?_) ?_
        · split
          · exact .skip le_rfl _
          · have hopened : c'.headerBlockOpen = true := hblock.2.trans (by simpa using hopen)
            -- the fragments so far have been charged for, and closing the block sets that free
            have hclose := load_closeBlock hopened
            have hfinish := @finishHeaders_spends { c' with headerBlockOpen := false } { hinv with }
              c'.headerBlockStreamId (by rwa [hblock.1, ← hid]) c'.headerBlockFlags c'.headerBlock
            refine Affords.weaken hfinish ?_
            unfold blockCost
            dsimp only
            omega
        · unfold blockCost at hlen ⊢
          omega

/-! ## The other frames -/

theorem owed_receiveData (s : Stream) (len : Nat) (endStream : Bool) :
    owed (s.receiveData len endStream).2 ≤ owed s := by
  unfold Stream.receiveData
  dsimp only
  split_ifs
  · exact le_rfl
  · exact le_rfl
  · exact le_rfl
  · exact Nat.zero_le _
  · exact le_refl (owed s)
  · exact le_refl (owed s)

theorem processData_spends (c : Connection) (header : FrameHeader) (payload : List UInt8) :
    Spends c 26 (Strict.processData c header payload) (c.processData header payload) := by
  unfold Strict.processData processData
  rcases parseData header payload with ret | parsed
  · exact .skip le_rfl _
  · rcases c.findStream header.streamId with _ | pos
    · exact .skip le_rfl _
    · dsimp only
      split
      · split
        · exact .skip le_rfl _
        · -- the code of the refresh is thrown away, its result is not
          have hrefresh := refreshRecvWindows_spends
            { c with connRecvWindow := c.connRecvWindow - toInt32 header.length } none
          exact hrefresh.discard .streamClosed
      · split
        · exact .skip le_rfl _
        · have howed := owed_receiveData (c.streams pos) header.length
            (hasFlag header.flags flagEndStream)
          rcases hres : (c.streams pos).receiveData header.length
            (hasFlag header.flags flagEndStream) with ⟨ret, stream⟩
          rw [hres] at howed
          have hload : load (setStream
              { c with connRecvWindow := c.connRecvWindow - toInt32 header.length } pos stream)
                ≤ load c := load_setStream_le howed
          dsimp only
          split
          · exact .skip hload _
          · exact (refreshRecvWindows_spends _ _).after hload

theorem processWindowUpdate_spends (hc : Inv c) (header : FrameHeader) (payload : List UInt8) :
    Spends c 0 (Strict.processWindowUpdate c header payload)
      (c.processWindowUpdate header payload) := by
  unfold Strict.processWindowUpdate processWindowUpdate
  rcases hparse : parseWindowUpdate header payload with ret | increment
  · exact .skip le_rfl _
  · obtain ⟨h0, hlt⟩ := parseWindowUpdate_ok hparse
    have hint : toInt32 increment = increment := toInt32_of_le (by omega)
    dsimp only
    split
    · split
      · exact .skip le_rfl _
      · next hmax =>
          rw [hint]
          have hinv := (Act.creditConn c increment (not_lt.mp hmax)).inv hc
          exact (flushDeferredResponses_spends hinv).after le_rfl
    · next hid =>
        rcases hfind : c.findStream header.streamId with _ | pos
        · exact .skip le_rfl _
        · have hpos := findStream_eq_some hfind
          dsimp only
          rw [Stream.addSendWindow, if_neg h0, hint]
          by_cases hmax : (c.streams pos).sendWindow + increment > int32Max
          · rw [if_pos hmax]
            exact .skip (load_setStream_le le_rfl) _
          · rw [if_neg hmax]
            have hinv := (Act.creditStream c pos increment (by rwa [hpos]) (not_lt.mp hmax)).inv hc
            refine (flushDeferredResponses_spends hinv).after (load_setStream_le ?_)
            exact le_rfl

theorem processRstStream_load (c : Connection) (header : FrameHeader) (payload : List UInt8) :
    load (c.processRstStream header payload).2 ≤ load c := by
  unfold processRstStream
  rcases parseRstStream header payload with ret | code
  · exact le_rfl
  · rcases c.findStream header.streamId with _ | pos
    · dsimp only
      split_ifs
      · exact le_rfl
      · exact le_rfl
      · exact le_rfl
    · exact load_setStream_le (Nat.zero_le _)

theorem processPing_spends (c : Connection) (header : FrameHeader) (payload : List UInt8) :
    Spends c 17 (Strict.processPing c header payload) (c.processPing header payload) := by
  unfold Strict.processPing processPing
  rcases parsePing header payload with ret | opaqueData
  · exact .skip le_rfl _
  · dsimp only
    split
    · exact .skip le_rfl _
    · exact queueWire_spends c fun _ h => (encodeRaw_length h).2

theorem resetStreamError_spends (c : Connection) (streamId : Nat) (errorCode : ErrorCode) :
    Spends c 13 (Strict.resetStreamError c streamId errorCode)
      (c.resetStreamError streamId errorCode) := by
  refine (queueRstStream_spends c streamId errorCode).andThen 0 fun _ => ?_
  rcases c.findStream streamId with _ | pos
  · exact .skip le_rfl _
  · exact .skip (load_setStream_le (Nat.zero_le _)) _

/-- **A frame costs no more than a header block of its length.** -/
theorem processFrame_spends (hc : Inv c) {header : FrameHeader} (hlt : header.streamId < 2 ^ 31)
    (payload : List UInt8) : Spends c (blockCost header.length)
      (Strict.processFrame c header payload) (c.processFrame header payload) := by
  have hleast : ∀ {cost}, cost ≤ 80 → cost ≤ blockCost header.length := by
    intro cost hle
    unfold blockCost
    omega
  unfold Strict.processFrame processFrame
  split
  · exact .skip le_rfl _
  · split
    · exact .skip le_rfl _
    · rcases FrameType.ofByte? header.type with _ | t
      · exact .skip le_rfl _
      · cases t with
        | data => exact (processData_spends c header payload).mono (hleast (by omega))
        | headers => exact processHeaders_spends hc hlt payload
        | priority =>
            dsimp only
            rcases parsePriority header payload with ret | priority
            · exact .skip le_rfl _
            · exact .skip le_rfl _
        | rstStream => exact .skip (processRstStream_load c header payload) _
        | settings => exact (applySettings_spends c header payload).mono (hleast (by omega))
        | pushPromise => exact .skip le_rfl _
        | ping => exact (processPing_spends c header payload).mono (hleast (by omega))
        | goaway => exact .skip le_rfl _
        | windowUpdate => exact (processWindowUpdate_spends hc header payload).mono (hleast (by omega))
        | continuation => exact processContinuation_spends hc hlt payload

/-! ## The loop of `feed` -/

theorem strict_feedStep_of_cut_none (h : cutFrame c.input = none) :
    Strict.feedStep c = some .stop := by
  unfold cutFrame at h
  rw [Strict.feedStep]
  by_cases hlen : c.input.length < frameHeaderLen
  · rw [if_pos hlen]
  · rw [if_neg hlen]
    rcases hparse : parseHeader c.input with ret | header
    · -- `parse_header` fails on short input only
      rw [parseHeader, if_neg hlen] at hparse
      cases hparse
    · rw [hparse] at h
      simp only at h ⊢
      by_cases hwhole : frameHeaderLen + header.length > c.input.length
      · rw [if_pos hwhole]
      · rw [if_neg hwhole] at h
        cases h

/-- What a frame costs with the RST_STREAM or the GOAWAY that it may be answered with. -/
def frameCost (f : Frame) : Nat := blockCost f.payload.length + 17

theorem frameCost_le (f : Frame) :
    frameCost f ≤ 352 ∧ frameCost f ≤ 11 * (frameHeaderLen + f.payload.length) := by
  unfold frameCost blockCost frameHeaderLen
  omega

/-- **One frame of the loop.** -/
theorem feedStep_strict (hc : Inv c) {f : Frame} {rest : List UInt8}
    (hcut : cutFrame c.input = some (f, rest)) (hroom : load c + frameCost f ≤ connOutputCap) :
    Strict.feedStep c = some c.feedStep ∧ load (c.handleFrame f).2 ≤ load c + frameCost f := by
  obtain ⟨hparse, hdrop, hlen, -⟩ := cutFrame_eq_some hcut
  have h1 : ¬ c.input.length < frameHeaderLen := by omega
  have h2 : ¬ frameHeaderLen + f.header.length > c.input.length := by
    rw [Frame.header_length]
    omega
  unfold frameCost at hroom ⊢
  have hproc := @processFrame_spends c hc f.header f.streamId_lt (f.payload ++ rest)
  rw [Frame.header_length] at hproc
  obtain ⟨hstrict, hload⟩ := hproc (by omega)
  have hsame := processFrame_append c f rest
  rcases hres : c.processFrame f.header f.payload with ⟨ret, c₁⟩
  rw [hsame, hres] at hstrict hload
  dsimp only at hload
  rw [Strict.feedStep, feedStep, if_neg h1, if_neg h1, hparse]
  simp only [if_neg h2]
  rw [hdrop, hstrict, hsame, hres]
  -- what the handler queues, and then nothing, RST_STREAM or GOAWAY
  by_cases hok : ret = .ok
  · subst hok
    rw [handleFrame_ok hres]
    exact ⟨rfl, hload.trans (by omega)⟩
  · by_cases hreset : isStreamError ret = true ∧ f.streamId ≠ 0
    · have hcond : isStreamError ret = true ∧ f.header.streamId ≠ 0 := hreset
      have hspent := resetStreamError_spends c₁ f.header.streamId ret
      obtain ⟨hrst, hload'⟩ := hspent (by omega)
      rw [handleFrame_reset hres hreset.1 hreset.2]
      dsimp only at hload'
      refine ⟨?_, hload'.trans (by omega)⟩
      rcases hcode : c₁.resetStreamError f.header.streamId ret with ⟨rstRet, c₂⟩
      rw [hcode] at hrst
      cases ret <;> first | exact absurd rfl hok | skip
      all_goals
        simp only [Option.bind_eq_bind, Option.bind_some, if_pos hcond, hrst, hcode]
        cases rstRet <;> rfl
    · have hcond : ¬ (isStreamError ret = true ∧ f.header.streamId ≠ 0) := hreset
      obtain ⟨hgoaway, hload'⟩ := queueGoaway_spends c₁ ret (by omega)
      rw [handleFrame_goaway hres hok hreset]
      dsimp only at hload'
      refine ⟨?_, hload'.trans (by omega)⟩
      cases ret <;> first | exact absurd rfl hok | skip
      all_goals
        simp only [Option.bind_eq_bind, Option.bind_some, if_neg hcond, hgoaway]

/-- The first frame and the rest of the loop. -/
theorem feedLoop_step (hc : Inv c) {f : Frame} {rest : List UInt8}
    (hcut : cutFrame c.input = some (f, rest)) {fuel : Nat}
    (hrest : ∀ c', Inv c' → Spends c' (11 * c'.input.length) (Strict.feedLoop fuel c')
      (c'.feedLoop fuel)) :
    Spends c (frameCost f + 11 * rest.length) (Strict.feedLoop (fuel + 1) c)
      (c.feedLoop (fuel + 1)) := by
  intro hroom
  obtain ⟨hstrict, hload⟩ := feedStep_strict hc hcut (by omega)
  rw [Strict.feedLoop, feedLoop, hstrict, feedStep_of_cut hc hcut]
  by_cases hok : (c.handleFrame f).1 = .ok
  · rw [if_pos hok]
    have hsame : load { (c.handleFrame f).2 with input := rest } = load (c.handleFrame f).2 :=
      load_congr rfl rfl rfl
    have hinv : Inv { (c.handleFrame f).2 with input := rest } := { handleFrame_inv hc f with }
    obtain ⟨hloop, hload'⟩ := hrest _ hinv (by
      rw [hsame]
      dsimp only
      omega)
    refine ⟨hloop, hload'.trans ?_⟩
    rw [hsame]
    dsimp only
    omega
  · rw [if_neg hok]
    exact ⟨rfl, hload.trans (by omega)⟩

/-- **The loop costs eleven times its input.** -/
theorem feedLoop_spends (hc : Inv c) (fuel : Nat) :
    Spends c (11 * c.input.length) (Strict.feedLoop fuel c) (c.feedLoop fuel) := by
  induction fuel generalizing c with
  | zero => exact .skip le_rfl _
  | succ fuel ih =>
      rcases hcut : cutFrame c.input with _ | ⟨f, rest⟩
      · rw [Strict.feedLoop, feedLoop, strict_feedStep_of_cut_none hcut, feedStep_of_cut_none hcut]
        exact .skip le_rfl _
      · obtain ⟨-, -, hlen, hdrop⟩ := cutFrame_eq_some hcut
        have hcost := (frameCost_le f).2
        refine (feedLoop_step hc hcut fun c' hc' => ih hc').mono ?_
        rw [hdrop, List.length_drop]
        omega

end Connection

/-- A frame that was not complete without `ys` ends in `ys`. -/
theorem cutFrame_rest_le {xs ys rest : List UInt8} {f : Frame} (hstop : cutFrame xs = none)
    (hcut : cutFrame (xs ++ ys) = some (f, rest)) : rest.length ≤ ys.length := by
  obtain ⟨front, hsplit, hfront⟩ := cutFrame_front hcut
  by_contra hlong
  have hlen := congrArg List.length hsplit
  rw [List.length_append, List.length_append] at hlen
  obtain ⟨mid, hmid⟩ : front <+: xs :=
    List.prefix_of_prefix_length_le (List.prefix_append _ _)
      (hsplit ▸ List.prefix_append xs ys) (by omega)
  have hearly : cutFrame (front ++ mid) = some (f, [] ++ mid) := frameFraming.cut_append hfront mid
  rw [hmid, hstop] at hearly
  cases hearly

namespace Connection

variable {c : Connection}

/-- Behind an incomplete frame: that frame, and eleven times the chunk that completes it. -/
theorem feedLoop_spends_chunk (hc : Inv c) {input data : List UInt8} (hin : c.input = input ++ data)
    (hstop : cutFrame input = none) (fuel : Nat) :
    Spends c (352 + 11 * data.length) (Strict.feedLoop fuel c) (c.feedLoop fuel) := by
  cases fuel with
  | zero => exact .skip le_rfl _
  | succ fuel =>
      rcases hcut : cutFrame c.input with _ | ⟨f, rest⟩
      · rw [Strict.feedLoop, feedLoop, strict_feedStep_of_cut_none hcut, feedStep_of_cut_none hcut]
        exact .skip le_rfl _
      · have hcost := (frameCost_le f).1
        have hrest : rest.length ≤ data.length := by
          rw [hin] at hcut
          exact cutFrame_rest_le hstop hcut
        refine (feedLoop_step hc hcut fun c' hc' => feedLoop_spends hc' fuel).mono ?_
        omega

theorem feedPreface_spends (c : Connection) :
    Spends c 17 (Strict.feedPreface c) c.feedPreface := by
  unfold Strict.feedPreface feedPreface
  split
  · exact (queueGoaway_spends c .protocolError).discard .protocolError
  · dsimp only
    split
    · refine .skip ?_ _
      exact (load_congr rfl rfl rfl).le
    · have hqueued := queueSettings_spends { c.dropInput clientPrefaceLen with prefaceSeen := true }
      refine Spends.after (Spends.andThen hqueued 2 fun _ => ?_) (load_congr rfl rfl rfl).le
      refine .skip ?_ _
      exact (load_congr rfl rfl rfl).le

/-- **One call of `feed`** on a connection that has handled its input. -/
theorem feed_spends (hc : Inv c) (hs : Started c)
    (hseen : c.prefaceSeen = true → cutFrame c.input = none)
    (hnew : c.prefaceSeen = false → c.input.length < clientPrefaceLen) (data : List UInt8) :
    Spends c (352 + 11 * data.length) (Strict.feed c data) (c.feed data) := by
  have hc' : Inv { c with input := c.input ++ data } := { hc with }
  unfold Strict.feed feed
  -- as `h2_connection_feed` tests: room for the bytes, then the preface
  split
  · exact .skip le_rfl _
  · dsimp only
    split
    · next hyes => exact (feedLoop_spends_chunk hc' rfl (hseen hyes) _).after (load_congr rfl rfl rfl).le
    · next hno =>
        have hfresh : c.prefaceSeen = false := by simpa using hno
        have hshort := hnew hfresh
        split
        · refine .skip ?_ _
          exact (load_congr rfl rfl rfl).le
        · have hpreface := feedPreface_spends { c with input := c.input ++ data }
          refine Spends.after (Spends.mono (hpreface.andThen (11 * data.length) fun hok => ?_)
            (by omega)) (load_congr rfl rfl rfl).le
          by_cases hpre : (c.input ++ data).take clientPrefaceLen = clientPreface
          · -- the chunk is longer than what is left of it behind the preface
            have hgood := feedPreface_good hc' hs hfresh hpre
            rw [hgood]
            refine (feedLoop_spends (greeted_inv hc' (hs hfresh).2.1) _).mono ?_
            have hinput : ({ c with input := c.input ++ data } : Connection).greeted.input
                = (c.input ++ data).drop clientPrefaceLen := rfl
            rw [hinput, List.length_drop, List.length_append]
            omega
          · rw [feedPreface_bad hpre] at hok
            cases hok

end Connection

/-- **One read never overflows the output queue.** In a run without errors in which all output has
been consumed, every call of `h2_connection_queue_bytes` for a chunk of at most 8192 bytes
succeeds, and what the chunk makes the server queue fits the output. (A chunk that the input has no
room for makes it queue nothing.) -/
theorem read_fits_output {ops : List Op} (hok : (exec ops).AllOk)
    (hdrained : (exec ops).conn.pending = []) {data : List UInt8} (hlen : data.length ≤ 8192) :
    Strict.feed (exec ops).conn data = some ((exec ops).conn.feed data)
      ∧ ((exec ops).conn.feed data).2.pending.length ≤ connOutputCap := by
  have hg := exec_good ops
  obtain ⟨hseen, hnew⟩ := exec_stop hok
  have hload := load_le hg.inv hdrained
  have hroom : load (exec ops).conn + (352 + 11 * data.length) ≤ connOutputCap := by
    unfold connOutputCap
    omega
  obtain ⟨hstrict, hafter⟩ := feed_spends hg.inv hg.started hseen hnew data hroom
  have hpending := owed_le_load ((exec ops).conn.feed data).2 0
  refine ⟨hstrict, ?_⟩
  calc ((exec ops).conn.feed data).2.pending.length
      ≤ load ((exec ops).conn.feed data).2 := (Nat.le_add_right _ _).trans hpending
    _ ≤ load (exec ops).conn + (352 + 11 * data.length) := hafter
    _ ≤ connOutputCap := hroom

theorem read_fits_output_first :
    Strict.feed (exec [.feed (clientInput [getRequest 1]), .consume 200]).conn
        (wireOf [getRequest 3, getRequest 5])
      = some ((exec [.feed (clientInput [getRequest 1]), .consume 200]).conn.feed
        (wireOf [getRequest 3, getRequest 5]))
      ∧ ((exec [.feed (clientInput [getRequest 1]), .consume 200]).conn.feed
        (wireOf [getRequest 3, getRequest 5])).2.pending.length ≤ connOutputCap :=
  read_fits_output (by decide +kernel) (by decide +kernel) (by decide +kernel)

end C11Omo.Http2
