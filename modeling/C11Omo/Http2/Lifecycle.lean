import C11Omo.Http2.Moves

set_option autoImplicit false

/-! # The server keeps to the states of a stream

In a run without errors the frames that the two sides exchange on a stream are moves of its life, one
after the other, and the slot table is what the phases of all streams make of it
(`stream_lifecycle`). So no frame is sent that the phase of its stream forbids, however the frames of
different streams interleave, and every data frame that a stream does not take is answered with a
reset at once. The phases are those of `Phase.next`, where a refused stream may begin again and the
credit of the client does not count.
-/

namespace C11Omo.Http2

open C11Omo.Lib Connection

/-! ## The phase of a stream in a connection -/

/-- The connection has a stream in a phase. -/
structure Connection.InPhase (c : Connection) (streamId : Nat) (phase : Phase) : Prop where
  slot : ∀ i, (c.streams i).id = streamId → (c.streams i).Shows phase
  slotless : (∀ i, (c.streams i).id ≠ streamId) → phase.Over
  fresh : c.lastStreamId < streamId → phase.Fresh

namespace Connection.InPhase

variable {c c' : Connection} {streamId : Nat} {phase : Phase} {pos : Fin connMaxStreams}
  {fs : List Frame}

theorem congr (h : c.InPhase streamId phase) (hlast : c'.lastStreamId = c.lastStreamId)
    (hslot : ∀ i, (c'.streams i).id = (c.streams i).id ∧ (c'.streams i).state = (c.streams i).state
      ∧ (c'.streams i).responseHeadersSent = (c.streams i).responseHeadersSent) :
    c'.InPhase streamId phase where
  slot := by
    intro i hid
    obtain ⟨hid', hst, hhead⟩ := hslot i
    exact (h.slot i (hid'.symm.trans hid)).congr hst hhead
  slotless := by
    intro hno
    apply h.slotless
    intro i
    rw [← (hslot i).1]
    exact hno i
  fresh := by
    intro hlt
    apply h.fresh
    rwa [← hlast]

/-- One slot is given to another stream, or belongs to another one anyway. -/
theorem other (h : c.InPhase streamId phase) (hpos : (c'.streams pos).id ≠ streamId)
    (hother : ∀ i, i ≠ pos → c'.streams i = c.streams i)
    (hlast : c.lastStreamId ≤ c'.lastStreamId)
    (hevicted : (c.streams pos).id = streamId → (c.streams pos).state = .closed) :
    c'.InPhase streamId phase where
  slot := by
    intro i hid
    have hi : i ≠ pos := by
      rintro rfl
      exact hpos hid
    rw [hother i hi] at hid ⊢
    exact h.slot i hid
  slotless := by
    intro hno
    by_cases hid : (c.streams pos).id = streamId
    · -- a stream that loses its slot is over
      rcases (h.slot pos hid).of_closed (hevicted hid) with hp | hp
      · exact Or.inr (Or.inl hp)
      · exact Or.inr (Or.inr hp)
    · apply h.slotless
      intro i
      by_cases hi : i = pos
      · rw [hi]
        exact hid
      · rw [← hother i hi]
        exact hno i
  fresh := by
    intro hlt
    exact h.fresh (by omega)

/-- One slot closes, and belongs to the stream. -/
theorem closes (hc : Inv c') (h0 : streamId ≠ 0) (hphase : phase = .closed ∨ phase = .refused)
    (hid : (c'.streams pos).id = streamId) (hst : (c'.streams pos).state = .closed) :
    c'.InPhase streamId phase where
  slot := by
    intro i hi
    have hpos : i = pos := hc.id_inj i pos (by rwa [hi]) (hi.trans hid.symm)
    rw [hpos]
    rcases hphase with rfl | rfl
    · exact hst
    · exact hst
  slotless := fun hno => absurd hid (hno pos)
  fresh := by
    intro hlt
    have hle := hc.id_le pos
    omega

/-- **Sending responses moves the stream on.** -/
theorem sends (hc : Inv c) (h : c.InPhase streamId phase) (h0 : streamId ≠ 0)
    (hsends : Sends c fs c') :
    ∃ phase', phase.run (sentOn streamId fs) = some phase' ∧ c'.InPhase streamId phase' := by
  by_cases hslot : ∃ i, (c.streams i).id = streamId
  · -- the stream has a slot, which shows the next phase
    obtain ⟨i, hid⟩ := hslot
    subst hid
    obtain ⟨phase', hrun, hshows⟩ := hsends.moves i h0 phase (h.slot i rfl)
    refine ⟨phase', hrun, ?_⟩
    constructor
    · intro j hj
      rw [hsends.id j] at hj
      have hij : j = i := hc.id_inj j i (by rwa [hj]) hj
      rw [hij]
      exact hshows
    · intro hno
      exact absurd (hsends.id i) (hno i)
    · intro hlt
      have hle := hc.id_le i
      rw [hsends.last] at hlt
      omega
  · -- no slot, so nothing is sent on the stream
    have hno : ∀ i, (c.streams i).id ≠ streamId := fun i hi => hslot ⟨i, hi⟩
    refine ⟨phase, by rw [hsends.others streamId hno, Phase.run_nil], ?_⟩
    constructor
    · intro i hi
      rw [hsends.id i] at hi
      exact absurd hi (hno i)
    · exact fun _ => h.slotless hno
    · intro hlt
      rw [hsends.last] at hlt
      exact h.fresh hlt

/-- Between two frames no response and no reset is due. -/
theorem at_rest (h : c.InPhase streamId phase) (h0 : streamId ≠ 0)
    (hs : ∀ i, Settled (c.streams i)) :
    (∀ endStream, phase ≠ .requested endStream) ∧ phase ≠ .violated := by
  by_cases hslot : ∃ i, (c.streams i).id = streamId
  · obtain ⟨i, hid⟩ := hslot
    have hshows := h.slot i hid
    constructor
    · rintro endStream rfl
      obtain ⟨hst, hhead⟩ := hshows
      rcases hs i (by rwa [hid]) with hst' | ⟨-, hhead', -⟩ | ⟨hst', -⟩
      · rw [hst'] at hst
        split_ifs at hst
      · rw [hhead] at hhead'
        cases hhead'
      · rw [hst'] at hst
        split_ifs at hst
    · rintro rfl
      exact hshows
  · have hover := h.slotless fun i hi => hslot ⟨i, hi⟩
    constructor
    · rintro endStream rfl
      rcases hover with h | h | h <;> cases h
    · rintro rfl
      rcases hover with h | h | h <;> cases h

end Connection.InPhase

/-! ## Header blocks -/

namespace Connection

variable {c : Connection} {f : Frame}

theorem frameStep_queued {fs : List Frame} (h : (c.handleFrame f).2.output = c.output ++ wireOf fs) :
    (c.frameStep f).queued = fs := framesOf_drop h

/-- The connection when a request has been read: its stream has a slot, and no header block is open. -/
def asked (c : Connection) (pos : Fin connMaxStreams) (streamId : Nat) (flags : UInt8)
    (path bytes : List UInt8) : Connection :=
  { c with headerBlockOpen := false, headerBlock := bytes }.withStream pos streamId path
    (if hasFlag flags flagEndStream then .halfClosedRemote else .opened)

theorem asked_streams (c : Connection) (pos : Fin connMaxStreams) (streamId : Nat) (flags : UInt8)
    (path bytes : List UInt8) : (c.asked pos streamId flags path bytes).streams pos
      = { Stream.init streamId c.initialStreamWindow with
          path := path
          state := if hasFlag flags flagEndStream then .halfClosedRemote else .opened } :=
  withStream_streams _ _ _ _ _

theorem asked_streams_ne (c : Connection) {pos i : Fin connMaxStreams} (hi : i ≠ pos)
    (streamId : Nat) (flags : UInt8) (path bytes : List UInt8) :
    (c.asked pos streamId flags path bytes).streams i = c.streams i :=
  withStream_streams_ne hi _ _ _

theorem asked_inv (hc : Inv c) {pos : Fin connMaxStreams} (hfree : c.freeSlot = some pos)
    {streamId : Nat} (hodd : streamId % 2 = 1) (hlast : c.lastStreamId < streamId)
    (hlt : streamId < 2 ^ 31) (flags : UInt8) {path : List UInt8} (hpath : PathText path)
    (bytes : List UInt8) : Inv (c.asked pos streamId flags path bytes) := by
  have hc' : Inv { c with headerBlockOpen := false, headerBlock := bytes } := { hc with }
  have hfree' : freeSlot { c with headerBlockOpen := false, headerBlock := bytes } = some pos := hfree
  exact (withStream_opened hfree' hodd hlast hlt hpath _).inv hc'

/-- What becomes of a request that is not served: its stream is reset, and it has no slot or a closed
one. -/
structure Refused (c : Connection) (streamId : Nat) (c' : Connection) : Prop where
  inv : Inv c'
  slots : (c'.streams = c.streams ∧ c'.lastStreamId = c.lastStreamId)
    ∨ ∃ pos, reusable (c.streams pos) = true ∧ (c'.streams pos).id = streamId
      ∧ (c'.streams pos).state = .closed ∧ (∀ i, i ≠ pos → c'.streams i = c.streams i)
      ∧ c'.lastStreamId = streamId

section

variable {flags : UInt8} {block : List UInt8} {pos : Fin connMaxStreams}

/-- A request without a slot is refused. -/
theorem handleFrame_slotless (hc : Inv c) (hadmits : c.Admits f)
    (hblock : c.blockOf f = some (flags, block)) (hodd : f.streamId % 2 = 1)
    (hlast : c.lastStreamId < f.streamId) (hfree : c.freeSlot = none) :
    ((c.handleFrame f).1 = .ok
        ∧ (c.frameStep f).queued = [rstStreamFrame f.streamId .refusedStream]
        ∧ c.Refused f.streamId (c.handleFrame f).2)
      ∨ (c.handleFrame f).1 = .internalError := by
  have hinv := handleFrame_inv hc f
  have h0 : f.streamId ≠ 0 := by omega
  obtain ⟨bytes, hproc⟩ := processFrame_block hadmits hblock
  have hc' : Inv { c with headerBlockOpen := false, headerBlock := bytes } := { hc with }
  have hfree' : freeSlot { c with headerBlockOpen := false, headerBlock := bytes } = none := hfree
  have heq := finishHeaders_eq hc' hodd hlast flags block
  rw [hfree'] at heq
  have hhandle := handleFrame_reset (hproc.trans heq) rfl h0
  rw [resetStreamError_refused hc' h0 hlast .refusedStream] at hhandle
  by_cases hfit : Fits { c with headerBlockOpen := false, headerBlock := bytes }
      (rstStreamFrame f.streamId .refusedStream)
  · rw [if_pos hfit] at hhandle
    have hqueued : (c.frameStep f).queued = [rstStreamFrame f.streamId .refusedStream] := by
      apply frameStep_queued
      rw [hhandle, wireOf_singleton]
      rfl
    rw [hhandle] at hinv ⊢
    exact .inl ⟨rfl, hqueued, hinv, .inl ⟨rfl, rfl⟩⟩
  · right
    rw [hhandle, if_neg hfit]

/-- A request whose path can be used is served. -/
theorem handleFrame_served (hc : Inv c) (hadmits : c.Admits f)
    (hblock : c.blockOf f = some (flags, block)) (hodd : f.streamId % 2 = 1)
    (hlast : c.lastStreamId < f.streamId) (hfree : c.freeSlot = some pos) {path : List UInt8}
    (hext : extractPath block streamPathCap = (.ok, path)) :
    ((c.handleFrame f).1 = .ok ∧ ∃ bytes fs,
        (c.frameStep f).queued = responseHeaders f.streamId (path.length + 1) :: fs
        ∧ Sends (c.asked pos f.streamId flags path bytes) (c.frameStep f).queued
          (c.handleFrame f).2)
      ∨ (c.handleFrame f).1 = .internalError := by
  obtain ⟨bytes, hproc⟩ := processFrame_block hadmits hblock
  have hc' : Inv { c with headerBlockOpen := false, headerBlock := bytes } := { hc with }
  have hfree' : freeSlot { c with headerBlockOpen := false, headerBlock := bytes } = some pos :=
    hfree
  have heq := finishHeaders_eq hc' hodd hlast flags block
  rw [hfree'] at heq
  simp only [hext, if_true] at heq
  have htext := extractPath_pathText block
  rw [hext] at htext
  have hne := extractPath_ne_nil hext
  have hinv := asked_inv hc hfree hodd hlast f.streamId_lt flags htext bytes
  have hself := asked_streams c pos f.streamId flags path bytes
  have hcan : ((c.asked pos f.streamId flags path bytes).streams pos).CanSend :=
    withStream_canSend _ pos (by omega) _ _
  have hfin : c.processFrame f.header f.payload
      = (c.asked pos f.streamId flags path bytes).queueResponse pos := hproc.trans heq
  -- the only thing that can go wrong is that the output is full
  rcases queueResponse_code hinv hcan (by rw [hself]; rfl) (by rw [hself]; rfl)
    (by rw [hself]; exact hne) with hcode | hcode
  · obtain ⟨fs, hfs⟩ := queueResponse_sends hinv hcan (by rw [hself]; rfl) (by rw [hself]; rfl)
      (by rw [hself]; exact hne) hcode
    have hhandle : c.handleFrame f
        = (c.asked pos f.streamId flags path bytes).queueResponse pos := by
      have hres : c.processFrame f.header f.payload
          = (.ok, ((c.asked pos f.streamId flags path bytes).queueResponse pos).2) :=
        hfin.trans (Prod.ext hcode rfl)
      rw [handleFrame_ok hres]
      exact Prod.ext hcode.symm rfl
    have hhead : (c.asked pos f.streamId flags path bytes).headersFrame pos
        = responseHeaders f.streamId (path.length + 1) := by
      rw [headersFrame, hself]
      rfl
    rw [hhead] at hfs
    have hqueued : (c.frameStep f).queued
        = responseHeaders f.streamId (path.length + 1) :: fs := by
      apply frameStep_queued
      rw [hhandle, hfs.output]
      rfl
    refine .inl ⟨by rw [hhandle]; exact hcode, bytes, fs, hqueued, ?_⟩
    rw [hqueued, hhandle]
    exact hfs
  · right
    rw [handleFrame_goaway (hfin.trans (Prod.ext hcode rfl)) (by decide) (by simp [isStreamError])]

/-- A request whose path cannot be used: a stream error resets the stream, another error is returned. -/
theorem handleFrame_unserved (hc : Inv c) (hadmits : c.Admits f)
    (hblock : c.blockOf f = some (flags, block)) (hodd : f.streamId % 2 = 1)
    (hlast : c.lastStreamId < f.streamId) (hfree : c.freeSlot = some pos) {path : List UInt8}
    {ret : ErrorCode} (hext : extractPath block streamPathCap = (ret, path)) (hret : ret ≠ .ok) :
    (isStreamError ret = true
        ∧ (((c.handleFrame f).1 = .ok ∧ (c.frameStep f).queued = [rstStreamFrame f.streamId ret]
            ∧ c.Refused f.streamId (c.handleFrame f).2)
          ∨ (c.handleFrame f).1 = .internalError))
      ∨ (isStreamError ret = false ∧ (c.handleFrame f).1 = ret) := by
  have hinv := handleFrame_inv hc f
  have h0 : f.streamId ≠ 0 := by omega
  obtain ⟨bytes, hproc⟩ := processFrame_block hadmits hblock
  have hc' : Inv { c with headerBlockOpen := false, headerBlock := bytes } := { hc with }
  have hfree' : freeSlot { c with headerBlockOpen := false, headerBlock := bytes } = some pos :=
    hfree
  have heq := finishHeaders_eq hc' hodd hlast flags block
  rw [hfree'] at heq
  simp only [hext, if_neg hret] at heq
  have htext := extractPath_pathText block
  rw [hext] at htext
  -- a stream error takes the slot, closes the stream and sends RST_STREAM
  by_cases herr : isStreamError ret = true
  · left
    have hhandle := handleFrame_reset (hproc.trans heq) herr h0
    rw [resetStreamError_new hc' hfree' hodd hlast f.streamId_lt htext ret] at hhandle
    by_cases hfit : Fits (withStream { c with headerBlockOpen := false, headerBlock := bytes }
        pos f.streamId path .idle) (rstStreamFrame f.streamId ret)
    · rw [if_pos hfit] at hhandle
      have hqueued : (c.frameStep f).queued = [rstStreamFrame f.streamId ret] := by
        apply frameStep_queued
        rw [hhandle, wireOf_singleton]
        rfl
      rw [hhandle] at hinv ⊢
      refine ⟨herr, .inl ⟨rfl, hqueued, hinv, .inr ⟨pos, freeSlot_eq_some hfree, ?_, ?_, ?_, rfl⟩⟩⟩
      · rw [setStream_streams_self]
        rfl
      · rw [setStream_streams_self]
        rfl
      · intro i hi
        rw [setStream_streams_ne _ hi]
        exact withStream_streams_ne hi _ _ _
    · rw [if_neg hfit] at hhandle
      exact ⟨herr, .inr (congrArg Prod.fst hhandle)⟩
  · right
    rw [handleFrame_goaway (hproc.trans heq) hret (by simp [herr])]
    exact ⟨by simpa using herr, rfl⟩

/-- **A complete header block that is accepted** makes the server reset the stream or serve the path
that has been asked for. -/
theorem handleFrame_block (hc : Inv c) (hblock : c.blockOf f = some (flags, block))
    (hok : (c.handleFrame f).1 = .ok) :
    f.streamId % 2 = 1 ∧ c.lastStreamId < f.streamId
      ∧ ((∃ ret, (c.frameStep f).queued = [rstStreamFrame f.streamId ret]
            ∧ c.Refused f.streamId (c.handleFrame f).2)
        ∨ ∃ pos path bytes fs, c.freeSlot = some pos
            ∧ extractPath block streamPathCap = (.ok, path)
            ∧ (c.frameStep f).queued = responseHeaders f.streamId (path.length + 1) :: fs
            ∧ Sends (c.asked pos f.streamId flags path bytes) (c.frameStep f).queued
              (c.handleFrame f).2) := by
  -- none of the tests before the block is complete has failed
  have hadmits : c.Admits f := by
    by_contra hno
    obtain ⟨ret, hret, heq⟩ := processFrame_rejected hno
    refine absurd hok (handleFrame_fails heq ?_ ?_)
    · rcases hret with rfl | rfl <;> simp
    · rcases hret with rfl | rfl <;> rfl
  have hinternal : (c.handleFrame f).1 ≠ .internalError := by
    rw [hok]
    decide
  have hid : f.streamId % 2 = 1 ∧ c.lastStreamId < f.streamId := by
    by_contra hbad
    obtain ⟨bytes, hproc⟩ := processFrame_block hadmits hblock
    have hreject := @finishHeaders_reject { c with headerBlockOpen := false, headerBlock := bytes }
      f.streamId (by show _ ∨ f.streamId ≤ c.lastStreamId; omega) flags block
    exact absurd hok (handleFrame_fails (hproc.trans hreject) (by simp) rfl)
  obtain ⟨hodd, hlast⟩ := hid
  refine ⟨hodd, hlast, ?_⟩
  -- no slot, an unusable path, or a request that is served
  rcases hfree : c.freeSlot with _ | pos
  · rcases handleFrame_slotless hc hadmits hblock hodd hlast hfree with ⟨-, hrefused⟩ | hfull
    · exact .inl ⟨_, hrefused⟩
    · exact absurd hfull hinternal
  · rcases hext : extractPath block streamPathCap with ⟨ret, path⟩
    by_cases hret : ret = .ok
    · subst hret
      rcases handleFrame_served hc hadmits hblock hodd hlast hfree hext with
        ⟨-, bytes, fs, hserved⟩ | hfull
      · exact .inr ⟨pos, path, bytes, fs, rfl, rfl, hserved⟩
      · exact absurd hfull hinternal
    · rcases handleFrame_unserved hc hadmits hblock hodd hlast hfree hext hret with
        ⟨-, ⟨-, hrefused⟩ | hfull⟩ | ⟨-, hcode⟩
      · exact .inl ⟨ret, hrefused⟩
      · exact absurd hfull hinternal
      · exact absurd (hcode.symm.trans hok) hret

end

/-- **Credit that is accepted** does nothing but release responses. -/
theorem handleFrame_credit (hc : Inv c) (ht : f.type = FrameType.windowUpdate.toByte)
    (hok : (c.handleFrame f).1 = .ok) : Sends c (c.frameStep f).queued (c.handleFrame f).2 := by
  obtain ⟨es, -, -, hcode⟩ := processWindowUpdate_acts hc f.header f.payload
  obtain ⟨-, hret, heq⟩ := handleFrame_of_ok ht hok hcode
  -- the credit itself sends nothing, the flush behind it does
  have hfrom : ∀ (c₁ : Connection) {fs : List Frame}, Sends c [] c₁ →
      Sends c₁ fs (c.handleFrame f).2 → Sends c (c.frameStep f).queued (c.handleFrame f).2 := by
    intro c₁ fs h₁ h₂
    have h := h₁.trans h₂
    rw [frameStep_queued h.output]
    exact h
  rw [handler] at hret heq
  rcases hparse : parseWindowUpdate f.header f.payload with ret | increment
  · rw [processWindowUpdate, hparse] at hret
    rcases parseWindowUpdate_error hparse with rfl | rfl <;> cases hret
  · obtain ⟨-, hlt⟩ := parseWindowUpdate_ok hparse
    rw [processWindowUpdate_eq c hparse] at hret heq
    by_cases hid : f.header.streamId = 0
    · rw [if_pos hid] at hret heq
      by_cases hmax : c.connSendWindow + increment > int32Max
      · rw [if_pos hmax] at hret
        cases hret
      · rw [if_neg hmax] at heq
        have hc₁ := (Act.creditConn c increment (not_lt.mp hmax)).inv hc
        obtain ⟨fs, hfs⟩ := flushDeferredLoop_sends hc₁ (List.finRange connMaxStreams)
        have hsame := Sends.refl c
        apply hfrom { c with connSendWindow := c.connSendWindow + increment }
          ⟨hsame.output, rfl, hsame.id, hsame.moves, hsame.others, hsame.bodies, hsame.paths⟩
        rw [heq]
        exact hfs
    · rw [if_neg hid] at hret heq
      rcases hfind : c.findStream f.header.streamId with _ | pos
      · simp only [hfind] at heq
        exact hfrom c (.refl c) (by rw [heq]; exact .refl c)
      · simp only [hfind] at hret heq
        by_cases hmax : (c.streams pos).sendWindow + increment > int32Max
        · rw [if_pos hmax] at hret
          cases hret
        · rw [if_neg hmax] at heq
          have hid' := findStream_eq_some hfind
          have hc₁ := (Act.creditStream c pos increment (by rw [hid']; exact hid)
            (not_lt.mp hmax)).inv hc
          obtain ⟨fs, hfs⟩ := flushDeferredLoop_sends hc₁ (List.finRange connMaxStreams)
          apply hfrom (c.setStream pos ((c.streams pos).shift increment))
            (.setStream rfl rfl rfl rfl)
          rw [heq]
          exact hfs

end Connection

/-! ## One frame -/

namespace Connection

variable {c c' : Connection} {f : Frame} {streamId : Nat} {phase : Phase}

theorem clientMoves_block {flags : UInt8} {block : List UInt8}
    (hblock : c.blockOf f = some (flags, block)) :
    c.clientMoves f = [.request (hasFlag flags flagEndStream)] := by
  rw [clientMoves, hblock]

theorem clientMoves_data (ht : f.type = FrameType.data.toByte) :
    c.clientMoves f = [.clientData (hasFlag f.flags flagEndStream)] := by
  have hblock : c.blockOf f = none := by
    rw [blockOf, ht, FrameType.ofByte?_toByte]
  rw [clientMoves, hblock]
  exact if_pos ht

theorem clientMoves_reset (ht : f.type = FrameType.rstStream.toByte) :
    c.clientMoves f = [.clientReset] := by
  have hblock : c.blockOf f = none := by
    rw [blockOf, ht, FrameType.ofByte?_toByte]
  have hdata : f.type ≠ FrameType.data.toByte := by
    rw [ht]
    decide
  rw [clientMoves, hblock]
  exact (if_neg hdata).trans (if_pos ht)

theorem clientMoves_other (hblock : c.blockOf f = none) (hdata : f.type ≠ FrameType.data.toByte)
    (hreset : f.type ≠ FrameType.rstStream.toByte) : c.clientMoves f = [] := by
  rw [clientMoves, hblock]
  exact (if_neg hdata).trans (if_neg hreset)

/-- The frame is not on the stream. -/
theorem moves_other (h : f.streamId ≠ streamId) :
    (c.frameStep f).moves streamId = sentOn streamId (c.frameStep f).queued := by
  rw [FrameStep.moves]
  exact congrArg (· ++ _) (if_neg h)

/-- The frame is on the stream. -/
theorem moves_self (h : f.streamId = streamId) :
    (c.frameStep f).moves streamId
      = c.clientMoves f ++ sentOn streamId (c.frameStep f).queued := by
  rw [FrameStep.moves]
  exact congrArg (· ++ _) (if_pos h)

/-- A frame that does not count for its stream. -/
theorem moves_idle (h : c.clientMoves f = []) :
    (c.frameStep f).moves streamId = sentOn streamId (c.frameStep f).queued := by
  by_cases hid : f.streamId = streamId
  · rw [moves_self hid, h, List.nil_append]
  · exact moves_other hid

/-- Refilling the window of the connection moves no stream. -/
theorem sentOn_refillFrames_conn (h0 : streamId ≠ 0) (w : Int) :
    sentOn streamId (refillFrames 0 w) = [] := by
  rw [refillFrames]
  split_ifs
  · exact sentOn_other fun h => h0 (h.symm.trans (Frame.of_streamId (by omega) _ _ _))
  · rfl

/-- Refilling the window of a stream does not change its phase. -/
theorem run_refillFrames (hlt : streamId < 2 ^ 31) (w : Int)
    (hphase : phase = .opened ∨ phase = .halfClosedRemote ∨ phase = .halfClosedLocal) :
    phase.run (sentOn streamId (refillFrames streamId w)) = some phase := by
  rw [refillFrames]
  split_ifs
  · rw [sentOn_windowUpdateFrame hlt]
    rcases hphase with rfl | rfl | rfl <;> rfl
  · rfl

theorem sentOn_refillFrames_other {other : Nat} (hlt : other < 2 ^ 31) (hne : other ≠ streamId)
    (w : Int) : sentOn streamId (refillFrames other w) = [] := by
  rw [refillFrames]
  split_ifs
  · exact sentOn_other fun h => hne ((Frame.of_streamId hlt _ _ _).symm.trans h)
  · rfl

/-- A complete header block. -/
theorem inPhase_block (hc : Inv c) (h : c.InPhase streamId phase) (h0 : streamId ≠ 0) {flags : UInt8}
    {block : List UInt8} (hblock : c.blockOf f = some (flags, block))
    (hok : (c.handleFrame f).1 = .ok) :
    ∃ phase', phase.run ((c.frameStep f).moves streamId) = some phase'
      ∧ (c.handleFrame f).2.InPhase streamId phase' := by
  obtain ⟨hodd, hlast, ⟨ret, hqueued, hinv, hslots⟩ | ⟨pos, path, bytes, fs, hfree, hext, hqueued,
    hsends⟩⟩ := handleFrame_block hc hblock hok
  · -- the request is refused
    have hlt := f.streamId_lt
    by_cases hid : f.streamId = streamId
    · -- this stream: a request, and at once its reset
      rw [moves_self hid, clientMoves_block hblock, hqueued, hid, sentOn_rstStreamFrame (hid ▸ hlt)]
      have hrequest := (h.fresh (by omega)).request (hasFlag flags flagEndStream)
      refine ⟨.refused, ?_, ?_⟩
      · show (phase.next _).bind _ = _
        rw [hrequest]
        rfl
      · rcases hslots with ⟨hstreams, hlast'⟩ | ⟨pos, -, hpid, hst, -, -⟩
        · constructor
          · intro i hi
            have hle := hc.id_le i
            rw [hstreams] at hi
            omega
          · exact fun _ => Or.inr (Or.inr rfl)
          · exact fun _ => Or.inr rfl
        · exact .closes hinv h0 (Or.inr rfl) (hpid.trans hid) hst
    · -- another stream, which at most loses a slot it no longer needs
      rw [moves_other hid, hqueued, sentOn_rstStreamFrame_ne hlt hid]
      refine ⟨phase, rfl, ?_⟩
      rcases hslots with ⟨hstreams, hlast'⟩ | ⟨pos, hreuse, hpid, -, hother, hlast'⟩
      · exact h.congr hlast' fun i => by rw [hstreams]; exact ⟨rfl, rfl, rfl⟩
      · apply h.other (by rwa [hpid]) hother (by omega)
        intro hevicted
        rcases reusable_iff.mp hreuse with hzero | hst
        · exact absurd (hevicted.symm.trans hzero) h0
        · exact hst
  · -- the request is served
    have htext := extractPath_pathText block
    rw [hext] at htext
    have hasked := asked_inv hc hfree hodd hlast f.streamId_lt flags htext bytes
    have hself := asked_streams c pos f.streamId flags path bytes
    by_cases hid : f.streamId = streamId
    · rw [moves_self hid, clientMoves_block hblock]
      have hrequest := (h.fresh (by omega)).request (hasFlag flags flagEndStream)
      -- the slot is taken for the request, and then the response is sent
      have hphase : (c.asked pos f.streamId flags path bytes).InPhase streamId
          (.requested (hasFlag flags flagEndStream)) := by
        constructor
        · intro i hi
          by_cases hpos : i = pos
          · rw [hpos, hself]
            exact ⟨rfl, rfl⟩
          · have hle := hc.id_le i
            rw [asked_streams_ne c hpos] at hi
            omega
        · intro hno
          refine absurd ?_ (hno pos)
          rw [hself]
          exact hid
        · intro hlt
          exact absurd (show f.streamId < streamId from hlt) (by omega)
      obtain ⟨phase', hrun, hphase'⟩ := hphase.sends hasked h0 hsends
      refine ⟨phase', ?_, hphase'⟩
      show (phase.next _).bind _ = _
      rw [hrequest]
      exact hrun
    · have hphase : (c.asked pos f.streamId flags path bytes).InPhase streamId phase := by
        apply h.other
        · rw [hself]
          exact hid
        · exact fun i hi => asked_streams_ne c hi _ _ _ _
        · exact hlast.le
        · intro hevicted
          rcases reusable_iff.mp (freeSlot_eq_some hfree) with hzero | hst
          · exact absurd (hevicted.symm.trans hzero) h0
          · exact hst
      rw [moves_other hid]
      exact hphase.sends hasked h0 hsends

/-- The phase of a stream that takes data. -/
theorem shows_receiving {s : Stream} (h : s.Shows phase)
    (hst : s.state = .opened ∨ s.state = .halfClosedLocal)
    (hrest : ∀ endStream, phase ≠ .requested endStream) :
    s.state = .opened ∧ s.responseHeadersSent = true ∧ phase = .opened
      ∨ s.state = .halfClosedLocal ∧ phase = .halfClosedLocal := by
  cases phase with
  | requested endStream => exact absurd rfl (hrest endStream)
  | opened => exact Or.inl ⟨h.1, h.2, rfl⟩
  | halfClosedLocal => exact Or.inr ⟨h, rfl⟩
  | halfClosedRemote => rcases hst with hst | hst <;> exact absurd (hst.symm.trans h.1) (by decide)
  | closed => rcases hst with hst | hst <;> exact absurd (hst.symm.trans h) (by decide)
  | refused => rcases hst with hst | hst <;> exact absurd (hst.symm.trans h) (by decide)
  | idle => exact h.elim
  | violated => exact h.elim

/-- A stream that takes no data is reset for it. -/
theorem shows_late {s : Stream} (h : s.Shows phase)
    (hst : s.state ≠ .opened ∧ s.state ≠ .halfClosedLocal)
    (hrest : ∀ endStream, phase ≠ .requested endStream) (endStream : Bool) :
    phase.run [.clientData endStream, .serverReset] = some .closed := by
  cases phase with
  | requested endStream => exact absurd rfl (hrest endStream)
  | opened => exact absurd h.1 hst.1
  | halfClosedLocal => exact absurd h hst.2
  | halfClosedRemote => rfl
  | closed => rfl
  | refused => rfl
  | idle => exact h.elim
  | violated => exact h.elim

/-- The phase of a stream whose slot takes a DATA frame. -/
theorem received_shows {s : Stream} (h : s.Shows phase)
    (hst : s.state = .opened ∨ s.state = .halfClosedLocal)
    (hrest : ∀ endStream, phase ≠ .requested endStream) (len : Nat) {endStream : Bool}
    (hopen : ¬ (endStream = true ∧ s.state = .halfClosedLocal)) :
    ∃ phase', phase.next (.clientData endStream) = some phase'
      ∧ (phase' = .opened ∨ phase' = .halfClosedRemote ∨ phase' = .halfClosedLocal)
      ∧ ∀ w, ({ received s len endStream with recvWindow := w } : Stream).Shows phase' := by
  rcases shows_receiving h hst hrest with ⟨hst', hhead, rfl⟩ | ⟨hst', rfl⟩
  · cases endStream with
    | false => exact ⟨.opened, rfl, Or.inl rfl, fun _ => ⟨hst', hhead⟩⟩
    | true =>
        have hnot : ¬ s.state = .halfClosedLocal := by
          rw [hst']
          decide
        refine ⟨.halfClosedRemote, rfl, Or.inr (Or.inl rfl), fun w => ?_⟩
        simp only [received, if_true, if_neg hnot]
        exact ⟨rfl, hhead⟩
  · cases endStream with
    | false => exact ⟨.halfClosedLocal, rfl, Or.inr (Or.inr rfl), fun _ => hst'⟩
    | true => exact absurd ⟨rfl, hst'⟩ hopen

/-- A frame that is acknowledged does not count for a stream. -/
theorem clientMoves_ack {g : Frame} (hack : f.ack = some g) : c.clientMoves f = [] := by
  have htype : ∀ t, t ≠ .ping → t ≠ .settings → f.type ≠ FrameType.toByte t := by
    intro t hping hsettings ht
    have hnone : f.ack = none := by
      apply Frame.ack_eq_none
      intro t' ht'
      rw [ht, FrameType.toByte_inj] at ht'
      rw [← ht']
      exact ⟨hping, hsettings⟩
    rw [hack] at hnone
    cases hnone
  exact clientMoves_other (blockOf_ack hack) (htype _ (by decide) (by decide))
    (htype _ (by decide) (by decide))

/-- The client has reset the stream. -/
theorem inPhase_dead (h : c.InPhase streamId phase) (h0 : streamId ≠ 0)
    (hs : ∀ i, Settled (c.streams i)) (hdead : Dead streamId c') :
    phase.run [.clientReset] = some .closed ∧ c'.InPhase streamId .closed := by
  obtain ⟨hrequested, hviolated⟩ := h.at_rest h0 hs
  constructor
  · cases phase with
    | requested endStream => exact absurd rfl (hrequested endStream)
    | violated => exact absurd rfl hviolated
    | _ => rfl
  · constructor
    · exact fun i hi => hdead.closed i hi
    · exact fun _ => Or.inr (Or.inl rfl)
    · intro hlt
      have hopened := hdead.opened
      omega

/-- A frame that is accepted and is neither credit nor the end of a header block. -/
theorem inPhase_accepts (h : c.InPhase streamId phase) (h0 : streamId ≠ 0)
    (hs : ∀ i, Settled (c.streams i)) {fs : List Frame} (hacc : Accepts c f fs c') (hinv : Inv c')
    (hblock : c.blockOf f = none) (hcredit : f.type ≠ FrameType.windowUpdate.toByte)
    (hdead : f.type = FrameType.rstStream.toByte → Dead f.streamId c') :
    ∃ phase', phase.run ((if f.streamId = streamId then c.clientMoves f else [])
        ++ sentOn streamId fs) = some phase' ∧ c'.InPhase streamId phase' := by
  have hlt := f.streamId_lt
  obtain ⟨hrest, -⟩ := h.at_rest h0 hs
  have hnone : ¬ c.Completes f := by
    intro hcomp
    have hsome := hcomp.2
    rw [hblock] at hsome
    cases hsome
  -- a frame that does not count, with the phase it leaves the stream in
  have hidle : ∀ {c' : Connection} {fs : List Frame}, c.clientMoves f = [] →
      sentOn streamId fs = [] → c'.InPhase streamId phase →
      ∃ phase', phase.run ((if f.streamId = streamId then c.clientMoves f else [])
        ++ sentOn streamId fs) = some phase' ∧ c'.InPhase streamId phase' := by
    intro c' fs hmoves hsent hphase
    refine ⟨phase, ?_, hphase⟩
    rw [hmoves, hsent, ite_self]
    rfl
  cases hacc with
  -- RST_STREAM on an id without a slot ends what is left of the stream
  | ignore hack ht hblock' =>
      by_cases hreset : f.type = FrameType.rstStream.toByte
      · by_cases hid : f.streamId = streamId
        · obtain ⟨hrun, hphase⟩ := inPhase_dead h h0 hs (hid ▸ hdead hreset)
          rw [if_pos hid, clientMoves_reset hreset]
          exact ⟨.closed, hrun, hphase⟩
        · rw [if_neg hid]
          exact ⟨phase, rfl, h⟩
      · exact hidle (clientMoves_other hblock ht hreset) rfl h
  | reset pos ht hfind =>
      have hpos := findStream_eq_some hfind
      by_cases hid : f.streamId = streamId
      · obtain ⟨hrun, hphase⟩ := inPhase_dead h h0 hs (hid ▸ hdead ht)
        rw [if_pos hid, clientMoves_reset ht]
        exact ⟨.closed, hrun, hphase⟩
      · rw [if_neg hid]
        refine ⟨phase, rfl, h.other ?_ (fun i hi => setStream_streams_ne c hi _) le_rfl ?_⟩
        · rw [setStream_streams_self]
          exact fun heq => hid (hpos.symm.trans heq)
        · exact fun heq => absurd (hpos.symm.trans heq) hid
  | ping hack =>
      apply hidle (clientMoves_ack hack)
      · exact sentOn_other fun heq => h0 (heq.symm.trans (Frame.of_streamId (by omega) _ _ _))
      · exact h.congr rfl fun _ => ⟨rfl, rfl, rfl⟩
  | settings settings hparse hack hall =>
      apply hidle (clientMoves_ack hack)
      · exact sentOn_other fun heq => h0 (heq.symm.trans (Frame.of_streamId (by omega) _ _ _))
      · rw [foldl_applied]
        refine h.congr rfl fun i => ?_
        obtain ⟨hid, hst, -⟩ := resizeWindows_slot c
          (lastValue settingsInitialWindowSize settings c.initialStreamWindow) i
        refine ⟨hid, hst, ?_⟩
        simp only [push, resizeWindows]
        split_ifs
        · rfl
        · rfl
  | beginBlock bytes ht hblock' =>
      have hmoves : c.clientMoves f = [] := by
        apply clientMoves_other hblock
        · rw [ht]
          decide
        · rw [ht]
          decide
      exact hidle hmoves rfl (h.congr rfl fun _ => ⟨rfl, rfl, rfl⟩)
  | extendBlock bytes ht hblock' =>
      have hmoves : c.clientMoves f = [] := by
        apply clientMoves_other hblock
        · rw [ht]
          decide
        · rw [ht]
          decide
      exact hidle hmoves rfl (h.congr rfl fun _ => ⟨rfl, rfl, rfl⟩)
  | data pos ht hfind hst hconn hstream hopen =>
      have hpos := findStream_eq_some hfind
      have hself := refilled_streams_self c pos f.payload.length
        (received (c.streams pos) f.payload.length (hasFlag f.flags flagEndStream))
      have hother := fun i hi => @refilled_streams_ne pos c i hi f.payload.length
        (received (c.streams pos) f.payload.length (hasFlag f.flags flagEndStream))
      obtain ⟨hrid, -⟩ := @SlotLedger.received_state (c.streams pos) f.payload.length _ hopen
      rw [sentOn_append, sentOn_refillFrames_conn h0, List.nil_append]
      by_cases hid : f.streamId = streamId
      · obtain ⟨phase', hnext, hopened, hshows⟩ := received_shows (h.slot pos (hpos.trans hid)) hst
          hrest f.payload.length hopen
        rw [if_pos hid, clientMoves_data ht]
        refine ⟨phase', ?_, ?_⟩
        · show (phase.next _).bind _ = _
          rw [hnext, hid]
          exact run_refillFrames (hid ▸ hlt) _ hopened
        · constructor
          · intro i hi
            have hi' : i = pos := by
              apply hinv.id_inj i pos (by rwa [hi])
              rw [hi, hself]
              exact (hrid.trans (hpos.trans hid)).symm
            rw [hi', hself]
            exact hshows _
          · intro hno
            refine absurd ?_ (hno pos)
            rw [hself]
            exact hrid.trans (hpos.trans hid)
          · intro hfresh
            have hle := hinv.id_le pos
            rw [hself] at hle
            simp only [hrid, hpos, hid] at hle
            omega
      · rw [if_neg hid, sentOn_refillFrames_other hlt hid]
        refine ⟨phase, rfl, h.other ?_ hother le_rfl ?_⟩
        · rw [hself]
          exact fun heq => hid (hpos.symm.trans (hrid.symm.trans heq))
        · exact fun heq => absurd (hpos.symm.trans heq) hid
  | lastData pos ht hfind hend hst hconn hstream =>
      have hpos := findStream_eq_some hfind
      rw [sentOn_refillFrames_conn h0, List.append_nil]
      -- DATA on this stream moves it on, and its refills are the server's credit
      by_cases hid : f.streamId = streamId
      · rw [if_pos hid, clientMoves_data ht, hend]
        rcases shows_receiving (h.slot pos (hpos.trans hid)) (Or.inr hst) hrest with
          ⟨hst', -⟩ | ⟨-, rfl⟩
        · rw [hst] at hst'
          cases hst'
        · refine ⟨.closed, rfl, .closes hinv h0 (Or.inl rfl) (?_ : (Connection.streams _ pos).id = _) ?_⟩
          · show ((setStream _ pos _).streams pos).id = _
            rw [setStream_streams_self]
            exact hpos.trans hid
          · show ((setStream _ pos _).streams pos).state = _
            rw [setStream_streams_self]
            rfl
      · rw [if_neg hid]
        refine ⟨phase, rfl, h.other ?_ (fun i hi => setStream_streams_ne _ hi _) le_rfl ?_⟩
        · show ((setStream _ pos _).streams pos).id ≠ _
          rw [setStream_streams_self]
          exact fun heq => hid (hpos.symm.trans heq)
        · exact fun heq => absurd (hpos.symm.trans heq) hid
  | lateData pos ht hfind hst hconn =>
      have hpos := findStream_eq_some hfind
      rw [sentOn_append, sentOn_refillFrames_conn h0, List.nil_append]
      by_cases hid : f.streamId = streamId
      · have hlate := shows_late (h.slot pos (hpos.trans hid)) hst hrest
          (hasFlag f.flags flagEndStream)
        have hsent : sentOn streamId [rstStreamFrame f.streamId .streamClosed] = [.serverReset] := by
          rw [hid]
          exact sentOn_rstStreamFrame (hid ▸ hlt) _
        rw [if_pos hid, clientMoves_data ht, hsent]
        refine ⟨.closed, hlate, .closes hinv h0 (Or.inl rfl) (?_ : (Connection.streams _ pos).id = _) ?_⟩
        · rw [setStream_streams_self]
          exact hpos.trans hid
        · rw [setStream_streams_self]
          rfl
      · rw [if_neg hid, sentOn_rstStreamFrame_ne hlt hid]
        refine ⟨phase, rfl, h.other ?_ (fun i hi => setStream_streams_ne _ hi _) le_rfl ?_⟩
        · rw [setStream_streams_self]
          exact fun heq => hid (hpos.symm.trans heq)
        · exact fun heq => absurd (hpos.symm.trans heq) hid
  | request pos flags block bytes path fs c' hadmits hblock' hodd hlast hfree hpath hne hres hans =>
      rw [hblock] at hblock'
      cases hblock'
  | refuse bytes hcomp hodd hlast hfull => exact absurd hcomp hnone
  | badPath pos bytes path ret hcomp hodd hlast hfree hpath hret => exact absurd hcomp hnone
  | creditConn increment fs c' ht hmax hans => exact absurd ht hcredit
  | creditStream pos increment fs c' ht hfind h0 hmax hans => exact absurd ht hcredit

/-- **One frame**: whatever comes, every stream moves from one phase to the next. -/
theorem inPhase_step (hc : Inv c) (h : c.InPhase streamId phase) (h0 : streamId ≠ 0)
    (hs : ∀ i, Settled (c.streams i)) (hok : (c.handleFrame f).1 = .ok) :
    ∃ phase', phase.run ((c.frameStep f).moves streamId) = some phase'
      ∧ (c.handleFrame f).2.InPhase streamId phase' := by
  rcases hblock : c.blockOf f with _ | ⟨flags, block⟩
  · by_cases hcredit : f.type = FrameType.windowUpdate.toByte
    · have hidle : c.clientMoves f = [] := by
        apply clientMoves_other hblock
        · rw [hcredit]
          decide
        · rw [hcredit]
          decide
      rw [moves_idle hidle]
      exact h.sends hc h0 (handleFrame_credit hc hcredit hok)
    · exact inPhase_accepts h h0 hs (handleFrame_accepts hc hok) (handleFrame_inv hc f) hblock hcredit
        fun ht => rstStream_dead hc ht hok
  · exact inPhase_block hc h h0 hblock hok

end Connection

/-! ## All runs -/

/-- Every stream is in the phase that its moves have led to. -/
def InPhases (steps : List FrameStep) (c : Connection) : Prop :=
  ∀ streamId, streamId ≠ 0 →
    ∃ phase, Phase.idle.run (movesOn streamId steps) = some phase ∧ c.InPhase streamId phase

theorem InPhases.init : InPhases [] Connection.init := by
  intro streamId h0
  refine ⟨.idle, rfl, ?_⟩
  constructor
  · intro i hi
    exact absurd hi.symm h0
  · exact fun _ => Or.inl rfl
  · exact fun _ => Or.inl rfl

theorem exec_inPhases {ops : List Op} (hok : (exec ops).AllOk) :
    InPhases (exec ops).steps (exec ops).conn ∧ ∀ i, Settled ((exec ops).conn.streams i) := by
  refine (exec_accepted (R := fun steps c => InPhases steps c ∧ ∀ i, Settled (c.streams i))
    ?_ ?_ ?_ ops).1 (exec_steps_ok hok)
  · rintro steps hist c ⟨h, hs⟩ _ _ _ _ _ _
    refine ⟨fun streamId h0 => ?_, hs⟩
    obtain ⟨phase, hrun, hphase⟩ := h streamId h0
    exact ⟨phase, hrun, hphase.congr rfl fun _ => ⟨rfl, rfl, rfl⟩⟩
  · exact ⟨.init, fun i hid => absurd rfl hid⟩
  · rintro steps c f hc ⟨h, hs⟩ hframe
    refine ⟨fun streamId h0 => ?_, handleFrame_settled hc hs hframe⟩
    obtain ⟨phase, hrun, hphase⟩ := h streamId h0
    obtain ⟨phase', hrun', hphase'⟩ := inPhase_step hc hphase h0 hs hframe
    refine ⟨phase', ?_, hphase'⟩
    rw [movesOn_append, Phase.run_append_of hrun, movesOn_singleton, hrun']

/-- The client makes the moves of its frames. -/
theorem Connection.clientMoves_ofServer (c : Connection) (f : Frame) :
    (c.clientMoves f).filter StreamMove.ofServer = [] := by
  rw [clientMoves]
  rcases c.blockOf f with _ | ⟨flags, block⟩
  · simp only
    split_ifs <;> rfl
  · rfl

/-- **The moves of the server are its output**: what it sends on a stream, frame by frame. -/
theorem movesOn_ofServer (ops : List Op) (streamId : Nat) :
    (movesOn streamId (exec ops).steps).filter StreamMove.ofServer
      = sentOn streamId (exec ops).frames := by
  obtain ⟨opening, hframes, hopening⟩ := exec_frames_steps ops
  have hstep : ∀ st : FrameStep, (st.moves streamId).filter StreamMove.ofServer
      = sentOn streamId st.queued := by
    intro st
    have hclient : (if st.frame.streamId = streamId then st.before.clientMoves st.frame
        else []).filter StreamMove.ofServer = [] := by
      split_ifs
      · exact clientMoves_ofServer _ _
      · rfl
    rw [FrameStep.moves, List.filter_append, hclient, List.nil_append]
    exact List.filter_eq_self.mpr (sentOn_ofServer streamId st.queued)
  have hnone : sentOn streamId opening = [] := by
    apply sentOn_eq_nil
    intro f hf
    rcases hopening f hf with ht | ht
    · rw [Frame.sentMove, ht, FrameType.ofByte?_toByte]
    · rw [Frame.sentMove, ht, FrameType.ofByte?_toByte]
  calc (movesOn streamId (exec ops).steps).filter StreamMove.ofServer
      = (exec ops).steps.flatMap fun st => (st.moves streamId).filter StreamMove.ofServer :=
        List.filter_flatMap ..
    _ = (exec ops).steps.flatMap fun st => sentOn streamId st.queued := by simp only [hstep]
    _ = sentOn streamId ((exec ops).steps.flatMap FrameStep.queued) :=
        (sentOn_flatMap streamId _ _).symm
    _ = sentOn streamId (exec ops).frames := by
        rw [hframes, sentOn_append, hnone, List.nil_append]

/-- **The life of a stream**, in every run without errors: the frames that client and server exchange
on a stream, whatever comes between them on other streams, lead from the idle state from one phase to
the next; among them are all the frames that the server has sent on it. The slot of the stream shows
the phase, a stream without a slot is over or has not begun, and neither a response nor a reset is
left due. -/
theorem stream_lifecycle {ops : List Op} (hok : (exec ops).AllOk) {streamId : Nat}
    (h0 : streamId ≠ 0) :
    (movesOn streamId (exec ops).steps).filter StreamMove.ofServer = sentOn streamId (exec ops).frames
      ∧ ∃ phase, Phase.idle.run (movesOn streamId (exec ops).steps) = some phase
        ∧ (∀ i, ((exec ops).conn.streams i).id = streamId →
          ((exec ops).conn.streams i).Shows phase)
        ∧ ((∀ i, ((exec ops).conn.streams i).id ≠ streamId) → phase.Over)
        ∧ (∀ endStream, phase ≠ .requested endStream) ∧ phase ≠ .violated := by
  obtain ⟨hphases, hsettled⟩ := exec_inPhases hok
  obtain ⟨phase, hrun, hphase⟩ := hphases streamId h0
  exact ⟨movesOn_ofServer ops streamId, phase, hrun, hphase.slot, hphase.slotless,
    hphase.at_rest h0 hsettled⟩

set_option maxRecDepth 20000 in
/-- A client that gives no credit has its stream half closed, with the headers of the response. -/
theorem stream_lifecycle_blocked : ∃ phase,
    Phase.idle.run [.request true, .headers] = some phase ∧ phase ≠ .violated := by
  have hmoves : movesOn 1 (exec blockedRequest).steps = [.request true, .headers] := by
    decide +kernel
  obtain ⟨-, phase, hrun, -, -, -, hphase⟩ := @stream_lifecycle blockedRequest (by decide +kernel) 1
    (by decide)
  rw [hmoves] at hrun
  exact ⟨phase, hrun, hphase⟩

end C11Omo.Http2
