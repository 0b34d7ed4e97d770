import C11Omo.Http2.Replies

set_option autoImplicit false

/-! # The output on the wire

In every run, also after errors, the bytes queued so far are complete, well-formed frames, in the
order in which they were queued, whatever part of them has been consumed (`output_well_framed`). As
long as no error has occurred, the acknowledgements among them answer the PING and SETTINGS frames
of the client one for one and in order (`control_frames_acknowledged`).
-/

namespace C11Omo.Http2

open C11Omo.Lib Connection

/-! ## The frames of one step -/

/-- The frame that ends the handling of a frame with an error: the reset of its stream or a
GOAWAY. -/
def Frame.Verdict (f g : Frame) : Prop :=
  (f.streamId ≠ 0 ∧ ∃ ret, g = rstStreamFrame f.streamId ret)
    ∨ ∃ lastStreamId ret, g = goawayFrame lastStreamId ret

/-- **What a handled frame makes the server queue**: replies, its acknowledgement, and a verdict if
it is an error. -/
theorem frameStep_queued {c : Connection} (hc : Inv c) (f : Frame) : ∃ fs acks tail,
    (c.frameStep f).queued = fs ++ acks ++ tail ∧ (∀ g ∈ fs, g.Reply)
      ∧ (acks = [] ∨ acks = f.ack.toList ∧ validatePayload f.header = .ok)
      ∧ (∀ g ∈ tail, f.Verdict g)
      ∧ ((c.handleFrame f).1 = .ok → acks = f.ack.toList) := by
  obtain ⟨es, hes, -⟩ := processFrame_acts hc f
  obtain ⟨fs, acks, hout, hfs, hacks, hok⟩ := processFrame_frames hc f
  rcases hres : c.processFrame f.header f.payload with ⟨ret, c₁⟩
  rw [hres] at hes hout hok
  have hqueued : ∀ tail, (c.handleFrame f).2.output = c₁.output ++ wireOf tail →
      (c.frameStep f).queued = fs ++ acks ++ tail := by
    intro tail htail
    rw [FrameStep.queued, frameStep]
    refine framesOf_drop ?_
    rw [htail, hout, wireOf_append (fs ++ acks), List.append_assoc]
  -- behind what the handler has queued: nothing, RST_STREAM, or GOAWAY
  by_cases hret : ret = .ok
  · subst hret
    refine ⟨fs, acks, [], hqueued [] ?_, hfs, hacks, by simp, fun _ => hok (Or.inl rfl)⟩
    rw [handleFrame_ok hres, wireOf_nil, List.append_nil]
  · by_cases hreset : isStreamError ret = true ∧ f.streamId ≠ 0
    · have heq := handleFrame_reset hres hreset.1 hreset.2
      have hspec := resetStreamError_eq (hes.inv hc) hreset.2 ret
      by_cases hfit : c₁.Fits (rstStreamFrame f.streamId ret)
      · rw [if_pos hfit] at hspec
        refine ⟨fs, acks, [rstStreamFrame f.streamId ret], hqueued _ ?_, hfs, hacks, ?_,
          fun _ => hok (Or.inr hreset.1)⟩
        · rw [heq, hspec, wireOf_singleton]
          rcases c₁.findStream f.streamId with _ | pos <;> rfl
        · intro g hg
          exact Or.inl ⟨hreset.2, ret, List.mem_singleton.mp hg⟩
      · rw [if_neg hfit] at hspec
        refine ⟨fs, acks, [], hqueued [] ?_, hfs, hacks, by simp, fun _ => hok (Or.inr hreset.1)⟩
        rw [heq, hspec, wireOf_nil, List.append_nil]
    · obtain ⟨tail, htail, gs, ge, hgo⟩ := queueGoaway_cases (hes.inv hc) ret
      have heq := handleFrame_goaway hres hret hreset
      refine ⟨fs, acks, tail, hqueued tail ?_, hfs, hacks, ?_, fun h => ?_⟩
      · rw [heq, hgo]
      · intro g hg
        rcases htail with rfl | rfl
        · cases hg
        · exact Or.inr ⟨_, _, List.mem_singleton.mp hg⟩
      · rw [heq] at h
        exact absurd h hret

/-! ## Acknowledgements -/

/-- A PING or SETTINGS frame with the ACK flag. -/
def Frame.IsAck (f : Frame) : Prop :=
  (f.type = FrameType.ping.toByte ∨ f.type = FrameType.settings.toByte)
    ∧ hasFlag f.flags flagAck = true

instance (f : Frame) : Decidable f.IsAck := inferInstanceAs (Decidable (_ ∧ _))

theorem Frame.not_isAck {f : Frame} {t : FrameType} (ht : f.type = t.toByte)
    (hne : t ≠ .ping ∧ t ≠ .settings) : ¬ f.IsAck := by
  rintro ⟨h | h, -⟩
  · rw [ht] at h
    have := congrArg FrameType.ofByte? h
    simp only [FrameType.ofByte?_toByte, Option.some.injEq] at this
    exact hne.1 this
  · rw [ht] at h
    have := congrArg FrameType.ofByte? h
    simp only [FrameType.ofByte?_toByte, Option.some.injEq] at this
    exact hne.2 this

theorem Frame.Reply.not_isAck {f : Frame} (h : f.Reply) : ¬ f.IsAck := by
  rcases h with ⟨streamId, -, -, ⟨n, -, rfl⟩ | ⟨body, -, rfl⟩⟩ | ⟨streamId, increment, -, -, rfl⟩
  · exact Frame.not_isAck (t := .headers) rfl (by decide)
  · exact Frame.not_isAck (t := .data) rfl (by decide)
  · exact Frame.not_isAck (t := .windowUpdate) rfl (by decide)

theorem Frame.Verdict.not_isAck {f g : Frame} (h : f.Verdict g) : ¬ g.IsAck := by
  rcases h with ⟨-, ret, rfl⟩ | ⟨lastStreamId, ret, rfl⟩
  · exact Frame.not_isAck (t := .rstStream) rfl (by decide)
  · exact Frame.not_isAck (t := .goaway) rfl (by decide)

theorem Frame.isAck_ack {f g : Frame} (h : f.ack = some g) : g.IsAck := by
  unfold Frame.ack at h
  split_ifs at h
  split at h <;> cases h
  · exact ⟨Or.inl rfl, (by decide : hasFlag flagAck flagAck = true)⟩
  · exact ⟨Or.inr rfl, (by decide : hasFlag flagAck flagAck = true)⟩

/-- An accepted frame is acknowledged once, if at all. -/
theorem frameStep_acks {c : Connection} (hc : Inv c) {f : Frame} (hok : (c.handleFrame f).1 = .ok) :
    (c.frameStep f).queued.filter Frame.IsAck = f.ack.toList := by
  obtain ⟨fs, acks, tail, hqueued, hfs, -, htail, hacks⟩ := frameStep_queued hc f
  have hnone : ∀ gs : List Frame, (∀ g ∈ gs, ¬ g.IsAck) → gs.filter Frame.IsAck = [] := by
    intro gs hgs
    refine List.filter_eq_nil_iff.mpr fun g hg => ?_
    simpa using hgs g hg
  have hall : acks.filter Frame.IsAck = acks := by
    refine List.filter_eq_self.mpr fun g hg => ?_
    rw [hacks hok, Option.mem_toList] at hg
    simpa using Frame.isAck_ack hg
  rw [hqueued, List.filter_append, List.filter_append, hnone fs fun g hg => (hfs g hg).not_isAck,
    hnone tail fun g hg => (htail g hg).not_isAck, List.nil_append, List.append_nil, hall, hacks hok]

/-- **Control frames are acknowledged one for one and in order**: the acknowledgements in the
output are those of the PING and SETTINGS frames that were handled, and these are the frames that
have been received behind the preface. -/
theorem control_frames_acknowledged {ops : List Op} (hok : (exec ops).AllOk) :
    (exec ops).frames.filter Frame.IsAck
        = (exec ops).steps.filterMap (fun st => st.frame.ack)
      ∧ (exec ops).steps.map FrameStep.frame
        = framesOf ((exec ops).received.drop clientPrefaceLen) := by
  refine ⟨?_, exec_received hok⟩
  have hstep : ∀ st ∈ (exec ops).steps,
      st.code = .ok → st.queued.filter Frame.IsAck = st.frame.ack.toList :=
    exec_steps (fun hc hcode => frameStep_acks hc hcode) ops
  have hcode : ∀ st ∈ (exec ops).steps, st.code = .ok := by
    intro st hst
    by_contra hne
    exact hne (hok _ (exec_codes ops st hst hne))
  have hgreet : (greeting (exec ops).conn).filter Frame.IsAck = [] := by
    unfold greeting
    split_ifs
    · decide
    · rfl
  rw [exec_frames hok, List.filter_append, hgreet, List.nil_append]
  have hall := fun st hst => hstep st hst (hcode st hst)
  generalize (exec ops).steps = steps at hall
  -- step by step along the run
  induction steps with
  | nil => rfl
  | cons st steps ih =>
      rw [List.flatMap_cons, List.filter_append, hall st (by simp),
        ih fun st' hst' => hall st' (List.mem_cons_of_mem _ hst')]
      rcases hack : st.frame.ack with _ | g <;> simp [hack]

/-- A client that sets its window and sends a PING. -/
def settingsAndPing : List Op :=
  [.feed (clientInput [settingsFrame settingsInitialWindowSize 10,
    Frame.of FrameType.ping.toByte 0 0 [1, 2, 3, 4, 5, 6, 7, 8]])]

set_option maxRecDepth 20000 in
theorem control_frames_acknowledged_ping : (exec settingsAndPing).frames.filter Frame.IsAck
    = [settingsAckFrame, pingAckFrame [1, 2, 3, 4, 5, 6, 7, 8]] := by
  have hacks := (@control_frames_acknowledged settingsAndPing (by decide +kernel)).1
  rw [hacks]
  decide +kernel

/-! ## Well-formed frames -/

/-- A frame that `h2_frame_validate_payload` accepts, of the size every peer accepts, and with a
complete header block if it has one. -/
def Frame.WellFormed (f : Frame) : Prop :=
  validatePayload f.header = .ok ∧ f.payload.length ≤ defaultMaxFrameSize
    ∧ (f.type = FrameType.headers.toByte → hasFlag f.flags flagEndHeaders = true)

theorem Frame.Answer.wellFormed {f : Frame} (h : f.Answer) : f.WellFormed := by
  obtain ⟨streamId, h0, hlt, ⟨n, hn, rfl⟩ | ⟨body, hbody, rfl⟩⟩ := h
  · have hpayload := responseHeaders_payload (show n < 1000 by omega) streamId
    have hlen := responseBlock_length_le (show n < 1000 by omega)
    have hid : (responseHeaders streamId n).streamId = streamId := Frame.of_streamId hlt _ _ _
    have htype : (responseHeaders streamId n).type = FrameType.headers.toByte := rfl
    refine ⟨?_, ?_, fun _ => (by decide : hasFlag flagEndHeaders flagEndHeaders = true)⟩
    · unfold validatePayload
      rw [Frame.header_length, hpayload, if_neg (by simp only [maxFrameSizeLimit]; omega),
        Frame.header_type, htype, FrameType.ofByte?_toByte]
      simp only [validateStreamNonzero, Frame.header_streamId, hid]
      rw [if_neg h0]
    · rw [hpayload, defaultMaxFrameSize]
      omega
  · have hpayload := responseData_payload (show body.length ≤ 1024 by omega) streamId
    have hid : (responseData streamId body).streamId = streamId := Frame.of_streamId hlt _ _ _
    have htype : (responseData streamId body).type = FrameType.data.toByte := rfl
    refine ⟨?_, ?_, fun h => absurd h (by rw [htype]; decide)⟩
    · unfold validatePayload
      rw [Frame.header_length, hpayload, if_neg (by simp only [maxFrameSizeLimit]; omega),
        Frame.header_type, htype, FrameType.ofByte?_toByte]
      simp only [validateStreamNonzero, Frame.header_streamId, hid]
      rw [if_neg h0]
    · rw [hpayload, defaultMaxFrameSize]
      omega

/-- A control frame is well formed if its payload is valid and short. -/
theorem wellFormed_of {t : FrameType} (ht : t ≠ .headers) {flags : UInt8} {streamId : Nat}
    {payload : List UInt8} (hlen : payload.length ≤ defaultMaxFrameSize)
    (hvalid : validatePayload (Frame.of t.toByte flags streamId payload).header = .ok) :
    (Frame.of t.toByte flags streamId payload).WellFormed := by
  refine ⟨hvalid, ?_, fun h => ?_⟩
  · rw [Frame.of_payload (hlen.trans (by decide))]
    exact hlen
  · have := congrArg FrameType.ofByte? h
    simp only [Frame.of_type, FrameType.ofByte?_toByte, Option.some.injEq] at this
    exact absurd this ht

theorem windowUpdateFrame_wellFormed (streamId increment : Nat) :
    (windowUpdateFrame streamId increment).WellFormed :=
  wellFormed_of (by decide) (by simp [defaultMaxFrameSize]) rfl

theorem Frame.Reply.wellFormed {f : Frame} (h : f.Reply) : f.WellFormed := by
  rcases h with h | ⟨streamId, increment, -, -, rfl⟩
  · exact h.wellFormed
  · exact windowUpdateFrame_wellFormed streamId increment

theorem Frame.Verdict.wellFormed {f g : Frame} (h : f.Verdict g) : g.WellFormed := by
  rcases h with ⟨h0, ret, rfl⟩ | ⟨lastStreamId, ret, rfl⟩
  · have hid : (rstStreamFrame f.streamId ret).streamId = f.streamId :=
      Frame.of_streamId f.streamId_lt _ _ _
    have hlen : (rstStreamFrame f.streamId ret).payload.length = 4 := rfl
    have htype : (rstStreamFrame f.streamId ret).type = FrameType.rstStream.toByte := rfl
    refine wellFormed_of (by decide) (by simp [defaultMaxFrameSize]) ?_
    show validatePayload (rstStreamFrame f.streamId ret).header = .ok
    unfold validatePayload
    rw [Frame.header_length, hlen, if_neg (by decide), Frame.header_type, htype,
      FrameType.ofByte?_toByte]
    simp only [Frame.header_streamId, hid]
    rw [if_neg h0]
    exact if_pos trivial
  · exact wellFormed_of (by decide) (by simp [defaultMaxFrameSize]) rfl

theorem ack_wellFormed {f g : Frame} (h : f.ack = some g) (hvalid : validatePayload f.header = .ok) :
    g.WellFormed := by
  unfold Frame.ack at h
  split_ifs at h
  split at h <;> cases h
  · next htype =>
      have hlen : f.payload.length = 8 :=
        validatePayload_fixedLength (FrameType.ofByte?_eq_some htype) hvalid rfl
      have hack : (pingAckFrame f.payload).payload.length = 8 := by
        rw [pingAckFrame, Frame.of_payload f.payload_le]
        exact hlen
      have hid : (pingAckFrame f.payload).streamId = 0 := rfl
      have htype' : (pingAckFrame f.payload).type = FrameType.ping.toByte := rfl
      refine wellFormed_of (by decide) (by rw [hlen]; decide) ?_
      show validatePayload (pingAckFrame f.payload).header = .ok
      unfold validatePayload
      rw [Frame.header_length, hack, if_neg (by decide), Frame.header_type, htype',
        FrameType.ofByte?_toByte]
      simp [hid]
  · exact wellFormed_of (by decide) (by decide) rfl

theorem serverSettingsFrame_wellFormed : serverSettingsFrame.WellFormed :=
  wellFormed_of (by decide) (by decide) (by decide)

/-- Every frame that a handled frame makes the server queue is well formed. -/
theorem frameStep_wellFormed {c : Connection} (hc : Inv c) (f : Frame) :
    ∀ g ∈ (c.frameStep f).queued, g.WellFormed := by
  obtain ⟨fs, acks, tail, hqueued, hfs, hacks, htail, -⟩ := frameStep_queued hc f
  intro g hg
  rw [hqueued] at hg
  rcases List.mem_append.mp hg with hg | hg
  · rcases List.mem_append.mp hg with hg | hg
    · exact (hfs g hg).wellFormed
    · rcases hacks with rfl | ⟨rfl, hvalid⟩
      · cases hg
      · exact ack_wellFormed (Option.mem_toList.mp hg) hvalid
  · exact (htail g hg).wellFormed

/-! ## The first frame -/

/-- The output so far: after a correct preface it starts with the SETTINGS frame of the server,
and before that there is nothing but the GOAWAY that answers a wrong preface. -/
structure Begun (o : Obs) : Prop where
  seen : o.conn.prefaceSeen = true →
    o.total = wireOf (serverSettingsFrame :: o.steps.flatMap FrameStep.queued)
  unseen : o.conn.prefaceSeen = false → o.steps = [] ∧ o.conn.lastStreamId = 0
    ∧ (o.conn.goawaySent = false ∧ o.total = []
      ∨ o.conn.goawaySent = true ∧ o.total = wireOf [goawayFrame 0 .protocolError]
        ∧ clientPrefaceLen ≤ o.conn.input.length
        ∧ o.conn.input.take clientPrefaceLen ≠ clientPreface)

theorem Micro.begun {o o' : Obs} {es : List ErrorCode} (h : Micro o es o') (hg : Good o)
    (hb : Begun o) : Begun o' := by
  have hg' := h.good hg
  have htotal := Obs.total_eq hg
  have htotal' := Obs.total_eq hg'
  -- one more frame
  have hframe : ∀ f, o.conn.prefaceSeen = true → o.sent ++ (o.conn.handleFrame f).2.output
      = wireOf (serverSettingsFrame :: (o.steps ++ [o.conn.frameStep f]).flatMap FrameStep.queued) := by
    intro f hseen
    have hbefore := hb.seen hseen
    rw [htotal] at hbefore
    rw [Connection.frameStep_output hg.inv f, ← List.append_assoc, hbefore, List.flatMap_append,
      List.flatMap_singleton, ← List.cons_append, wireOf_append]
  cases h with
  | consume sentLen =>
      have hsame : (o.sent ++ o.conn.output.take sentLen) ++ o.conn.output.drop sentLen = o.total := by
        rw [List.append_assoc, List.take_append_drop, htotal]
      refine ⟨fun hseen => ?_, fun hnew => ?_⟩
      · rw [htotal', hsame]
        exact hb.seen hseen
      · rw [htotal', hsame]
        exact hb.unseen hnew
  | arrive data hfit =>
      rw [← htotal] at htotal'
      refine ⟨fun hseen => ?_, fun hnew => ?_⟩
      · rw [htotal']
        exact hb.seen hseen
      · rw [htotal']
        obtain ⟨hsteps, hlast, h | ⟨hsent, hout, hlen, hbad⟩⟩ := hb.unseen hnew
        · exact ⟨hsteps, hlast, Or.inl h⟩
        · refine ⟨hsteps, hlast, Or.inr ⟨hsent, hout, hlen.trans (by simp), ?_⟩⟩
          -- more input does not change the first bytes
          show (o.conn.input ++ data).take clientPrefaceLen ≠ clientPreface
          rwa [List.take_append_of_le_length hlen]
  | refuse data hbig =>
      rw [← htotal] at htotal'
      exact ⟨fun hseen => by rw [htotal']; exact hb.seen hseen,
        fun hnew => by rw [htotal']; exact hb.unseen hnew⟩
  -- nothing has been queued, since the bytes so far were no wrong preface
  | preface hnew hlen hpre =>
      refine ⟨fun _ => ?_, fun hseen => by cases hseen⟩
      obtain ⟨hsteps, -, ⟨-, hnil⟩ | ⟨-, -, -, hbad⟩⟩ := hb.unseen hnew
      · have hout : o.conn.greeted.output = o.conn.output ++ serverSettingsFrame.wire := rfl
        rw [htotal] at hnil
        rw [htotal', hout, ← List.append_assoc, hnil, hsteps]
        simp
      · exact absurd hpre hbad
  -- the same 24 bytes are refused in every call, and announced in the first
  | badPreface hnew hlen hpre =>
      have hsame := Connection.queueGoaway_input hg.inv .protocolError
      refine ⟨fun hseen => ?_, fun _ => ?_⟩
      · rw [hsame.2, hnew] at hseen
        cases hseen
      · obtain ⟨hsteps, hlast, ⟨hsent, hnil⟩ | ⟨hsent, hout, -, hbad⟩⟩ := hb.unseen hnew
        · -- the first GOAWAY always fits
          have hempty := (hg.started hnew).2.2 hsent
          have hfit : o.conn.Fits (goawayFrame o.conn.lastStreamId .protocolError) := by
            rw [Fits, hempty, goawayFrame_wire_length]
            decide
          have hgo := queueGoaway_eq hg.inv .protocolError
          rw [if_neg (by simp [hsent]), if_pos hfit] at hgo
          rw [htotal] at hnil
          simp only [hgo] at htotal' ⊢
          refine ⟨hsteps, hlast, Or.inr ⟨rfl, ?_, hlen, hpre⟩⟩
          rw [htotal']
          show o.sent ++ (o.conn.output ++ (goawayFrame o.conn.lastStreamId .protocolError).wire) = _
          rw [← List.append_assoc, hnil, hlast, List.nil_append, wireOf_singleton]
        · have hgo := queueGoaway_eq hg.inv .protocolError
          rw [if_pos hsent] at hgo
          simp only [hgo] at htotal' ⊢
          rw [htotal', ← htotal]
          exact ⟨hsteps, hlast, Or.inr ⟨hsent, hout, hlen, hbad⟩⟩
  -- accepted or not, the step is recorded with all that it has queued
  | frame f rest hseen hcut hok =>
      have hseen' := (Connection.handleFrame_input hg.inv f).2.trans hseen
      refine ⟨fun _ => ?_, fun hnew => ?_⟩
      · rw [htotal']
        exact hframe f hseen
      · rw [show ({ (o.conn.handleFrame f).2 with input := rest } : Connection).prefaceSeen
          = (o.conn.handleFrame f).2.prefaceSeen from rfl, hseen'] at hnew
        cases hnew
  | fail f rest hseen hcut herr =>
      have hseen' := (Connection.handleFrame_input hg.inv f).2.trans hseen
      refine ⟨fun _ => ?_, fun hnew => ?_⟩
      · rw [htotal']
        exact hframe f hseen
      · rw [hseen'] at hnew
        cases hnew

theorem exec_begun (ops : List Op) : Begun (exec ops).toObs := by
  refine exec_invariant ⟨fun hseen => ?_, fun _ => ⟨rfl, rfl, Or.inl ⟨rfl, rfl⟩⟩⟩
    (fun hg hs hb => hs.begun hg hb) ops
  cases hseen

/-! ## Compaction -/

/-- The bytes queued so far are never changed, only extended. -/
theorem Micro.total_prefix {o o' : Obs} {es : List ErrorCode} (h : Micro o es o') (hg : Good o) :
    o.total <+: o'.total := by
  have hg' := h.good hg
  rw [Obs.total_eq hg, Obs.total_eq hg']
  cases h with
  | consume sentLen =>
      rw [List.append_assoc, List.take_append_drop]
  | arrive data hfit => exact List.prefix_rfl
  | refuse data hbig => exact List.prefix_rfl
  | preface hnew hlen hpre =>
      show _ <+: o.sent ++ (o.conn.output ++ serverSettingsFrame.wire)
      rw [← List.append_assoc]
      exact List.prefix_append _ _
  | badPreface hnew hlen hpre =>
      obtain ⟨fs, -, gs, ge, hgo⟩ := queueGoaway_cases hg.inv .protocolError
      simp only [hgo]
      rw [← List.append_assoc]
      exact List.prefix_append _ _
  | frame f rest hseen hcut hok =>
      simp only [Connection.frameStep_output hg.inv f]
      rw [← List.append_assoc]
      exact List.prefix_append _ _
  | fail f rest hseen hcut herr =>
      simp only [Connection.frameStep_output hg.inv f]
      rw [← List.append_assoc]
      exact List.prefix_append _ _

/-- Consuming output does not change what has been queued. -/
theorem call_consume_total {r : Run} (hg : Good r.toObs) (sentLen : Nat) :
    (r.call (.consume sentLen)).total = r.total := by
  have hg' := call_good hg (.consume sentLen)
  have hpend : r.conn.pending = r.conn.output := by
    rw [Connection.pending, hg.inv.output_sent, List.drop_zero]
  rw [Obs.total_eq hg', Obs.total_eq hg]
  simp only [Run.call, Connection.consumeOutput_eq hg.inv.output_sent, hpend]
  rw [List.append_assoc, List.take_append_drop]

theorem call_total_prefix {r : Run} (hg : Good r.toObs) (op : Op) :
    r.total <+: (r.call op).total := by
  obtain ⟨es, hes, -⟩ := call_made hg op
  have hboth := hes.invariant (P := fun o => Good o ∧ r.total <+: o.total)
    (fun hs hb => ⟨hs.good hb.1, hb.2.trans (hs.total_prefix hb.1)⟩) ⟨hg, List.prefix_rfl⟩
  exact hboth.2

/-- **The output is well framed** in every run: it is a sequence of complete, well-formed frames,
which starts with the SETTINGS frame of the server and goes on with what each handled frame has
made the server queue, in this order. After a wrong preface there is only a GOAWAY. Consuming
output does not change the sequence, and feeding extends it. What `prefaceSeen` says about the bytes
is in `exec_unseen`: it is false only before the preface is complete, or behind a wrong one. The steps
are those that `feed` takes (`call_made`), and without errors their frames are the frames that were
received (`exec_received`). -/
theorem output_well_framed (ops : List Op) :
    (exec ops).total = wireOf (exec ops).frames
    ∧ (∀ f ∈ (exec ops).frames,
        (∀ tail, parseHeader (f.wire ++ tail) = .ok f.header) ∧ f.WellFormed)
    ∧ ((exec ops).conn.prefaceSeen = true → (exec ops).frames
        = serverSettingsFrame :: (exec ops).steps.flatMap FrameStep.queued)
    ∧ ((exec ops).conn.prefaceSeen = false →
        (exec ops).conn.input.length < clientPrefaceLen ∧ (exec ops).frames = []
        ∨ clientPrefaceLen ≤ (exec ops).conn.input.length
          ∧ (exec ops).conn.input.take clientPrefaceLen ≠ clientPreface
          ∧ (exec ops).frames = [goawayFrame 0 .protocolError])
    ∧ (∀ sentLen, ((exec ops).call (.consume sentLen)).total = (exec ops).total)
    ∧ ∀ data, (exec ops).total <+: ((exec ops).call (.feed data)).total := by
  have hg := exec_good ops
  have hb := exec_begun ops
  -- in both cases the output is the wire form of well-formed frames
  obtain ⟨fs, htotal, hfs⟩ : ∃ fs, (exec ops).total = wireOf fs ∧ ∀ f ∈ fs, f.WellFormed := by
    by_cases hseen : (exec ops).conn.prefaceSeen = true
    · refine ⟨_, hb.seen hseen, fun f hf => ?_⟩
      rcases List.mem_cons.mp hf with rfl | hf
      · exact serverSettingsFrame_wellFormed
      · obtain ⟨st, hst, hmem⟩ := List.mem_flatMap.mp hf
        exact exec_steps (Q := fun st => ∀ g ∈ st.queued, g.WellFormed)
          (fun hc => frameStep_wellFormed hc _) ops st hst f hmem
    · obtain ⟨-, -, ⟨-, h⟩ | ⟨-, h, -⟩⟩ := hb.unseen (by simpa using hseen)
      · exact ⟨[], h, by simp⟩
      · refine ⟨_, h, fun f hf => ?_⟩
        rw [List.mem_singleton.mp hf]
        exact wellFormed_of (by decide) (by simp [defaultMaxFrameSize]) rfl
  have hframes : (exec ops).frames = fs := by rw [Obs.frames, htotal, framesOf_wireOf]
  refine ⟨by rw [hframes, htotal], fun f hf => ⟨f.parseHeader_wire, hfs f (hframes ▸ hf)⟩,
    fun hseen => ?_, fun hnew => ?_, call_consume_total hg, fun data => call_total_prefix hg _⟩
  · rw [Obs.frames, hb.seen hseen, framesOf_wireOf]
  · obtain ⟨-, -, ⟨hsent, h⟩ | ⟨-, h, hlen, hbad⟩⟩ := hb.unseen hnew
    · refine Or.inl ⟨(exec_unseen ops hnew).resolve_right (by simp [hsent]), ?_⟩
      rw [Obs.frames, h]
      rfl
    · exact Or.inr ⟨hlen, hbad, by rw [Obs.frames, h, framesOf_wireOf]⟩

end C11Omo.Http2
