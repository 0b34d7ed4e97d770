import C11Omo.Http2.Lifecycle

set_option autoImplicit false

/-! # What is asked for is what is sent

A response may be sent long after its request: when credit comes for it, with other requests in
between, in a slot that has held other streams. In a run without errors it is still the path of the
request on its stream that is sent as the body (`responses_echo`), and that waits in the slot until
then.
-/

namespace C11Omo.Http2

open C11Omo.Lib Connection

/-- The client has asked for a path on a stream: the header block that a frame has completed holds it,
and the frame has made the server queue the headers of the response. -/
def Asked (steps : List FrameStep) (streamId : Nat) (path : List UInt8) : Prop :=
  ∃ st ∈ steps, ∃ flags block, st.frame.streamId = streamId
    ∧ st.before.blockOf st.frame = some (flags, block)
    ∧ extractPath block streamPathCap = (.ok, path)
    ∧ responseHeaders streamId (path.length + 1) ∈ st.queued

theorem Asked.snoc {steps : List FrameStep} {streamId : Nat} {path : List UInt8}
    (h : Asked steps streamId path) (st : FrameStep) : Asked (steps ++ [st]) streamId path := by
  obtain ⟨st', hst', h⟩ := h
  exact ⟨st', List.mem_append_left _ hst', h⟩

/-- Bodies that have been sent and paths that wait have been asked for. -/
structure Echoes (steps : List FrameStep) (c : Connection) : Prop where
  waiting : ∀ i, (c.streams i).CanSend → Asked steps (c.streams i).id (c.streams i).path
  sent : ∀ st ∈ steps, ∀ f ∈ st.queued, f.type = FrameType.data.toByte →
    ∃ path, Asked steps f.streamId path ∧ f = responseData f.streamId (responseBody path)

namespace Connection

variable {c c' : Connection} {f : Frame}

/-- A frame that is neither credit nor the end of a header block makes the server send no body, and
the streams that wait for theirs keep their paths. -/
theorem accepts_keeps {fs : List Frame} (hacc : Accepts c f fs c')
    (hblock : c.blockOf f = none) (hcredit : f.type ≠ FrameType.windowUpdate.toByte) :
    (∀ g ∈ fs, g.type ≠ FrameType.data.toByte)
      ∧ ∀ i, (c'.streams i).CanSend → (c.streams i).CanSend
        ∧ (c'.streams i).id = (c.streams i).id ∧ (c'.streams i).path = (c.streams i).path := by
  have hnone : ¬ c.Completes f := by
    intro hcomp
    have hsome := hcomp.2
    rw [hblock] at hsome
    cases hsome
  have hrefill : ∀ streamId w, ∀ g ∈ refillFrames streamId w, g.type ≠ FrameType.data.toByte := by
    intro streamId w g hg
    rw [refillFrames] at hg
    split_ifs at hg
    · rw [List.mem_singleton.mp hg]
      exact fun ht => absurd ht (by decide : FrameType.windowUpdate.toByte ≠ FrameType.data.toByte)
    · cases hg
  have hreset : ∀ streamId errorCode, (rstStreamFrame streamId errorCode).type
      ≠ FrameType.data.toByte := fun _ _ =>
    (by decide : FrameType.rstStream.toByte ≠ FrameType.data.toByte)
  -- a slot that closes cannot send
  have hcloses : ∀ {c' : Connection} {pos : Fin connMaxStreams},
      (c'.streams pos).state = .closed → (∀ i, i ≠ pos → c'.streams i = c.streams i) →
      ∀ i, (c'.streams i).CanSend → (c.streams i).CanSend
        ∧ (c'.streams i).id = (c.streams i).id ∧ (c'.streams i).path = (c.streams i).path := by
    intro c' pos hst hother i hcan
    have hi : i ≠ pos := by
      rintro rfl
      exact hcan.state_ne.2 hst
    rw [hother i hi] at hcan ⊢
    exact ⟨hcan, rfl, rfl⟩
  cases hacc with
  | ignore hack ht hblock' => exact ⟨by simp, fun i hcan => ⟨hcan, rfl, rfl⟩⟩
  | ping hack =>
      refine ⟨fun g hg => ?_, fun i hcan => ⟨hcan, rfl, rfl⟩⟩
      rw [List.mem_singleton.mp hg]
      exact (by decide : FrameType.ping.toByte ≠ FrameType.data.toByte)
  | settings settings hparse hack hall =>
      refine ⟨fun g hg => ?_, fun i hcan => ?_⟩
      · rw [List.mem_singleton.mp hg]
        exact (by decide : FrameType.settings.toByte ≠ FrameType.data.toByte)
      · rw [foldl_applied] at hcan ⊢
        simp only [push, resizeWindows] at hcan ⊢
        split_ifs at hcan ⊢
        · exact ⟨hcan, rfl, rfl⟩
        · exact ⟨hcan, rfl, rfl⟩
  | beginBlock bytes ht hblock' => exact ⟨by simp, fun i hcan => ⟨hcan, rfl, rfl⟩⟩
  | extendBlock bytes ht hblock' => exact ⟨by simp, fun i hcan => ⟨hcan, rfl, rfl⟩⟩
  | data pos ht hfind hst hconn hstream hopen =>
      constructor
      · intro g hg
        rcases List.mem_append.mp hg with hg | hg
        · exact hrefill _ _ g hg
        · exact hrefill _ _ g hg
      · intro i hcan
        by_cases hi : i = pos
        · subst hi
          rw [refilled_streams_self] at hcan ⊢
          -- only a slot that could send before can send now
          have hsame : ∀ s, s = received (c.streams i) f.payload.length
              (hasFlag f.flags flagEndStream) → s.CanSend →
              (c.streams i).CanSend ∧ s.id = (c.streams i).id ∧ s.path = (c.streams i).path := by
            rintro s rfl hcan'
            unfold received at hcan' ⊢
            split_ifs at hcan' ⊢ with hend hlocal
            · exact absurd rfl hcan'.state_ne.2
            · exact ⟨⟨hcan'.1, Or.inl (hst.resolve_right hlocal)⟩, rfl, rfl⟩
            · exact ⟨hcan', rfl, rfl⟩
          exact hsame (received (c.streams i) f.payload.length (hasFlag f.flags flagEndStream)) rfl hcan
        · rw [refilled_streams_ne c hi] at hcan ⊢
          exact ⟨hcan, rfl, rfl⟩
  | lastData pos ht hfind hend hst hconn hstream =>
      refine ⟨hrefill _ _, hcloses ?_ fun i hi => setStream_streams_ne _ hi _⟩
      show ((setStream _ pos _).streams pos).state = _
      rw [setStream_streams_self]
      rfl
  | lateData pos ht hfind hst hconn =>
      refine ⟨fun g hg => ?_, hcloses ?_ fun i hi => setStream_streams_ne _ hi _⟩
      · rcases List.mem_append.mp hg with hg | hg
        · exact hrefill _ _ g hg
        · rw [List.mem_singleton.mp hg]
          exact hreset _ _
      · rw [setStream_streams_self]
        rfl
  | reset pos ht hfind =>
      refine ⟨by simp, hcloses ?_ fun i hi => setStream_streams_ne _ hi _⟩
      rw [setStream_streams_self]
      rfl
  | request pos flags block bytes path fs c' hadmits hblock' hodd hlast hfree hpath hne hres hans =>
      rw [hblock] at hblock'
      cases hblock'
  | refuse bytes hcomp hodd hlast hfull => exact absurd hcomp hnone
  | badPath pos bytes path ret hcomp hodd hlast hfree hpath hret => exact absurd hcomp hnone
  | creditConn increment fs c' ht hmax hans => exact absurd ht hcredit
  | creditStream pos increment fs c' ht hfind h0 hmax hans => exact absurd ht hcredit

end Connection

namespace Echoes

variable {c c₁ c' : Connection} {steps : List FrameStep} {st : FrameStep}

/-- One more frame, whose responses are sent from `c₁` on. -/
theorem sends (hc : Inv c₁) (h : Echoes steps c)
    (hwaiting : ∀ i, (c₁.streams i).CanSend →
      Asked (steps ++ [st]) (c₁.streams i).id (c₁.streams i).path)
    (hsends : Sends c₁ st.queued c') : Echoes (steps ++ [st]) c' where
  waiting := by
    intro i hcan
    obtain ⟨hcan', hpath⟩ := hsends.paths i hcan
    rw [hsends.id i, hpath]
    exact hwaiting i hcan'
  sent := by
    intro st' hst' f hf ht
    rcases List.mem_append.mp hst' with hst' | hst'
    · obtain ⟨path, hasked, heq⟩ := h.sent st' hst' f hf ht
      exact ⟨path, hasked.snoc st, heq⟩
    · rw [List.mem_singleton.mp hst'] at hf
      obtain ⟨i, hcan, rfl⟩ := hsends.bodies f hf ht
      have hid : (c₁.dataFrame i).streamId = (c₁.streams i).id :=
        Frame.of_streamId (hc.id_lt i) _ _ _
      rw [hid]
      exact ⟨_, hwaiting i hcan, rfl⟩

/-- One more frame, which sends no body. -/
theorem keeps (h : Echoes steps c) (hbodies : ∀ g ∈ st.queued, g.type ≠ FrameType.data.toByte)
    (hslots : ∀ i, (c'.streams i).CanSend → (c.streams i).CanSend
      ∧ (c'.streams i).id = (c.streams i).id ∧ (c'.streams i).path = (c.streams i).path) :
    Echoes (steps ++ [st]) c' where
  waiting := by
    intro i hcan
    obtain ⟨hcan', hid, hpath⟩ := hslots i hcan
    rw [hid, hpath]
    exact (h.waiting i hcan').snoc st
  sent := by
    intro st' hst' f hf ht
    rcases List.mem_append.mp hst' with hst' | hst'
    · obtain ⟨path, hasked, heq⟩ := h.sent st' hst' f hf ht
      exact ⟨path, hasked.snoc st, heq⟩
    · rw [List.mem_singleton.mp hst'] at hf
      exact absurd ht (hbodies f hf)

/-- **One frame.** -/
theorem step {f : Frame} (hc : Inv c) (h : Echoes steps c) (hok : (c.handleFrame f).1 = .ok) :
    Echoes (steps ++ [c.frameStep f]) (c.handleFrame f).2 := by
  -- a frame that ends no header block may send bodies that are waiting, but asks for none
  rcases hblock : c.blockOf f with _ | ⟨flags, block⟩
  · by_cases hcredit : f.type = FrameType.windowUpdate.toByte
    · exact h.sends hc (fun i hcan => (h.waiting i hcan).snoc _) (handleFrame_credit hc hcredit hok)
    · obtain ⟨hbodies, hslots⟩ := accepts_keeps (handleFrame_accepts hc hok) hblock hcredit
      exact h.keeps hbodies hslots
  · obtain ⟨hodd, hlast, ⟨ret, hqueued, -, hslots⟩ | ⟨pos, path, bytes, fs, hfree, hext, hqueued,
      hsends⟩⟩ := handleFrame_block hc hblock hok
    · -- the request is refused
      apply h.keeps
      · intro g hg
        rw [hqueued] at hg
        rw [List.mem_singleton.mp hg]
        exact (by decide : FrameType.rstStream.toByte ≠ FrameType.data.toByte)
      · intro i hcan
        rcases hslots with ⟨hstreams, -⟩ | ⟨pos, -, -, hst, hother, -⟩
        · rw [hstreams] at hcan ⊢
          exact ⟨hcan, rfl, rfl⟩
        · have hi : i ≠ pos := by
            rintro rfl
            exact hcan.state_ne.2 hst
          rw [hother i hi] at hcan ⊢
          exact ⟨hcan, rfl, rfl⟩
    · -- the request is served
      have htext := extractPath_pathText block
      rw [hext] at htext
      have hself := asked_streams c pos f.streamId flags path bytes
      refine h.sends (asked_inv hc hfree hodd hlast f.streamId_lt flags htext bytes) ?_ hsends
      intro i hcan
      by_cases hi : i = pos
      · rw [hi, hself]
        refine ⟨_, List.mem_append_right _ (List.mem_singleton.mpr rfl), flags, block, rfl, hblock,
          hext, ?_⟩
        rw [hqueued]
        exact List.mem_cons_self ..
      · rw [asked_streams_ne c hi] at hcan ⊢
        exact (h.waiting i hcan).snoc _

end Echoes

/-- **Every body is the path that has been asked for on its stream**, in every run without errors, and
so is every path that waits in a slot for credit. -/
theorem responses_echo {ops : List Op} (hok : (exec ops).AllOk) :
    (∀ f ∈ (exec ops).frames, f.type = FrameType.data.toByte →
      ∃ path, Asked (exec ops).steps f.streamId path
        ∧ f = responseData f.streamId (responseBody path))
    ∧ ∀ i, ((exec ops).conn.streams i).CanSend →
        Asked (exec ops).steps ((exec ops).conn.streams i).id ((exec ops).conn.streams i).path := by
  have hechoes : Echoes (exec ops).steps (exec ops).conn := by
    refine (exec_accepted (R := Echoes) ?_ ?_ ?_ ops).1 (exec_steps_ok hok)
    · intro steps hist c h _ _ _ _ _ _
      exact ⟨h.waiting, h.sent⟩
    · constructor
      · rintro i ⟨hid, -⟩
        exact absurd rfl hid
      · simp
    · exact fun hc h hframe => h.step hc hframe
  refine ⟨fun f hf ht => ?_, hechoes.waiting⟩
  obtain ⟨opening, hframes, hopening⟩ := exec_frames_steps ops
  rw [hframes] at hf
  rcases List.mem_append.mp hf with hf | hf
  · rcases hopening f hf with ht' | ht'
    · exact absurd (ht.symm.trans ht') (by decide)
    · exact absurd (ht.symm.trans ht') (by decide)
  · obtain ⟨st, hst, hf⟩ := List.mem_flatMap.mp hf
    exact hechoes.sent st hst f hf ht

set_option maxRecDepth 20000 in
/-- A response that waits for credit. -/
theorem responses_echo_blocked : ∃ i, ((exec blockedRequest).conn.streams i).id = 1
    ∧ Asked (exec blockedRequest).steps 1 (ascii "/") := by
  have hslot : ((exec blockedRequest).conn.streams 0).id = 1
      ∧ ((exec blockedRequest).conn.streams 0).state = .halfClosedRemote
      ∧ ((exec blockedRequest).conn.streams 0).path = ascii "/" := by
    decide +kernel
  obtain ⟨hid, hst, hpath⟩ := hslot
  have hasked := (@responses_echo blockedRequest (by decide +kernel)).2 0
    ⟨by rw [hid]; decide, Or.inr hst⟩
  rw [hid, hpath] at hasked
  exact ⟨0, hid, hasked⟩

end C11Omo.Http2
