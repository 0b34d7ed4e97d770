import C11Omo.Http2.ReceiveWindows

set_option autoImplicit false

/-! # The slot table

In a run without errors every slot in use is closed, or it waits for credit to send a response, or
it has sent the response and waits for the client (`Settled`). A slot is given away only when both
sides have ended its stream or one of them has reset it (`SlotLedger`), so no response that is
waiting is lost (`slot_table_invariant`).
-/

namespace C11Omo.Http2

open C11Omo.Lib Connection

/-! ## Settled slots -/

/-- What a slot in use can look like between two frames. -/
def Settled (s : Stream) : Prop :=
  s.id ≠ 0 → s.state = .closed
    ∨ (s.state = .opened ∨ s.state = .halfClosedRemote) ∧ s.responseHeadersSent = true
        ∧ s.responseBodyDeferred = true ∧ s.responseSent = false
    ∨ s.state = .halfClosedLocal ∧ s.responseHeadersSent = true ∧ s.responseSent = true
        ∧ s.responseBodyDeferred = false

/-- The response headers of a stream that can be sent on are out. -/
theorem Settled.headersSent {s : Stream} (h : Settled s) (hcan : s.CanSend) :
    s.responseHeadersSent = true := by
  rcases h hcan.1 with hst | ⟨-, hhead, -⟩ | ⟨hst, -⟩
  · exact absurd hst hcan.state_ne.2
  · exact hhead
  · rcases hcan.2 with h' | h' <;> rw [hst] at h' <;> cases h'

/-- Only slots that are not in use are idle. -/
theorem Settled.of_idle {s : Stream} (h : Settled s) (hst : s.state = .idle) : s.id = 0 := by
  by_contra hid
  rcases h hid with h' | ⟨h' | h', -⟩ | ⟨h', -⟩ <;> rw [hst] at h' <;> cases h'

/-- No action but the opening of a stream unsettles a slot. -/
theorem Act.settled {c c' : Connection} {es : List Event} (h : Act c es c')
    (hlast : c'.lastStreamId = c.lastStreamId) (hs : ∀ i, Settled (c.streams i)) :
    ∀ i, Settled (c'.streams i) := by
  cases h with
  | control f hf hroom => exact hs
  | recvConn w hw => exact hs
  | recvStream pos w hw => exact setStream_forall hs (hs pos)
  | openSlot pos streamId hfree hodd hnew hlt =>
      exact absurd hlast (Nat.ne_of_gt hnew)
  | path pos p hidle hlen htext =>
      exact setStream_forall hs fun hid => absurd ((hs pos).of_idle hidle) hid
  | request pos endStream hidle =>
      exact setStream_forall hs fun hid => absurd ((hs pos).of_idle hidle) hid
  -- a settled slot that can send has its headers already
  | sendHeaders pos hcan hnew hroom =>
      rw [(hs pos).headersSent hcan] at hnew
      cases hnew
  | defer pos hcan hhead hbody hpath hblocked =>
      exact setStream_forall hs fun _ => Or.inr (Or.inl ⟨hcan.2, hhead, rfl, hbody⟩)
  -- the stream is half closed on the side of the server now, or closed
  | sendData pos hcan hhead hbody hpath hconn hstream hroom =>
      refine setStream_forall hs fun _ => ?_
      rcases hcan.2 with hst | hst
      · simp [Stream.sendEndStream, hst, push, hhead]
      · simp [Stream.sendEndStream, hst, push, Stream.close]
  | endRemote pos hopen =>
      refine setStream_forall hs fun hid => ?_
      rcases hs pos hid with h' | ⟨-, hflags⟩ | ⟨h', -⟩
      · rw [hopen] at h'
        cases h'
      · exact Or.inr (Or.inl ⟨Or.inr rfl, hflags⟩)
      · rw [hopen] at h'
        cases h'
  | close pos => exact setStream_forall hs fun _ => Or.inl rfl
  | creditConn increment hmax => exact hs
  | creditStream pos increment hid hmax => exact setStream_forall hs (hs pos)
  | resize value hvalue hrange =>
      intro i
      simp only [resizeWindows]
      split_ifs
      · exact hs i
      · exact hs i
  | shiftOne pos w hw => exact setStream_forall hs (hs pos)
  | maxFrame size hsize => exact hs
  | block isOpen streamId flags bytes => exact hs

theorem Acts.settled {c c' : Connection} {es : List Event} (h : Acts c es c')
    (hlast : c'.lastStreamId = c.lastStreamId) (hs : ∀ i, Settled (c.streams i)) :
    ∀ i, Settled (c'.streams i) := by
  induction h with
  | refl => exact hs
  | head hact hrest ih =>
      -- the last stream id does not fall, so it has not changed on the way either
      have hle := Acts.lastStreamId_le (.single hact)
      have hle' := Acts.lastStreamId_le hrest
      exact ih (by omega) (hact.settled (by omega) hs)

namespace Connection

variable {c : Connection} {pos : Fin connMaxStreams}

/-- A response that is not blocked by the output ends with its slot settled, and leaves the others
alone. -/
theorem queueDeferredData_settled (hc : Inv c) (hcan : (c.streams pos).CanSend)
    (hhead : (c.streams pos).responseHeadersSent = true)
    (hbody : (c.streams pos).responseSent = false)
    (hok : (c.queueDeferredData pos (responseBody (c.streams pos).path)).1 = .ok) :
    Settled ((c.queueDeferredData pos (responseBody (c.streams pos).path)).2.streams pos)
      ∧ ∀ i, i ≠ pos →
        (c.queueDeferredData pos (responseBody (c.streams pos).path)).2.streams i = c.streams i := by
  rw [queueDeferredData_eq hc hcan] at hok ⊢
  by_cases hblocked : c.Blocked pos
  · rw [if_pos hblocked]
    refine ⟨?_, fun i hi => setStream_streams_ne c hi _⟩
    rw [setStream_streams_self]
    exact fun _ => Or.inr (Or.inl ⟨hcan.2, hhead, rfl, hbody⟩)
  · rw [if_neg hblocked] at hok ⊢
    by_cases hfit : c.Fits (c.dataFrame pos)
    · rw [if_pos hfit]
      refine ⟨?_, fun i hi => setStream_streams_ne _ hi _⟩
      rw [answered, setStream_streams_self]
      intro _
      rcases hcan.2 with hst | hst
      · simp [Stream.sendEndStream, hst, push, hhead]
      · simp [Stream.sendEndStream, hst, push, Stream.close]
    · rw [if_neg hfit] at hok
      cases hok

theorem queueResponse_settled (hc : Inv c) (hcan : (c.streams pos).CanSend)
    (hnew : (c.streams pos).responseHeadersSent = false)
    (hbody : (c.streams pos).responseSent = false) (hpath : (c.streams pos).path ≠ [])
    (hok : (c.queueResponse pos).1 = .ok) :
    Settled ((c.queueResponse pos).2.streams pos)
      ∧ ∀ i, i ≠ pos → (c.queueResponse pos).2.streams i = c.streams i := by
  have hdoes := queueResponseHeaders_does hc hcan hnew
  rw [queueResponse_eq hc hbody hpath, if_neg (by simp [hnew])] at hok ⊢
  rw [queueResponseHeaders_eq hc hcan.1] at hdoes hok ⊢
  by_cases hfit : c.Fits (c.headersFrame pos)
  · rw [if_pos hfit] at hdoes hok ⊢
    rw [andThen_ok] at hok ⊢
    have hself : ((c.push (c.headersFrame pos)).setStream pos
        { c.streams pos with responseHeadersSent := true }).streams pos
        = { c.streams pos with responseHeadersSent := true } := setStream_streams_self _ _ _
    have hdata := @queueDeferredData_settled _ pos (hdoes.inv hc) (by rw [hself]; exact hcan)
      (by rw [hself]) (by rw [hself]; exact hbody)
    rw [hself] at hdata
    obtain ⟨hsettled, hothers⟩ := hdata hok
    refine ⟨hsettled, fun i hi => ?_⟩
    rw [hothers i hi]
    exact setStream_streams_ne _ hi _
  · rw [if_neg hfit, andThen_err (by decide)] at hok
    cases hok

end Connection

/-- Every accepted frame leaves all slots settled. -/
theorem Connection.handleFrame_settled {c : Connection} {f : Frame} (hc : Inv c)
    (hs : ∀ i, Settled (c.streams i)) (hok : (c.handleFrame f).1 = .ok) :
    ∀ i, Settled ((c.handleFrame f).2.streams i) := by
  have hacts := frameStep_acts hc hok
  have hacc := handleFrame_accepts hc hok
  generalize hafter : (c.handleFrame f).2 = c' at hacts hacc ⊢
  generalize (c.frameStep f).queued = fs at hacc
  cases hacc with
  -- only the slot of the new request changes, and `queue_response` leaves it settled
  | request pos flags block bytes path fs c' hadmits hblock hodd hlast hfree hpath hne hres hans =>
      have hc' : Inv { c with headerBlockOpen := false, headerBlock := bytes } := { hc with }
      have hfree' : freeSlot { c with headerBlockOpen := false, headerBlock := bytes } = some pos :=
        hfree
      have hopen := (withStream_opened hfree' hodd hlast f.streamId_lt hpath
        (hasFlag flags flagEndStream)).inv hc'
      have hself := withStream_streams { c with headerBlockOpen := false, headerBlock := bytes } pos
        f.streamId path (if hasFlag flags flagEndStream then .halfClosedRemote else .opened)
      have hsettled := queueResponse_settled hopen
        (withStream_canSend _ pos (by omega) path (hasFlag flags flagEndStream))
        (by rw [hself]; rfl) (by rw [hself]; rfl) (by rw [hself]; exact hne)
      rw [hres] at hsettled
      obtain ⟨hpos, hothers⟩ := hsettled rfl
      intro i
      by_cases hi : i = pos
      · rw [hi]
        exact hpos
      · rw [hothers i hi, withStream_streams_ne hi]
        exact hs i
  -- the slot that was opened is closed again at once
  | badPath pos bytes path ret hcomp hodd hlast hfree hpath hret =>
      intro i
      by_cases hi : i = pos
      · rw [hi, setStream_streams_self]
        exact fun _ => Or.inl rfl
      · rw [setStream_streams_ne _ hi]
        show Settled ((withStream _ _ _ _ _).streams i)
        rw [withStream_streams_ne hi]
        exact hs i
  | ignore hack ht hblock => exact hs
  | ping hack => exact hacts.settled rfl hs
  | settings settings hparse hack hall =>
      refine hacts.settled ?_ hs
      rw [foldl_applied]
      rfl
  | beginBlock bytes ht hblock => exact hs
  | extendBlock bytes ht hblock => exact hs
  | refuse bytes hcomp hodd hlast hfull => exact hacts.settled rfl hs
  | data pos ht hfind hst hconn hstream hopen => exact hacts.settled rfl hs
  | lastData pos ht hfind hend hst hconn hstream => exact hacts.settled rfl hs
  | lateData pos ht hfind hst hconn => exact hacts.settled rfl hs
  | reset pos ht hfind => exact hacts.settled rfl hs
  | creditConn increment fs c' ht hmax hans => exact hacts.settled hans.last hs
  | creditStream pos increment fs c' ht hfind h0 hmax hans => exact hacts.settled hans.last hs

/-! ## Streams and their slots -/

/-- The client has ended its side of a stream. -/
def ClientEnded (streamId : Nat) (steps : List FrameStep) : Prop :=
  ∃ st ∈ steps, (st.frame.type = FrameType.headers.toByte ∨ st.frame.type = FrameType.data.toByte)
    ∧ st.frame.streamId = streamId ∧ hasFlag st.frame.flags flagEndStream = true

/-- The server has ended its side of a stream. -/
def ServerEnded (streamId : Nat) (steps : List FrameStep) : Prop :=
  ∃ st ∈ steps, ∃ f ∈ st.queued, f.type = FrameType.data.toByte ∧ f.streamId = streamId
    ∧ hasFlag f.flags flagEndStream = true

/-- One side has reset a stream. -/
def StreamReset (streamId : Nat) (steps : List FrameStep) : Prop :=
  ∃ st ∈ steps, ∃ f, (f = st.frame ∨ f ∈ st.queued) ∧ f.type = FrameType.rstStream.toByte
    ∧ f.streamId = streamId

/-- A stream is closed when one side has reset it or both have ended it. -/
def StreamClosed (streamId : Nat) (steps : List FrameStep) : Prop :=
  StreamReset streamId steps ∨ ClientEnded streamId steps ∧ ServerEnded streamId steps

section

variable {streamId : Nat} {steps : List FrameStep} {st : FrameStep}

theorem ClientEnded.snoc (h : ClientEnded streamId steps) (st : FrameStep) :
    ClientEnded streamId (steps ++ [st]) := by
  obtain ⟨st', hst', h⟩ := h
  exact ⟨st', List.mem_append_left _ hst', h⟩

theorem ServerEnded.snoc (h : ServerEnded streamId steps) (st : FrameStep) :
    ServerEnded streamId (steps ++ [st]) := by
  obtain ⟨st', hst', h⟩ := h
  exact ⟨st', List.mem_append_left _ hst', h⟩

theorem StreamClosed.snoc (h : StreamClosed streamId steps) (st : FrameStep) :
    StreamClosed streamId (steps ++ [st]) := by
  rcases h with ⟨st', hst', h⟩ | ⟨hclient, hserver⟩
  · exact Or.inl ⟨st', List.mem_append_left _ hst', h⟩
  · exact Or.inr ⟨hclient.snoc st, hserver.snoc st⟩

/-- The last frame ends the side of the client. -/
theorem ClientEnded.last (ht : st.frame.type = FrameType.headers.toByte
      ∨ st.frame.type = FrameType.data.toByte) (hend : hasFlag st.frame.flags flagEndStream = true)
    (steps : List FrameStep) : ClientEnded st.frame.streamId (steps ++ [st]) :=
  ⟨st, List.mem_append_right _ (List.mem_singleton.mpr rfl), ht, rfl, hend⟩

/-- The last frame is a reset, or makes the server send one. -/
theorem StreamClosed.last {f : Frame} (hf : f = st.frame ∨ f ∈ st.queued)
    (ht : f.type = FrameType.rstStream.toByte) (hid : f.streamId = streamId)
    (steps : List FrameStep) : StreamClosed streamId (steps ++ [st]) :=
  Or.inl ⟨st, List.mem_append_right _ (List.mem_singleton.mpr rfl), f, hf, ht, hid⟩

end

/-- A frame that is acknowledged carries no header block. -/
theorem Connection.blockOf_ack {c : Connection} {f g : Frame} (h : f.ack = some g) :
    c.blockOf f = none := by
  unfold Frame.ack at h
  unfold blockOf
  split_ifs at h
  rcases htype : FrameType.ofByte? f.type with _ | t
  · rfl
  · simp only [htype] at h ⊢
    cases t <;> first | rfl | cases h

theorem Connection.blockOf_windowUpdate {c : Connection} {f : Frame}
    (ht : f.type = FrameType.windowUpdate.toByte) : c.blockOf f = none := by
  unfold blockOf
  rw [ht, FrameType.ofByte?_toByte]

/-- The flags of a complete header block: those of the frame, or those remembered. -/
theorem Connection.blockOf_flags {c : Connection} {f : Frame} {flags : UInt8} {block : List UInt8}
    (h : c.blockOf f = some (flags, block)) :
    f.type = FrameType.headers.toByte ∧ flags = f.flags
      ∨ c.headerBlockOpen = true ∧ f.streamId = c.headerBlockStreamId
        ∧ flags = c.headerBlockFlags := by
  unfold blockOf at h
  rcases htype : FrameType.ofByte? f.type with _ | t
  · simp only [htype] at h
    cases h
  · have ht := FrameType.ofByte?_eq_some htype
    simp only [htype] at h
    cases t with
    | headers =>
        rcases hparse : parseHeaders f.header f.payload with ret | parsed
        · simp [hparse] at h
        · simp only [hparse] at h
          split_ifs at h
          exact Or.inl ⟨ht, (Prod.mk.inj (Option.some.inj h)).1.symm⟩
    | continuation =>
        rcases hparse : parseContinuation f.header f.payload with ret | fragment
        · simp [hparse] at h
        · simp only [hparse] at h
          split_ifs at h with hcond
          exact Or.inr ⟨hcond.1, hcond.2.1, (Prod.mk.inj (Option.some.inj h)).1.symm⟩
    | _ => cases h

/-- **The ledger of the slots**: an open stream has a slot, and what a slot says about the two sides
of its stream has been seen on the wire. -/
structure SlotLedger (steps : List FrameStep) (c : Connection) : Prop where
  owned : ∀ st ∈ steps, st.before.Completes st.frame → StreamClosed st.frame.streamId steps
    ∨ ∃ i, (c.streams i).id = st.frame.streamId ∧ live (c.streams i) = true
  client : ∀ i, (c.streams i).state = .halfClosedRemote → ClientEnded (c.streams i).id steps
  server : ∀ i, (c.streams i).state = .halfClosedLocal → ServerEnded (c.streams i).id steps
  block : c.headerBlockOpen = true → hasFlag c.headerBlockFlags flagEndStream = true →
    ClientEnded c.headerBlockStreamId steps

namespace SlotLedger

variable {c c' : Connection} {steps : List FrameStep} {st : FrameStep}

/-- One more frame: a slot that was in use still is, or its stream has been closed. -/
theorem step (h : SlotLedger steps c)
    (hopened : st.before.Completes st.frame → StreamClosed st.frame.streamId (steps ++ [st])
      ∨ ∃ i, (c'.streams i).id = st.frame.streamId ∧ live (c'.streams i) = true)
    (hkeep : ∀ i, live (c.streams i) = true →
      StreamClosed (c.streams i).id (steps ++ [st])
        ∨ (c'.streams i).id = (c.streams i).id ∧ live (c'.streams i) = true)
    (hclient : ∀ i, (c'.streams i).state = .halfClosedRemote →
      (c.streams i).state = .halfClosedRemote ∧ (c'.streams i).id = (c.streams i).id
        ∨ ClientEnded (c'.streams i).id (steps ++ [st]))
    (hserver : ∀ i, (c'.streams i).state = .halfClosedLocal →
      (c.streams i).state = .halfClosedLocal ∧ (c'.streams i).id = (c.streams i).id
        ∨ ServerEnded (c'.streams i).id (steps ++ [st]))
    (hblock : c'.headerBlockOpen = true → hasFlag c'.headerBlockFlags flagEndStream = true →
      (c.headerBlockOpen = true ∧ hasFlag c.headerBlockFlags flagEndStream = true
          ∧ c'.headerBlockStreamId = c.headerBlockStreamId)
        ∨ ClientEnded c'.headerBlockStreamId (steps ++ [st])) :
    SlotLedger (steps ++ [st]) c' := by
  constructor
  · -- the requests already completed, then the one this frame completes
    intro st' hst' hcomp
    rcases List.mem_append.mp hst' with hst' | hst'
    · rcases h.owned st' hst' hcomp with hclosed | ⟨i, hid, hlive⟩
      · exact Or.inl (hclosed.snoc st)
      · rcases hkeep i hlive with hclosed | ⟨hsame, hlive'⟩
        · exact Or.inl (by rwa [hid] at hclosed)
        · exact Or.inr ⟨i, hsame.trans hid, hlive'⟩
    · obtain rfl := List.mem_singleton.mp hst'
      exact hopened hcomp
  · intro i hi
    rcases hclient i hi with ⟨hst, hid⟩ | hended
    · rw [hid]
      exact (h.client i hst).snoc st
    · exact hended
  · intro i hi
    rcases hserver i hi with ⟨hst, hid⟩ | hended
    · rw [hid]
      exact (h.server i hst).snoc st
    · exact hended
  · intro hopen hend
    rcases hblock hopen hend with ⟨hopen', hend', hid⟩ | hended
    · rw [hid]
      exact (h.block hopen' hend').snoc st
    · exact hended

/-- A frame that neither opens a stream nor closes one. -/
theorem still (h : SlotLedger steps c) (hnot : ¬ st.before.Completes st.frame)
    (hslot : ∀ i, (c'.streams i).id = (c.streams i).id ∧ (c'.streams i).state = (c.streams i).state)
    (hblock : c'.headerBlockOpen = true → hasFlag c'.headerBlockFlags flagEndStream = true →
      (c.headerBlockOpen = true ∧ hasFlag c.headerBlockFlags flagEndStream = true
          ∧ c'.headerBlockStreamId = c.headerBlockStreamId)
        ∨ ClientEnded c'.headerBlockStreamId (steps ++ [st])) :
    SlotLedger (steps ++ [st]) c' := by
  refine h.step (fun hcomp => absurd hcomp hnot) (fun i hlive => Or.inr ?_) (fun i hi => Or.inl ?_)
    (fun i hi => Or.inl ?_) hblock
  · obtain ⟨hid, hst⟩ := hslot i
    refine ⟨hid, ?_⟩
    rwa [live_iff, hid, hst, ← live_iff]
  · obtain ⟨hid, hst⟩ := hslot i
    exact ⟨hst ▸ hi, hid⟩
  · obtain ⟨hid, hst⟩ := hslot i
    exact ⟨hst ▸ hi, hid⟩

/-- A frame that closes one slot. -/
theorem close (h : SlotLedger steps c) (pos : Fin connMaxStreams)
    (hopened : st.before.Completes st.frame → StreamClosed st.frame.streamId (steps ++ [st]))
    (hclosed : live (c.streams pos) = true → StreamClosed (c.streams pos).id (steps ++ [st]))
    (hpos : (c'.streams pos).state = .closed)
    (hother : ∀ i, i ≠ pos → c'.streams i = c.streams i)
    (hblock : c'.headerBlockOpen = true → c'.headerBlockOpen = c.headerBlockOpen
      ∧ c'.headerBlockFlags = c.headerBlockFlags
      ∧ c'.headerBlockStreamId = c.headerBlockStreamId) :
    SlotLedger (steps ++ [st]) c' := by
  refine h.step (fun hcomp => Or.inl (hopened hcomp)) (fun i hlive => ?_) (fun i hi => Or.inl ?_)
    -- a half-closed slot afterwards is another one, and that has not changed
    (fun i hi => Or.inl ?_) fun hopen hend => Or.inl ?_
  · by_cases hi : i = pos
    · subst hi
      exact Or.inl (hclosed hlive)
    · rw [hother i hi]
      exact Or.inr ⟨rfl, hlive⟩
  · have hne : i ≠ pos := by
      rintro rfl
      rw [hpos] at hi
      cases hi
    rw [hother i hne] at hi ⊢
    exact ⟨hi, rfl⟩
  · have hne : i ≠ pos := by
      rintro rfl
      rw [hpos] at hi
      cases hi
    rw [hother i hne] at hi ⊢
    exact ⟨hi, rfl⟩
  · obtain ⟨hsame, hflags, hid⟩ := hblock hopen
    exact ⟨hsame ▸ hopen, hflags ▸ hend, hid⟩

/-! ### Responses -/

/-- The DATA frame of a response ends the side of the server. -/
theorem serverEnded_of_answers {c₁ : Connection} (hans : Answers c₁ st.queued c') {f : Frame}
    (hf : f ∈ st.queued) (ht : f.type = FrameType.data.toByte) (steps : List FrameStep) :
    ServerEnded f.streamId (steps ++ [st]) := by
  refine ⟨st, List.mem_append_right _ (List.mem_singleton.mpr rfl), f, hf, ht, rfl, ?_⟩
  obtain ⟨streamId, -, -, ⟨n, -, rfl⟩ | ⟨body, -, rfl⟩⟩ := hans.answer f hf
  · simp [responseHeaders] at ht
  · exact (by decide : hasFlag flagEndStream flagEndStream = true)

/-- A slot in use stays in use, or both sides have ended its stream. -/
theorem answers_live {c₁ : Connection} (hans : Answers c₁ st.queued c') (steps : List FrameStep)
    (i : Fin connMaxStreams)
    (hclient : (c₁.streams i).state = .halfClosedRemote →
      ClientEnded (c₁.streams i).id (steps ++ [st]))
    (hlive : live (c₁.streams i) = true) : StreamClosed (c₁.streams i).id (steps ++ [st])
      ∨ (c'.streams i).id = (c₁.streams i).id ∧ live (c'.streams i) = true := by
  have hid := hans.id i
  rw [live_iff] at hlive
  rcases hans.slot i with ⟨hst, -⟩ | ⟨⟨-, hst, -⟩ | ⟨hst, -⟩, f, hf, ht, hfid⟩
  · refine Or.inr ⟨hid, ?_⟩
    rw [live_iff, hid, hst]
    exact hlive
  · refine Or.inr ⟨hid, ?_⟩
    rw [live_iff, hid, hst]
    exact ⟨hlive.1, by decide⟩
  · refine Or.inl (Or.inr ⟨hclient hst, ?_⟩)
    rw [← hfid]
    exact serverEnded_of_answers hans hf ht steps

theorem answers_client {c₁ : Connection} {fs : List Frame} (hans : Answers c₁ fs c')
    {i : Fin connMaxStreams} (hi : (c'.streams i).state = .halfClosedRemote) :
    (c₁.streams i).state = .halfClosedRemote ∧ (c'.streams i).id = (c₁.streams i).id := by
  rcases hans.slot i with ⟨hst, -⟩ | ⟨⟨-, hst, -⟩ | ⟨-, hst⟩, -⟩
  · exact ⟨hst ▸ hi, hans.id i⟩
  · rw [hst] at hi
    cases hi
  · rw [hst] at hi
    cases hi

theorem answers_server {c₁ : Connection} (hans : Answers c₁ st.queued c') {i : Fin connMaxStreams}
    (hi : (c'.streams i).state = .halfClosedLocal) (steps : List FrameStep) :
    (c₁.streams i).state = .halfClosedLocal ∧ (c'.streams i).id = (c₁.streams i).id
      ∨ ServerEnded (c'.streams i).id (steps ++ [st]) := by
  rcases hans.slot i with ⟨hst, -⟩ | ⟨-, f, hf, ht, hfid⟩
  · exact Or.inl ⟨hst ▸ hi, hans.id i⟩
  · rw [hans.id i, ← hfid]
    exact Or.inr (serverEnded_of_answers hans hf ht steps)

/-- Credit that unblocks responses. -/
theorem credit (h : SlotLedger steps c) (hnot : ¬ st.before.Completes st.frame) {c₁ : Connection}
    (hans : Answers c₁ st.queued c')
    (hslot : ∀ i, (c₁.streams i).id = (c.streams i).id ∧ (c₁.streams i).state = (c.streams i).state)
    (hblock : c₁.headerBlockOpen = c.headerBlockOpen ∧ c₁.headerBlockFlags = c.headerBlockFlags
      ∧ c₁.headerBlockStreamId = c.headerBlockStreamId) : SlotLedger (steps ++ [st]) c' := by
  have hsame : ∀ i, live (c₁.streams i) = live (c.streams i) := by
    intro i
    simp [live, (hslot i).1, (hslot i).2]
  refine h.step (fun hcomp => absurd hcomp hnot) (fun i hlive => ?_) (fun i hi => Or.inl ?_)
    (fun i hi => ?_) fun hopen hend => Or.inl ?_
  · obtain ⟨hid, hst⟩ := hslot i
    have hkept := answers_live hans steps i (fun hst' => by
      rw [hid]
      exact (h.client i (hst ▸ hst')).snoc st) (by rw [hsame]; exact hlive)
    rwa [hid] at hkept
  · obtain ⟨hst, hid⟩ := answers_client hans hi
    exact ⟨(hslot i).2 ▸ hst, hid.trans (hslot i).1⟩
  · rcases answers_server hans hi steps with ⟨hst, hid⟩ | hended
    · exact Or.inl ⟨(hslot i).2 ▸ hst, hid.trans (hslot i).1⟩
    · exact Or.inr hended
  · obtain ⟨hopen', hflags', hid'⟩ := hans.block
    rw [hopen', hblock.1] at hopen
    rw [hflags', hblock.2.1] at hend
    exact ⟨hopen, hend, hid'.trans hblock.2.2⟩

/-- The flags of a header block are those of its HEADERS frame. -/
theorem blockOf_ended (h : SlotLedger steps st.before) {flags : UInt8} {block : List UInt8}
    (hblock : st.before.blockOf st.frame = some (flags, block))
    (hend : hasFlag flags flagEndStream = true) :
    ClientEnded st.frame.streamId (steps ++ [st]) := by
  rcases blockOf_flags hblock with ⟨ht, rfl⟩ | ⟨hopen, hid, rfl⟩
  · exact .last (Or.inl ht) hend steps
  · rw [hid]
    exact (h.block hopen hend).snoc st

/-- A request that is accepted. -/
theorem request (h : SlotLedger steps st.before) {pos : Fin connMaxStreams} {flags : UInt8}
    {block bytes path : List UInt8} (hblock : st.before.blockOf st.frame = some (flags, block))
    (hodd : st.frame.streamId % 2 = 1) (hfree : st.before.freeSlot = some pos)
    (hans : Answers ({ st.before with headerBlockOpen := false, headerBlock := bytes }.withStream pos
      st.frame.streamId path (if hasFlag flags flagEndStream then .halfClosedRemote else .opened))
      st.queued c') : SlotLedger (steps ++ [st]) c' := by
  have hself := withStream_streams { st.before with headerBlockOpen := false, headerBlock := bytes }
    pos st.frame.streamId path (if hasFlag flags flagEndStream then .halfClosedRemote else .opened)
  have hother : ∀ i, i ≠ pos → ({ st.before with
      headerBlockOpen := false, headerBlock := bytes }.withStream pos st.frame.streamId path
        (if hasFlag flags flagEndStream then .halfClosedRemote else .opened)).streams i
      = st.before.streams i := fun i hi => withStream_streams_ne hi _ _ _
  have hended : (if hasFlag flags flagEndStream then StreamState.halfClosedRemote else .opened)
      = .halfClosedRemote → ClientEnded st.frame.streamId (steps ++ [st]) := by
    intro hst
    split_ifs at hst with hend
    exact h.blockOf_ended hblock hend
  have hclosedBlock : c'.headerBlockOpen = false := hans.block.1
  generalize ({ st.before with headerBlockOpen := false, headerBlock := bytes }.withStream pos
    st.frame.streamId path (if hasFlag flags flagEndStream then .halfClosedRemote else .opened)) = c₁
    at hans hself hother
  have hid : (c₁.streams pos).id = st.frame.streamId := by rw [hself]; rfl
  -- before the response: the new stream is half closed only when the block carried END_STREAM
  have hclient : ∀ i, (c₁.streams i).state = .halfClosedRemote →
      ClientEnded (c₁.streams i).id (steps ++ [st]) := by
    intro i hi
    by_cases hpos : i = pos
    · rw [hpos] at hi ⊢
      rw [hself] at hi
      rw [hid]
      exact hended hi
    · rw [hother i hpos] at hi ⊢
      exact (h.client i hi).snoc st
  refine h.step (fun _ => ?_) (fun i hlive => ?_) (fun i hi => ?_) (fun i hi => ?_) fun hopen => ?_
  · -- the new stream
    have hnew : live (c₁.streams pos) = true := by
      rw [live_iff, hid, hself]
      refine ⟨by omega, ?_⟩
      split_ifs <;> simp
    rcases answers_live hans steps pos (hclient pos) hnew with hclosed | ⟨hid', hlive⟩
    · rw [hid] at hclosed
      exact Or.inl hclosed
    · exact Or.inr ⟨pos, hid'.trans hid, hlive⟩
  · -- its slot was free, so no other stream has lost one
    have hne : i ≠ pos := by
      rintro rfl
      have hreuse := freeSlot_eq_some hfree
      rw [reusable_eq_not_live, hlive] at hreuse
      cases hreuse
    have hkept := answers_live hans steps i (hclient i) (by rw [hother i hne]; exact hlive)
    rwa [hother i hne] at hkept
  · -- the response never ends the side of the client
    obtain ⟨hst, hid'⟩ := answers_client hans hi
    rw [hid']
    exact Or.inr (hclient i hst)
  · -- a stream half closed by the server was so before, or the response ended it
    rcases answers_server hans hi steps with ⟨hst, hid'⟩ | hended
    · have hne : i ≠ pos := by
        rintro rfl
        rw [hself] at hst
        split_ifs at hst
      rw [hother i hne] at hst hid'
      exact Or.inl ⟨hst, hid'⟩
    · exact Or.inr hended
  · rw [hclosedBlock] at hopen
    cases hopen

/-- The state of a stream after a DATA frame that does not close it. -/
theorem received_state {s : Stream} {len : Nat} {endStream : Bool}
    (hopen : ¬ (endStream = true ∧ s.state = .halfClosedLocal)) :
    (received s len endStream).id = s.id ∧ ((received s len endStream).state = s.state
      ∨ (received s len endStream).state = .halfClosedRemote ∧ endStream = true) := by
  unfold received
  split_ifs with hend hhcl
  · exact absurd ⟨hend, hhcl⟩ hopen
  · exact ⟨rfl, Or.inr ⟨rfl, hend⟩⟩
  · exact ⟨rfl, Or.inl rfl⟩

/-- **Every accepted frame keeps the ledger.** -/
theorem accept {fs : List Frame} (h : SlotLedger steps st.before)
    (hacc : Accepts st.before st.frame fs c') (hq : st.queued = fs) :
    SlotLedger (steps ++ [st]) c' := by
  -- frames that end no block leave every slot as it is, or change only its windows
  have hpart : st.before.blockOf st.frame = none → ¬ st.before.Completes st.frame := by
    intro hblock hcomp
    have hsome := hcomp.2
    rw [hblock] at hsome
    cases hsome
  have hkeep : ∀ i, (st.before.streams i).id = (st.before.streams i).id
      ∧ (st.before.streams i).state = (st.before.streams i).state := fun i => ⟨rfl, rfl⟩
  cases hacc with
  | ignore hack ht hblock =>
      exact h.still (hpart hblock) hkeep fun hopen hend => Or.inl ⟨hopen, hend, rfl⟩
  | ping hack =>
      exact h.still (hpart (blockOf_ack hack)) hkeep fun hopen hend => Or.inl ⟨hopen, hend, rfl⟩
  | settings settings hparse hack hall =>
      rw [foldl_applied]
      refine h.still (hpart (blockOf_ack hack)) (fun i => ?_)
        fun hopen hend => Or.inl ⟨hopen, hend, rfl⟩
      obtain ⟨hid, hst, -⟩ := resizeWindows_slot st.before
        (lastValue settingsInitialWindowSize settings st.before.initialStreamWindow) i
      exact ⟨hid, hst⟩
  | beginBlock bytes ht hblock =>
      exact h.still (hpart hblock) hkeep fun _ hend => Or.inr (.last (Or.inl ht) hend steps)
  | extendBlock bytes ht hblock =>
      exact h.still (hpart hblock) hkeep fun hopen hend => Or.inl ⟨hopen, hend, rfl⟩
  -- a request: the slot it takes is the one new owner
  | request pos flags block bytes path fs c' hadmits hblock hodd hlast hfree hpath hne hres hans =>
      rw [← hq] at hans
      exact h.request hblock hodd hfree hans
  -- no slot is free: RST_STREAM closes the stream without one
  | refuse bytes hcomp hodd hlast hfull =>
      refine h.step (fun _ => Or.inl ?_) (fun i hlive => Or.inr ⟨rfl, hlive⟩)
        (fun i hi => Or.inl ⟨hi, rfl⟩) (fun i hi => Or.inl ⟨hi, rfl⟩) fun hopen => by cases hopen
      exact .last (Or.inr (by rw [hq]; exact List.mem_singleton.mpr rfl)) rfl
        (Frame.of_streamId st.frame.streamId_lt _ _ _) steps
  -- the slot is taken and given back, and RST_STREAM says so
  | badPath pos bytes path ret hcomp hodd hlast hfree hpath hret =>
      refine h.close pos (fun _ => ?_) (fun hlive => ?_) ?_ (fun i hi => ?_) fun hopen => by cases hopen
      · exact .last (Or.inr (by rw [hq]; exact List.mem_singleton.mpr rfl)) rfl
          (Frame.of_streamId st.frame.streamId_lt _ _ _) steps
      · have hreuse := freeSlot_eq_some hfree
        rw [reusable_eq_not_live, hlive] at hreuse
        cases hreuse
      · rw [setStream_streams_self]
        rfl
      · rw [setStream_streams_ne _ hi]
        exact withStream_streams_ne hi _ _ _
  -- DATA moves its own slot only, to half closed (remote) when END_STREAM is set
  | data pos ht hfind hst hconn hstream hopen =>
      have hid := findStream_eq_some hfind
      obtain ⟨hrid, hrst⟩ := received_state hopen
      generalize received (st.before.streams pos) st.frame.payload.length
        (hasFlag st.frame.flags flagEndStream) = s at hrid hrst
      have hself := refilled_streams_self st.before pos st.frame.payload.length s
      have hother := fun i hi => @refilled_streams_ne pos st.before i hi st.frame.payload.length s
      obtain ⟨hsame, hflags, hbid⟩ := refilled_block st.before pos st.frame.payload.length s
      generalize (((st.before.charged st.frame.payload.length).setStream pos s).refillConn).refillStream
        pos = c₂ at hself hother hsame hflags hbid
      refine h.step (fun hcomp => absurd ht hcomp.type_ne_data) (fun i hlive => Or.inr ?_)
        (fun i hi => ?_) (fun i hi => Or.inl ?_)
        fun hopen hend => Or.inl ⟨hsame ▸ hopen, hflags ▸ hend, hbid⟩
      · -- the slots in use stay in use
        by_cases hi : i = pos
        · subst hi
          rw [hself]
          refine ⟨hrid, ?_⟩
          rw [live_iff] at hlive ⊢
          refine ⟨by simp only [hrid]; exact hlive.1, ?_⟩
          rcases hrst with hrst | ⟨hrst, -⟩
          · simp only [hrst]
            exact hlive.2
          · simp [hrst]
        · rw [hother i hi]
          exact ⟨rfl, hlive⟩
      · -- the side of the client is ended by this very frame
        by_cases hpos : i = pos
        · subst hpos
          rw [hself] at hi ⊢
          rcases hrst with hrst | ⟨-, hend⟩
          · exact Or.inl ⟨hrst ▸ hi, hrid⟩
          · refine Or.inr ?_
            simp only [hrid, hid]
            exact .last (Or.inr ht) hend steps
        · rw [hother i hpos] at hi ⊢
          exact Or.inl ⟨hi, rfl⟩
      · -- the side of the server is not touched
        by_cases hpos : i = pos
        · subst hpos
          rw [hself] at hi ⊢
          rcases hrst with hrst | ⟨hrst, -⟩
          · exact ⟨hrst ▸ hi, hrid⟩
          · simp only [hrst] at hi
            cases hi
        · rw [hother i hpos] at hi ⊢
          exact ⟨hi, rfl⟩
  -- the server had ended its side, so END_STREAM closes the stream
  | lastData pos ht hfind hend hst hconn hstream =>
      have hid := findStream_eq_some hfind
      refine h.close pos (fun hcomp => absurd ht hcomp.type_ne_data) (fun _ => ?_) ?_ (fun i hi => ?_)
        fun _ => ⟨rfl, rfl, rfl⟩
      · rw [hid]
        refine Or.inr ⟨.last (Or.inr ht) hend steps, ?_⟩
        rw [← hid]
        exact (h.server pos hst).snoc st
      · show ((setStream _ pos _).streams pos).state = .closed
        rw [setStream_streams_self]
        rfl
      · exact setStream_streams_ne _ hi _
  -- DATA after END_STREAM is answered by RST_STREAM
  | lateData pos ht hfind hst hconn =>
      have hid := findStream_eq_some hfind
      refine h.close pos (fun hcomp => absurd ht hcomp.type_ne_data) (fun _ => ?_) ?_ (fun i hi => ?_)
        fun _ => ⟨rfl, rfl, rfl⟩
      · rw [hid]
        exact .last (Or.inr (by rw [hq]; exact List.mem_append_right _ (List.mem_singleton.mpr rfl))) rfl
          (Frame.of_streamId st.frame.streamId_lt _ _ _) steps
      · rw [setStream_streams_self]
        rfl
      · exact setStream_streams_ne _ hi _
  | reset pos ht hfind =>
      have hid := findStream_eq_some hfind
      refine h.close pos (fun hcomp => ?_) (fun _ => ?_) ?_ (fun i hi => ?_)
        fun _ => ⟨rfl, rfl, rfl⟩
      · exact .last (Or.inl rfl) ht rfl steps
      · rw [hid]
        exact .last (Or.inl rfl) ht rfl steps
      · rw [setStream_streams_self]
        rfl
      · exact setStream_streams_ne _ hi _
  | creditConn increment fs c' ht hmax hans =>
      rw [← hq] at hans
      exact h.credit (hpart (blockOf_windowUpdate ht)) hans hkeep ⟨rfl, rfl, rfl⟩
  | creditStream pos increment fs c' ht hfind h0 hmax hans =>
      rw [← hq] at hans
      refine h.credit (hpart (blockOf_windowUpdate ht)) hans (fun i => ?_) ⟨rfl, rfl, rfl⟩
      by_cases hi : i = pos
      · subst hi
        rw [setStream_streams_self]
        exact ⟨rfl, rfl⟩
      · rw [setStream_streams_ne _ hi]
        exact ⟨rfl, rfl⟩

end SlotLedger

/-! ## All runs -/

theorem exec_slotLedger {ops : List Op} (hok : (exec ops).AllOk) :
    SlotLedger (exec ops).steps (exec ops).conn ∧ ∀ i, Settled ((exec ops).conn.streams i) := by
  refine (exec_accepted (R := fun steps c => SlotLedger steps c ∧ ∀ i, Settled (c.streams i))
    ?_ ?_ ?_ ops).1 (exec_steps_ok hok)
  · exact fun steps hist c h _ _ _ _ _ _ =>
      ⟨⟨h.1.owned, h.1.client, h.1.server, h.1.block⟩, h.2⟩
  · refine ⟨⟨by simp, fun i hi => ?_, fun i hi => ?_, fun hopen => ?_⟩, fun i hid => ?_⟩
    · cases hi
    · cases hi
    · cases hopen
    · exact absurd rfl hid
  · rintro steps c f hc ⟨hledger, hsettled⟩ hok
    have hacc := handleFrame_accepts hc hok
    exact ⟨@SlotLedger.accept _ steps (c.frameStep f) _ hledger hacc rfl,
      handleFrame_settled hc hsettled hok⟩

/-- **The slot table**, in every run without errors: the ids are distinct, odd and not above the
last stream id, every slot in use is settled, and a stream that has been opened and that neither
side has closed has a slot. -/
theorem slot_table_invariant {ops : List Op} (hok : (exec ops).AllOk) :
    (∀ i, ((exec ops).conn.streams i).id ≠ 0 →
      ((exec ops).conn.streams i).id % 2 = 1
        ∧ ((exec ops).conn.streams i).id ≤ (exec ops).conn.lastStreamId
        ∧ ∀ j, ((exec ops).conn.streams j).id = ((exec ops).conn.streams i).id → j = i)
    ∧ (∀ i, Settled ((exec ops).conn.streams i))
    ∧ ∀ st ∈ (exec ops).steps, st.before.Completes st.frame →
        ¬ StreamClosed st.frame.streamId (exec ops).steps →
        ∃ i, ((exec ops).conn.streams i).id = st.frame.streamId
          ∧ ((exec ops).conn.streams i).state ≠ .closed := by
  have hinv := (exec_good ops).inv
  obtain ⟨hledger, hsettled⟩ := exec_slotLedger hok
  refine ⟨fun i hi => ⟨hinv.id_odd i hi, hinv.id_le i, fun j hj => ?_⟩, hsettled, ?_⟩
  · exact (hinv.id_inj i j hi hj.symm).symm
  · intro st hst hcomp hopen
    rcases hledger.owned st hst hcomp with hclosed | ⟨i, hid, hlive⟩
    · exact absurd hclosed hopen
    · exact ⟨i, hid, (live_iff.mp hlive).2⟩

/-- A client that gives no credit for a response. -/
def blockedRequest : List Op :=
  [.feed (clientInput [settingsFrame settingsInitialWindowSize 0, getRequest 1])]

set_option maxRecDepth 20000 in
theorem slot_table_invariant_blocked : ∃ i, ((exec blockedRequest).conn.streams i).id = 1
    ∧ ((exec blockedRequest).conn.streams i).state ≠ .closed := by
  have hok : (exec blockedRequest).AllOk := by decide +kernel
  have hopen : ∀ st ∈ (exec blockedRequest).steps, st.frame.type ≠ FrameType.rstStream.toByte
      ∧ ∀ f ∈ st.queued, f.type ≠ FrameType.rstStream.toByte
        ∧ f.type ≠ FrameType.data.toByte := by decide +kernel
  have hall : (exec blockedRequest).steps.map
      (fun st => (st.frame.streamId, decide (st.before.Completes st.frame)))
      = [(0, false), (1, true)] := by decide +kernel
  obtain ⟨settings, rest, hsteps, -, hrest⟩ := List.map_eq_cons_iff.mp hall
  obtain ⟨request, rest', rfl, hrequest, -⟩ := List.map_eq_cons_iff.mp hrest
  simp only [Prod.mk.injEq, decide_eq_true_eq] at hrequest
  have hslot := (@slot_table_invariant blockedRequest hok).2.2 request (by rw [hsteps]; simp)
    hrequest.2
  rw [hrequest.1] at hslot
  refine hslot ?_
  rintro (⟨st, hst, f, rfl | hf, ht, -⟩ | ⟨-, st, hst, f, hf, ht, -⟩)
  · exact (hopen st hst).1 ht
  · exact ((hopen st hst).2 f hf).1 ht
  · exact ((hopen st hst).2 f hf).2 ht

end C11Omo.Http2
