import C11Omo.Http2.FlowControl

set_option autoImplicit false

/-! # Responses that wait for credit

A response body that a send window does not cover is put off. A WINDOW_UPDATE frame sends what it
unblocks (`flushDeferredResponses_ready`), and no other action unblocks a response
(`Act.ready`) but one: SETTINGS_INITIAL_WINDOW_SIZE raises the stream windows and does not flush.
So a response may be left waiting although both windows cover it (`deferred_response_stuck`). The
frames that unblock nothing are exactly the safe ones (`deferred_responses_blocked`).
-/

namespace C11Omo.Http2

open C11Omo.Lib Connection

namespace Connection

/-- If a response is put off at `pos`, it really is blocked. -/
def ReadyAt (c : Connection) (pos : Fin connMaxStreams) : Prop :=
  live (c.streams pos) = true → (c.streams pos).responseBodyDeferred = true → c.Blocked pos

/-- No response is put off that could be sent. -/
def Ready (c : Connection) : Prop := ∀ pos, c.ReadyAt pos

instance (c : Connection) (pos : Fin connMaxStreams) : Decidable (c.ReadyAt pos) :=
  inferInstanceAs (Decidable (_ → _ → _))

instance (c : Connection) : Decidable c.Ready := inferInstanceAs (Decidable (∀ _, _))

end Connection

/-- The write of a slot keeps what is blocked blocked. -/
theorem readyAt_setStream {c : Connection} {i : Fin connMaxStreams} (h : c.ReadyAt i)
    {pos : Fin connMaxStreams} {s : Stream}
    (hs : i = pos → live s = true → s.responseBodyDeferred = true →
      c.connSendWindow < (responseBody s.path).length
        ∨ s.sendWindow < (responseBody s.path).length) : (c.setStream pos s).ReadyAt i := by
  by_cases hi : i = pos
  · subst hi
    intro hl hd
    rw [setStream_streams_self] at hl hd
    have hb := hs rfl hl hd
    show c.connSendWindow < (responseBody ((c.setStream i s).streams i).path).length
      ∨ ((c.setStream i s).streams i).sendWindow < _
    rwa [setStream_streams_self]
  · have hother := setStream_streams_ne c hi s
    intro hl hd
    rw [hother] at hl hd
    have hb := h hl hd
    show c.connSendWindow < (responseBody ((c.setStream pos s).streams i).path).length
      ∨ ((c.setStream pos s).streams i).sendWindow < _
    rwa [hother]

/-- **No action unblocks a response**, apart from credit and a new initial window size. -/
theorem Act.ready {c c' : Connection} {es : List Event} (hc : Inv c) (h : Act c es c')
    (hq : Queues es) {i : Fin connMaxStreams} (hr : c.ReadyAt i) : c'.ReadyAt i := by
  cases h with
  | control f hf hroom => exact hr
  | recvConn w hw => exact hr
  | recvStream pos w hw =>
      refine readyAt_setStream hr ?_
      rintro rfl hl hd
      exact hr hl hd
  | openSlot pos streamId hfree hodd hlast hlt =>
      refine readyAt_setStream hr ?_
      rintro rfl hl hd
      simp [Stream.init, Stream.zero] at hd
  | path pos p hidle hlen htext =>
      refine readyAt_setStream hr ?_
      rintro rfl hl hd
      -- a stream with a deferred response is not idle
      have := ((hc.slot i).deferred hd).1
      simp [hidle] at this
  | request pos endStream hidle =>
      refine readyAt_setStream hr ?_
      rintro rfl hl hd
      have := ((hc.slot i).deferred hd).1
      simp [hidle] at this
  | sendHeaders pos hcan hnew hroom =>
      refine readyAt_setStream (c := c.push _) hr ?_
      rintro rfl hl hd
      exact hr hl hd
  | defer pos hcan hhead hbody hpath hblocked =>
      refine readyAt_setStream hr ?_
      rintro rfl hl hd
      exact hblocked
  | sendData pos hcan hhead hbody hpath hconn hstream hroom =>
      -- the window of the connection only goes down
      have hdown : ({ c.push (responseData (c.streams pos).id (responseBody (c.streams pos).path))
          with
          connSendWindow := c.connSendWindow - (responseBody (c.streams pos).path).length
          responsesSent := (c.responsesSent + 1) % 4294967296 } : Connection).ReadyAt i := by
        intro hl hd
        rcases hr hl hd with hb | hb
        · refine Or.inl ?_
          show c.connSendWindow - _ < _
          simp only [push]
          omega
        · exact Or.inr hb
      refine readyAt_setStream hdown ?_
      rintro rfl hl hd
      rcases hcan.2 with hst | hst
      · simp [push, Stream.sendEndStream, hst] at hd
      · simp [push, Stream.sendEndStream, hst, Stream.close] at hd
  | endRemote pos hopen =>
      refine readyAt_setStream hr ?_
      rintro rfl hl hd
      refine hr ?_ hd
      rw [live_iff] at hl ⊢
      exact ⟨hl.1, by simp [hopen]⟩
  | close pos =>
      refine readyAt_setStream hr ?_
      rintro rfl hl hd
      simp [Stream.close] at hd
  | creditConn increment hmax => simp [Queues] at hq
  | creditStream pos increment hid hmax => simp [Queues] at hq
  | resize value hvalue hrange => simp [Queues] at hq
  | shiftOne pos w hw => simp [Queues] at hq
  | maxFrame size hsize => exact hr
  | block isOpen streamId flags bytes => exact hr

theorem Acts.ready {c c' : Connection} {es : List Event} (hc : Inv c) (h : Acts c es c')
    (hq : Queues es) {i : Fin connMaxStreams} (hr : c.ReadyAt i) : c'.ReadyAt i := by
  induction h with
  | refl => exact hr
  | head hact _ ih =>
      have hq₁ := fun e he => hq e (List.mem_append_left _ he)
      have hq₂ := fun e he => hq e (List.mem_append_right _ he)
      exact ih (hact.inv hc) hq₂ (hact.ready hc hq₁ hr)

theorem Does.ready {c : Connection} (hc : Inv c) {r : ErrorCode × Connection} (h : Does c r)
    {i : Fin connMaxStreams} (hr : c.ReadyAt i) : r.2.ReadyAt i := by
  obtain ⟨es, hes, hq⟩ := h
  exact hes.ready hc hq.queues hr

namespace Connection

variable {c : Connection} {pos : Fin connMaxStreams}

/-- A deferred response that is taken up is sent, or still blocked. -/
theorem queueDeferredData_ready (hc : Inv c) (hcan : (c.streams pos).CanSend)
    (hok : (c.queueDeferredData pos (responseBody (c.streams pos).path)).1 = .ok) :
    (c.queueDeferredData pos (responseBody (c.streams pos).path)).2.ReadyAt pos := by
  rw [queueDeferredData_eq hc hcan] at hok ⊢
  by_cases hb : c.Blocked pos
  · rw [if_pos hb]
    intro _ _
    show c.connSendWindow < _ ∨ _
    rw [setStream_streams_self]
    exact hb
  · rw [if_neg hb] at hok ⊢
    by_cases hfit : c.Fits (c.dataFrame pos)
    · rw [if_pos hfit]
      intro _ hd
      rw [answered, setStream_streams_self] at hd
      rcases hcan.2 with hst | hst
      · simp [push, Stream.sendEndStream, hst] at hd
      · simp [push, Stream.sendEndStream, hst, Stream.close] at hd
    · rw [if_neg hfit] at hok
      cases hok

/-- **A flush that succeeds leaves no response behind that could be sent.** -/
theorem flushDeferredLoop_ready (hc : Inv c) {ps : List (Fin connMaxStreams)}
    (hok : (flushDeferredLoop ps c).1 = .ok) {i : Fin connMaxStreams}
    (h : i ∈ ps ∨ c.ReadyAt i) : (flushDeferredLoop ps c).2.ReadyAt i := by
  induction ps generalizing c with
  | nil => exact h.resolve_left List.not_mem_nil
  | cons pos rest ih =>
      rw [flushDeferredLoop] at hok ⊢
      -- the response at this slot is tried: it goes out, or it is blocked
      by_cases hd : live (c.streams pos) ∧ (c.streams pos).responseBodyDeferred
      · obtain ⟨hst, hhead, hbody, hpath⟩ := (hc.slot pos).deferred hd.2
        have hcan : (c.streams pos).CanSend := ⟨(live_iff.mp hd.1).1, hst⟩
        have hdoes := queueDeferredData_does hc hcan hhead hbody hpath
        have hready := queueDeferredData_ready hc hcan
        rw [if_pos hd, queueResponse_deferred hc hd.2] at hok ⊢
        rcases hres : c.queueDeferredData pos (responseBody (c.streams pos).path) with ⟨ret, c₁⟩
        rw [hres] at hok hdoes hready
        by_cases hret : ret = .ok
        · subst hret
          refine ih (hdoes.inv hc) hok ?_
          rcases h with hmem | hr
          · rcases List.mem_cons.mp hmem with rfl | hmem
            · exact Or.inr (hready rfl)
            · exact Or.inl hmem
          · exact Or.inr (hdoes.ready hc hr)
        · rw [andThen_err hret] at hok
          exact absurd hok hret
      · rw [if_neg hd] at hok ⊢
        refine ih hc hok ?_
        rcases h with hmem | hr
        · rcases List.mem_cons.mp hmem with rfl | hmem
          · exact Or.inr fun hl hdef => absurd ⟨hl, hdef⟩ hd
          · exact Or.inl hmem
        · exact Or.inr hr

theorem flushDeferredResponses_ready (hc : Inv c) (hok : c.flushDeferredResponses.1 = .ok) :
    c.flushDeferredResponses.2.Ready := fun i =>
  flushDeferredLoop_ready hc hok (Or.inl (List.mem_finRange i))

/-- A WINDOW_UPDATE frame that is accepted leaves no response behind that could be sent. -/
theorem processWindowUpdate_ready (hc : Inv c) (hr : c.Ready) {header : FrameHeader}
    {payload : List UInt8} (hok : (c.processWindowUpdate header payload).1 = .ok) :
    (c.processWindowUpdate header payload).2.Ready := by
  rcases hparse : parseWindowUpdate header payload with ret | increment
  · rw [processWindowUpdate, hparse]
    exact hr
  · rw [processWindowUpdate_eq c hparse] at hok ⊢
    by_cases hid : header.streamId = 0
    · rw [if_pos hid] at hok ⊢
      by_cases hmax : c.connSendWindow + increment > int32Max
      · rw [if_pos hmax]
        exact hr
      · rw [if_neg hmax] at hok ⊢
        exact flushDeferredResponses_ready
          ((Act.creditConn c increment (not_lt.mp hmax)).inv hc) hok
    · rw [if_neg hid] at hok ⊢
      rcases hfind : c.findStream header.streamId with _ | pos
      · exact hr
      · have hpos := findStream_eq_some hfind
        simp only [hfind] at hok
        simp only
        by_cases hmax : (c.streams pos).sendWindow + increment > int32Max
        · rw [if_pos hmax]
          exact hr
        · rw [if_neg hmax] at hok ⊢
          exact flushDeferredResponses_ready
            ((Act.creditStream c pos increment (by rwa [hpos]) (not_lt.mp hmax)).inv hc) hok

/-! ## SETTINGS -/

/-- The last initial window size in a SETTINGS frame leaves every response blocked that is put
off. Other frames meet the condition. -/
def UnblocksNothing (c : Connection) (f : Frame) : Prop :=
  f.type = FrameType.settings.toByte → ∀ settings,
    parseSettings f.header f.payload 32 = .ok settings → ∀ pos, live (c.streams pos) = true →
      (c.streams pos).responseBodyDeferred = true →
        c.connSendWindow < (responseBody (c.streams pos).path).length
          ∨ (c.streams pos).sendWindow
              + (lastValue settingsInitialWindowSize settings c.initialStreamWindow
                - c.initialStreamWindow) < (responseBody (c.streams pos).path).length

/-- **An accepted SETTINGS frame is safe exactly if it unblocks nothing.** -/
theorem applySettings_ready (hc : Inv c) (hr : c.Ready) {f : Frame}
    (hf : f.type = FrameType.settings.toByte)
    (hok : (c.applySettings f.header f.payload).1 = .ok) :
    (c.applySettings f.header f.payload).2.Ready ↔ c.UnblocksNothing f := by
  obtain ⟨settings, hparse, ⟨-, rfl, hres⟩ | ⟨-, hall, hres⟩⟩ := applySettings_of_ok hc hok
  · rw [hres]
    refine ⟨fun _ _ settings' hparse' pos hl hd => ?_, fun _ => hr⟩
    rw [hparse, Except.ok.injEq] at hparse'
    subst hparse'
    have hzero : lastValue settingsInitialWindowSize [] c.initialStreamWindow
        - c.initialStreamWindow = 0 := Int.sub_self _
    rw [hzero, Int.add_zero]
    exact hr pos hl hd
  · rw [hres, foldl_applied]
    have hslot : ∀ pos, live (c.streams pos) = true →
        (c.resizeWindows (lastValue settingsInitialWindowSize settings
          c.initialStreamWindow)).streams pos = (c.streams pos).shift
            (lastValue settingsInitialWindowSize settings c.initialStreamWindow
              - c.initialStreamWindow) := by
      intro pos hl
      simp only [resizeWindows, if_pos hl]
      rfl
    -- only the send windows of live slots have moved, all by the same amount
    have hready : ∀ pos, (Connection.push { c.resizeWindows (lastValue settingsInitialWindowSize
          settings c.initialStreamWindow) with
            maxFrameSize := (lastValue settingsMaxFrameSize settings c.maxFrameSize).toNat }
              settingsAckFrame).ReadyAt pos
        ↔ (live (c.streams pos) = true → (c.streams pos).responseBodyDeferred = true →
          c.connSendWindow < (responseBody (c.streams pos).path).length
            ∨ (c.streams pos).sendWindow
                + (lastValue settingsInitialWindowSize settings c.initialStreamWindow
                  - c.initialStreamWindow) < (responseBody (c.streams pos).path).length) := by
      intro pos
      by_cases hl : live (c.streams pos) = true
      · rw [ReadyAt, Blocked]
        simp only [push]
        rw [hslot pos hl]
        rfl
      · have hl' : ¬ live ((c.resizeWindows (lastValue settingsInitialWindowSize settings
            c.initialStreamWindow)).streams pos) = true := by
          rw [live_resizeWindows]
          exact hl
        exact ⟨fun _ h => absurd h hl, fun _ h => absurd h hl'⟩
    constructor
    · intro h _ settings' hparse' pos
      rw [hparse, Except.ok.injEq] at hparse'
      subst hparse'
      exact (hready pos).mp (h pos)
    · intro h pos
      exact (hready pos).mpr (h hf settings hparse pos)

/-- **Every accepted frame but an unblocking SETTINGS frame leaves no response behind that could
be sent.** -/
theorem handleFrame_ready (hc : Inv c) (hr : c.Ready) {f : Frame}
    (hok : (c.handleFrame f).1 = .ok) : (c.handleFrame f).2.Ready ↔ c.UnblocksNothing f := by
  by_cases hset : f.type = FrameType.settings.toByte
  · obtain ⟨es, -, -, herr⟩ := applySettings_acts hc f.header f.payload
    obtain ⟨-, hcode, heq⟩ := handleFrame_of_ok hset hok herr
    rw [heq]
    exact applySettings_ready hc hr hset hcode
  · refine iff_of_true ?_ (fun h => absurd h hset)
    by_cases hwin : f.type = FrameType.windowUpdate.toByte
    · obtain ⟨es, -, -, herr⟩ := processWindowUpdate_acts hc f.header f.payload
      obtain ⟨-, hcode, heq⟩ := handleFrame_of_ok hwin hok herr
      rw [heq]
      exact processWindowUpdate_ready hc hr hcode
    · have hnil : frameEvents c f = [] := by
        unfold frameEvents
        split
        · next htype => exact absurd (FrameType.ofByte?_eq_some htype) hwin
        · next htype => exact absurd (FrameType.ofByte?_eq_some htype) hset
        · rfl
      have hacts := frameStep_acts hc hok
      rw [FrameStep.events] at hacts
      simp only [frameStep] at hacts
      rw [hnil, List.nil_append] at hacts
      exact fun i => hacts.ready hc (fun e he => by
        obtain ⟨g, -, rfl⟩ := List.mem_map.mp he
        exact ⟨g, rfl⟩) (hr i)

end Connection

/-! ## Runs -/

theorem ready_init : Connection.init.Ready := by
  intro pos hl
  simp [live, Connection.init, Stream.zero] at hl

/-- **Deferred responses in a run without errors**: as long as no SETTINGS frame unblocks a
response, every response that is put off is blocked, in the state after every frame and after
every call; and the first SETTINGS frame that does unblock one leaves it behind. -/
theorem deferred_responses_blocked {ops : List Op} (hok : (exec ops).AllOk) :
    ((∀ st ∈ (exec ops).steps, st.before.UnblocksNothing st.frame) → (exec ops).conn.Ready)
      ∧ ((∀ st ∈ (exec ops).steps, st.after.Ready)
        ↔ ∀ st ∈ (exec ops).steps, st.before.UnblocksNothing st.frame) := by
  have hall := exec_invariant_ok (P := fun o =>
    ((∀ st ∈ o.steps, st.before.UnblocksNothing st.frame) →
      o.conn.Ready ∧ ∀ st ∈ o.steps, st.after.Ready)
    ∧ ((∀ st ∈ o.steps, st.after.Ready) →
      o.conn.Ready ∧ ∀ st ∈ o.steps, st.before.UnblocksNothing st.frame))
    ⟨fun _ => ⟨ready_init, by simp [Run.start]⟩, fun _ => ⟨ready_init, by simp [Run.start]⟩⟩
    ?_ hok
  · exact ⟨fun h => (hall.1 h).1, fun h => (hall.2 h).2, fun h => (hall.1 h).2⟩
  · rintro o o' hg hs ⟨h1, h2⟩
    cases hs with
    | consume sentLen => exact ⟨h1, h2⟩
    | arrive data hfit => exact ⟨h1, h2⟩
    | preface hnew hlen hpre => exact ⟨h1, h2⟩
    | frame f rest hseen hcut hok =>
        have hiff := fun hr => Connection.handleFrame_ready hg.inv hr hok
        -- the condition of a step says that it stays ready, as long as the steps before it were
        constructor
        · intro hall
          obtain ⟨hr, hafter⟩ := h1 fun st hst => hall st (List.mem_append_left _ hst)
          have hnew := (hiff hr).mpr (hall (o.conn.frameStep f) (by simp))
          refine ⟨hnew, fun st hst => ?_⟩
          rcases List.mem_append.mp hst with hst | hst
          · exact hafter st hst
          · rw [List.mem_singleton] at hst
            subst hst
            exact hnew
        · intro hall
          obtain ⟨hr, hcond⟩ := h2 fun st hst => hall st (List.mem_append_left _ hst)
          have hnew : (o.conn.handleFrame f).2.Ready := hall (o.conn.frameStep f) (by simp)
          refine ⟨hnew, fun st hst => ?_⟩
          rcases List.mem_append.mp hst with hst | hst
          · exact hcond st hst
          · rw [List.mem_singleton] at hst
            subst hst
            exact (hiff hr).mp hnew

/-- The client closes the stream windows, asks for `/` and opens the stream windows for one of the
two bytes of the response. -/
def blockedBySettings : List Op :=
  [.feed (clientInput [settingsFrame settingsInitialWindowSize 0, getRequest 1,
    settingsFrame settingsInitialWindowSize 1])]

set_option maxRecDepth 20000 in
/-- The response waits, and the second SETTINGS frame leaves it blocked. -/
theorem deferred_responses_blocked_settings :
    ((exec blockedBySettings).conn.Ready
        ∧ ∀ st ∈ (exec blockedBySettings).steps, st.before.UnblocksNothing st.frame)
      ∧ live ((exec blockedBySettings).conn.streams 0) = true
      ∧ ((exec blockedBySettings).conn.streams 0).responseBodyDeferred = true := by
  have hok : (exec blockedBySettings).AllOk := by decide +kernel
  have hafter : ∀ st ∈ (exec blockedBySettings).steps, st.after.Ready := by decide +kernel
  have hkept := (deferred_responses_blocked hok).2.mp hafter
  exact ⟨⟨(deferred_responses_blocked hok).1 hkept, hkept⟩, by decide +kernel, by decide +kernel⟩

/-- The client closes the stream windows, asks for `/` and opens the stream windows again. -/
def reopenedBySettings : List Op :=
  [.feed (clientInput [settingsFrame settingsInitialWindowSize 0, getRequest 1,
    settingsFrame settingsInitialWindowSize 65535])]

set_option maxRecDepth 20000 in
/-- The response to `/` has two bytes and both windows have room for 65535, but it waits. -/
theorem deferred_response_stuck :
    (exec reopenedBySettings).AllOk ∧ ¬ (exec reopenedBySettings).conn.Ready := by
  refine ⟨by decide +kernel, fun h => ?_⟩
  have hl : live ((exec reopenedBySettings).conn.streams 0) = true := by decide +kernel
  have hd : ((exec reopenedBySettings).conn.streams 0).responseBodyDeferred = true := by decide +kernel
  exact absurd (h 0 hl hd) (by decide +kernel)

end C11Omo.Http2
