import C11Omo.Http2.Output

set_option autoImplicit false

/-! # Send-side flow control

The send windows are a ledger: what the peer has granted minus the DATA that has been queued
(`Ledger`, checked action by action in `Act.ledger`). Along a run without errors this makes the
windows exact (`send_windows_exact`): the DATA frames of the output never overrun the credit, and
no update of the peer is lost or counted twice, whatever SETTINGS_INITIAL_WINDOW_SIZE frames come
in between.
-/

namespace C11Omo.Http2

open C11Omo.Lib Connection

/-! ## The ledger -/

/-- What a frame takes from the send windows. -/
def Frame.dataLength (f : Frame) : Nat :=
  if f.type = FrameType.data.toByte then f.payload.length else 0

/-- The payload bytes of all DATA frames in a list. -/
def dataTotal (fs : List Frame) : Nat := (fs.map Frame.dataLength).sum

/-- The payload bytes of the DATA frames on one stream. -/
def dataOn (streamId : Nat) (fs : List Frame) : Nat :=
  dataTotal (fs.filter (fun f => f.streamId = streamId))

def Event.credited (streamId : Nat) : Event → Nat
  | .credit id increment => if id = streamId then increment else 0
  | _ => 0

/-- The credit a history grants to the connection (`0`) or to a stream. -/
def creditSum (streamId : Nat) (hist : List Event) : Nat :=
  (hist.map (Event.credited streamId)).sum

/-- The initial window size after a history. -/
def initialOf (hist : List Event) : Int :=
  hist.foldl (fun v e => match e with | .resized value => value | _ => v) defaultWindowSize

/-- The send window of the connection, by the ledger. -/
def connLedger (hist : List Event) : Int :=
  65535 + creditSum 0 hist - dataTotal (queuedFrames hist)

/-- The send window of a stream, by the ledger. -/
def streamLedger (streamId : Nat) (hist : List Event) : Int :=
  initialOf hist + creditSum streamId hist - dataOn streamId (queuedFrames hist)

theorem dataTotal_append (fs gs : List Frame) :
    dataTotal (fs ++ gs) = dataTotal fs + dataTotal gs := by
  rw [dataTotal, List.map_append, List.sum_append]
  rfl

theorem dataOn_append (streamId : Nat) (fs gs : List Frame) :
    dataOn streamId (fs ++ gs) = dataOn streamId fs + dataOn streamId gs := by
  rw [dataOn, List.filter_append, dataTotal_append]
  rfl

theorem creditSum_append (streamId : Nat) (es fs : List Event) :
    creditSum streamId (es ++ fs) = creditSum streamId es + creditSum streamId fs := by
  rw [creditSum, List.map_append, List.sum_append]
  rfl

/-! How one more event changes the ledger. -/

theorem connLedger_frame (hist : List Event) (f : Frame) :
    connLedger (hist ++ [Event.queued f]) = connLedger hist - f.dataLength := by
  have hq : queuedFrames [Event.queued f] = [f] := rfl
  have hc : creditSum 0 [Event.queued f] = 0 := rfl
  have hd : dataTotal [f] = f.dataLength := by simp [dataTotal]
  rw [connLedger, connLedger, queuedFrames_append, creditSum_append, dataTotal_append, hq, hc, hd]
  omega

theorem streamLedger_frame (streamId : Nat) (hist : List Event) (f : Frame) :
    streamLedger streamId (hist ++ [Event.queued f])
      = streamLedger streamId hist - (if f.streamId = streamId then f.dataLength else 0 : Nat) := by
  have hq : queuedFrames [Event.queued f] = [f] := rfl
  have hc : creditSum streamId [Event.queued f] = 0 := rfl
  have hi : initialOf (hist ++ [Event.queued f]) = initialOf hist := by
    rw [initialOf, List.foldl_append]
    rfl
  have hd : dataOn streamId [f] = if f.streamId = streamId then f.dataLength else 0 := by
    by_cases h : f.streamId = streamId
    · simp [dataOn, dataTotal, h]
    · simp [dataOn, dataTotal, h]
  rw [streamLedger, streamLedger, queuedFrames_append, creditSum_append, dataOn_append, hq, hc, hi,
    hd]
  omega

theorem connLedger_credit (hist : List Event) (streamId increment : Nat) :
    connLedger (hist ++ [Event.credit streamId increment])
      = connLedger hist + (if streamId = 0 then increment else 0 : Nat) := by
  have hq : queuedFrames [Event.credit streamId increment] = [] := rfl
  have hc : creditSum 0 [Event.credit streamId increment] = if streamId = 0 then increment else 0 := by
    simp [creditSum, Event.credited]
  rw [connLedger, connLedger, queuedFrames_append, creditSum_append, hq, hc, List.append_nil]
  omega

theorem streamLedger_credit (streamId : Nat) (hist : List Event) (id increment : Nat) :
    streamLedger streamId (hist ++ [Event.credit id increment])
      = streamLedger streamId hist + (if id = streamId then increment else 0 : Nat) := by
  have hq : queuedFrames [Event.credit id increment] = [] := rfl
  have hc : creditSum streamId [Event.credit id increment]
      = if id = streamId then increment else 0 := by
    simp [creditSum, Event.credited]
  have hi : initialOf (hist ++ [Event.credit id increment]) = initialOf hist := by
    rw [initialOf, List.foldl_append]
    rfl
  rw [streamLedger, streamLedger, queuedFrames_append, creditSum_append, hq, hc, hi,
    List.append_nil]
  omega

theorem connLedger_resized (hist : List Event) (value : Int) :
    connLedger (hist ++ [Event.resized value]) = connLedger hist := by
  have hq : queuedFrames [Event.resized value] = [] := rfl
  have hc : creditSum 0 [Event.resized value] = 0 := rfl
  rw [connLedger, connLedger, queuedFrames_append, creditSum_append, hq, hc, List.append_nil]
  omega

theorem initialOf_resized (hist : List Event) (value : Int) :
    initialOf (hist ++ [Event.resized value]) = value := by
  rw [initialOf, List.foldl_append]
  rfl

theorem streamLedger_resized (streamId : Nat) (hist : List Event) (value : Int) :
    streamLedger streamId (hist ++ [Event.resized value])
      = streamLedger streamId hist + (value - initialOf hist) := by
  have hq : queuedFrames [Event.resized value] = [] := rfl
  have hc : creditSum streamId [Event.resized value] = 0 := rfl
  rw [streamLedger, streamLedger, queuedFrames_append, creditSum_append, hq, hc, List.append_nil,
    initialOf_resized]
  omega

/-- **The state agrees with the ledger**, and every DATA frame was covered when it was queued. -/
structure Ledger (hist : List Event) (c : Connection) : Prop where
  initial : c.initialStreamWindow = initialOf hist
  conn : c.connSendWindow = connLedger hist
  stream : ∀ i, live (c.streams i) →
    (c.streams i).sendWindow = streamLedger (c.streams i).id hist
  /-- Nothing has happened on streams that have not been opened. -/
  unopened : ∀ streamId, c.lastStreamId < streamId → streamLedger streamId hist = initialOf hist
  covered : ∀ before f after, hist = before ++ .queued f :: after →
    f.type = FrameType.data.toByte →
    (f.payload.length : Int) ≤ connLedger before
      ∧ (f.payload.length : Int) ≤ streamLedger f.streamId before ∧ f.streamId ≠ 0

theorem Ledger.init : Ledger [] Connection.init where
  initial := rfl
  conn := rfl
  stream := by
    intro i hl
    exact absurd hl (by simp [live, Connection.init, Stream.zero])
  unopened := fun streamId _ => by simp [streamLedger, creditSum, dataOn, dataTotal, queuedFrames]
  covered := by
    intro before f after h
    simp at h

theorem Ledger.insensitive : Insensitive fun hist c => Event.torn ∉ hist → Ledger hist c := by
  intro hist c h _ _ _ _ _ _ htorn
  exact { h htorn with }

/-- A slot is written without a change of id or send window, or it is closed. -/
theorem Ledger.setStream {hist : List Event} {c : Connection} (h : Ledger hist c)
    {pos : Fin connMaxStreams} {s : Stream}
    (hs : live s → live (c.streams pos) ∧ s.id = (c.streams pos).id
      ∧ s.sendWindow = (c.streams pos).sendWindow) : Ledger hist (c.setStream pos s) :=
  { h with
    stream := by
      intro i hl
      by_cases hi : i = pos
      · subst hi
        rw [setStream_streams_self] at hl ⊢
        obtain ⟨hlive, hid, hwin⟩ := hs hl
        rw [hid, hwin]
        exact h.stream i hlive
      · rw [setStream_streams_ne c hi] at hl ⊢
        exact h.stream i hl }

theorem covered_append {hist : List Event} {c : Connection} (h : Ledger hist c) {e : Event}
    (he : ∀ f, e = .queued f → f.type = FrameType.data.toByte →
      (f.payload.length : Int) ≤ connLedger hist
        ∧ (f.payload.length : Int) ≤ streamLedger f.streamId hist ∧ f.streamId ≠ 0) :
    ∀ before f after, hist ++ [e] = before ++ Event.queued f :: after →
      f.type = FrameType.data.toByte →
      (f.payload.length : Int) ≤ connLedger before
        ∧ (f.payload.length : Int) ≤ streamLedger f.streamId before ∧ f.streamId ≠ 0 := by
  intro before f after heq hf
  rcases snoc_eq_append_cons heq with ⟨-, rfl, hlast⟩ | ⟨after', -, rfl⟩
  · exact he f hlast hf
  · exact h.covered before f after' rfl hf

/-- A frame that is not DATA leaves the ledger alone. -/
theorem Ledger.control {hist : List Event} {c : Connection} (h : Ledger hist c) {f : Frame}
    (hf : f.type ≠ FrameType.data.toByte) : Ledger (hist ++ [Event.queued f]) (c.push f) := by
  have hlen : f.dataLength = 0 := if_neg hf
  have hstream : ∀ id, streamLedger id (hist ++ [Event.queued f]) = streamLedger id hist := by
    intro id
    rw [streamLedger_frame, hlen]
    split <;> simp
  have hinit : initialOf (hist ++ [Event.queued f]) = initialOf hist := by
    rw [initialOf, List.foldl_append]
    rfl
  refine ⟨?_, ?_, ?_, ?_, ?_⟩
  · rw [hinit]
    exact h.initial
  · rw [connLedger_frame, hlen]
    simpa [push] using h.conn
  · intro i hl
    rw [hstream]
    exact h.stream i hl
  · intro id hid
    rw [hstream, hinit]
    exact h.unopened id hid
  · refine covered_append h fun g hg hdata => ?_
    cases hg
    exact absurd hdata hf

/-- Credit for the connection or for a stream is applied. -/
theorem Ledger.credit {hist : List Event} {c c' : Connection} (h : Ledger hist c)
    {streamId increment : Nat}
    (hconn : c'.connSendWindow = connLedger hist + (if streamId = 0 then increment else 0 : Nat))
    (hstream : ∀ i, live (c'.streams i) → (c'.streams i).sendWindow
      = streamLedger (c'.streams i).id hist
        + (if streamId = (c'.streams i).id then increment else 0 : Nat))
    (hnew : ∀ id, c'.lastStreamId < id → streamId ≠ id)
    (hinit : c'.initialStreamWindow = c.initialStreamWindow := by rfl)
    (hlast : c'.lastStreamId = c.lastStreamId := by rfl) :
    Ledger (hist ++ [Event.credit streamId increment]) c' := by
  have hinit' : initialOf (hist ++ [Event.credit streamId increment]) = initialOf hist := by
    rw [initialOf, List.foldl_append]
    rfl
  refine ⟨?_, ?_, ?_, ?_, ?_⟩
  · rw [hinit', hinit]
    exact h.initial
  · rw [connLedger_credit, hconn]
  · intro i hl
    rw [streamLedger_credit, hstream i hl]
  · intro id hid
    rw [streamLedger_credit, if_neg (hnew id hid), hinit', h.unopened id (hlast ▸ hid)]
    simp
  · exact covered_append h fun g hg => by cases hg

/-- A response body is sent: both ledgers go down by its length. -/
theorem Ledger.sendData {hist : List Event} {c : Connection} (h : Ledger hist c) (hc : Inv c)
    {pos : Fin connMaxStreams} (hcan : (c.streams pos).CanSend)
    (hconn : ((responseBody (c.streams pos).path).length : Int) ≤ c.connSendWindow)
    (hstream : ((responseBody (c.streams pos).path).length : Int) ≤ (c.streams pos).sendWindow) :
    Ledger (hist ++ [Event.queued (c.dataFrame pos)])
      ((c.push (c.dataFrame pos)).answered pos (responseBody (c.streams pos).path).length) := by
  have hpay : (c.dataFrame pos).payload = responseBody (c.streams pos).path := by
    have hlen := responseBody_length_le hc pos
    exact responseData_payload (by omega) _
  have hlen : (c.dataFrame pos).dataLength = (responseBody (c.streams pos).path).length := by
    rw [Frame.dataLength, hpay]
    exact if_pos rfl
  have hid : (c.dataFrame pos).streamId = (c.streams pos).id := Frame.of_streamId (hc.id_lt pos) _ _ _
  have hlive : live (c.streams pos) = true := by
    rw [live_iff]
    refine ⟨hcan.1, ?_⟩
    rcases hcan.2 with hst | hst <;> simp [hst]
  have hinit : initialOf (hist ++ [Event.queued (c.dataFrame pos)]) = initialOf hist := by
    rw [initialOf, List.foldl_append]
    rfl
  refine ⟨?_, ?_, ?_, ?_, ?_⟩
  · rw [hinit]
    exact h.initial
  · -- the connection pays for every DATA frame
    rw [connLedger_frame, hlen, ← h.conn]
    rfl
  · intro i hl
    -- a stream pays for the frames on its own id, and no two slots share one
    rw [streamLedger_frame, hlen, hid]
    by_cases hi : i = pos
    · subst hi
      rw [answered, setStream_streams_self] at hl ⊢
      rcases hcan.2 with hst | hst
      · simp only [push, Stream.sendEndStream, hst, if_true]
        rw [h.stream i hlive]
      · -- the stream is closed now
        simp [push, Stream.sendEndStream, hst, Stream.close, live] at hl
    · rw [answered, setStream_streams_ne _ hi] at hl ⊢
      show (c.streams i).sendWindow = streamLedger (c.streams i).id hist
        - (if (c.streams pos).id = (c.streams i).id then
            (responseBody (c.streams pos).path).length else 0 : Nat)
      rw [if_neg fun heq => hi (hc.id_inj pos i hcan.1 heq).symm]
      simpa using h.stream i hl
  · -- an id above `last_stream_id` has no slot yet, so the frame is on another stream
    intro id hlast
    have hle := hc.id_le pos
    have hne : (c.streams pos).id ≠ id := by
      intro heq
      exact absurd hlast (by
        show ¬ c.lastStreamId < id
        omega)
    rw [streamLedger_frame, hid, if_neg hne, hinit, h.unopened id hlast]
    simp
  · -- the frame is within both windows at the moment it is queued
    refine covered_append h fun g hg hdata => ?_
    cases hg
    rw [hpay, hid, ← h.conn, ← h.stream pos hlive]
    exact ⟨hconn, hstream, hcan.1⟩

/-- **Every action keeps the ledger.** -/
theorem Act.ledger {hist : List Event} {c c' : Connection} {es : List Event} (hc : Inv c)
    (hact : Act c es c') (h : Ledger hist c) (htorn : Event.torn ∉ es) : Ledger (hist ++ es) c' := by
  cases hact with
  | control f hf hroom => exact h.control hf.2.1
  | recvConn w hw =>
      rw [List.append_nil]
      exact { h with }
  | recvStream pos w hw =>
      rw [List.append_nil]
      exact h.setStream fun hl => ⟨hl, rfl, rfl⟩
  -- a new stream starts with the initial window, which is what its ledger says of an id never seen
  | openSlot pos streamId hfree hodd hlast hlt =>
      rw [List.append_nil]
      refine { h with
        stream := ?_
        unopened := fun id hid => h.unopened id (Nat.lt_trans hlast hid) }
      intro i
      show live ((c.setStream pos (Stream.init streamId c.initialStreamWindow)).streams i) → _
      by_cases hi : i = pos
      · subst hi
        intro _
        simp only [setStream_streams_self]
        show c.initialStreamWindow = streamLedger streamId hist
        rw [h.unopened streamId hlast, h.initial]
      · simp only [setStream_streams_ne c hi]
        exact h.stream i
  | path pos p hidle hlen htext =>
      rw [List.append_nil]
      exact h.setStream fun hl => ⟨hl, rfl, rfl⟩
  | request pos endStream hidle =>
      rw [List.append_nil]
      refine h.setStream fun hl => ⟨?_, rfl, rfl⟩
      rw [live_iff] at hl ⊢
      exact ⟨hl.1, by simp [hidle]⟩
  | sendHeaders pos hcan hnew hroom =>
      have htype : (headersFrame c pos).type ≠ FrameType.data.toByte := by
        rw [headersFrame, responseHeaders, Frame.of_type]
        decide
      exact (h.control htype).setStream fun hl => ⟨hl, rfl, rfl⟩
  | defer pos hcan hhead hbody hpath hblocked =>
      rw [List.append_nil]
      exact h.setStream fun hl => ⟨hl, rfl, rfl⟩
  -- the one action that spends credit
  | sendData pos hcan hhead hbody hpath hconn hstream hroom =>
      exact h.sendData hc hcan hconn hstream
  | endRemote pos hopen =>
      rw [List.append_nil]
      refine h.setStream fun hl => ⟨?_, rfl, rfl⟩
      rw [live_iff] at hl ⊢
      exact ⟨hl.1, by simp [hopen]⟩
  | close pos =>
      rw [List.append_nil]
      exact h.setStream fun hl => absurd rfl (live_iff.mp hl).2
  -- credit on id 0 reaches no stream: a live slot has an id
  | creditConn increment hmax =>
      have hids : ∀ i, live (c.streams i) → 0 ≠ (c.streams i).id := fun i hl h0 =>
        (live_iff.mp hl).1 h0.symm
      refine h.credit ?_ ?_ ?_
      · rw [if_pos rfl, h.conn]
      · intro i hl
        rw [if_neg (hids i hl)]
        simpa using h.stream i hl
      · exact fun id hid => Nat.ne_of_lt (Nat.zero_lt_of_lt hid)
  -- credit on a stream leaves the connection and the other slots alone
  | creditStream pos increment hid hmax =>
      refine h.credit ?_ ?_ ?_
      · rw [if_neg hid]
        show c.connSendWindow = connLedger hist + ((0 : Nat) : Int)
        simpa using h.conn
      · intro i hl
        by_cases hi : i = pos
        · subst hi
          rw [setStream_streams_self] at hl ⊢
          rw [if_pos rfl, h.stream i hl]
        · rw [setStream_streams_ne c hi] at hl ⊢
          rw [if_neg fun heq => hi (hc.id_inj pos i hid heq).symm]
          simpa using h.stream i hl
      · intro id hlast heq
        have := hc.id_le pos
        exact absurd hlast (by
          show ¬ c.lastStreamId < id
          omega)
  -- every live window moves by the change of the initial window, and so does every ledger
  | resize value hvalue hrange =>
      refine ⟨(initialOf_resized hist value).symm, ?_, ?_, ?_, ?_⟩
      · rw [connLedger_resized]
        exact h.conn
      · intro i hl
        rw [live_resizeWindows] at hl
        have hid : ((c.resizeWindows value).streams i).id = (c.streams i).id := by
          simp only [resizeWindows, if_pos hl]
        rw [resizeWindows_sendWindow c value hl, hid, streamLedger_resized, h.stream i hl, h.initial]
      · intro id hid
        rw [streamLedger_resized, initialOf_resized, h.unopened id hid]
        omega
      · exact covered_append h fun g hg => by cases hg
  -- half of a change is only left behind by a run that failed
  | shiftOne pos w hw => exact absurd (by simp) htorn
  | maxFrame size hsize =>
      rw [List.append_nil]
      exact { h with }
  | block isOpen streamId flags bytes =>
      rw [List.append_nil]
      exact { h with }

/-! ## From the history to the frames -/

/-- The increment of a WINDOW_UPDATE frame on a stream, or on the connection (`0`). -/
def FrameStep.increment (st : FrameStep) (streamId : Nat) : Nat :=
  if st.frame.type = FrameType.windowUpdate.toByte ∧ st.frame.streamId = streamId then
    match parseWindowUpdate st.frame.header st.frame.payload with
    | .ok increment => increment
    | .error _ => 0
  else 0

/-- The increments of the WINDOW_UPDATE frames on the connection. -/
def creditConn (steps : List FrameStep) : Nat := (steps.map (fun st => st.increment 0)).sum

/-- The increments of the WINDOW_UPDATE frames on a stream that arrived while the stream had a
slot. -/
def creditStream (streamId : Nat) (steps : List FrameStep) : Nat :=
  ((steps.filter (fun st => (st.before.findStream streamId).isSome)).map
    (fun st => st.increment streamId)).sum

theorem creditSum_queued (streamId : Nat) (fs : List Frame) :
    creditSum streamId (fs.map .queued) = 0 := by
  induction fs with
  | nil => rfl
  | cons f fs ih =>
      rw [List.map_cons, ← List.singleton_append, creditSum_append, ih]
      rfl

theorem creditSum_settings (streamId : Nat) (settings : List Setting) :
    creditSum streamId (settings.flatMap settingEvents) = 0 := by
  induction settings with
  | nil => rfl
  | cons s rest ih =>
      rw [List.flatMap_cons, creditSum_append, ih, settingEvents]
      split <;> rfl

/-- Frames of other types bring no credit. -/
theorem creditSum_frameEvents_other (c : Connection) {f : Frame}
    (hf : f.type ≠ FrameType.windowUpdate.toByte) (streamId : Nat) :
    creditSum streamId (frameEvents c f) = 0 := by
  unfold frameEvents
  split
  · next htype => exact absurd (FrameType.ofByte?_eq_some htype) hf
  · unfold settingsEvents
    split
    · rfl
    · exact creditSum_settings _ _
  · rfl

/-- The credit of one accepted frame. -/
theorem creditSum_frameEvents (c : Connection) (f : Frame) (streamId : Nat) :
    creditSum streamId (frameEvents c f)
      = if streamId = 0 ∨ (c.findStream streamId).isSome then (c.frameStep f).increment streamId
        else 0 := by
  by_cases hf : f.type = FrameType.windowUpdate.toByte
  · rw [frameEvents, hf, FrameType.ofByte?_toByte, FrameStep.increment]
    simp only [windowCredit, frameStep, hf, true_and]
    rcases parseWindowUpdate f.header f.payload with ret | increment
    · simp [creditSum]
    · by_cases hid : f.streamId = streamId
      · subst hid
        by_cases hslot : f.streamId = 0 ∨ (c.findStream f.streamId).isSome
        · simp [hslot, creditSum, Event.credited]
        · simp [hslot, creditSum]
      · simp only [if_neg hid, ite_self, Frame.header_streamId]
        by_cases hslot : f.streamId = 0 ∨ (c.findStream f.streamId).isSome
        · simp [hslot, creditSum, Event.credited, hid]
        · simp [hslot, creditSum]
  · have hne : ¬ (f.type = FrameType.windowUpdate.toByte ∧ f.streamId = streamId) := fun h => hf h.1
    rw [creditSum_frameEvents_other c hf, FrameStep.increment]
    simp [frameStep, hne]

/-- A list of steps that were taken by `handleFrame`. -/
def Taken (steps : List FrameStep) : Prop := ∀ st ∈ steps, st = st.before.frameStep st.frame

theorem exec_taken (ops : List Op) : Taken (exec ops).steps :=
  exec_steps (fun _ => rfl) ops

/-- The events of all steps. -/
def eventsOf (steps : List FrameStep) : List Event := steps.flatMap FrameStep.events

theorem creditSum_events_conn {steps : List FrameStep} (ht : Taken steps) :
    creditSum 0 (eventsOf steps) = creditConn steps := by
  induction steps with
  | nil => rfl
  | cons st steps ih =>
      have hst := ht st (by simp)
      have hrest := ih fun st' h' => ht st' (List.mem_cons_of_mem _ h')
      have hone : creditSum 0 st.events = st.increment 0 := by
        rw [FrameStep.events, creditSum_append, creditSum_queued, hst]
        simp only [frameStep]
        rw [creditSum_frameEvents, if_pos (Or.inl rfl)]
        rfl
      rw [eventsOf, List.flatMap_cons, creditSum_append, hone, ← eventsOf, hrest, creditConn,
        creditConn, List.map_cons, List.sum_cons]

theorem creditSum_events_stream {steps : List FrameStep} (ht : Taken steps) {streamId : Nat}
    (h0 : streamId ≠ 0) : creditSum streamId (eventsOf steps) = creditStream streamId steps := by
  induction steps with
  | nil => rfl
  | cons st steps ih =>
      have hst := ht st (by simp)
      have hrest := ih fun st' h' => ht st' (List.mem_cons_of_mem _ h')
      have hone : creditSum streamId st.events
          = if (st.before.findStream streamId).isSome then st.increment streamId else 0 := by
        rw [FrameStep.events, creditSum_append, creditSum_queued, hst]
        simp only [frameStep]
        rw [creditSum_frameEvents]
        simp only [h0, false_or]
        rfl
      rw [eventsOf, List.flatMap_cons, creditSum_append, hone, ← eventsOf, hrest, creditStream,
        creditStream, List.filter_cons]
      by_cases hslot : (st.before.findStream streamId).isSome = true
      · rw [if_pos hslot, if_pos hslot, List.map_cons, List.sum_cons]
      · rw [if_neg hslot, if_neg hslot, Nat.zero_add]

theorem torn_notMem_events (steps : List FrameStep) : Event.torn ∉ eventsOf steps := by
  intro h
  obtain ⟨st, -, hst⟩ := List.mem_flatMap.mp h
  rcases List.mem_append.mp hst with hst | hst
  · unfold frameEvents at hst
    split at hst
    · unfold windowCredit at hst
      split at hst
      · cases hst
      · split at hst <;> simp at hst
    · unfold settingsEvents at hst
      split at hst
      · cases hst
      · obtain ⟨s, -, hs⟩ := List.mem_flatMap.mp hst
        unfold settingEvents at hs
        split at hs <;> simp at hs
    · cases hst
  · simp at hst

theorem torn_notMem_history (o : Obs) : Event.torn ∉ o.history := by
  intro h
  rcases List.mem_append.mp h with h | h
  · simp at h
  · exact torn_notMem_events _ h

/-- The ledger holds along every run without errors. -/
theorem exec_ledger {ops : List Op} (hok : (exec ops).AllOk) :
    Ledger (exec ops).history (exec ops).conn := by
  refine exec_history_ok (R := fun hist c => Event.torn ∉ hist → Ledger hist c) Ledger.insensitive
    (fun _ => .init) ?_ hok (torn_notMem_history _)
  intro hist c es c' hc hact hl htorn
  rw [List.mem_append, not_or] at htorn
  exact hact.ledger hc (hl htorn.1) htorn.2

/-! ## What the steps of a run start from -/

/-- A stream id that has been used up stays without a slot. -/
theorem Acts.slotless {c c' : Connection} {es : List Event} (h : Acts c es c') {streamId : Nat}
    (hlast : streamId ≤ c.lastStreamId) (hnone : c.findStream streamId = none) :
    streamId ≤ c'.lastStreamId ∧ c'.findStream streamId = none := by
  refine h.invariant (P := fun t => streamId ≤ t.lastStreamId ∧ t.findStream streamId = none) ?_
    ⟨hlast, hnone⟩
  rintro s es t hact ⟨hle, hn⟩
  rw [findStream_eq_none] at hn ⊢
  -- only opening a slot writes an id, and that id is new
  have hkeep : ∀ {pos st}, st.id = (s.streams pos).id →
      ∀ i, ((s.setStream pos st).streams i).id ≠ streamId := by
    intro pos st hid i
    rw [setStream_id s hid]
    exact hn i
  cases hact with
  | openSlot pos id hfree hodd hnew hlt =>
      refine ⟨hle.trans hnew.le, fun i => ?_⟩
      show ((s.setStream pos (Stream.init id s.initialStreamWindow)).streams i).id ≠ streamId
      by_cases hi : i = pos
      · subst hi
        rw [setStream_streams_self]
        show id ≠ streamId
        omega
      · rw [setStream_streams_ne s hi]
        exact hn i
  | sendData pos hcan hhead hbody hpath hconn hstream hroom =>
      refine ⟨hle, fun i => ?_⟩
      have hid : ((answered (s.push (responseData (s.streams pos).id
          (responseBody (s.streams pos).path))) pos
            (responseBody (s.streams pos).path).length).streams i).id = (s.streams i).id := by
        refine setStream_id _ ?_ i
        rcases hcan.2 with hst | hst <;> simp [push, Stream.sendEndStream, hst, Stream.close]
      rw [hid]
      exact hn i
  | resize value hvalue hrange =>
      refine ⟨hle, fun i => ?_⟩
      have hid : ((s.resizeWindows value).streams i).id = (s.streams i).id := by
        simp only [resizeWindows]
        split <;> rfl
      rw [hid]
      exact hn i
  | recvStream pos w hw => exact ⟨hle, hkeep rfl⟩
  | path pos p hidle hlen htext => exact ⟨hle, hkeep rfl⟩
  | request pos endStream hidle => exact ⟨hle, hkeep rfl⟩
  | sendHeaders pos hcan hnew hroom => exact ⟨hle, hkeep rfl⟩
  | defer pos hcan hhead hbody hpath hblocked => exact ⟨hle, hkeep rfl⟩
  | endRemote pos hopen => exact ⟨hle, hkeep rfl⟩
  | close pos => exact ⟨hle, hkeep rfl⟩
  | creditStream pos increment hid hmax => exact ⟨hle, hkeep rfl⟩
  | shiftOne pos w hw => exact ⟨hle, hkeep rfl⟩
  | control f hf hroom => exact ⟨hle, hn⟩
  | recvConn w hw => exact ⟨hle, hn⟩
  | creditConn increment hmax => exact ⟨hle, hn⟩
  | maxFrame size hsize => exact ⟨hle, hn⟩
  | block isOpen id flags bytes => exact ⟨hle, hn⟩

/-- What is known of the steps of a run without errors: where they start, which initial window
size they find, and that a used-up stream id is not found later. -/
structure Traced (o : Obs) : Prop where
  inv : ∀ st ∈ o.steps, Inv st.before ∧ (st.before.handleFrame st.frame).1 = .ok
  initial : ∀ before st after, o.steps = before ++ st :: after →
    st.before.initialStreamWindow = initialOf (eventsOf before)
  slotless : ∀ st ∈ o.steps, ∀ streamId, streamId ≤ st.before.lastStreamId →
    st.before.findStream streamId = none →
      streamId ≤ o.conn.lastStreamId ∧ o.conn.findStream streamId = none

theorem initialOf_greeting (c : Connection) (hist : List Event) :
    initialOf ((greeting c).map .queued ++ hist) = initialOf hist := by
  rw [greeting]
  split <;> rfl

theorem exec_traced {ops : List Op} (hok : (exec ops).AllOk) : Traced (exec ops).toObs := by
  have hboth := exec_invariant_ok (P := fun o => (Logged o ∧ Ledger o.history o.conn) ∧ Traced o)
    ⟨⟨logged_start, .init⟩, by simp [Run.start], by simp [Run.start], by simp [Run.start]⟩ ?_ hok
  · exact hboth.2
  · rintro o o' hg hs ⟨⟨hlog, hled⟩, htr⟩
    -- the ledger is carried through the actions, with the torn steps left out
    have hled' : Ledger o'.history o'.conn := by
      refine hs.history_ok (R := fun hist c => Event.torn ∉ hist → Ledger hist c)
        Ledger.insensitive ?_ hg hlog (fun _ => hled) (torn_notMem_history _)
      intro hist c es c' hc hact hl htorn
      rw [List.mem_append, not_or] at htorn
      exact hact.ledger hc (hl htorn.1) htorn.2
    refine ⟨⟨hs.logged hg hlog, hled'⟩, ?_⟩
    cases hs with
    | consume sentLen => exact { htr with }
    | arrive data hfit => exact { htr with }
    | preface hnew hlen hpre => exact { htr with }
    | frame f rest hseen hcut hok =>
        have hacts := Connection.frameStep_acts hg.inv hok
        refine ⟨?_, ?_, ?_⟩
        · intro st hst
          rcases List.mem_append.mp hst with hst | hst
          · exact htr.inv st hst
          · rw [List.mem_singleton] at hst
            subst hst
            exact ⟨hg.inv, hok⟩
        · intro before st after heq
          -- the initial window before this frame: the new step is the last one, or an older one
          rcases snoc_eq_append_cons heq with ⟨-, rfl, rfl⟩ | ⟨after', -, hsteps⟩
          · rw [frameStep, hled.initial, Obs.history, initialOf_greeting]
            rfl
          · exact htr.initial before st after' hsteps
        · -- a stream that had lost its slot before an earlier frame has not got it back
          intro st hst streamId hle hnone
          rcases List.mem_append.mp hst with hst | hst
          · obtain ⟨hle', hnone'⟩ := htr.slotless st hst streamId hle hnone
            exact hacts.slotless hle' hnone'
          · rw [List.mem_singleton] at hst
            subst hst
            exact hacts.slotless hle hnone

/-- A SETTINGS frame makes the server queue nothing but the acknowledgement. -/
theorem queued_settings {c : Connection} (hc : Inv c) {f : Frame}
    (hf : f.type = FrameType.settings.toByte) (hok : (c.handleFrame f).1 = .ok) :
    ∀ g ∈ (c.frameStep f).queued, g.type = FrameType.settings.toByte := by
  obtain ⟨es, -, -, herr⟩ := applySettings_acts hc f.header f.payload
  obtain ⟨-, hcode, heq⟩ := handleFrame_of_ok hf hok herr
  obtain ⟨settings, -, ⟨-, -, hres⟩ | ⟨-, -, hres⟩⟩ := applySettings_of_ok hc hcode
  · have hout : (c.handleFrame f).2.output = c.output ++ wireOf [] := by
      rw [heq, handler, hres, wireOf_nil, List.append_nil]
    rw [FrameStep.queued, frameStep, framesOf_drop hout]
    simp
  · have hout : (c.handleFrame f).2.output = c.output ++ wireOf [settingsAckFrame] := by
      rw [heq, handler, hres, wireOf_singleton]
      show (settings.foldl applied c).output ++ _ = _
      rw [foldl_applied_output]
    rw [FrameStep.queued, frameStep, framesOf_drop hout]
    intro g hg
    rw [List.mem_singleton] at hg
    subst hg
    rfl

/-- Frames other than SETTINGS do not change the initial window size. -/
theorem initialOf_frameEvents (hist : List Event) (c : Connection) {f : Frame}
    (hf : f.type ≠ FrameType.settings.toByte) :
    initialOf (hist ++ frameEvents c f) = initialOf hist := by
  unfold frameEvents
  split
  · unfold windowCredit
    split
    · rw [List.append_nil]
    · split
      · rw [initialOf, List.foldl_append]
        rfl
      · rw [List.append_nil]
  · next htype => exact absurd (FrameType.ofByte?_eq_some htype) hf
  · rw [List.append_nil]

theorem initialOf_queued (hist : List Event) (fs : List Frame) :
    initialOf (hist ++ fs.map .queued) = initialOf hist := by
  induction fs generalizing hist with
  | nil => rw [List.map_nil, List.append_nil]
  | cons f fs ih =>
      rw [List.map_cons, ← List.singleton_append, ← List.append_assoc, ih, initialOf,
        List.foldl_append]
      rfl

/-- A used stream: the frame is WINDOW_UPDATE on it only when it has a slot. -/
theorem findStream_isSome_iff {c : Connection} (hc : Inv c) {streamId : Nat}
    (h : streamId ≤ c.lastStreamId → c.findStream streamId ≠ none) :
    (c.findStream streamId).isSome = true ↔ streamId ≤ c.lastStreamId := by
  constructor
  · intro hsome
    obtain ⟨pos, hpos⟩ := Option.isSome_iff_exists.mp hsome
    rw [← findStream_eq_some hpos]
    exact hc.id_le pos
  · intro hle
    exact Option.isSome_iff_ne_none.mpr (h hle)

/-! ## The send windows are exact -/

/-- The send window of the connection when the given steps have been taken and the given frames
queued. -/
def connWindowAt (steps : List FrameStep) (fs : List Frame) : Int :=
  65535 + creditConn steps - dataTotal fs

/-- The send window of a stream at such a moment. -/
def streamWindowAt (initialWindow : Int) (streamId : Nat) (steps : List FrameStep)
    (fs : List Frame) : Int := initialWindow + creditStream streamId steps - dataOn streamId fs

/-- Exact send-side flow control. -/
structure SendWindowsExact (o : Obs) : Prop where
  /-- The window of the connection. -/
  conn : o.conn.connSendWindow = connWindowAt o.steps o.frames
  /-- The window of every stream that is not closed. -/
  stream : ∀ i, live (o.conn.streams i) → (o.conn.streams i).sendWindow
    = streamWindowAt o.conn.initialStreamWindow (o.conn.streams i).id o.steps o.frames
  /-- Such a stream has had its slot ever since it was opened. -/
  since_opened : ∀ i, live (o.conn.streams i) → ∀ st ∈ o.steps,
    (st.before.findStream (o.conn.streams i).id).isSome = true
      ↔ (o.conn.streams i).id ≤ st.before.lastStreamId
  /-- Every frame of the output was queued by a step, or is the greeting. -/
  frames : o.frames = greeting o.conn ++ o.steps.flatMap FrameStep.queued
  /-- When a DATA frame was queued, both windows covered it. -/
  covered : ∀ before st after, o.steps = before ++ st :: after →
    ∀ pre f post, st.queued = pre ++ f :: post → f.type = FrameType.data.toByte →
      (f.payload.length : Int)
          ≤ connWindowAt (before ++ [st]) (before.flatMap FrameStep.queued ++ pre)
        ∧ (f.payload.length : Int) ≤ streamWindowAt st.before.initialStreamWindow f.streamId
            (before ++ [st]) (before.flatMap FrameStep.queued ++ pre)
  /-- No window leaves its range, not even between credit and the DATA it releases. -/
  range : InRange o.conn.connSendWindow ∧ InRange o.conn.connRecvWindow
    ∧ InRange o.conn.initialStreamWindow
    ∧ ∀ i, InRange (o.conn.streams i).sendWindow ∧ InRange (o.conn.streams i).recvWindow
  credit_range : ∀ st ∈ o.steps, InRange (st.before.connSendWindow + st.increment 0)
    ∧ ∀ i, (st.before.streams i).id ≠ 0 →
      InRange ((st.before.streams i).sendWindow + st.increment (st.before.streams i).id)

theorem dataTotal_greeting (c : Connection) (fs : List Frame) :
    dataTotal (greeting c ++ fs) = dataTotal fs := by
  rw [greeting]
  split
  · rw [dataTotal_append]
    simp [dataTotal, Frame.dataLength, serverSettingsFrame, Frame.of, FrameType.toByte]
  · rfl

theorem dataOn_greeting (c : Connection) (streamId : Nat) (fs : List Frame) :
    dataOn streamId (greeting c ++ fs) = dataOn streamId fs := by
  rw [greeting]
  split
  · have hone : dataOn streamId [serverSettingsFrame] = 0 := by
      have hlen : serverSettingsFrame.dataLength = 0 := rfl
      by_cases h : serverSettingsFrame.streamId = streamId
      · simp [dataOn, dataTotal, hlen, h]
      · simp [dataOn, dataTotal, h]
    rw [dataOn_append, hone, Nat.zero_add]
  · rfl

theorem queuedFrames_eventsOf (steps : List FrameStep) :
    queuedFrames (eventsOf steps) = steps.flatMap FrameStep.queued := by
  induction steps with
  | nil => rfl
  | cons st steps ih =>
      rw [eventsOf, List.flatMap_cons, queuedFrames_append, ← eventsOf, ih,
        FrameStep.queuedFrames_events, List.flatMap_cons]

theorem creditSum_greeting (c : Connection) (streamId : Nat) (hist : List Event) :
    creditSum streamId ((greeting c).map .queued ++ hist) = creditSum streamId hist := by
  rw [creditSum_append, creditSum_queued, Nat.zero_add]

/-- A WINDOW_UPDATE frame that is accepted does not overflow the window it credits. -/
theorem windowUpdate_range {c : Connection} (hc : Inv c) {f : Frame}
    (hok : (c.handleFrame f).1 = .ok) :
    InRange (c.connSendWindow + (c.frameStep f).increment 0) ∧ ∀ i, (c.streams i).id ≠ 0 →
      InRange ((c.streams i).sendWindow + (c.frameStep f).increment (c.streams i).id) := by
  have hconn := hc.conn_send
  have hslot := fun i => (hc.slot i).send
  -- another frame credits nothing
  by_cases hf : f.type = FrameType.windowUpdate.toByte
  · obtain ⟨es, -, -, herr⟩ := processWindowUpdate_acts hc f.header f.payload
    obtain ⟨-, hcode, -⟩ := handleFrame_of_ok hf hok herr
    rw [handler] at hcode
    rcases hparse : parseWindowUpdate f.header f.payload with ret | increment
    · simp only [FrameStep.increment, frameStep, hparse, ite_self]
      refine ⟨?_, fun i _ => ?_⟩
      · simp only [InRange, int32Min]
        omega
      · have := hslot i
        simp only [InRange]
        omega
    · rw [processWindowUpdate_eq c hparse] at hcode
      simp only [FrameStep.increment, frameStep, hparse, hf, true_and]
      refine ⟨?_, fun i hi => ?_⟩
      · -- the connection
        by_cases hid : f.streamId = 0
        · rw [Frame.header_streamId, if_pos hid] at hcode
          rw [if_pos hid]
          by_cases hmax : c.connSendWindow + increment > int32Max
          · rw [if_pos hmax] at hcode
            cases hcode
          · simp only [InRange, int32Min]
            omega
        · rw [if_neg hid]
          simp only [InRange, int32Min]
          omega
      · -- the slot of the stream, if it has one
        have hsend := hslot i
        by_cases hid : f.streamId = (c.streams i).id
        · have hfind : c.findStream f.header.streamId = some i := by
            rcases hfind : c.findStream f.header.streamId with _ | pos
            · exact absurd hid.symm (findStream_eq_none.mp hfind i)
            · have hpos := findStream_eq_some hfind
              rw [hc.id_inj i pos hi (by rw [hpos, Frame.header_streamId, hid])]
          have hne : ¬ f.header.streamId = 0 := by
            rw [Frame.header_streamId, hid]
            exact hi
          rw [if_neg hne, hfind] at hcode
          simp only at hcode
          rw [if_pos hid]
          by_cases hmax : (c.streams i).sendWindow + increment > int32Max
          · rw [if_pos hmax] at hcode
            cases hcode
          · simp only [InRange]
            omega
        · rw [if_neg hid]
          simp only [InRange]
          omega
  · have hzero : ∀ id, (c.frameStep f).increment id = 0 := by
      intro id
      rw [FrameStep.increment]
      exact if_neg fun h => hf h.1
    refine ⟨?_, fun i _ => ?_⟩
    · rw [hzero]
      simp only [InRange, int32Min]
      omega
    · have := hslot i
      rw [hzero]
      simp only [InRange]
      omega

/-- **Send-side flow control is exact** in every run without errors. -/
theorem send_windows_exact {ops : List Op} (hok : (exec ops).AllOk) :
    SendWindowsExact (exec ops).toObs := by
  have hled := exec_ledger hok
  have htr := exec_traced hok
  have hfr := exec_frames hok
  have htaken := exec_taken ops
  have hinv := (exec_good ops).inv
  have hqueued : queuedFrames (exec ops).history = (exec ops).frames := by
    rw [hfr, Obs.history, queuedFrames_append, queuedFrames_map_queued, ← eventsOf,
      queuedFrames_eventsOf]
  refine ⟨?_, ?_, ?_, hfr, ?_, ?_, ?_⟩
  · rw [hled.conn, connLedger, hqueued, Obs.history, creditSum_greeting, ← eventsOf,
      creditSum_events_conn htaken]
    rfl
  · intro i hl
    rw [hled.stream i hl, streamLedger, ← hled.initial, hqueued, Obs.history, creditSum_greeting,
      ← eventsOf, creditSum_events_stream htaken (live_iff.mp hl).1]
    rfl
  · intro i hl st hst
    refine findStream_isSome_iff (htr.inv st hst).1 fun hle hnone => ?_
    exact findStream_eq_none.mp (htr.slotless st hst _ hle hnone).2 i rfl
  · -- a DATA frame queued while `st` is handled: the ledger covers it at that moment
    intro before st after hsteps pre f post hpre hf
    have hst : st ∈ (exec ops).steps := by rw [hsteps]; simp
    have htb : Taken before := fun s hs => htaken s (by rw [hsteps]; simp [hs])
    have hstep := htaken st hst
    obtain ⟨hinvst, hokst⟩ := htr.inv st hst
    -- the history up to the moment when `f` is queued
    have hhist : (exec ops).history = ((greeting (exec ops).conn).map .queued
        ++ (eventsOf before ++ (frameEvents st.before st.frame ++ pre.map .queued)))
        ++ Event.queued f :: (post.map .queued ++ eventsOf after) := by
      rw [Obs.history, hsteps, ← eventsOf, eventsOf, List.flatMap_append, List.flatMap_cons,
        FrameStep.events, hpre, List.map_append, List.map_cons]
      simp [eventsOf]
    obtain ⟨hconn, hstream, h0⟩ := hled.covered _ f _ hhist hf
    have hframes : queuedFrames ((greeting (exec ops).conn).map .queued
        ++ (eventsOf before ++ (frameEvents st.before st.frame ++ pre.map .queued)))
          = greeting (exec ops).conn ++ (before.flatMap FrameStep.queued ++ pre) := by
      rw [queuedFrames_append, queuedFrames_map_queued, queuedFrames_append, queuedFrames_eventsOf,
        queuedFrames_append, queuedFrames_frameEvents, List.nil_append, queuedFrames_map_queued]
    -- the credit of the frame being handled already counts
    have hcredit : ∀ id, creditSum id ((greeting (exec ops).conn).map .queued
        ++ (eventsOf before ++ (frameEvents st.before st.frame ++ pre.map .queued)))
          = creditSum id (eventsOf (before ++ [st])) := by
      intro id
      rw [creditSum_greeting, creditSum_append, creditSum_append, creditSum_queued, eventsOf,
        eventsOf, List.flatMap_append, creditSum_append, List.flatMap_singleton, FrameStep.events,
        creditSum_append, creditSum_queued]
    have htbs : Taken (before ++ [st]) := by
      intro s hs
      rcases List.mem_append.mp hs with hs | hs
      · exact htb s hs
      · rw [List.mem_singleton] at hs
        subst hs
        exact hstep
    -- a SETTINGS frame queues no DATA, so the initial window is still the one before the step
    have hinit : initialOf ((greeting (exec ops).conn).map .queued
        ++ (eventsOf before ++ (frameEvents st.before st.frame ++ pre.map .queued)))
          = st.before.initialStreamWindow := by
      have hnot : st.frame.type ≠ FrameType.settings.toByte := by
        intro hset
        have hq := queued_settings hinvst hset hokst f (by rw [← hstep, hpre]; simp)
        rw [hf] at hq
        cases hq
      rw [initialOf_greeting, ← List.append_assoc, initialOf_queued, initialOf_frameEvents _ _ hnot,
        htr.initial before st after hsteps]
    refine ⟨?_, ?_⟩
    · rw [connLedger, hframes, hcredit, dataTotal_greeting, creditSum_events_conn htbs] at hconn
      exact hconn
    · rw [streamLedger, hframes, hcredit, dataOn_greeting, creditSum_events_stream htbs h0, hinit]
        at hstream
      exact hstream
  · have h1 := hinv.conn_send
    have h2 := hinv.conn_recv
    have h3 := hinv.initial
    refine ⟨?_, ?_, ?_, fun i => ⟨(hinv.slot i).send, ?_⟩⟩
    · simp only [InRange, int32Min]
      omega
    · simp only [InRange, int32Min, int32Max]
      omega
    · simp only [InRange, int32Min]
      omega
    · have h4 := (hinv.slot i).recv
      simp only [InRange, int32Min, int32Max]
      omega
  · intro st hst
    obtain ⟨hinvst, hokst⟩ := htr.inv st hst
    have hrange := windowUpdate_range hinvst hokst
    rw [← htaken st hst] at hrange
    exact hrange

set_option maxRecDepth 20000 in
theorem send_windows_exact_get :
    (exec [.feed (clientInput [getRequest 1])]).AllOk
      ∧ SendWindowsExact (exec [.feed (clientInput [getRequest 1])]).toObs :=
  ⟨by decide +kernel, send_windows_exact (by decide +kernel)⟩

end C11Omo.Http2
