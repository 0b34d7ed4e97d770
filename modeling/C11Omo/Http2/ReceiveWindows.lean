import C11Omo.Http2.Accepted

set_option autoImplicit false

/-! # Receive windows

What a client may still send is what it has been granted and has not used. `ReceiveLedger` states
this for the connection and for every stream that can receive, and every accepted frame keeps it.
So the receive windows are exact in all runs without errors, and a client that stays within its
credit is never charged with a flow control error (`receive_windows_exact`).
-/

namespace C11Omo.Http2

open C11Omo.Lib Connection

/-! ## Credit -/

/-- The charge for a frame: the length of a DATA frame, with its padding. -/
def Frame.dataLen (f : Frame) : Nat :=
  if f.type = FrameType.data.toByte then f.payload.length else 0

/-- The charge for a frame to one stream. -/
def Frame.dataLenOn (streamId : Nat) (f : Frame) : Nat :=
  if f.streamId = streamId then f.dataLen else 0

/-- The increment of a WINDOW_UPDATE frame for a stream, or for the connection (`0`). -/
def Frame.incrementFor (streamId : Nat) (f : Frame) : Nat :=
  if f.type = FrameType.windowUpdate.toByte ∧ f.streamId = streamId then readU31 f.payload else 0

/-- The bytes of all DATA frames received. -/
def dataReceived (steps : List FrameStep) : Nat := (steps.map fun st => st.frame.dataLen).sum

/-- The bytes of the DATA frames received on one stream. -/
def dataReceivedOn (streamId : Nat) (steps : List FrameStep) : Nat :=
  (steps.map fun st => st.frame.dataLenOn streamId).sum

/-- The increments of the WINDOW_UPDATE frames for a stream, or for the connection (`0`). -/
def creditSent (streamId : Nat) (fs : List Frame) : Nat :=
  (fs.map (Frame.incrementFor streamId)).sum

/-- What the client may still send on the connection. -/
def connCredit (steps : List FrameStep) : Int :=
  65535 - dataReceived steps + creditSent 0 (steps.flatMap FrameStep.queued)

/-- What the client may still send on a stream. -/
def streamCredit (streamId : Nat) (steps : List FrameStep) : Int :=
  65535 - dataReceivedOn streamId steps + creditSent streamId (steps.flatMap FrameStep.queued)

@[simp] theorem creditSent_nil (streamId : Nat) : creditSent streamId [] = 0 := rfl

@[simp] theorem creditSent_append (streamId : Nat) (fs gs : List Frame) :
    creditSent streamId (fs ++ gs) = creditSent streamId fs + creditSent streamId gs := by
  simp [creditSent]

theorem connCredit_snoc (steps : List FrameStep) (st : FrameStep) :
    connCredit (steps ++ [st]) = connCredit steps - st.frame.dataLen + creditSent 0 st.queued := by
  simp only [connCredit, dataReceived, List.map_append, List.map_singleton, List.sum_append,
    List.sum_singleton, List.flatMap_append, List.flatMap_singleton, creditSent_append]
  push_cast
  ring

theorem streamCredit_snoc (streamId : Nat) (steps : List FrameStep) (st : FrameStep) :
    streamCredit streamId (steps ++ [st])
      = streamCredit streamId steps - st.frame.dataLenOn streamId + creditSent streamId st.queued := by
  simp only [streamCredit, dataReceivedOn, List.map_append, List.map_singleton, List.sum_append,
    List.sum_singleton, List.flatMap_append, List.flatMap_singleton, creditSent_append]
  push_cast
  ring

theorem dataReceived_snoc (steps : List FrameStep) (st : FrameStep) :
    dataReceived (steps ++ [st]) = dataReceived steps + st.frame.dataLen := by
  simp [dataReceived]

theorem dataReceivedOn_snoc (streamId : Nat) (steps : List FrameStep) (st : FrameStep) :
    dataReceivedOn streamId (steps ++ [st])
      = dataReceivedOn streamId steps + st.frame.dataLenOn streamId := by
  simp [dataReceivedOn]

/-- Only WINDOW_UPDATE frames bring credit. -/
theorem creditSent_of_forall {fs : List Frame}
    (h : ∀ f ∈ fs, f.type ≠ FrameType.windowUpdate.toByte) (streamId : Nat) :
    creditSent streamId fs = 0 := by
  refine List.sum_eq_zero fun n hn => ?_
  obtain ⟨f, hf, rfl⟩ := List.mem_map.mp hn
  exact if_neg fun hw => h f hf hw.1

theorem incrementFor_windowUpdateFrame {streamId increment : Nat} (hid : streamId < 2 ^ 31)
    (hlt : increment < 2 ^ 31) (streamId' : Nat) :
    (windowUpdateFrame streamId increment).incrementFor streamId'
      = if streamId = streamId' then increment else 0 := by
  have hpay : (windowUpdateFrame streamId increment).payload = writeU32 increment :=
    Frame.of_payload (by simp [maxFrameSizeLimit]) _ _ _
  have hread : readU31 (writeU32 increment) = increment := by
    have h := readU31_writeU32 increment []
    rwa [List.append_nil, Nat.mod_eq_of_lt hlt] at h
  have hsid : (windowUpdateFrame streamId increment).streamId = streamId :=
    Frame.of_streamId hid _ _ _
  unfold Frame.incrementFor
  rw [hpay, hread, hsid]
  simp [windowUpdateFrame]

/-- A refilled window has grown by the credit sent for it. -/
theorem creditSent_refillFrames {streamId : Nat} (hid : streamId < 2 ^ 31) {w : Int} (hw : 0 ≤ w)
    (streamId' : Nat) : (creditSent streamId' (refillFrames streamId w) : Int)
      = if streamId = streamId' then refill w - w else 0 := by
  unfold refillFrames refill
  by_cases hlow : w ≤ 32767
  · have hlt : (65535 - w).toNat < 2 ^ 31 := by omega
    rw [if_pos hlow, if_pos hlow, creditSent, List.map_singleton, List.sum_singleton,
      incrementFor_windowUpdateFrame hid hlt]
    split_ifs
    · omega
    · rfl
  · rw [if_neg hlow, if_neg hlow, creditSent_nil]
    split_ifs
    · omega
    · rfl

theorem refill_ge (w : Int) : 32768 ≤ refill w := by
  unfold refill
  split_ifs <;> omega

/-! ## The ledger -/

/-- The client may still send on the stream. -/
def Stream.Receives (s : Stream) : Prop := s.state = .opened ∨ s.state = .halfClosedLocal

/-- **The ledger of the receive windows**: every window is the credit of the client, and never
below half of its size. -/
structure ReceiveLedger (steps : List FrameStep) (c : Connection) : Prop where
  conn : c.connRecvWindow = connCredit steps
  conn_low : 32768 ≤ c.connRecvWindow
  stream : ∀ i, (c.streams i).Receives → (c.streams i).id ≠ 0
    ∧ (c.streams i).recvWindow = streamCredit (c.streams i).id steps
    ∧ 32768 ≤ (c.streams i).recvWindow
  fresh : ∀ streamId, c.lastStreamId < streamId → streamCredit streamId steps = 65535

/-- A frame that is acknowledged brings no data. -/
theorem Frame.type_ne_data {f g : Frame} (h : f.ack = some g) : f.type ≠ FrameType.data.toByte := by
  intro ht
  unfold Frame.ack at h
  rw [ht, FrameType.ofByte?_toByte] at h
  split_ifs at h

/-- A frame that completes a header block brings no data. -/
theorem Connection.blockOf_type {c : Connection} {f : Frame} {block : UInt8 × List UInt8}
    (h : c.blockOf f = some block) : f.type ≠ FrameType.data.toByte := by
  intro ht
  unfold blockOf at h
  rw [ht, FrameType.ofByte?_toByte] at h
  cases h

theorem Connection.Completes.type_ne_data {c : Connection} {f : Frame} (h : c.Completes f) :
    f.type ≠ FrameType.data.toByte := by
  obtain ⟨block, hblock⟩ := Option.isSome_iff_exists.mp h.2
  exact blockOf_type hblock

theorem Connection.withStream_streams_ne {c : Connection} {pos i : Fin connMaxStreams} (hi : i ≠ pos)
    (streamId : Nat) (path : List UInt8) (state : StreamState) :
    (c.withStream pos streamId path state).streams i = c.streams i := setStream_streams_ne c hi _

/-- A new initial window size changes nothing on the receiving side. -/
theorem Connection.resizeWindows_slot (c : Connection) (value : Int) (i : Fin connMaxStreams) :
    ((c.resizeWindows value).streams i).id = (c.streams i).id
      ∧ ((c.resizeWindows value).streams i).state = (c.streams i).state
      ∧ ((c.resizeWindows value).streams i).recvWindow = (c.streams i).recvWindow := by
  simp only [resizeWindows]
  split_ifs
  · exact ⟨rfl, rfl, rfl⟩
  · exact ⟨rfl, rfl, rfl⟩

namespace ReceiveLedger

variable {c c' : Connection} {steps : List FrameStep} {st : FrameStep}

/-- A frame that neither uses credit nor brings any. -/
theorem quiet (h : ReceiveLedger steps c) (hdata : st.frame.type ≠ FrameType.data.toByte)
    (hqueued : ∀ f ∈ st.queued, f.type ≠ FrameType.windowUpdate.toByte)
    (hconn : c'.connRecvWindow = c.connRecvWindow) (hlast : c.lastStreamId ≤ c'.lastStreamId)
    (hslot : ∀ i, (c'.streams i).Receives →
      ((c.streams i).Receives ∧ (c'.streams i).id = (c.streams i).id
        ∧ (c'.streams i).recvWindow = (c.streams i).recvWindow)
      ∨ c.lastStreamId < (c'.streams i).id ∧ (c'.streams i).recvWindow = 65535) :
    ReceiveLedger (steps ++ [st]) c' := by
  have hlen : st.frame.dataLen = 0 := if_neg hdata
  have hlenOn : ∀ streamId, st.frame.dataLenOn streamId = 0 := by
    intro streamId
    rw [Frame.dataLenOn, hlen]
    split_ifs <;> rfl
  have hsame : ∀ streamId, streamCredit streamId (steps ++ [st]) = streamCredit streamId steps := by
    intro streamId
    rw [streamCredit_snoc, hlenOn, creditSent_of_forall hqueued]
    simp
  constructor
  · rw [connCredit_snoc, hlen, creditSent_of_forall hqueued, hconn, h.conn]
    simp
  · rw [hconn]
    exact h.conn_low
  · intro i hi
    rcases hslot i hi with ⟨hrec, hid, hwin⟩ | ⟨hnew, hwin⟩
    · -- a stream that received before
      rw [hid, hwin, hsame]
      exact h.stream i hrec
    · -- a stream that is new has its whole window
      rw [hwin, hsame, h.fresh _ hnew]
      exact ⟨by omega, rfl, by omega⟩
  · intro streamId hnew
    rw [hsame]
    exact h.fresh streamId (by omega)

/-- A DATA frame: its length is charged, and the windows are refilled with credit. -/
theorem charge (h : ReceiveLedger steps c) (hdata : st.frame.type = FrameType.data.toByte)
    (hid : st.frame.streamId ≤ c.lastStreamId) (hlast : c'.lastStreamId = c.lastStreamId)
    (hconn : c'.connRecvWindow = refill (c.connRecvWindow - st.frame.payload.length))
    (hcredit : c'.connRecvWindow
      = c.connRecvWindow - st.frame.payload.length + creditSent 0 st.queued)
    (hother : ∀ streamId, streamId ≠ 0 → streamId ≠ st.frame.streamId →
      creditSent streamId st.queued = 0)
    (hslot : ∀ i, (c'.streams i).Receives →
      (c.streams i).Receives ∧ (c'.streams i).id = (c.streams i).id ∧
      ((c.streams i).id ≠ st.frame.streamId ∧ (c'.streams i).recvWindow = (c.streams i).recvWindow
        ∨ (c.streams i).id = st.frame.streamId ∧ (c'.streams i).recvWindow
            = (c.streams i).recvWindow - st.frame.payload.length
              + creditSent st.frame.streamId st.queued
          ∧ 32768 ≤ (c'.streams i).recvWindow)) :
    ReceiveLedger (steps ++ [st]) c' := by
  have hlen : st.frame.dataLen = st.frame.payload.length := if_pos hdata
  have hself : st.frame.dataLenOn st.frame.streamId = st.frame.payload.length := by
    rw [Frame.dataLenOn, if_pos rfl, hlen]
  have hne : ∀ streamId, streamId ≠ 0 → streamId ≠ st.frame.streamId →
      streamCredit streamId (steps ++ [st]) = streamCredit streamId steps := by
    intro streamId h0 hno
    rw [streamCredit_snoc, hother streamId h0 hno, Frame.dataLenOn, if_neg (Ne.symm hno)]
    simp
  constructor
  · rw [connCredit_snoc, hlen, hcredit, h.conn]
  · rw [hconn]
    exact refill_ge _
  · intro i hi
    -- another stream, or the stream of the frame
    obtain ⟨hrec, hsame, ⟨hno, hwin⟩ | ⟨hyes, hwin, hlow⟩⟩ := hslot i hi
    · obtain ⟨h0, hledger⟩ := h.stream i hrec
      rw [hsame, hwin, hne _ h0 hno]
      exact ⟨h0, hledger⟩
    · obtain ⟨h0, hledger, -⟩ := h.stream i hrec
      refine ⟨by rwa [hsame], ?_, hlow⟩
      rw [hsame, hwin, hledger, hyes, streamCredit_snoc, hself]
  · intro streamId hnew
    rw [hlast] at hnew
    rw [hne streamId (by omega) (by omega)]
    exact h.fresh streamId hnew

/-- The slots after the frames of responses. -/
theorem answers_slot {c₁ : Connection} {fs : List Frame} (hans : Answers c₁ fs c')
    (i : Fin connMaxStreams) (hi : (c'.streams i).Receives) :
    (c₁.streams i).Receives ∧ (c'.streams i).id = (c₁.streams i).id
      ∧ (c'.streams i).recvWindow = (c₁.streams i).recvWindow := by
  rcases hans.slot i with ⟨hst, hwin⟩ | ⟨⟨hst, -, hwin⟩ | ⟨-, hst⟩, -⟩
  · exact ⟨by rwa [Stream.Receives, ← hst], hans.id i, hwin⟩
  · exact ⟨Or.inl hst, hans.id i, hwin⟩
  · rcases hi with hi | hi <;> rw [hst] at hi <;> cases hi

/-- The frames of responses bring no credit. -/
theorem answers_queued {c₁ : Connection} {fs : List Frame} (hans : Answers c₁ fs c') :
    ∀ f ∈ fs, f.type ≠ FrameType.windowUpdate.toByte := by
  intro f hf
  obtain ⟨streamId, -, -, ⟨n, -, rfl⟩ | ⟨body, -, rfl⟩⟩ := hans.answer f hf
  · show FrameType.headers.toByte ≠ FrameType.windowUpdate.toByte
    decide
  · show FrameType.data.toByte ≠ FrameType.windowUpdate.toByte
    decide

/-- A stream that still receives after a DATA frame has been charged with it. -/
theorem received_receives {s : Stream} {len : Nat} {endStream : Bool} {w : Int}
    (hopen : ¬ (endStream = true ∧ s.state = .halfClosedLocal))
    (h : Stream.Receives { received s len endStream with recvWindow := w }) :
    (received s len endStream).id = s.id ∧ s.Receives
      ∧ (received s len endStream).recvWindow = s.recvWindow - len := by
  unfold received at h ⊢
  split_ifs at h ⊢ with hend hhcl
  · exact absurd ⟨hend, hhcl⟩ hopen
  · rcases h with h | h <;> cases h
  · exact ⟨rfl, h, rfl⟩

/-- A stream that is closed receives nothing any more. -/
theorem close_not_receives (s : Stream) : ¬ s.close.Receives := by
  rintro (hst | hst)
  · cases hst
  · cases hst

/-- The slots after one of them has been closed for the frame. -/
theorem closed_slot (hc : Inv c) (h : ReceiveLedger steps c) {pos i : Fin connMaxStreams}
    {streamId : Nat} (hid : (c.streams pos).id = streamId) {w credit : Int}
    (hi : ((c.setStream pos (c.streams pos).close).streams i).Receives) :
    (c.streams i).Receives
      ∧ ((c.setStream pos (c.streams pos).close).streams i).id = (c.streams i).id
      ∧ ((c.streams i).id ≠ streamId
          ∧ ((c.setStream pos (c.streams pos).close).streams i).recvWindow = (c.streams i).recvWindow
        ∨ (c.streams i).id = streamId
          ∧ ((c.setStream pos (c.streams pos).close).streams i).recvWindow
            = (c.streams i).recvWindow - w + credit
          ∧ 32768 ≤ ((c.setStream pos (c.streams pos).close).streams i).recvWindow) := by
  by_cases hpos : i = pos
  · subst hpos
    rw [setStream_streams_self] at hi
    exact absurd hi (close_not_receives _)
  · rw [setStream_streams_ne c hpos] at hi ⊢
    have hne : (c.streams i).id ≠ streamId := by
      rw [← hid]
      exact fun heq => hpos (hc.id_inj i pos (h.stream i hi).1 heq)
    exact ⟨hi, rfl, Or.inl ⟨hne, rfl⟩⟩

/-- A DATA frame that closes its stream: only the connection window is refilled. -/
theorem chargeClosed (hc : Inv c) (h : ReceiveLedger steps c)
    (ht : st.frame.type = FrameType.data.toByte) {pos : Fin connMaxStreams}
    (hid : (c.streams pos).id = st.frame.streamId)
    (hcover : (st.frame.payload.length : Int) ≤ c.connRecvWindow)
    (hqueued : ∀ streamId, creditSent streamId st.queued
      = creditSent streamId (refillFrames 0 (c.connRecvWindow - st.frame.payload.length)))
    (hlast : c'.lastStreamId = c.lastStreamId)
    (hconn : c'.connRecvWindow = refill (c.connRecvWindow - st.frame.payload.length))
    (hslots : c'.streams = (c.setStream pos (c.streams pos).close).streams) :
    ReceiveLedger (steps ++ [st]) c' := by
  have hcredit : ∀ streamId, (creditSent streamId st.queued : Int)
      = if 0 = streamId then refill (c.connRecvWindow - st.frame.payload.length)
          - (c.connRecvWindow - st.frame.payload.length) else 0 := by
    intro streamId
    rw [hqueued, creditSent_refillFrames (by decide) (by omega)]
  refine h.charge ht (by rw [← hid]; exact hc.id_le pos) hlast hconn ?_ ?_ fun i hi => ?_
  · rw [hcredit 0, if_pos rfl, hconn]
    omega
  · intro streamId hs0 hne
    have hnone := hcredit streamId
    rw [if_neg (Ne.symm hs0)] at hnone
    omega
  · rw [hslots] at hi ⊢
    exact closed_slot hc h hid hi

/-- **Every accepted frame keeps the ledger.** -/
theorem accept {fs : List Frame} (hc : Inv c) (h : ReceiveLedger steps c)
    (hacc : Accepts c st.frame fs c') (hq : st.queued = fs) : ReceiveLedger (steps ++ [st]) c' := by
  have hnone : fs = [] → ∀ f ∈ st.queued, f.type ≠ FrameType.windowUpdate.toByte := by
    rintro rfl f hf
    rw [hq] at hf
    cases hf
  have hkeep : ∀ i, (c.streams i).Receives → (c.streams i).Receives
      ∧ (c.streams i).id = (c.streams i).id
      ∧ (c.streams i).recvWindow = (c.streams i).recvWindow := fun i hi => ⟨hi, rfl, rfl⟩
  cases hacc with
  | ignore hack ht hblock =>
      exact h.quiet ht (hnone rfl) rfl le_rfl fun i hi => Or.inl (hkeep i hi)
  | ping hack =>
      refine h.quiet (Frame.type_ne_data hack) ?_ rfl le_rfl fun i hi => Or.inl (hkeep i hi)
      rw [hq]
      simp [pingAckFrame]
  -- the initial window is one of the sending side
  | settings settings hparse hack hall =>
      refine h.quiet (Frame.type_ne_data hack) ?_ ?_ ?_ fun i hi => Or.inl ?_
      · rw [hq]
        simp [settingsAckFrame]
      · rw [foldl_applied]
        rfl
      · rw [foldl_applied]
        exact le_rfl
      · rw [foldl_applied] at hi ⊢
        obtain ⟨hid, hst, hwin⟩ := resizeWindows_slot c
          (lastValue settingsInitialWindowSize settings c.initialStreamWindow) i
        have hi' : ((c.resizeWindows (lastValue settingsInitialWindowSize settings
            c.initialStreamWindow)).streams i).Receives := hi
        rw [Stream.Receives, hst] at hi'
        exact ⟨hi', hid, hwin⟩
  | beginBlock bytes ht hblock =>
      refine h.quiet ?_ (hnone rfl) rfl le_rfl fun i hi => Or.inl (hkeep i hi)
      rw [ht]
      decide
  | extendBlock bytes ht hblock =>
      refine h.quiet ?_ (hnone rfl) rfl le_rfl fun i hi => Or.inl (hkeep i hi)
      rw [ht]
      decide
  -- the new stream is the only one whose window is not what it was
  | request pos flags block bytes path fs c' hadmits hblock hodd hlast hfree hpath hne hres hans =>
      have hnew : st.frame.streamId = c'.lastStreamId := hans.last.symm
      refine h.quiet (blockOf_type hblock) ?_ hans.recv (by omega) fun i hi => ?_
      · rw [hq]
        exact answers_queued hans
      · obtain ⟨hrec, hid, hwin⟩ := answers_slot hans i hi
        rw [hid, hwin]
        by_cases hi : i = pos
        · subst hi
          rw [withStream_streams]
          exact Or.inr ⟨hlast, rfl⟩
        · rw [withStream_streams_ne hi] at hrec ⊢
          exact Or.inl ⟨hrec, rfl, rfl⟩
  | refuse bytes hcomp hodd hlast hfull =>
      refine h.quiet hcomp.type_ne_data ?_ rfl le_rfl fun i hi => Or.inl (hkeep i hi)
      rw [hq]
      simp [rstStreamFrame]
  | badPath pos bytes path ret hcomp hodd hlast hfree hpath hret =>
      refine h.quiet hcomp.type_ne_data ?_ rfl hlast.le fun i hi => Or.inl ?_
      · rw [hq]
        simp [rstStreamFrame]
      · by_cases hpos : i = pos
        · subst hpos
          rw [setStream_streams_self] at hi
          exact absurd hi (close_not_receives _)
        · rw [setStream_streams_ne _ hpos] at hi ⊢
          have hsame := @withStream_streams_ne { c with
            headerBlockOpen := false, headerBlock := bytes } pos i hpos st.frame.streamId path .idle
          simp only [Connection.push] at hi ⊢
          rw [hsame] at hi ⊢
          exact hkeep i hi
  | reset pos ht hfind =>
      refine h.quiet (by rw [ht]; decide) (hnone rfl) rfl le_rfl fun i hi => Or.inl ?_
      by_cases hpos : i = pos
      · subst hpos
        rw [setStream_streams_self] at hi
        exact absurd hi (close_not_receives _)
      · rw [setStream_streams_ne c hpos] at hi ⊢
        exact hkeep i hi
  | creditConn increment fs c' ht hmax hans =>
      refine h.quiet (by rw [ht]; decide) ?_ hans.recv hans.last.ge
        fun i hi => Or.inl (answers_slot hans i hi)
      rw [hq]
      exact answers_queued hans
  | creditStream pos increment fs c' ht hfind h0 hmax hans =>
      refine h.quiet (by rw [ht]; decide) ?_ hans.recv hans.last.ge fun i hi => Or.inl ?_
      · rw [hq]
        exact answers_queued hans
      · obtain ⟨hrec, hid, hwin⟩ := answers_slot hans i hi
        rw [hid, hwin]
        by_cases hpos : i = pos
        · subst hpos
          rw [setStream_streams_self] at hrec ⊢
          exact ⟨hrec, rfl, rfl⟩
        · rw [setStream_streams_ne c hpos] at hrec ⊢
          exact hkeep i hrec
  -- the one frame that is charged on both windows and refills both
  | data pos ht hfind hst hconn hstream hopen =>
      have hid := findStream_eq_some hfind
      have h0 : st.frame.streamId ≠ 0 := hid ▸ (h.stream pos hst).1
      have hw : (0 : Int) ≤ c.connRecvWindow - st.frame.payload.length := by omega
      have hws : (0 : Int) ≤ (c.streams pos).recvWindow - st.frame.payload.length := by omega
      have hcredit : ∀ streamId, (creditSent streamId st.queued : Int)
          = (if 0 = streamId then refill (c.connRecvWindow - st.frame.payload.length)
              - (c.connRecvWindow - st.frame.payload.length) else 0)
            + if st.frame.streamId = streamId then
                refill ((c.streams pos).recvWindow - st.frame.payload.length)
                  - ((c.streams pos).recvWindow - st.frame.payload.length) else 0 := by
        intro streamId
        rw [hq, creditSent_append, Nat.cast_add, creditSent_refillFrames (by decide) hw,
          creditSent_refillFrames st.frame.streamId_lt hws]
      refine h.charge ht (by rw [← hid]; exact hc.id_le pos) rfl rfl ?_ ?_ fun i hi => ?_
      · rw [hcredit 0, if_pos rfl, if_neg h0]
        show refill (c.connRecvWindow - st.frame.payload.length) = _
        omega
      · intro streamId hs0 hne
        have hnone := hcredit streamId
        rw [if_neg (Ne.symm hs0), if_neg (Ne.symm hne)] at hnone
        omega
      · -- a slot with another index has another id
        by_cases hpos : i = pos
        · subst hpos
          have hsid := hcredit st.frame.streamId
          rw [if_neg (Ne.symm h0), if_pos rfl] at hsid
          rw [refilled_streams_self] at hi ⊢
          obtain ⟨hrid, hrst, hrwin⟩ := received_receives hopen hi
          refine ⟨hst, hrid, Or.inr ⟨hid, ?_, ?_⟩⟩
          · show refill (received (c.streams i) st.frame.payload.length
              (hasFlag st.frame.flags flagEndStream)).recvWindow = _
            rw [hrwin, hsid]
            omega
          · exact refill_ge _
        · rw [refilled_streams_ne c hpos] at hi ⊢
          have hne : (c.streams i).id ≠ st.frame.streamId := by
            rw [← hid]
            exact fun heq => hpos (hc.id_inj i pos (h.stream i hi).1 heq)
          exact ⟨hi, rfl, Or.inl ⟨hne, rfl⟩⟩
  | lastData pos ht hfind hend hst hconn hstream =>
      exact h.chargeClosed hc ht (findStream_eq_some hfind) hconn (fun _ => by rw [hq]) rfl rfl rfl
  | lateData pos ht hfind hst hconn =>
      refine h.chargeClosed hc ht (findStream_eq_some hfind) hconn (fun streamId => ?_) rfl rfl rfl
      -- RST_STREAM brings no credit
      have hrst : creditSent streamId [rstStreamFrame st.frame.streamId .streamClosed] = 0 :=
        creditSent_of_forall (by simp [rstStreamFrame]) streamId
      rw [hq, creditSent_append, hrst, Nat.add_zero]

end ReceiveLedger

/-! ## All runs -/

theorem exec_receiveLedger (ops : List Op) :
    ((∀ st ∈ (exec ops).steps, st.code = .ok) → ReceiveLedger (exec ops).steps (exec ops).conn)
    ∧ ∀ before st after, (exec ops).steps = before ++ st :: after →
        (∀ st' ∈ before, st'.code = .ok) → ReceiveLedger before st.before := by
  refine exec_accepted (R := ReceiveLedger) ?_ ?_ ?_ ops
  · exact fun steps hist c h _ _ _ _ _ _ => ⟨h.conn, h.conn_low, h.stream, h.fresh⟩
  · refine ⟨rfl, by decide, fun i hi => ?_, fun streamId _ => rfl⟩
    rcases hi with hi | hi <;> cases hi
  · exact fun hc h hok => h.accept hc (handleFrame_accepts hc hok) rfl

/-- A DATA frame that the windows cover is no flow control error. -/
theorem Connection.data_code {c : Connection} (hc : Inv c) {f : Frame}
    (ht : f.type = FrameType.data.toByte) (hconn : (f.payload.length : Int) ≤ c.connRecvWindow)
    (hstream : ∀ i, (c.streams i).Receives → (c.streams i).id = f.streamId →
      (f.payload.length : Int) ≤ (c.streams i).recvWindow) :
    (c.handleFrame f).1 ≠ .flowControlError := by
  -- the codes that end the connection, but for the one in question
  have hgo : ∀ {r}, c.processFrame f.header f.payload = r → r.1 ≠ .flowControlError →
      isStreamError r.1 = false → (c.handleFrame f).1 ≠ .flowControlError := by
    rintro ⟨ret, c'⟩ hproc hne hse
    by_cases hret : ret = .ok
    · subst hret
      rw [handleFrame_ok hproc]
      exact hne
    · rw [handleFrame_goaway hproc hret (by simp [hse])]
      exact hne
  by_cases hadmits : c.Admits f
  · have hproc := processFrame_handler hadmits ht
    rw [handler] at hproc
    rcases hparse : parseData f.header f.payload with ret | parsed
    · rw [processData, hparse] at hproc
      rcases parseData_error hparse with rfl | rfl
      · exact hgo hproc (by simp) rfl
      · exact hgo hproc (by simp) rfl
    · rcases hfind : c.findStream f.streamId with _ | pos
      · rw [processData, hparse] at hproc
        simp only [Frame.header_streamId, hfind] at hproc
        exact hgo hproc (by simp) rfl
      · have hcharge := charged_inv hc hconn
        replace hproc := processFrame_data hc hadmits ht hparse hfind
        rw [if_neg (not_lt.mpr hconn)] at hproc
        by_cases hst : (c.streams pos).state ≠ .opened ∧ (c.streams pos).state ≠ .halfClosedLocal
        · -- the stream does not take any more data
          rw [if_pos hst] at hproc
          by_cases h0 : f.streamId = 0
          · rw [handleFrame_goaway hproc (by decide) (fun h => h.2 h0)]
            simp
          · have hrefresh := (refreshRecvWindows_does hcharge none).inv hcharge
            rw [handleFrame_reset hproc rfl h0]
            rcases resetStreamError_code hrefresh h0 .streamClosed with hcode | hcode
            · simp [hcode]
            · simp [hcode]
        · have hst' : (c.streams pos).Receives := by
            by_contra hno
            exact hst (not_or.mp hno)
          have hcover := hstream pos hst' (findStream_eq_some hfind)
          rw [if_neg hst, if_neg (not_lt.mpr hcover)] at hproc
          have hrecv : Inv ((c.charged f.payload.length).setStream pos (received (c.streams pos)
              f.payload.length (hasFlag f.flags flagEndStream))) :=
            (@received_acts (c.charged f.payload.length) pos _ rfl (hc.slot pos) hst'
              f.payload.length hcover (hasFlag f.flags flagEndStream) .ok).inv hcharge
          refine hgo hproc ?_ (refreshRecvWindows_code hrecv _)
          rcases refreshRecvWindows_cases hrecv (if (received (c.streams pos) f.payload.length
            (hasFlag f.flags flagEndStream)).state = .closed then none else some pos) with hcode | hcode
          · rw [hcode]
            decide
          · rw [hcode]
            decide
  · obtain ⟨ret, hret, heq⟩ := processFrame_rejected hadmits
    rcases hret with rfl | rfl
    · exact hgo heq (by simp) rfl
    · exact hgo heq (by simp) rfl

/-- **Receive windows are exact and fair.** Without errors every receive window is what the client
has been granted less what it has used, and at least half of its size. A client that stays within
what it has been granted is never charged with a flow control error for DATA. -/
theorem receive_windows_exact (ops : List Op) :
    ((exec ops).AllOk →
      ((exec ops).conn.connRecvWindow
          = 65535 - dataReceived (exec ops).steps + creditSent 0 (exec ops).frames
        ∧ 32768 ≤ (exec ops).conn.connRecvWindow ∧ (exec ops).conn.connRecvWindow ≤ 65535)
      ∧ ∀ i, ((exec ops).conn.streams i).state = .opened
            ∨ ((exec ops).conn.streams i).state = .halfClosedLocal →
          ((exec ops).conn.streams i).recvWindow
              = 65535 - dataReceivedOn ((exec ops).conn.streams i).id (exec ops).steps
                + creditSent ((exec ops).conn.streams i).id (exec ops).frames
            ∧ 32768 ≤ ((exec ops).conn.streams i).recvWindow
            ∧ ((exec ops).conn.streams i).recvWindow ≤ 65535)
    ∧ ∀ before st after, (exec ops).steps = before ++ st :: after →
        (∀ st' ∈ before, st'.code = .ok) → st.frame.type = FrameType.data.toByte →
        dataReceived (before ++ [st])
          ≤ 65535 + creditSent 0 (before.flatMap FrameStep.queued) →
        dataReceivedOn st.frame.streamId (before ++ [st])
          ≤ 65535 + creditSent st.frame.streamId (before.flatMap FrameStep.queued) →
        st.code ≠ .flowControlError := by
  obtain ⟨hall, hsplit⟩ := exec_receiveLedger ops
  constructor
  · intro hok
    have hledger := hall (exec_steps_ok hok)
    have hinv := (exec_good ops).inv
    -- the greeting grants nothing
    have hcredit : ∀ streamId, creditSent streamId (exec ops).frames
        = creditSent streamId ((exec ops).steps.flatMap FrameStep.queued) := by
      intro streamId
      have hgreet : creditSent streamId (greeting (exec ops).conn) = 0 := by
        refine creditSent_of_forall (fun f hf => ?_) streamId
        unfold greeting at hf
        split_ifs at hf
        · rw [List.mem_singleton.mp hf]
          simp [serverSettingsFrame]
        · cases hf
      rw [exec_frames hok, creditSent_append, hgreet, Nat.zero_add]
    refine ⟨⟨?_, hledger.conn_low, hinv.conn_recv.2⟩, fun i hi => ?_⟩
    · rw [hcredit]
      exact hledger.conn
    · obtain ⟨-, hwin, hlow⟩ := hledger.stream i hi
      rw [hcredit]
      exact ⟨hwin, hlow, (hinv.slot i).recv.2⟩
  · intro before st after hsteps hbefore ht hconn hstream
    have hledger := hsplit before st after hsteps hbefore
    obtain ⟨hc, hcode⟩ := exec_steps (Q := fun st => Inv st.before ∧ st.code = (st.before.handleFrame
      st.frame).1) (fun hc => ⟨hc, rfl⟩) ops st (by rw [hsteps]; simp)
    have hlen : st.frame.dataLen = st.frame.payload.length := if_pos ht
    -- at this frame the ledger is the one of the frames before it
    rw [hcode]
    refine data_code hc ht ?_ fun i hi hid => ?_
    · rw [dataReceived_snoc, hlen] at hconn
      rw [hledger.conn, connCredit]
      omega
    · obtain ⟨-, hwin, -⟩ := hledger.stream i hi
      rw [dataReceivedOn_snoc, Frame.dataLenOn, if_pos rfl, hlen] at hstream
      rw [hwin, hid, streamCredit]
      omega

/-- A request with three bytes of data. -/
def requestWithData : List Op :=
  [.feed (clientInput [postRequest 1, Frame.of FrameType.data.toByte flagEndStream 1 [1, 2, 3]])]

set_option maxRecDepth 20000 in
theorem receive_windows_exact_data :
    (exec requestWithData).conn.connRecvWindow
        = 65535 - dataReceived (exec requestWithData).steps
          + creditSent 0 (exec requestWithData).frames
      ∧ ∃ request data, (exec requestWithData).steps = [request, data]
        ∧ data.code ≠ .flowControlError := by
  have hok : (exec requestWithData).AllOk := by decide +kernel
  have hall : (exec requestWithData).steps.map
      (fun st => (st.code, st.frame.type, st.frame.streamId, st.frame.payload.length))
      = [(.ok, FrameType.headers.toByte, 1, 1), (.ok, FrameType.data.toByte, 1, 3)] := by
    decide +kernel
  obtain ⟨request, rest, hsteps, hrequest, hrest⟩ := List.map_eq_cons_iff.mp hall
  obtain ⟨data, rest', rfl, hdata, hnil⟩ := List.map_eq_cons_iff.mp hrest
  obtain rfl := List.map_eq_nil_iff.mp hnil
  simp only [Prod.mk.injEq] at hrequest hdata
  have hused : dataReceived [request, data] = 3 := by
    simp [dataReceived, Frame.dataLen, hrequest.2.1, hdata.2.1, hdata.2.2.2]
  have husedOn : dataReceivedOn data.frame.streamId [request, data] = 3 := by
    simp [dataReceivedOn, Frame.dataLenOn, Frame.dataLen, hrequest.2.1, hdata.2.1, hdata.2.2.2]
  refine ⟨((receive_windows_exact requestWithData).1 hok).1.1, request, data, hsteps, ?_⟩
  refine (receive_windows_exact requestWithData).2 [request] data [] hsteps ?_ hdata.2.1 ?_ ?_
  · simpa using hrequest.1
  · exact hused.le.trans (by omega)
  · exact husedOn.le.trans (by omega)

end C11Omo.Http2
