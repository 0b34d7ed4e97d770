import C11Omo.Http2.SlotTable

set_option autoImplicit false

/-! # The life of a stream

The states of a stream as the two sides of a connection see them on the wire, after the stream
states of the protocol (`src/docs/research/http2-rfc7540.md`). A `StreamMove` is a frame that counts
for the life of its stream, a `Phase` is what the frames so far have made of it, and `Phase.next` says
which moves are possible: it has no successor for a frame that the server must not send. The machine
is not quite the one of the protocol, since the server is not: a stream that was refused may take
another request, an id that the client has skipped stays idle, and the credit of the client is no
move, on whatever stream it comes. A slot of the table shows a phase (`Stream.Shows`), and sending
responses moves every stream as it should (`Sends`).
-/

namespace C11Omo.Http2

open C11Omo.Lib Connection

/-! ## Phases and moves -/

/-- A frame that counts for its stream. PRIORITY frames and the credit of the client do not: the
server accepts both on any stream, idle ones included. -/
inductive StreamMove
  /-- The client has sent a complete header block. -/
  | request (endStream : Bool)
  | clientData (endStream : Bool)
  | clientReset
  | headers
  | serverData (endStream : Bool)
  | windowUpdate
  | serverReset
  deriving DecidableEq, Repr

/-- What has become of a stream. -/
inductive Phase
  | idle
  /-- A request has come, and nothing has been sent yet. -/
  | requested (endStream : Bool)
  | opened
  | halfClosedRemote
  | halfClosedLocal
  | closed
  /-- The server has reset the stream instead of serving the request. -/
  | refused
  /-- The client has sent data that the stream does not take. A reset is due. -/
  | violated
  deriving DecidableEq, Repr

namespace Phase

/-- The phase after a move. A request is only taken once, but a client whose request has been refused
may try again on the same stream, which the protocol forbids: the server forgets the id. -/
def next : Phase → StreamMove → Option Phase
  | .idle, .request endStream => some (.requested endStream)
  | .refused, .request endStream => some (.requested endStream)
  | .requested endStream, .headers => some (if endStream then .halfClosedRemote else .opened)
  | .requested _, .serverReset => some .refused
  | .opened, .clientData endStream => some (if endStream then .halfClosedRemote else .opened)
  | .halfClosedLocal, .clientData endStream => some (if endStream then .closed else .halfClosedLocal)
  | .halfClosedRemote, .clientData _ => some .violated
  | .closed, .clientData _ => some .violated
  | .refused, .clientData _ => some .violated
  | .violated, .serverReset => some .closed
  | .opened, .serverData true => some .halfClosedLocal
  | .halfClosedRemote, .serverData true => some .closed
  | .opened, .windowUpdate => some .opened
  | .halfClosedRemote, .windowUpdate => some .halfClosedRemote
  | .halfClosedLocal, .windowUpdate => some .halfClosedLocal
  | .requested _, .clientReset => none
  | .violated, .clientReset => none
  | _, .clientReset => some .closed
  | _, _ => none

/-- Moves in a row. -/
def run (phase : Phase) (moves : List StreamMove) : Option Phase := moves.foldlM next phase

@[simp] theorem run_nil (phase : Phase) : phase.run [] = some phase := rfl

@[simp] theorem run_cons (phase : Phase) (move : StreamMove) (moves : List StreamMove) :
    phase.run (move :: moves) = (phase.next move).bind (run · moves) := rfl

theorem run_append (phase : Phase) (moves moves' : List StreamMove) :
    phase.run (moves ++ moves') = (phase.run moves).bind (run · moves') :=
  List.foldlM_append ..

theorem run_append_of {phase phase' : Phase} {moves : List StreamMove}
    (h : phase.run moves = some phase') (moves' : List StreamMove) :
    phase.run (moves ++ moves') = phase'.run moves' := by
  rw [run_append, h, Option.bind_some]

/-- The stream needs no slot: it has not begun, or it has ended. -/
def Over (phase : Phase) : Prop := phase = .idle ∨ phase = .closed ∨ phase = .refused

/-- A request on the stream is new. -/
def Fresh (phase : Phase) : Prop := phase = .idle ∨ phase = .refused

theorem Fresh.request {phase : Phase} (h : phase.Fresh) (endStream : Bool) :
    phase.next (.request endStream) = some (.requested endStream) := by
  rcases h with rfl | rfl <;> rfl

end Phase

/-! ## The moves on the wire -/

/-- The move that a frame of the server makes. -/
def Frame.sentMove (f : Frame) : Option StreamMove :=
  match FrameType.ofByte? f.type with
  | some .headers => some .headers
  | some .data => some (.serverData (hasFlag f.flags flagEndStream))
  | some .windowUpdate => some .windowUpdate
  | some .rstStream => some .serverReset
  | _ => none

/-- The moves that frames of the server make on a stream. -/
def sentOn (streamId : Nat) (fs : List Frame) : List StreamMove :=
  (fs.filter fun f => f.streamId = streamId).filterMap Frame.sentMove

/-- The move that a frame of the client makes. A header block counts when it is complete. -/
def Connection.clientMoves (c : Connection) (f : Frame) : List StreamMove :=
  match c.blockOf f with
  | some (flags, _) => [.request (hasFlag flags flagEndStream)]
  | none =>
      if f.type = FrameType.data.toByte then [.clientData (hasFlag f.flags flagEndStream)]
      else if f.type = FrameType.rstStream.toByte then [.clientReset]
      else []

/-- The moves on a stream when a frame is handled: that of the frame, then those of the frames it
makes the server queue. -/
def FrameStep.moves (streamId : Nat) (st : FrameStep) : List StreamMove :=
  (if st.frame.streamId = streamId then st.before.clientMoves st.frame else [])
    ++ sentOn streamId st.queued

/-- The server makes the move. -/
def StreamMove.ofServer : StreamMove → Bool
  | .request _ => false
  | .clientData _ => false
  | .clientReset => false
  | _ => true

/-- The moves on a stream while frames are handled. -/
def movesOn (streamId : Nat) (steps : List FrameStep) : List StreamMove :=
  steps.flatMap (FrameStep.moves streamId)

theorem movesOn_append (streamId : Nat) (steps steps' : List FrameStep) :
    movesOn streamId (steps ++ steps') = movesOn streamId steps ++ movesOn streamId steps' :=
  List.flatMap_append

theorem movesOn_singleton (streamId : Nat) (st : FrameStep) :
    movesOn streamId [st] = st.moves streamId := List.flatMap_singleton ..

section

variable {streamId : Nat} {fs gs : List Frame} {f : Frame}

@[simp] theorem sentOn_nil (streamId : Nat) : sentOn streamId [] = [] := rfl

theorem sentOn_flatMap {α : Type} (streamId : Nat) (xs : List α) (g : α → List Frame) :
    sentOn streamId (xs.flatMap g) = xs.flatMap fun x => sentOn streamId (g x) := by
  simp only [sentOn, List.filter_flatMap, List.filterMap_flatMap]

theorem sentOn_append (streamId : Nat) (fs gs : List Frame) :
    sentOn streamId (fs ++ gs) = sentOn streamId fs ++ sentOn streamId gs := by
  rw [sentOn, List.filter_append, List.filterMap_append]
  rfl

/-- The server makes the moves of its frames. -/
theorem sentOn_ofServer (streamId : Nat) (fs : List Frame) :
    ∀ move ∈ sentOn streamId fs, move.ofServer = true := by
  intro move hmove
  obtain ⟨f, -, hf⟩ := List.mem_filterMap.mp hmove
  unfold Frame.sentMove at hf
  split at hf
  · rw [← Option.some.inj hf]
    rfl
  · rw [← Option.some.inj hf]
    rfl
  · rw [← Option.some.inj hf]
    rfl
  · rw [← Option.some.inj hf]
    rfl
  · cases hf

/-- Frames that move no stream. -/
theorem sentOn_eq_nil (h : ∀ f ∈ fs, f.sentMove = none) : sentOn streamId fs = [] := by
  apply List.filterMap_eq_nil_iff.mpr
  intro f hf
  exact h f (List.mem_of_mem_filter hf)

/-- A frame moves its own stream only. -/
theorem sentOn_other (h : f.streamId ≠ streamId) : sentOn streamId [f] = [] := by
  rw [sentOn, List.filter_cons_of_neg (by simpa using h)]
  rfl

theorem sentOn_self (h : f.streamId = streamId) : sentOn streamId [f] = f.sentMove.toList := by
  rw [sentOn, List.filter_cons_of_pos (by simpa using h), List.filter_nil]
  rcases hmove : f.sentMove with _ | move <;> simp [hmove]

/-- The body of a response ends the side of the server. -/
theorem dataFrame_sentMove (c : Connection) (pos : Fin connMaxStreams) :
    (c.dataFrame pos).sentMove = some (.serverData true) := by
  have hend : hasFlag flagEndStream flagEndStream = true := by decide
  exact congrArg (fun endStream => some (StreamMove.serverData endStream)) hend

theorem sentOn_windowUpdateFrame (hlt : streamId < 2 ^ 31) (increment : Nat) :
    sentOn streamId [windowUpdateFrame streamId increment] = [.windowUpdate] :=
  sentOn_self (Frame.of_streamId hlt _ _ _)

theorem sentOn_rstStreamFrame (hlt : streamId < 2 ^ 31) (errorCode : ErrorCode) :
    sentOn streamId [rstStreamFrame streamId errorCode] = [.serverReset] :=
  sentOn_self (Frame.of_streamId hlt _ _ _)

/-- The reset of another stream. -/
theorem sentOn_rstStreamFrame_ne {other : Nat} (hlt : other < 2 ^ 31) (hne : other ≠ streamId)
    (errorCode : ErrorCode) : sentOn streamId [rstStreamFrame other errorCode] = [] := by
  apply sentOn_other
  rw [rstStreamFrame, Frame.of_streamId hlt]
  exact hne

end

/-! ## What a slot shows -/

/-- The slot of a stream in a phase. -/
def Stream.Shows (s : Stream) : Phase → Prop
  | .requested endStream => s.state = (if endStream then .halfClosedRemote else .opened)
      ∧ s.responseHeadersSent = false
  | .opened => s.state = .opened ∧ s.responseHeadersSent = true
  | .halfClosedRemote => s.state = .halfClosedRemote ∧ s.responseHeadersSent = true
  | .halfClosedLocal => s.state = .halfClosedLocal
  | .closed => s.state = .closed
  | .refused => s.state = .closed
  | _ => False

namespace Stream.Shows

variable {s s' : Stream} {phase : Phase}

/-- Only the state and one flag of a slot count. -/
theorem congr (h : s.Shows phase) (hst : s'.state = s.state)
    (hhead : s'.responseHeadersSent = s.responseHeadersSent) : s'.Shows phase := by
  cases phase with
  | idle => exact h
  | violated => exact h
  | _ => simpa only [Stream.Shows, hst, hhead] using h

/-- The phase of a stream whose response headers are to be sent. -/
theorem requested (h : s.Shows phase) (hcan : s.CanSend) (hnew : s.responseHeadersSent = false) :
    ∃ endStream, phase = .requested endStream
      ∧ s.state = if endStream then .halfClosedRemote else .opened := by
  cases phase with
  | requested endStream => exact ⟨endStream, rfl, h.1⟩
  | opened => exact absurd h.2 (by simp [hnew])
  | halfClosedRemote => exact absurd h.2 (by simp [hnew])
  | halfClosedLocal =>
      have hst : s.state = .halfClosedLocal := h
      rcases hcan.2 with h' | h' <;> rw [hst] at h' <;> cases h'
  | closed => exact absurd h hcan.state_ne.2
  | refused => exact absurd h hcan.state_ne.2
  | idle => exact h.elim
  | violated => exact h.elim

/-- The phase of a stream whose response body is to be sent. -/
theorem answering (h : s.Shows phase) (hcan : s.CanSend) (hhead : s.responseHeadersSent = true) :
    s.state = .opened ∧ phase = .opened
      ∨ s.state = .halfClosedRemote ∧ phase = .halfClosedRemote := by
  cases phase with
  | requested endStream => exact absurd h.2 (by simp [hhead])
  | opened => exact Or.inl ⟨h.1, rfl⟩
  | halfClosedRemote => exact Or.inr ⟨h.1, rfl⟩
  | halfClosedLocal =>
      have hst : s.state = .halfClosedLocal := h
      rcases hcan.2 with h' | h' <;> rw [hst] at h' <;> cases h'
  | closed => exact absurd h hcan.state_ne.2
  | refused => exact absurd h hcan.state_ne.2
  | idle => exact h.elim
  | violated => exact h.elim

/-- A closed slot shows that its stream is over. -/
theorem of_closed (h : s.Shows phase) (hst : s.state = .closed) :
    phase = .closed ∨ phase = .refused := by
  cases phase with
  | requested endStream =>
      have hreq := h.1
      rw [hst] at hreq
      split_ifs at hreq
  | opened => exact absurd (hst.symm.trans h.1) (by decide)
  | halfClosedRemote => exact absurd (hst.symm.trans h.1) (by decide)
  | halfClosedLocal => exact absurd (hst.symm.trans h) (by decide)
  | closed => exact Or.inl rfl
  | refused => exact Or.inr rfl
  | idle => exact h.elim
  | violated => exact h.elim

end Stream.Shows

/-! ## Sending responses -/

/-- **Sending responses**: the frames `fs` move each stream with a slot on from the phase that its
slot shows to the one that it shows afterwards, and no other stream. A body that is sent is that of
the path in the slot, and the path of a stream that is still to be answered stays. -/
structure Sends (c : Connection) (fs : List Frame) (c' : Connection) : Prop where
  output : c'.output = c.output ++ wireOf fs
  last : c'.lastStreamId = c.lastStreamId
  id : ∀ i, (c'.streams i).id = (c.streams i).id
  moves : ∀ i, (c.streams i).id ≠ 0 → ∀ phase, (c.streams i).Shows phase →
    ∃ phase', phase.run (sentOn (c.streams i).id fs) = some phase' ∧ (c'.streams i).Shows phase'
  others : ∀ streamId, (∀ i, (c.streams i).id ≠ streamId) → sentOn streamId fs = []
  bodies : ∀ f ∈ fs, f.type = FrameType.data.toByte →
    ∃ i, (c.streams i).CanSend ∧ f = c.dataFrame i
  paths : ∀ i, (c'.streams i).CanSend → (c.streams i).CanSend
    ∧ (c'.streams i).path = (c.streams i).path

namespace Sends

variable {c c' c'' : Connection} {fs gs : List Frame} {pos : Fin connMaxStreams}

theorem refl (c : Connection) : Sends c [] c where
  output := by simp
  last := rfl
  id := fun _ => rfl
  moves := fun _ _ phase h => ⟨phase, rfl, h⟩
  others := fun _ _ => rfl
  bodies := by simp
  paths := fun _ h => ⟨h, rfl⟩

theorem trans (h : Sends c fs c') (h' : Sends c' gs c'') : Sends c (fs ++ gs) c'' where
  output := by rw [h'.output, h.output, wireOf_append, List.append_assoc]
  last := h'.last.trans h.last
  id := fun i => (h'.id i).trans (h.id i)
  moves := by
    intro i h0 phase hshows
    obtain ⟨phase', hrun, hshows'⟩ := h.moves i h0 phase hshows
    obtain ⟨phase'', hrun', hshows''⟩ := h'.moves i (by rwa [h.id i]) phase' hshows'
    refine ⟨phase'', ?_, hshows''⟩
    rw [h.id i] at hrun'
    rw [sentOn_append, Phase.run_append_of hrun, hrun']
  others := by
    intro streamId hno
    rw [sentOn_append, h.others streamId hno, h'.others streamId fun i => by rw [h.id i]; exact hno i]
    rfl
  bodies := by
    intro f hf ht
    rcases List.mem_append.mp hf with hf | hf
    · exact h.bodies f hf ht
    · obtain ⟨i, hcan, rfl⟩ := h'.bodies f hf ht
      obtain ⟨hcan', hpath⟩ := h.paths i hcan
      exact ⟨i, hcan', by rw [dataFrame, dataFrame, h.id i, hpath]⟩
  paths := by
    intro i hcan
    obtain ⟨hcan', hpath⟩ := h'.paths i hcan
    obtain ⟨hcan'', hpath'⟩ := h.paths i hcan'
    exact ⟨hcan'', hpath.trans hpath'⟩

/-- One frame on the stream of a slot, whose phase moves on. -/
theorem step {f : Frame} {s : Stream} (hc : Inv c) (hcan : (c.streams pos).CanSend)
    (hfid : f.streamId = (c.streams pos).id) (hid : s.id = (c.streams pos).id)
    (hmoves : ∀ phase, (c.streams pos).Shows phase →
      ∃ phase', phase.run f.sentMove.toList = some phase' ∧ s.Shows phase')
    (hbody : f.type = FrameType.data.toByte → f = c.dataFrame pos)
    (hpath : s.CanSend → s.path = (c.streams pos).path)
    (hout : c'.output = c.output ++ f.wire) (hlast : c'.lastStreamId = c.lastStreamId)
    (hpos : c'.streams pos = s) (hother : ∀ i, i ≠ pos → c'.streams i = c.streams i) :
    Sends c [f] c' where
  output := by rw [hout, wireOf_singleton]
  last := hlast
  id := by
    intro i
    by_cases hi : i = pos
    · rw [hi, hpos, hid]
    · rw [hother i hi]
  moves := by
    intro i h0 phase hshows
    by_cases hi : i = pos
    · subst hi
      rw [sentOn_self hfid, hpos]
      exact hmoves phase hshows
    · -- another slot holds another stream
      have hne : f.streamId ≠ (c.streams i).id := by
        intro heq
        exact hi (hc.id_inj i pos h0 (heq.symm.trans hfid))
      rw [sentOn_other hne, hother i hi]
      exact ⟨phase, rfl, hshows⟩
  others := by
    intro streamId hno
    apply sentOn_other
    rw [hfid]
    exact hno pos
  bodies := by
    intro g hg ht
    rw [List.mem_singleton.mp hg] at ht ⊢
    exact ⟨pos, hcan, hbody ht⟩
  paths := by
    intro i hcan'
    by_cases hi : i = pos
    · subst hi
      rw [hpos] at hcan' ⊢
      exact ⟨hcan, hpath hcan'⟩
    · rw [hother i hi] at hcan' ⊢
      exact ⟨hcan', rfl⟩

/-- A slot is written without a change that counts. -/
theorem setStream {s : Stream} (hid : s.id = (c.streams pos).id)
    (hst : s.state = (c.streams pos).state)
    (hhead : s.responseHeadersSent = (c.streams pos).responseHeadersSent)
    (hpath : s.path = (c.streams pos).path) : Sends c [] (c.setStream pos s) where
  output := by simp [Connection.setStream]
  last := rfl
  id := setStream_id c hid
  moves := by
    intro i h0 phase hshows
    refine ⟨phase, rfl, ?_⟩
    by_cases hi : i = pos
    · subst hi
      rw [setStream_streams_self]
      exact hshows.congr hst hhead
    · rw [setStream_streams_ne c hi]
      exact hshows
  others := fun _ _ => rfl
  bodies := by simp
  paths := by
    intro i hcan
    by_cases hi : i = pos
    · subst hi
      rw [setStream_streams_self] at hcan ⊢
      refine ⟨?_, hpath⟩
      rwa [Stream.CanSend, hid, hst] at hcan
    · rw [setStream_streams_ne c hi] at hcan ⊢
      exact ⟨hcan, rfl⟩

end Sends

namespace Connection

variable {c : Connection} {pos : Fin connMaxStreams}

/-- The headers of a response are sent. -/
theorem headersSent_sends (hc : Inv c) (hcan : (c.streams pos).CanSend)
    (hnew : (c.streams pos).responseHeadersSent = false) :
    Sends c [c.headersFrame pos] ((c.push (c.headersFrame pos)).setStream pos
      { c.streams pos with responseHeadersSent := true }) := by
  apply Sends.step hc hcan (Frame.of_streamId (hc.id_lt pos) _ _ _)
    (s := { c.streams pos with responseHeadersSent := true }) rfl
  · intro phase hshows
    obtain ⟨endStream, rfl, hst⟩ := hshows.requested hcan hnew
    refine ⟨if endStream then .halfClosedRemote else .opened, rfl, ?_⟩
    cases endStream with
    | false => exact ⟨hst, rfl⟩
    | true => exact ⟨hst, rfl⟩
  · intro ht
    cases ht
  · exact fun _ => rfl
  · rfl
  · rfl
  · exact setStream_streams_self _ _ _
  · exact fun i hi => setStream_streams_ne _ hi _

/-- The body of a response is sent. -/
theorem answered_sends (hc : Inv c) (hcan : (c.streams pos).CanSend)
    (hhead : (c.streams pos).responseHeadersSent = true) (len : Nat) :
    Sends c [c.dataFrame pos] ((c.push (c.dataFrame pos)).answered pos len) := by
  have hnot : ∀ s : Stream, s.state = .halfClosedLocal ∨ s.state = .closed → ¬ s.CanSend := by
    rintro s (hst | hst) ⟨-, h | h⟩ <;> rw [hst] at h <;> cases h
  -- the stream as the server leaves it
  have hsent : ∀ s, s = (Stream.sendEndStream { c.streams pos with
        sendWindow := (c.streams pos).sendWindow - len
        responseBodyDeferred := false
        responseSent := true }).2 → s.id = (c.streams pos).id
      ∧ ((c.streams pos).state = .opened ∧ s.state = .halfClosedLocal
        ∨ (c.streams pos).state = .halfClosedRemote ∧ s.state = .closed) := by
    rintro s rfl
    rcases hcan.2 with hst | hst
    · simp [Stream.sendEndStream, hst]
    · simp [Stream.sendEndStream, hst, Stream.close]
  obtain ⟨hid, hst⟩ := hsent _ rfl
  apply Sends.step (f := c.dataFrame pos) hc hcan (Frame.of_streamId (hc.id_lt pos) _ _ _) hid
  · intro phase hshows
    rw [dataFrame_sentMove]
    rcases hshows.answering hcan hhead with ⟨hst', rfl⟩ | ⟨hst', rfl⟩
    · rcases hst with ⟨-, hst⟩ | ⟨h, -⟩
      · exact ⟨.halfClosedLocal, rfl, hst⟩
      · rw [hst'] at h
        cases h
    · rcases hst with ⟨h, -⟩ | ⟨-, hst⟩
      · rw [hst'] at h
        cases h
      · exact ⟨.closed, rfl, hst⟩
  · exact fun _ => rfl
  · intro hcan'
    refine absurd hcan' (hnot _ ?_)
    rcases hst with ⟨-, hst⟩ | ⟨-, hst⟩
    · exact Or.inl hst
    · exact Or.inr hst
  · rfl
  · rfl
  · exact setStream_streams_self _ _ _
  · exact fun i hi => setStream_streams_ne _ hi _

theorem queueDeferredData_sends (hc : Inv c) (hcan : (c.streams pos).CanSend)
    (hhead : (c.streams pos).responseHeadersSent = true) :
    ∃ fs, Sends c fs (c.queueDeferredData pos (responseBody (c.streams pos).path)).2 := by
  rw [queueDeferredData_eq hc hcan]
  split_ifs
  · exact ⟨[], .setStream rfl rfl rfl rfl⟩
  · exact ⟨_, answered_sends hc hcan hhead _⟩
  · exact ⟨[], .refl c⟩

/-- The response to a request: the headers, and the body if there is credit. -/
theorem queueResponse_sends (hc : Inv c) (hcan : (c.streams pos).CanSend)
    (hnew : (c.streams pos).responseHeadersSent = false)
    (hbody : (c.streams pos).responseSent = false) (hpath : (c.streams pos).path ≠ [])
    (hok : (c.queueResponse pos).1 = .ok) :
    ∃ fs, Sends c (c.headersFrame pos :: fs) (c.queueResponse pos).2 := by
  have hdoes := queueResponseHeaders_does hc hcan hnew
  rw [queueResponse_eq hc hbody hpath, if_neg (by simp [hnew])] at hok ⊢
  rw [queueResponseHeaders_eq hc hcan.1] at hdoes hok ⊢
  by_cases hfit : c.Fits (c.headersFrame pos)
  · rw [if_pos hfit] at hdoes ⊢
    rw [andThen_ok]
    have hself : ((c.push (c.headersFrame pos)).setStream pos
        { c.streams pos with responseHeadersSent := true }).streams pos
        = { c.streams pos with responseHeadersSent := true } := setStream_streams_self _ _ _
    have hdata := @queueDeferredData_sends _ pos (hdoes.inv hc) (by rw [hself]; exact hcan)
      (by rw [hself])
    rw [hself] at hdata
    obtain ⟨fs, hfs⟩ := hdata
    exact ⟨fs, (headersSent_sends hc hcan hnew).trans hfs⟩
  · rw [if_neg hfit] at hok
    cases hok

theorem flushDeferredLoop_sends (hc : Inv c) (ps : List (Fin connMaxStreams)) :
    ∃ fs, Sends c fs (flushDeferredLoop ps c).2 := by
  induction ps generalizing c with
  | nil => exact ⟨[], .refl c⟩
  | cons pos rest ih =>
      rw [flushDeferredLoop]
      by_cases hd : live (c.streams pos) ∧ (c.streams pos).responseBodyDeferred
      · obtain ⟨hst, hhead, hbody, hpath⟩ := (hc.slot pos).deferred hd.2
        have hcan : (c.streams pos).CanSend := ⟨(live_iff.mp hd.1).1, hst⟩
        have hdoes := queueDeferredData_does hc hcan hhead hbody hpath
        obtain ⟨fs, hfs⟩ := queueDeferredData_sends hc hcan hhead
        rw [if_pos hd, queueResponse_deferred hc hd.2]
        rcases hres : c.queueDeferredData pos (responseBody (c.streams pos).path) with ⟨ret, c₁⟩
        rw [hres] at hdoes hfs
        by_cases hret : ret = .ok
        · subst hret
          obtain ⟨gs, hgs⟩ := ih (hdoes.inv hc)
          rw [andThen_ok]
          exact ⟨_, hfs.trans hgs⟩
        · rw [andThen_err hret]
          exact ⟨fs, hfs⟩
      · rw [if_neg hd]
        exact ih hc

end Connection

end C11Omo.Http2
