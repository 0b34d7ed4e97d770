import C11Omo.Http2.Output

set_option autoImplicit false

/-! # What a frame makes the server queue

Responses are sent by `queue_response`, right after a request or when credit arrives. `Answers`
says what this does to the connection: HEADERS and DATA frames are queued, streams end their side,
and nothing else changes that the receiving side depends on. DATA frames make the server queue
WINDOW_UPDATE frames, and only PING and SETTINGS frames make it queue an ACK. It follows that the
output is well framed in all runs (`output_well_framed`) and that control frames are acknowledged
one for one and in order (`control_frames_acknowledged`).
-/

namespace C11Omo.Http2

open C11Omo.Lib Connection

/-! ## Answers -/

/-- A frame of a response. -/
def Frame.Answer (f : Frame) : Prop :=
  ∃ streamId, streamId ≠ 0 ∧ streamId < 2 ^ 31 ∧ ((∃ n ≤ 256, f = responseHeaders streamId n)
    ∨ ∃ body : List UInt8, body.length ≤ 256 ∧ f = responseData streamId body)

/-- The server has sent the response body of a stream: a stream that the client has ended is
closed, and one that it has not is half closed. -/
def Stream.Sent (s s' : Stream) : Prop :=
  s.state = .opened ∧ s'.state = .halfClosedLocal ∧ s'.recvWindow = s.recvWindow
    ∨ s.state = .halfClosedRemote ∧ s'.state = .closed

/-- **Sending responses**: from `c` to `c'` the frames `fs` are queued, and a stream ends its side
only by a DATA frame among them. -/
structure Answers (c : Connection) (fs : List Frame) (c' : Connection) : Prop where
  output : c'.output = c.output ++ wireOf fs
  answer : ∀ f ∈ fs, f.Answer
  last : c'.lastStreamId = c.lastStreamId
  recv : c'.connRecvWindow = c.connRecvWindow
  block : c'.headerBlockOpen = c.headerBlockOpen ∧ c'.headerBlockFlags = c.headerBlockFlags
    ∧ c'.headerBlockStreamId = c.headerBlockStreamId
  id : ∀ i, (c'.streams i).id = (c.streams i).id
  slot : ∀ i, (c'.streams i).state = (c.streams i).state
      ∧ (c'.streams i).recvWindow = (c.streams i).recvWindow
    ∨ (c.streams i).Sent (c'.streams i) ∧ ∃ f ∈ fs, f.type = FrameType.data.toByte
      ∧ f.streamId = (c.streams i).id

namespace Answers

variable {c c' c'' : Connection} {fs gs : List Frame}

theorem refl (c : Connection) : Answers c [] c where
  output := by simp
  answer := by simp
  last := rfl
  recv := rfl
  block := ⟨rfl, rfl, rfl⟩
  id := fun _ => rfl
  slot := fun _ => Or.inl ⟨rfl, rfl⟩

/-- A stream that has ended its side does not do so again. -/
theorem trans (h : Answers c fs c') (h' : Answers c' gs c'') : Answers c (fs ++ gs) c'' where
  output := by rw [h'.output, h.output, wireOf_append, List.append_assoc]
  answer := by
    intro f hf
    rcases List.mem_append.mp hf with hf | hf
    · exact h.answer f hf
    · exact h'.answer f hf
  last := h'.last.trans h.last
  recv := h'.recv.trans h.recv
  block := by
    obtain ⟨hopen, hflags, hid⟩ := h.block
    obtain ⟨hopen', hflags', hid'⟩ := h'.block
    exact ⟨hopen'.trans hopen, hflags'.trans hflags, hid'.trans hid⟩
  id := fun i => (h'.id i).trans (h.id i)
  slot := by
    intro i
    -- a side that has been ended was ended by one of the two parts
    rcases h.slot i with ⟨hst, hrecv⟩ | ⟨hsent, f, hf, hdata⟩
    · rcases h'.slot i with ⟨hst', hrecv'⟩ | ⟨hsent', f, hf, ht, hid⟩
      · exact Or.inl ⟨hst'.trans hst, hrecv'.trans hrecv⟩
      · refine Or.inr ⟨?_, f, List.mem_append_right _ hf, ht, hid.trans (h.id i)⟩
        rw [Stream.Sent, hst, hrecv] at hsent'
        exact hsent'
    · refine Or.inr ⟨?_, f, List.mem_append_left _ hf, hdata⟩
      rcases h'.slot i with ⟨hst', hrecv'⟩ | ⟨hsent', -⟩
      · rw [Stream.Sent, hst', hrecv']
        exact hsent
      · -- after the first end of its side the stream is neither open nor half closed (remote)
        rcases hsent with ⟨-, hst, -⟩ | ⟨-, hst⟩
        · rcases hsent' with ⟨hst', -⟩ | ⟨hst', -⟩ <;> rw [hst] at hst' <;> cases hst'
        · rcases hsent' with ⟨hst', -⟩ | ⟨hst', -⟩ <;> rw [hst] at hst' <;> cases hst'

/-- A slot is written without a change that matters here. -/
theorem setStream {pos : Fin connMaxStreams} {s : Stream} (hid : s.id = (c.streams pos).id)
    (hst : s.state = (c.streams pos).state) (hrecv : s.recvWindow = (c.streams pos).recvWindow) :
    Answers c [] (c.setStream pos s) where
  output := by simp [Connection.setStream]
  answer := by simp
  last := rfl
  recv := rfl
  block := ⟨rfl, rfl, rfl⟩
  id := setStream_id c hid
  slot := by
    intro i
    by_cases hi : i = pos
    · subst hi
      rw [setStream_streams_self]
      exact Or.inl ⟨hst, hrecv⟩
    · rw [setStream_streams_ne c hi]
      exact Or.inl ⟨rfl, rfl⟩

theorem push {f : Frame} (hf : f.Answer) : Answers c [f] (c.push f) where
  output := by simp [Connection.push]
  answer := by simpa using hf
  last := rfl
  recv := rfl
  block := ⟨rfl, rfl, rfl⟩
  id := fun _ => rfl
  slot := fun _ => Or.inl ⟨rfl, rfl⟩

end Answers

namespace Connection

variable {c : Connection} {pos : Fin connMaxStreams}

theorem headersFrame_answer (hc : Inv c) (h0 : (c.streams pos).id ≠ 0) :
    (c.headersFrame pos).Answer := by
  have hlen := (hc.slot pos).path_length
  exact ⟨(c.streams pos).id, h0, hc.id_lt pos, Or.inl ⟨_, by omega, rfl⟩⟩

theorem dataFrame_answer (hc : Inv c) (h0 : (c.streams pos).id ≠ 0) : (c.dataFrame pos).Answer :=
  ⟨(c.streams pos).id, h0, hc.id_lt pos, Or.inr ⟨_, responseBody_length_le hc pos, rfl⟩⟩

/-- The body of a response is sent. -/
theorem answered_answers (hc : Inv c) (hcan : (c.streams pos).CanSend) (len : Nat) :
    Answers c [c.dataFrame pos] ((c.push (c.dataFrame pos)).answered pos len) := by
  have hid : (c.dataFrame pos).streamId = (c.streams pos).id :=
    Frame.of_streamId (hc.id_lt pos) _ _ _
  have hdata : ∃ f ∈ [c.dataFrame pos], f.type = FrameType.data.toByte
      ∧ f.streamId = (c.streams pos).id := ⟨c.dataFrame pos, by simp, rfl, hid⟩
  constructor
  · simp [answered, Connection.push, Connection.setStream]
  · simpa using dataFrame_answer hc hcan.1
  · rfl
  · rfl
  · exact ⟨rfl, rfl, rfl⟩
  · intro i
    rw [answered]
    refine setStream_id _ ?_ i
    rcases hcan.2 with hst | hst <;> simp [Stream.sendEndStream, hst, Stream.close, Connection.push]
  · intro i
    rw [answered]
    by_cases hi : i = pos
    · subst hi
      rw [setStream_streams_self]
      refine Or.inr ⟨?_, hdata⟩
      rcases hcan.2 with hst | hst
      · simp [Stream.Sent, Stream.sendEndStream, hst, Connection.push]
      · simp [Stream.Sent, Stream.sendEndStream, hst, Stream.close, Connection.push]
    · rw [setStream_streams_ne _ hi]
      exact Or.inl ⟨rfl, rfl⟩

theorem queueDeferredData_answers (hc : Inv c) (hcan : (c.streams pos).CanSend) :
    ∃ fs, Answers c fs (c.queueDeferredData pos (responseBody (c.streams pos).path)).2 := by
  rw [queueDeferredData_eq hc hcan]
  split_ifs
  · exact ⟨[], .setStream rfl rfl rfl⟩
  · exact ⟨_, answered_answers hc hcan _⟩
  · exact ⟨[], .refl c⟩

theorem queueResponse_answers (hc : Inv c) (hcan : (c.streams pos).CanSend)
    (hnew : (c.streams pos).responseHeadersSent = false)
    (hbody : (c.streams pos).responseSent = false) (hpath : (c.streams pos).path ≠ []) :
    ∃ fs, Answers c fs (c.queueResponse pos).2 := by
  have hdoes := queueResponseHeaders_does hc hcan hnew
  rw [queueResponse_eq hc hbody hpath, if_neg (by simp [hnew])]
  rw [queueResponseHeaders_eq hc hcan.1] at hdoes ⊢
  by_cases hfit : c.Fits (c.headersFrame pos)
  · rw [if_pos hfit] at hdoes ⊢
    have hhead : Answers c [c.headersFrame pos] ((c.push (c.headersFrame pos)).setStream pos
        { c.streams pos with responseHeadersSent := true }) :=
      (Answers.push (headersFrame_answer hc hcan.1)).trans (.setStream rfl rfl rfl)
    have hdata := @queueDeferredData_answers _ pos (hdoes.inv hc) (by
      rw [setStream_streams_self]
      exact hcan)
    rw [setStream_streams_self] at hdata
    obtain ⟨fs, hfs⟩ := hdata
    exact ⟨_, hhead.trans hfs⟩
  · rw [if_neg hfit, andThen_err (by decide)]
    exact ⟨[], .refl c⟩

theorem flushDeferredLoop_answers (hc : Inv c) (ps : List (Fin connMaxStreams)) :
    ∃ fs, Answers c fs (flushDeferredLoop ps c).2 := by
  induction ps generalizing c with
  | nil => exact ⟨[], .refl c⟩
  | cons pos rest ih =>
      rw [flushDeferredLoop]
      by_cases hd : live (c.streams pos) ∧ (c.streams pos).responseBodyDeferred
      · obtain ⟨hst, hhead, hbody, hpath⟩ := (hc.slot pos).deferred hd.2
        have hcan : (c.streams pos).CanSend := ⟨(live_iff.mp hd.1).1, hst⟩
        have hdoes := queueDeferredData_does hc hcan hhead hbody hpath
        obtain ⟨fs, hfs⟩ := queueDeferredData_answers hc hcan
        rw [if_pos hd, queueResponse_deferred hc hd.2]
        rcases hres : c.queueDeferredData pos (responseBody (c.streams pos).path) with ⟨ret, c₁⟩
        rw [hres] at hdoes hfs
        by_cases hret : ret = .ok
        · subst hret
          obtain ⟨gs, hgs⟩ := ih (hdoes.inv hc)
          rw [andThen_ok]
          exact ⟨_, hfs.trans hgs⟩
        · rw [andThen_err hret]
          exact ⟨fs, hfs⟩
      · rw [if_neg hd]
        exact ih hc

theorem flushDeferredResponses_answers (hc : Inv c) :
    ∃ fs, Answers c fs c.flushDeferredResponses.2 := flushDeferredLoop_answers hc _

end Connection

/-! ## Replies -/

/-- A frame that is queued in reply to requests, data or credit: a frame of a response or a
WINDOW_UPDATE. -/
def Frame.Reply (f : Frame) : Prop :=
  f.Answer ∨ ∃ streamId increment, increment ≠ 0 ∧ increment < 2 ^ 31
    ∧ f = windowUpdateFrame streamId increment

/-- A handler queues nothing but replies. -/
def Replies (c : Connection) (r : ErrorCode × Connection) : Prop :=
  ∃ fs, r.2.output = c.output ++ wireOf fs ∧ ∀ f ∈ fs, f.Reply

namespace Replies

variable {c c' : Connection} {r : ErrorCode × Connection}

theorem of_output (h : r.2.output = c.output) : Replies c r := ⟨[], by simp [h], by simp⟩

theorem of_answers {ret : ErrorCode} {fs : List Frame} (h : Answers c fs c') :
    Replies c (ret, c') := ⟨fs, h.output, fun f hf => Or.inl (h.answer f hf)⟩

theorem push {f : Frame} (hf : f.Reply) (ret : ErrorCode) : Replies c (ret, c.push f) :=
  ⟨[f], by simp [Connection.push], by simpa using hf⟩

/-- The output before the handler is all that counts of its first state. -/
theorem after (h : c'.output = c.output) (hr : Replies c' r) : Replies c r := by
  obtain ⟨fs, hout, hfs⟩ := hr
  exact ⟨fs, by rw [hout, h], hfs⟩

theorem trans {ret : ErrorCode} (h₁ : Replies c (ret, c')) (h₂ : Replies c' r) : Replies c r := by
  obtain ⟨fs, hout, hfs⟩ := h₁
  obtain ⟨gs, hout', hgs⟩ := h₂
  refine ⟨fs ++ gs, ?_, fun f hf => ?_⟩
  · rw [hout', hout, wireOf_append, List.append_assoc]
  · rcases List.mem_append.mp hf with hf | hf
    · exact hfs f hf
    · exact hgs f hf

theorem andThen {first : ErrorCode × Connection} {next : Connection → ErrorCode × Connection}
    (h₁ : Replies c first) (h₂ : Replies first.2 (next first.2)) :
    Replies c (andThen first next) := by
  obtain ⟨ret, c₁⟩ := first
  by_cases hret : ret = .ok
  · subst hret
    exact h₁.trans h₂
  · rw [andThen_err hret]
    exact h₁

end Replies

namespace Connection

variable {c : Connection} {pos : Fin connMaxStreams}

theorem windowUpdateFrame_reply {increment : Nat} (h0 : increment ≠ 0) (hlt : increment < 2 ^ 31)
    (streamId : Nat) : (windowUpdateFrame streamId increment).Reply :=
  Or.inr ⟨streamId, increment, h0, hlt, rfl⟩

theorem refreshConnRecvWindow_replies (hc : Inv c) : Replies c c.refreshConnRecvWindow := by
  have hw := hc.conn_recv
  rw [refreshConnRecvWindow_eq hc]
  by_cases hlow : c.connRecvWindow ≤ 32767
  · rw [if_pos hlow]
    split_ifs
    · exact .push (c := { c with connRecvWindow := 65535 })
        (windowUpdateFrame_reply (by omega) (by omega) 0) .ok
    · exact .of_output rfl
  · rw [if_neg hlow]
    exact .of_output rfl

theorem refreshStreamRecvWindow_replies (hc : Inv c) :
    Replies c (c.refreshStreamRecvWindow pos) := by
  have hw := (hc.slot pos).recv
  rw [refreshStreamRecvWindow_eq hc]
  by_cases hlow : (c.streams pos).recvWindow ≤ 32767
  · rw [if_pos hlow]
    split_ifs
    · exact .push (c := c.setStream pos { c.streams pos with recvWindow := 65535 })
        (windowUpdateFrame_reply (by omega) (by omega) _) .ok
    · exact .of_output rfl
  · rw [if_neg hlow]
    exact .of_output rfl

theorem refreshRecvWindows_replies (hc : Inv c) (stream : Option (Fin connMaxStreams)) :
    Replies c (c.refreshRecvWindows stream) := by
  have hdoes := refreshConnRecvWindow_does hc
  refine (refreshConnRecvWindow_replies hc).andThen ?_
  cases stream with
  | none => exact .of_output rfl
  | some pos => exact refreshStreamRecvWindow_replies (hdoes.inv hc)

theorem processData_replies (hc : Inv c) (header : FrameHeader) (payload : List UInt8) :
    Replies c (c.processData header payload) := by
  rcases hparse : parseData header payload with ret | parsed
  · rw [processData, hparse]
    exact .of_output rfl
  · rcases hfind : c.findStream header.streamId with _ | pos
    · rw [processData, hparse]
      simp only [hfind]
      exact .of_output rfl
    · have hw := hc.conn_recv
      rw [processData_eq hc hparse hfind]
      -- only the refills queue frames, and these are window updates
      by_cases hlow : c.connRecvWindow < header.length
      · rw [if_pos hlow]
        exact .of_output rfl
      · have hcharge : Inv { c with connRecvWindow := c.connRecvWindow - header.length } :=
          { hc with conn_recv := by simp only; omega }
        rw [if_neg hlow]
        by_cases hst : (c.streams pos).state ≠ .opened ∧ (c.streams pos).state ≠ .halfClosedLocal
        · rw [if_pos hst]
          exact refreshRecvWindows_replies hcharge none
        · rw [if_neg hst]
          by_cases hsr : (c.streams pos).recvWindow < header.length
          · rw [if_pos hsr]
            exact .of_output rfl
          · have hst' : (c.streams pos).state = .opened ∨ (c.streams pos).state = .halfClosedLocal := by
              by_contra hno
              exact hst (not_or.mp hno)
            have hrecv := @received_acts { c with connRecvWindow := c.connRecvWindow - header.length }
              pos _ rfl (hc.slot pos) hst' header.length (not_lt.mp hsr)
              (hasFlag header.flags flagEndStream) .ok
            rw [if_neg hsr]
            exact refreshRecvWindows_replies (hrecv.inv hcharge) _

/-- The response to a new request. -/
theorem opened_queueResponse_answers (hc : Inv c) (hfree : c.freeSlot = some pos) {streamId : Nat}
    (hodd : streamId % 2 = 1) (hlast : c.lastStreamId < streamId) (hlt : streamId < 2 ^ 31)
    {path : List UInt8} (hpath : PathText path) (hne : path ≠ []) (endStream : Bool) :
    ∃ fs, Answers (c.withStream pos streamId path (if endStream then .halfClosedRemote else .opened))
      fs ((c.withStream pos streamId path
        (if endStream then .halfClosedRemote else .opened)).queueResponse pos).2 := by
  have hopen := withStream_opened hfree hodd hlast hlt hpath endStream
  refine queueResponse_answers (hopen.inv hc)
    (withStream_canSend c pos (by omega) path endStream) ?_ ?_ ?_
  · rw [withStream_streams]
    rfl
  · rw [withStream_streams]
    rfl
  · rw [withStream_streams]
    exact hne

theorem finishHeaders_replies (hc : Inv c) {streamId : Nat} (hlt : streamId < 2 ^ 31)
    (flags : UInt8) (block : List UInt8) : Replies c (c.finishHeaders streamId flags block) := by
  by_cases hbad : streamId % 2 = 0 ∨ streamId ≤ c.lastStreamId
  · rw [finishHeaders_reject hbad]
    exact .of_output rfl
  · have hodd : streamId % 2 = 1 := by omega
    have hlast : c.lastStreamId < streamId := by omega
    rw [finishHeaders_eq hc hodd hlast]
    rcases hfree : c.freeSlot with _ | pos
    · exact .of_output rfl
    · simp only
      by_cases hpath : (extractPath block streamPathCap).1 = .ok
      · obtain ⟨fs, hfs⟩ := opened_queueResponse_answers hc hfree hodd hlast hlt
          (extractPath_pathText block) (extractPath_ne_nil (Prod.ext hpath rfl))
          (hasFlag flags flagEndStream)
        rw [if_pos hpath]
        exact ⟨fs, hfs.output, fun f hf => Or.inl (hfs.answer f hf)⟩
      · rw [if_neg hpath]
        exact .of_output rfl

theorem appendHeaderBlock_output (c : Connection) (data : List UInt8) :
    (c.appendHeaderBlock data).2.output = c.output := by
  rw [appendHeaderBlock]
  split_ifs <;> rfl

theorem processHeaders_replies (hc : Inv c) {header : FrameHeader} (hlt : header.streamId < 2 ^ 31)
    (payload : List UInt8) : Replies c (c.processHeaders header payload) := by
  rw [processHeaders]
  rcases parseHeaders header payload with ret | parsed
  · exact .of_output rfl
  · simp only
    split_ifs
    · exact .of_output rfl
    · exact .of_output (appendHeaderBlock_output _ _)
    · exact finishHeaders_replies hc hlt _ _

theorem processContinuation_replies (hc : Inv c) {header : FrameHeader}
    (hlt : header.streamId < 2 ^ 31) (payload : List UInt8) :
    Replies c (c.processContinuation header payload) := by
  rw [processContinuation]
  by_cases hbad : c.headerBlockOpen = false ∨ header.streamId ≠ c.headerBlockStreamId
  · rw [if_pos hbad]
    exact .of_output rfl
  · obtain ⟨-, hid⟩ := not_or.mp hbad
    rw [not_not] at hid
    rw [if_neg hbad]
    rcases parseContinuation header payload with ret | fragment
    · exact .of_output rfl
    · have hinv := (appendHeaderBlock_does c fragment).inv hc
      have hblock : (c.appendHeaderBlock fragment).2.headerBlockStreamId = c.headerBlockStreamId := by
        rw [appendHeaderBlock]
        split_ifs <;> rfl
      refine (Replies.of_output (appendHeaderBlock_output c fragment)).andThen ?_
      split_ifs
      · exact .of_output rfl
      · have hclosed : Inv { (c.appendHeaderBlock fragment).2 with headerBlockOpen := false } :=
          { hinv with }
        exact finishHeaders_replies hclosed (by rw [hblock, ← hid]; exact hlt) _ _

theorem processWindowUpdate_replies (hc : Inv c) (header : FrameHeader) (payload : List UInt8) :
    Replies c (c.processWindowUpdate header payload) := by
  rcases hparse : parseWindowUpdate header payload with ret | increment
  · rw [processWindowUpdate, hparse]
    exact .of_output rfl
  · rw [processWindowUpdate_eq c hparse]
    -- credit that is applied unblocks responses
    have hflush : ∀ {c' e}, Act c [e] c' → c'.output = c.output →
        Replies c c'.flushDeferredResponses := by
      intro c' e hact hout
      obtain ⟨fs, hfs⟩ := flushDeferredResponses_answers (hact.inv hc)
      exact .after hout (.of_answers hfs)
    split_ifs with hid hmax
    · exact .of_output rfl
    · exact hflush (.creditConn c increment (not_lt.mp hmax)) rfl
    · rcases hfind : c.findStream header.streamId with _ | pos
      · exact .of_output rfl
      · simp only
        split_ifs with hmax
        · exact .of_output rfl
        · have hpos := findStream_eq_some hfind
          exact hflush (.creditStream c pos increment (by rwa [hpos]) (not_lt.mp hmax)) rfl

theorem processRstStream_output (c : Connection) (header : FrameHeader) (payload : List UInt8) :
    (c.processRstStream header payload).2.output = c.output := by
  rw [processRstStream]
  rcases parseRstStream header payload with ret | code
  · rfl
  · rcases c.findStream header.streamId with _ | pos
    · simp only
      split_ifs <;> rfl
    · rfl

end Connection

/-! ## Acknowledgements -/

/-- The frame that acknowledges a frame: only PING and SETTINGS are acknowledged, and no
acknowledgement is. -/
def Frame.ack (f : Frame) : Option Frame :=
  if hasFlag f.flags flagAck then none
  else
    match FrameType.ofByte? f.type with
    | some .ping => some (pingAckFrame f.payload)
    | some .settings => some settingsAckFrame
    | _ => none

theorem Frame.ack_eq_none {f : Frame} (h : ∀ t, f.type = FrameType.toByte t → t ≠ .ping ∧ t ≠ .settings) :
    f.ack = none := by
  unfold ack
  split_ifs
  · rfl
  · rcases htype : FrameType.ofByte? f.type with _ | t
    · rfl
    · obtain ⟨hping, hsettings⟩ := h t (FrameType.ofByte?_eq_some htype)
      cases t <;> first | rfl | exact absurd rfl hping | exact absurd rfl hsettings

/-- A handler queues the acknowledgement of the frame, or nothing if the frame is not accepted. -/
def Acknowledges (c : Connection) (f : Frame) (r : ErrorCode × Connection) : Prop :=
  ∃ acks, r.2.output = c.output ++ wireOf acks
    ∧ (acks = [] ∨ acks = f.ack.toList ∧ validatePayload f.header = .ok)
    ∧ (r.1 = .ok ∨ isStreamError r.1 = true → acks = f.ack.toList)

namespace Connection

variable {c : Connection}

theorem shiftSendWindows_output (delta : Int) (ps : List (Fin connMaxStreams)) (c : Connection) :
    (shiftSendWindows delta ps c).2.output = c.output := by
  induction ps generalizing c with
  | nil => rfl
  | cons pos rest ih =>
      rw [shiftSendWindows_cons]
      split_ifs
      · exact (ih _).trans rfl
      · rfl
      · exact ih c

theorem applySetting_output (c : Connection) (s : Setting) :
    (c.applySetting s).2.output = c.output := by
  have hshift := shiftSendWindows_output (s.value - c.initialStreamWindow)
    (List.finRange connMaxStreams) c
  rw [applySetting]
  split_ifs
  · rfl
  · rfl
  · rfl
  · rcases hres : shiftSendWindows (s.value - c.initialStreamWindow) (List.finRange connMaxStreams) c
      with ⟨ret, c₁⟩
    rw [hres] at hshift
    by_cases hret : ret = .ok
    · subst hret
      exact hshift
    · rw [andThen_err hret]
      exact hshift
  · rfl
  · rfl
  · rfl

/-- A SETTINGS frame that fails queues nothing. -/
theorem applySettings_acknowledges (hc : Inv c) {f : Frame}
    (ht : f.type = FrameType.settings.toByte) :
    Acknowledges c f (c.applySettings f.header f.payload) := by
  obtain ⟨-, -, -, herr⟩ := applySettings_acts hc f.header f.payload
  have hnone : ∀ {r : ErrorCode × Connection}, r.1 ≠ .ok → isStreamError r.1 = false →
      r.2.output = c.output → Acknowledges c f r := by
    intro r hne hse hout
    refine ⟨[], by simp [hout], Or.inl rfl, ?_⟩
    rintro (h | h)
    · exact absurd h hne
    · rw [hse] at h
      cases h
  rcases hparse : parseSettings f.header f.payload 32 with ret | settings
  · rw [applySettings, hparse] at herr ⊢
    refine hnone ?_ herr rfl
    rcases parseSettings_error hparse with rfl | rfl | rfl <;> simp
  · have hvalid : validatePayload f.header = .ok := by
      unfold parseSettings at hparse
      split_ifs at hparse with _ hvalid
      all_goals exact not_not.mp hvalid
    -- an acknowledgement is not acknowledged
    by_cases hack : hasFlag f.flags flagAck = true
    · rw [applySettings, hparse]
      simp only [if_pos (show hasFlag f.header.flags flagAck = true from hack)]
      have hno : f.ack = none := by rw [Frame.ack, if_pos hack]
      exact ⟨[], by simp, Or.inl rfl, fun _ => by rw [hno]; rfl⟩
    · have hack' : hasFlag f.header.flags flagAck = false := by simpa using hack
      have hfack : f.ack = some settingsAckFrame := by
        rw [Frame.ack, if_neg hack, ht, FrameType.ofByte?_toByte]
      rcases settings_split c settings with hall | ⟨before, s, rest, rfl, hbefore, hs⟩
      · -- every entry is acceptable: the acknowledgement follows, if there is room
        rw [applySettings_ok hc hparse hack' hall]
        split_ifs
        · refine ⟨[settingsAckFrame], ?_, Or.inr ⟨?_, hvalid⟩, fun _ => ?_⟩
          · simp [Connection.push, foldl_applied_output]
          · rw [hfack]
            rfl
          · rw [hfack]
            rfl
        · exact hnone (r := (.internalError, settings.foldl applied c)) (by simp) rfl
            (foldl_applied_output settings c)
      · -- the loop stops at the first entry that is not acceptable
        have hs' : ¬ (before.foldl applied c).SettingOk s := by
          rwa [settingOk_foldl_applied]
        have hcode := (applySetting_fail hs').1
        have hout := applySetting_output (before.foldl applied c) s
        rw [foldl_applied_output] at hout
        have hres : c.applySettings f.header f.payload = (before.foldl applied c).applySetting s := by
          rw [applySettings, hparse]
          simp only [hack']
          rw [if_neg (by simp), applySettingsLoop_stop hbefore hs]
          rcases hcase : (before.foldl applied c).applySetting s with ⟨ret, c₁⟩
          rw [hcase] at hcode
          refine andThen_err ?_ _ _
          rintro rfl
          rcases hcode with h | h <;> cases h
        rw [hres] at herr ⊢
        refine hnone ?_ herr hout
        rcases hcode with h | h <;> rw [h] <;> decide

/-- The payload of a valid PING frame is its eight bytes. -/
theorem parsePing_payload {f : Frame} (ht : f.type = FrameType.ping.toByte)
    {opaqueData : List UInt8} (hparse : parsePing f.header f.payload = .ok opaqueData) :
    validatePayload f.header = .ok ∧ f.payload.length = 8 ∧ opaqueData = f.payload := by
  have hvalid : validatePayload f.header = .ok ∧ opaqueData = f.payload.take 8 := by
    unfold parsePing at hparse
    split_ifs at hparse with _ hvalid
    exact ⟨not_not.mp hvalid, (Except.ok.inj hparse).symm⟩
  have hlen : f.payload.length = 8 := validatePayload_fixedLength ht hvalid.1 rfl
  refine ⟨hvalid.1, hlen, ?_⟩
  rw [hvalid.2, List.take_of_length_le (by omega)]

theorem processPing_acknowledges (hc : Inv c) {f : Frame} (ht : f.type = FrameType.ping.toByte) :
    Acknowledges c f (c.processPing f.header f.payload) := by
  rw [processPing]
  rcases hparse : parsePing f.header f.payload with ret | opaqueData
  · refine ⟨[], by simp, Or.inl rfl, ?_⟩
    rcases parsePing_error hparse with rfl | rfl <;> simp [isStreamError]
  · obtain ⟨hvalid, hlen, rfl⟩ := parsePing_payload ht hparse
    by_cases hack : hasFlag f.flags flagAck = true
    · have hno : f.ack = none := by rw [Frame.ack, if_pos hack]
      simp only [if_pos (show hasFlag f.header.flags flagAck = true from hack)]
      exact ⟨[], by simp, Or.inl rfl, fun _ => by rw [hno]; rfl⟩
    · have hfack : f.ack = some (pingAckFrame f.payload) := by
        rw [Frame.ack, if_neg hack, ht, FrameType.ofByte?_toByte]
      simp only [if_neg (show ¬ hasFlag f.header.flags flagAck = true from hack)]
      rw [encodePing_eq (by omega), queueWire_wire hc]
      split_ifs
      · refine ⟨[pingAckFrame f.payload], by simp [Connection.push], Or.inr ⟨?_, hvalid⟩, fun _ => ?_⟩
        · rw [hfack]
          rfl
        · rw [hfack]
          rfl
      · exact ⟨[], by simp, Or.inl rfl, by simp [isStreamError]⟩

/-- **What a handler queues**: replies, and the acknowledgement of its frame. -/
theorem processFrame_frames (hc : Inv c) (f : Frame) : ∃ fs acks,
    (c.processFrame f.header f.payload).2.output = c.output ++ wireOf (fs ++ acks)
      ∧ (∀ g ∈ fs, g.Reply)
      ∧ (acks = [] ∨ acks = f.ack.toList ∧ validatePayload f.header = .ok)
      ∧ ((c.processFrame f.header f.payload).1 = .ok
          ∨ isStreamError (c.processFrame f.header f.payload).1 = true → acks = f.ack.toList) := by
  -- a handler queues replies or the acknowledgement, never both
  have hreply : ∀ {r : ErrorCode × Connection}, Replies c r →
      (r.1 = .ok ∨ isStreamError r.1 = true → f.ack = none) → ∃ fs acks,
        r.2.output = c.output ++ wireOf (fs ++ acks) ∧ (∀ g ∈ fs, g.Reply)
        ∧ (acks = [] ∨ acks = f.ack.toList ∧ validatePayload f.header = .ok)
        ∧ (r.1 = .ok ∨ isStreamError r.1 = true → acks = f.ack.toList) := by
    rintro r ⟨fs, hout, hfs⟩ hack
    refine ⟨fs, [], by simp [hout], hfs, Or.inl rfl, fun hok => ?_⟩
    rw [hack hok]
    rfl
  have hacks : ∀ {r : ErrorCode × Connection}, Acknowledges c f r → ∃ fs acks,
        r.2.output = c.output ++ wireOf (fs ++ acks) ∧ (∀ g ∈ fs, g.Reply)
        ∧ (acks = [] ∨ acks = f.ack.toList ∧ validatePayload f.header = .ok)
        ∧ (r.1 = .ok ∨ isStreamError r.1 = true → acks = f.ack.toList) := by
    rintro r ⟨acks, hout, hnil, hok⟩
    exact ⟨[], acks, by simp [hout], by simp, hnil, hok⟩
  by_cases hadmits : c.Admits f
  · rcases htype : FrameType.ofByte? f.type with _ | t
    · rw [processFrame_unknown hadmits htype]
      refine hreply (.of_output rfl) fun _ => Frame.ack_eq_none fun t ht => ?_
      rw [ht, FrameType.ofByte?_toByte] at htype
      cases htype
    · have ht := FrameType.ofByte?_eq_some htype
      have hnone : t ≠ .ping → t ≠ .settings → f.ack = none := by
        intro hping hsettings
        refine Frame.ack_eq_none fun t' ht' => ?_
        rw [ht', FrameType.ofByte?_toByte] at htype
        obtain rfl := Option.some.inj htype
        exact ⟨hping, hsettings⟩
      rw [processFrame_handler hadmits ht]
      cases t with
      | data => exact hreply (processData_replies hc _ _) fun _ => hnone (by decide) (by decide)
      | headers =>
          exact hreply (processHeaders_replies hc f.streamId_lt _)
            fun _ => hnone (by decide) (by decide)
      | priority =>
          refine hreply (.of_output ?_) fun _ => hnone (by decide) (by decide)
          rw [handler]
          rcases parsePriority f.header f.payload with ret | priority <;> rfl
      | rstStream =>
          exact hreply (.of_output (processRstStream_output c _ _))
            fun _ => hnone (by decide) (by decide)
      | settings => exact hacks (applySettings_acknowledges hc ht)
      | pushPromise => exact hreply (.of_output rfl) fun _ => hnone (by decide) (by decide)
      | ping => exact hacks (processPing_acknowledges hc ht)
      | goaway => exact hreply (.of_output rfl) fun _ => hnone (by decide) (by decide)
      | windowUpdate =>
          exact hreply (processWindowUpdate_replies hc _ _) fun _ => hnone (by decide) (by decide)
      | continuation =>
          exact hreply (processContinuation_replies hc f.streamId_lt _)
            fun _ => hnone (by decide) (by decide)
  · obtain ⟨ret, hret, heq⟩ := processFrame_rejected hadmits
    rw [heq]
    refine hreply (.of_output rfl) fun hok => ?_
    rcases hret with rfl | rfl <;> simp [isStreamError] at hok

end Connection

end C11Omo.Http2
