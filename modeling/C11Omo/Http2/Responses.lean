import C11Omo.Http2.Output

set_option autoImplicit false

/-! # One response per stream

A response is a HEADERS frame and a DATA frame. The two may be queued far apart, by different
frames of the client, so what has been sent of a response is kept in the flags of the slot
(`Answered`). `OneResponse` ties these flags to the frames queued so far, over the whole life of
a stream id. A stream that the client has reset stays silent (`Dead`).
-/

namespace C11Omo.Http2

open C11Omo.Lib Connection

/-! ## What a response announces -/

/-- The header fields of a response with a body of `n` bytes. -/
def responseFields (n : Nat) : List HeaderField :=
  [{ name := ascii ":status", value := ascii "200" },
    { name := ascii "content-type", value := ascii "text/plain" },
    { name := ascii "content-length", value := decimal n },
    { name := ascii "server", value := ascii "c11-h2" }]

theorem and_128_of_lt {n : Nat} (h : n < 128) : UInt8.ofNat n &&& 0x80 = 0 := by
  have key : ∀ m : Fin 128, UInt8.ofNat m.val &&& 0x80 = 0 := by decide
  exact key ⟨n, h⟩

theorem decodeInteger_short {n : Nat} (h : n < 127) (rest : List UInt8) :
    decodeInteger (UInt8.ofNat n :: rest) 7 = .ok (n, 1) := by
  have hbyte : (UInt8.ofNat n).toNat = n := by
    rw [UInt8.toNat_ofNat']
    omega
  have hmask : n &&& 127 = n := by
    rw [show (127 : Nat) = 2 ^ 7 - 1 from rfl, Nat.and_two_pow_sub_one_eq_mod]
    omega
  rw [decodeInteger]
  simp [hbyte, hmask, h]

/-- A short string is read back as it was written. -/
theorem decodeString_short {text : List UInt8} {cap : Nat} (hlen : text.length < 127)
    (hcap : text.length < cap) (rest : List UInt8) :
    decodeString (UInt8.ofNat text.length :: text ++ rest) cap
      = .ok (text, text.length + 1) := by
  have h0 : ¬ (cap = 0 ∨ (UInt8.ofNat text.length :: text ++ rest).length = 0) := by
    simp
    omega
  have hplain : ¬ byteAt (UInt8.ofNat text.length :: text ++ rest) 0 &&& 0x80 ≠ 0 := by
    have hbits := congrArg UInt8.toNat (and_128_of_lt (by omega : text.length < 128))
    rw [UInt8.toNat_and] at hbits
    simpa using hbits
  have hint := decodeInteger_short hlen (text ++ rest)
  rw [← List.cons_append] at hint
  rw [decodeString, if_neg h0, if_neg hplain, hint]
  simp only [if_neg (not_le.mpr hcap), Nat.add_comm 1]
  simp

/-- **A literal field is read back**, whatever follows it. -/
theorem decodeHeadersLoop_literal {name value : List UInt8} (hname : name.length < headerNameCap)
    (hvalue : value.length < 127) (fuel fieldCap : Nat) (rest : List UInt8) :
    decodeHeadersLoop (fuel + 1) (literalField name value ++ rest) (fieldCap + 1)
      = (decodeHeadersLoop fuel rest fieldCap).map ({ name := name, value := value } :: ·) := by
  have hn : name.length < 127 := by
    simp only [headerNameCap] at hname
    omega
  have hv : value.length < headerValueCap := by
    simp only [headerValueCap]
    omega
  have hwire : literalField name value ++ rest
      = 0x00 :: (UInt8.ofNat name.length :: name
        ++ (UInt8.ofNat value.length :: value ++ rest)) := by
    simp [literalField]
  -- a literal without indexing whose name is spelled out, in one byte of length and its text
  have hindexed : decodeIndexedLiteralName (literalField name value ++ rest)
      (literalPrefixBits 0x00) headerNameCap = .ok (name, name.length + 2) := by
    rw [hwire, decodeIndexedLiteralName]
    have hint : ∀ tail, decodeInteger ((0x00 : UInt8) :: tail) (literalPrefixBits 0x00)
        = .ok (0, 1) := fun _ => rfl
    rw [hint]
    simp only [if_true, List.drop_succ_cons, List.drop_zero]
    rw [decodeString_short hn hname]
    simp only
    congr 2
    omega
  have hdrop : ((0x00 : UInt8) :: (UInt8.ofNat name.length :: name
      ++ (UInt8.ofNat value.length :: value ++ rest))).drop (name.length + 2)
        = UInt8.ofNat value.length :: value ++ rest := by
    simp
  have hdrop' : ((0x00 : UInt8) :: (UInt8.ofNat name.length :: name
      ++ (UInt8.ofNat value.length :: value ++ rest))).drop
        (name.length + 2 + (value.length + 1)) = rest := by
    rw [← List.drop_drop, hdrop]
    simp
  rw [hwire] at hindexed ⊢
  rw [decodeHeadersLoop]
  have hfield : ¬ fieldCap + 1 = 0 := by omega
  have hlit : ¬ ((0x00 : UInt8) &&& 0x80 ≠ 0) := by decide
  have hsize : ¬ ((0x00 : UInt8) &&& 0xe0 = 0x20) := by decide
  simp only [if_neg hfield, if_neg hlit, if_neg hsize, hindexed, hdrop,
    decodeString_short hvalue hv, hdrop', Nat.add_sub_cancel]

/-- **The header block of a response says how long the body is.** -/
theorem decodeHeaders_responseBlock {n fieldCap : Nat} (h : n < 1000) (hcap : 4 ≤ fieldCap) :
    decodeHeaders (responseBlock n) fieldCap = .ok (responseFields n) := by
  obtain ⟨cap, rfl⟩ : ∃ cap, fieldCap = cap + 4 := ⟨fieldCap - 4, by omega⟩
  have hdec : (decimal n).length < 127 := by
    have := decimal_length_le h
    omega
  obtain ⟨fuel, hfuel⟩ : ∃ fuel, (responseBlock n).length = fuel + 1 + 1 + 1 + 1 := by
    refine ⟨(responseBlock n).length - 4, ?_⟩
    simp [responseBlock, literalField_length, ascii]
    omega
  have hstatus : ∀ rest, decodeHeadersLoop (fuel + 1 + 1 + 1 + 1) (0x88 :: rest) (cap + 4)
      = (decodeHeadersLoop (fuel + 1 + 1 + 1) rest (cap + 3)).map
          ({ name := ascii ":status", value := ascii "200" } :: ·) := by
    intro rest
    rw [decodeHeadersLoop]
    rfl
  have hend : decodeHeadersLoop fuel [] cap = .ok [] := by
    cases fuel <;> rfl
  rw [decodeHeaders, hfuel, responseBlock, List.cons_append, List.cons_append, hstatus,
    List.append_assoc, decodeHeadersLoop_literal (by decide) (by decide),
    decodeHeadersLoop_literal (by decide) hdec,
    ← List.append_nil (literalField (ascii "server") (ascii "c11-h2")),
    decodeHeadersLoop_literal (by decide) (by decide), hend]
  rfl

/-! ## Response frames -/

/-- A response frame on a stream. -/
def Frame.Response (f : Frame) (streamId : Nat) : Prop :=
  (f.type = FrameType.headers.toByte ∨ f.type = FrameType.data.toByte) ∧ f.streamId = streamId

instance (f : Frame) (streamId : Nat) : Decidable (f.Response streamId) :=
  inferInstanceAs (Decidable (_ ∧ _))

/-- The response frames on a stream among the given frames. -/
def responsesOn (streamId : Nat) (fs : List Frame) : List Frame :=
  fs.filter (fun f => f.Response streamId)

@[simp] theorem responsesOn_append (streamId : Nat) (fs gs : List Frame) :
    responsesOn streamId (fs ++ gs) = responsesOn streamId fs ++ responsesOn streamId gs :=
  List.filter_append ..

theorem responsesOn_singleton (streamId : Nat) (f : Frame) :
    responsesOn streamId [f] = if f.Response streamId then [f] else [] := by
  simp [responsesOn, List.filter_cons]

theorem not_response_of_control {f : Frame} (hf : f.Control) (streamId : Nat) :
    ¬ f.Response streamId := by
  rintro ⟨h | h, -⟩
  · exact hf.1 h
  · exact hf.2.1 h

theorem responseHeaders_response {c : Connection} (hc : Inv c) (pos : Fin connMaxStreams)
    (n streamId : Nat) :
    (responseHeaders (c.streams pos).id n).Response streamId ↔ (c.streams pos).id = streamId := by
  rw [Frame.Response, responseHeaders, Frame.of_streamId (hc.id_lt pos)]
  simp

theorem responseData_response {c : Connection} (hc : Inv c) (pos : Fin connMaxStreams)
    (body : List UInt8) (streamId : Nat) :
    (responseData (c.streams pos).id body).Response streamId ↔ (c.streams pos).id = streamId := by
  rw [Frame.Response, responseData, Frame.of_streamId (hc.id_lt pos)]
  simp

/-! ## The flags of a slot and the frames queued -/

/-- What the flags of a slot say about the response frames queued for its stream. -/
structure Answered (resp : List Frame) (s : Stream) : Prop where
  fresh : s.responseHeadersSent = false → resp = []
  waiting : s.responseHeadersSent = true → s.responseSent = false →
    resp = [responseHeaders s.id (s.path.length + 1)]
  idle : s.state = .idle → s.responseHeadersSent = false

/-- The response frames that a stream may have got: none, the headers, or the headers and then
a body of the length they announce. -/
inductive Progress (streamId : Nat) : List Frame → Prop
  | none : Progress streamId []
  | headers (n : Nat) (hn : n ≤ 256) : Progress streamId [responseHeaders streamId n]
  | full (body : List UInt8) (hbody : body.length ≤ 256) :
      Progress streamId [responseHeaders streamId body.length, responseData streamId body]

/-- **One response per stream**: what has been queued for every stream id, open or not. -/
structure OneResponse (hist : List Event) (c : Connection) : Prop where
  progress : ∀ streamId, Progress streamId (responsesOn streamId (queuedFrames hist))
  unopened : ∀ streamId, c.lastStreamId < streamId → responsesOn streamId (queuedFrames hist) = []
  slot : ∀ pos, live (c.streams pos) = true →
    Answered (responsesOn (c.streams pos).id (queuedFrames hist)) (c.streams pos)

namespace OneResponse

variable {c : Connection} {hist : List Event}

theorem init : OneResponse [] Connection.init :=
  ⟨fun _ => .none, fun _ _ => rfl, fun pos hl => by
    simp [live, Connection.init, Stream.zero] at hl⟩

theorem insensitive : Insensitive OneResponse := by
  intro hist c h _ _ _ _ _ _
  exact ⟨h.progress, h.unopened, h.slot⟩

/-- Only the frames queued count. -/
theorem skip (h : OneResponse hist c) {e : Event} (he : queuedFrames [e] = []) :
    OneResponse (hist ++ [e]) c := by
  have heq : queuedFrames (hist ++ [e]) = queuedFrames hist := by
    rw [queuedFrames_append, he, List.append_nil]
  refine ⟨?_, ?_, ?_⟩
  · rw [heq]
    exact h.progress
  · rw [heq]
    exact h.unopened
  · rw [heq]
    exact h.slot

/-- A write of a slot whose flags stay true to the history. -/
theorem setStream (h : OneResponse hist c) {pos : Fin connMaxStreams} {s : Stream}
    (hs : live s = true → Answered (responsesOn s.id (queuedFrames hist)) s) :
    OneResponse hist (c.setStream pos s) := by
  refine ⟨h.progress, h.unopened, fun i hl => ?_⟩
  by_cases hi : i = pos
  · subst hi
    rw [setStream_streams_self] at hl ⊢
    exact hs hl
  · rw [setStream_streams_ne c hi] at hl ⊢
    exact h.slot i hl

/-- Frames that are not response frames do not matter. -/
theorem queued (h : OneResponse hist c) {f : Frame} (hf : ∀ streamId, ¬ f.Response streamId) :
    OneResponse (hist ++ [Event.queued f]) c := by
  have hsame : ∀ streamId, responsesOn streamId (queuedFrames (hist ++ [Event.queued f]))
      = responsesOn streamId (queuedFrames hist) := by
    intro streamId
    have hone : queuedFrames [.queued f] = [f] := rfl
    rw [queuedFrames_append, hone, responsesOn_append, responsesOn_singleton, if_neg (hf streamId),
      List.append_nil]
  refine ⟨fun streamId => ?_, fun streamId hlt => ?_, fun pos hl => ?_⟩
  · rw [hsame]
    exact h.progress streamId
  · rw [hsame]
    exact h.unopened streamId hlt
  · rw [hsame]
    exact h.slot pos hl

/-- A response frame on the stream of a slot. -/
theorem response (hc : Inv c) (h : OneResponse hist c) {pos : Fin connMaxStreams} {f : Frame}
    (h0 : (c.streams pos).id ≠ 0) (hf : ∀ streamId, f.Response streamId ↔ (c.streams pos).id = streamId)
    (hprogress : Progress (c.streams pos).id
      (responsesOn (c.streams pos).id (queuedFrames hist) ++ [f])) {s : Stream}
    (hid : s.id = (c.streams pos).id)
    (hs : live s = true → Answered (responsesOn s.id (queuedFrames hist) ++ [f]) s) :
    OneResponse (hist ++ [Event.queued f]) (c.setStream pos s) := by
  have hone : queuedFrames [.queued f] = [f] := rfl
  have hself : responsesOn (c.streams pos).id (queuedFrames (hist ++ [Event.queued f]))
      = responsesOn (c.streams pos).id (queuedFrames hist) ++ [f] := by
    rw [queuedFrames_append, hone, responsesOn_append, responsesOn_singleton,
      if_pos ((hf _).mpr rfl)]
  have hother : ∀ streamId, (c.streams pos).id ≠ streamId →
      responsesOn streamId (queuedFrames (hist ++ [Event.queued f]))
        = responsesOn streamId (queuedFrames hist) := by
    intro streamId hne
    rw [queuedFrames_append, hone, responsesOn_append, responsesOn_singleton,
      if_neg (fun hr => hne ((hf _).mp hr)), List.append_nil]
  refine ⟨fun streamId => ?_, fun streamId hlt => ?_, fun i hl => ?_⟩
  · by_cases hstream : (c.streams pos).id = streamId
    · rw [← hstream, hself]
      exact hprogress
    · rw [hother streamId hstream]
      exact h.progress streamId
  · have hle := hc.id_le pos
    have hlt' : c.lastStreamId < streamId := hlt
    rw [hother streamId (by omega)]
    exact h.unopened streamId hlt'
  · by_cases hi : i = pos
    · subst hi
      rw [setStream_streams_self] at hl ⊢
      rw [hid, hself, ← hid]
      exact hs hl
    · rw [setStream_streams_ne c hi] at hl ⊢
      -- another slot holds another stream
      have hne : (c.streams pos).id ≠ (c.streams i).id :=
        fun heq => hi (hc.id_inj pos i h0 heq).symm
      rw [hother _ hne]
      exact h.slot i hl

/-- **Every action keeps it.** -/
theorem act (hc : Inv c) {es : List Event} {c' : Connection} (h : Act c es c')
    (hr : OneResponse hist c) : OneResponse (hist ++ es) c' := by
  cases h with
  -- frames that are no part of a response
  | control f hf hroom =>
      have hq := hr.queued (not_response_of_control hf)
      exact ⟨hq.progress, hq.unopened, hq.slot⟩
  | recvConn w hw =>
      rw [List.append_nil]
      exact ⟨hr.progress, hr.unopened, hr.slot⟩
  | recvStream pos w hw =>
      rw [List.append_nil]
      exact hr.setStream fun hl => { hr.slot pos hl with }
  -- nothing has been sent on an id above `last_stream_id`
  | openSlot pos streamId hfree hodd hlast hlt =>
      rw [List.append_nil]
      have hnone := hr.unopened streamId hlast
      have hopen := @OneResponse.setStream _ _ hr pos (Stream.init streamId c.initialStreamWindow)
        (fun _ => ⟨fun _ => hnone, fun h => (by cases h), fun _ => rfl⟩)
      exact ⟨hopen.progress, fun id hid => hr.unopened id (hlast.trans hid), hopen.slot⟩
  | path pos p hidle hlen htext =>
      rw [List.append_nil]
      refine hr.setStream fun hl => ?_
      have hs := hr.slot pos hl
      refine ⟨hs.fresh, fun hhead => ?_, hs.idle⟩
      -- an idle stream has no response yet
      rw [show (c.streams pos).responseHeadersSent = false from hs.idle hidle] at hhead
      cases hhead
  | request pos endStream hidle =>
      rw [List.append_nil]
      refine hr.setStream fun hl => ?_
      have hlive : live (c.streams pos) = true := by
        rw [live_iff] at hl ⊢
        exact ⟨hl.1, by simp [hidle]⟩
      have hs := hr.slot pos hlive
      exact ⟨hs.fresh, hs.waiting, fun _ => hs.idle hidle⟩
  -- the HEADERS frame is the first of its stream
  | sendHeaders pos hcan hnew hroom =>
      have hlive := hcan.live
      have hnone := (hr.slot pos hlive).fresh hnew
      have hsent := hr.response hc (f := c.headersFrame pos)
        (s := { c.streams pos with responseHeadersSent := true }) hcan.1
        (responseHeaders_response hc pos _) (by
          rw [hnone]
          exact .headers _ (by have := (hc.slot pos).path_length; omega)) rfl
        (fun _ => by
          refine ⟨fun h => (by cases h), fun _ _ => ?_, fun hst => ?_⟩
          · rw [hnone]
            rfl
          · have hidle : (c.streams pos).state = .idle := hst
            exact absurd hidle hcan.state_ne.1)
      exact ⟨hsent.progress, hsent.unopened, hsent.slot⟩
  | defer pos hcan hhead hbody hpath hblocked =>
      rw [List.append_nil]
      exact hr.setStream fun hl => { hr.slot pos hl with }
  -- the DATA frame comes behind its HEADERS, with the length that these announce
  | sendData pos hcan hhead hbody hpath hconn hstream hroom =>
      have hlive := hcan.live
      have hwait := (hr.slot pos hlive).waiting hhead hbody
      rw [← responseBody_length] at hwait
      have hid : ∀ s : Stream, s.sendEndStream.2.id = s.id := by
        intro s
        unfold Stream.sendEndStream
        split_ifs <;> rfl
      have hsent := hr.response hc (f := c.dataFrame pos)
        (s := (Stream.sendEndStream { c.streams pos with
          sendWindow := (c.streams pos).sendWindow - (responseBody (c.streams pos).path).length
          responseBodyDeferred := false
          responseSent := true }).2) hcan.1
        (responseData_response hc pos _) (by
          rw [hwait]
          exact .full _ (responseBody_length_le hc pos)) (hid _)
        (fun hl => by
          -- the stream is closed now, or it has its response
          rcases hcan.2 with hst | hst
          · simp only [Stream.sendEndStream, hst, if_true] at hl ⊢
            refine ⟨fun h => absurd (hhead.symm.trans h) (by decide), fun _ h => ?_, fun h => ?_⟩
            · cases h
            · cases h
          · simp [Stream.sendEndStream, hst, Stream.close, live] at hl)
      exact ⟨hsent.progress, hsent.unopened, hsent.slot⟩
  | endRemote pos hopen =>
      rw [List.append_nil]
      refine hr.setStream fun hl => ?_
      have hlive : live (c.streams pos) = true := by
        rw [live_iff] at hl ⊢
        exact ⟨hl.1, by simp [hopen]⟩
      have hs := hr.slot pos hlive
      exact ⟨hs.fresh, hs.waiting, fun h => by cases h⟩
  | close pos =>
      rw [List.append_nil]
      exact hr.setStream fun hl => by simp [live, Stream.close] at hl
  | creditConn increment hmax =>
      have hcredit := hr.skip (e := .credit 0 increment) rfl
      exact ⟨hcredit.progress, hcredit.unopened, hcredit.slot⟩
  | creditStream pos increment hid hmax =>
      have hcredit := hr.skip (e := .credit (c.streams pos).id increment) rfl
      exact hcredit.setStream fun hl => { hcredit.slot pos hl with }
  | resize value hvalue hrange =>
      have hresized := hr.skip (e := .resized value) rfl
      refine ⟨hresized.progress, hresized.unopened, fun i hl => ?_⟩
      rw [live_resizeWindows] at hl
      have hs := hresized.slot i hl
      simp only [resizeWindows, if_pos hl]
      exact { hs with }
  | shiftOne pos w hw =>
      have htorn := hr.skip (e := .torn) rfl
      exact htorn.setStream fun hl => { htorn.slot pos hl with }
  | maxFrame size hsize =>
      rw [List.append_nil]
      exact ⟨hr.progress, hr.unopened, hr.slot⟩
  | block isOpen streamId flags bytes =>
      rw [List.append_nil]
      exact ⟨hr.progress, hr.unopened, hr.slot⟩

end OneResponse

/-- Every run keeps to one response per stream. -/
theorem exec_progress (ops : List Op) (streamId : Nat) :
    Progress streamId (responsesOn streamId (exec ops).frames) := by
  obtain ⟨hist, hframes, hr⟩ := exec_history OneResponse.insensitive OneResponse.init
    (fun hc h hr => OneResponse.act hc h hr)
    (fun f hf hr => hr.queued fun id => by
      rintro ⟨h | h, -⟩ <;> rw [hf] at h <;> cases h) ops
  rw [hframes]
  exact hr.progress streamId

/-! ## Reset streams -/

/-- The stream was opened and is closed now: no slot that still holds it can send. -/
structure Dead (streamId : Nat) (c : Connection) : Prop where
  opened : streamId ≤ c.lastStreamId
  closed : ∀ pos, (c.streams pos).id = streamId → (c.streams pos).state = .closed

namespace Dead

variable {c : Connection} {streamId : Nat}

theorem setStream (h : Dead streamId c) {pos : Fin connMaxStreams} {s : Stream}
    (hid : s.id = (c.streams pos).id)
    (hs : (c.streams pos).state = .closed → s.state = .closed) :
    Dead streamId (c.setStream pos s) := by
  refine ⟨h.opened, fun i hi => ?_⟩
  by_cases hpos : i = pos
  · subst hpos
    rw [setStream_streams_self] at hi ⊢
    exact hs (h.closed i (hid ▸ hi))
  · rw [setStream_streams_ne c hpos] at hi ⊢
    exact h.closed i hi

/-- A slot that may send holds another stream. -/
theorem ne_of_canSend (h : Dead streamId c) {pos : Fin connMaxStreams}
    (hcan : (c.streams pos).CanSend) : (c.streams pos).id ≠ streamId := by
  intro hid
  have hclosed := h.closed pos hid
  exact hcan.state_ne.2 hclosed

/-- **No action revives a dead stream or sends on it.** -/
theorem act (hc : Inv c) {es : List Event} {c' : Connection} (h : Act c es c')
    (hd : Dead streamId c) :
    Dead streamId c' ∧ ∀ f ∈ queuedFrames es, ¬ f.Response streamId := by
  have hsilent : ∀ f : Frame, ¬ f.Response streamId →
      ∀ g ∈ queuedFrames [.queued f], ¬ g.Response streamId := by
    intro f hf g hg
    rw [List.mem_singleton.mp hg]
    exact hf
  cases h with
  | control f hf hroom =>
      exact ⟨⟨hd.opened, hd.closed⟩, hsilent f (not_response_of_control hf streamId)⟩
  | recvConn w hw => exact ⟨⟨hd.opened, hd.closed⟩, by simp [queuedFrames]⟩
  | recvStream pos w hw => exact ⟨hd.setStream rfl id, by simp [queuedFrames]⟩
  -- a new id is above every id that has been opened, so it is another one
  | openSlot pos newId hfree hodd hlast hlt =>
      refine ⟨⟨hd.opened.trans hlast.le, fun i hi => ?_⟩, by simp [queuedFrames]⟩
      by_cases hpos : i = pos
      · subst hpos
        simp only [setStream_streams_self, Stream.init, Stream.zero] at hi
        have := hd.opened
        omega
      · simp only [setStream_streams_ne c hpos] at hi ⊢
        exact hd.closed i hi
  | path pos p hidle hlen htext =>
      exact ⟨hd.setStream rfl fun h => (by rw [hidle] at h; cases h), by simp [queuedFrames]⟩
  | request pos endStream hidle =>
      exact ⟨hd.setStream rfl fun h => (by rw [hidle] at h; cases h), by simp [queuedFrames]⟩
  -- a response needs a stream that is not closed, and a slot of the dead stream is
  | sendHeaders pos hcan hnew hroom =>
      have hd' : Dead streamId (c.push (c.headersFrame pos)) := ⟨hd.opened, hd.closed⟩
      refine ⟨hd'.setStream rfl id, hsilent _ fun hr => ?_⟩
      exact hd.ne_of_canSend hcan ((responseHeaders_response hc pos _ _).mp hr)
  | defer pos hcan hhead hbody hpath hblocked =>
      exact ⟨hd.setStream rfl id, by simp [queuedFrames]⟩
  | sendData pos hcan hhead hbody hpath hconn hstream hroom =>
      have hd' : Dead streamId { c.push (c.dataFrame pos) with
          connSendWindow := c.connSendWindow - (responseBody (c.streams pos).path).length
          responsesSent := (c.responsesSent + 1) % 4294967296 } := ⟨hd.opened, hd.closed⟩
      refine ⟨hd'.setStream ?_ ?_, hsilent _ fun hr => ?_⟩
      · unfold Stream.sendEndStream
        split_ifs <;> rfl
      · intro hclosed
        have hst : (c.streams pos).state = .closed := hclosed
        exact absurd hst hcan.state_ne.2
      · exact hd.ne_of_canSend hcan ((responseData_response hc pos _ _).mp hr)
  | endRemote pos hopen =>
      exact ⟨hd.setStream rfl fun h => (by rw [hopen] at h; cases h), by simp [queuedFrames]⟩
  | close pos => exact ⟨hd.setStream rfl fun _ => rfl, by simp [queuedFrames]⟩
  | creditConn increment hmax => exact ⟨⟨hd.opened, hd.closed⟩, by simp [queuedFrames]⟩
  | creditStream pos increment hid hmax =>
      exact ⟨hd.setStream rfl id, by simp [queuedFrames]⟩
  -- only live slots are resized
  | resize value hvalue hrange =>
      refine ⟨⟨hd.opened, fun i hi => ?_⟩, by simp [queuedFrames]⟩
      simp only [resizeWindows] at hi ⊢
      by_cases hl : live (c.streams i) = true
      · rw [if_pos hl] at hi ⊢
        exact hd.closed i hi
      · rw [if_neg hl] at hi ⊢
        exact hd.closed i hi
  | shiftOne pos w hw => exact ⟨hd.setStream rfl id, by simp [queuedFrames]⟩
  | maxFrame size hsize => exact ⟨⟨hd.opened, hd.closed⟩, by simp [queuedFrames]⟩
  | block isOpen streamId flags bytes => exact ⟨⟨hd.opened, hd.closed⟩, by simp [queuedFrames]⟩

theorem acts (hc : Inv c) {es : List Event} {c' : Connection} (h : Acts c es c')
    (hd : Dead streamId c) :
    Dead streamId c' ∧ ∀ f ∈ queuedFrames es, ¬ f.Response streamId := by
  induction h with
  | refl => exact ⟨hd, by simp [queuedFrames]⟩
  | head hact _ ih =>
      obtain ⟨hd₁, hq₁⟩ := act hc hact hd
      obtain ⟨hd₂, hq₂⟩ := ih (hact.inv hc) hd₁
      refine ⟨hd₂, fun f hf => ?_⟩
      rw [queuedFrames_append] at hf
      rcases List.mem_append.mp hf with hf | hf
      · exact hq₁ f hf
      · exact hq₂ f hf

/-- No frame of the client revives a dead stream or makes the server send on it. -/
theorem handleFrame (hc : Inv c) (hd : Dead streamId c) (f : Frame) :
    Dead streamId (c.handleFrame f).2 ∧ ∀ g ∈ (c.frameStep f).queued, ¬ g.Response streamId := by
  have hqueued : ∀ fs, (c.handleFrame f).2.output = c.output ++ wireOf fs →
      (c.frameStep f).queued = fs := by
    intro fs hout
    rw [FrameStep.queued, frameStep, framesOf_drop hout]
  obtain ⟨es, c₁, hes, ⟨h, -⟩ | h | ⟨ret, -, h⟩⟩ := handleFrame_spec hc f
  · rw [hqueued (queuedFrames es) (by rw [h, hes.output]), h]
    exact acts hc hes hd
  · rw [hqueued (queuedFrames es) (by rw [h, hes.output]), h]
    exact acts hc hes hd
  · obtain ⟨hd₁, hq₁⟩ := acts hc hes hd
    obtain ⟨fs, hfs, gs, ge, hgo⟩ := queueGoaway_cases (hes.inv hc) ret
    rw [hqueued (queuedFrames es ++ fs) (by
      rw [h, hgo, hes.output, wireOf_append, List.append_assoc]), h, hgo]
    refine ⟨⟨hd₁.opened, hd₁.closed⟩, fun g hg => ?_⟩
    rcases List.mem_append.mp hg with hg | hg
    · exact hq₁ g hg
    · rcases hfs with rfl | rfl
      · cases hg
      · rw [List.mem_singleton.mp hg]
        rintro ⟨h | h, -⟩ <;> cases h

/-- A stream whose slot is closed is dead: no other slot holds it. -/
theorem of_close (hc : Inv c) {pos : Fin connMaxStreams} (hid : (c.streams pos).id = streamId)
    (h0 : streamId ≠ 0) : Dead streamId (c.setStream pos (c.streams pos).close) := by
  refine ⟨?_, fun i hi => ?_⟩
  · rw [← hid]
    exact hc.id_le pos
  · by_cases hpos : i = pos
    · subst hpos
      rw [setStream_streams_self]
      rfl
    · rw [setStream_streams_ne c hpos] at hi
      have hi0 : (c.streams i).id ≠ 0 := by
        rw [hi]
        exact h0
      exact absurd (hc.id_inj i pos hi0 (hi.trans hid.symm)) hpos

end Dead


/-- RST_STREAM frames do not come on stream `0`. -/
theorem parseRstStream_ok {header : FrameHeader} {payload : List UInt8} {code : Nat}
    (h : parseRstStream header payload = .ok code) : header.streamId ≠ 0 := by
  intro h0
  unfold parseRstStream at h
  by_cases htype : header.type ≠ FrameType.rstStream.toByte
  · rw [if_pos htype] at h
    cases h
  · have hvalid : validatePayload header ≠ .ok := by
      rw [validatePayload, not_not.mp htype, FrameType.ofByte?_toByte]
      by_cases hbig : header.length > maxFrameSizeLimit
      · simp [hbig]
      · simp [hbig, h0]
    rw [if_neg htype, if_pos hvalid] at h
    cases h

theorem processRstStream_code (c : Connection) (header : FrameHeader) (payload : List UInt8) :
    isStreamError (c.processRstStream header payload).1 = false := by
  rw [processRstStream]
  rcases hparse : parseRstStream header payload with ret | code
  · rcases parseRstStream_error hparse with rfl | rfl <;> rfl
  · rcases c.findStream header.streamId with _ | pos
    · simp only
      split_ifs <;> rfl
    · rfl

/-- **A RST_STREAM of the client that is accepted ends its stream.** -/
theorem rstStream_dead {c : Connection} (hc : Inv c) {f : Frame}
    (ht : f.type = FrameType.rstStream.toByte) (hok : (c.handleFrame f).1 = .ok) :
    Dead f.streamId (c.handleFrame f).2 := by
  obtain ⟨-, hcode, heq⟩ := handleFrame_of_ok ht hok (processRstStream_code c f.header f.payload)
  rw [heq]
  have hstream : c.handler .rstStream f = c.processRstStream f.header f.payload := rfl
  rw [hstream, processRstStream] at hcode ⊢
  rcases hparse : parseRstStream f.header f.payload with ret | code
  · rw [hparse] at hcode
    rcases parseRstStream_error hparse with rfl | rfl <;> cases hcode
  · rw [hparse] at hcode
    simp only at hcode ⊢
    have h0 : f.streamId ≠ 0 := parseRstStream_ok hparse
    rcases hfind : c.findStream f.header.streamId with _ | pos
    · rw [hfind] at hcode
      simp only at hcode ⊢
      have hnone := findStream_eq_none.mp hfind
      have hlast : f.streamId ≤ c.lastStreamId := by
        by_contra hgt
        split_ifs at hcode with h1 h2
        exact h2 (not_le.mp hgt)
      split_ifs
      all_goals exact ⟨hlast, fun pos hpos => absurd hpos (hnone pos)⟩
    · exact Dead.of_close hc (findStream_eq_some hfind) h0

/-! ## The response protocol -/

/-- The frames of one type on one stream. -/
def framesOn (t : FrameType) (streamId : Nat) (fs : List Frame) : List Frame :=
  fs.filter (fun f => f.type = t.toByte ∧ f.streamId = streamId)

theorem framesOn_responsesOn {t : FrameType} (ht : t = .headers ∨ t = .data) (streamId : Nat)
    (fs : List Frame) : framesOn t streamId (responsesOn streamId fs) = framesOn t streamId fs := by
  rw [framesOn, framesOn, responsesOn, List.filter_filter]
  refine List.filter_congr fun f _ => ?_
  have himp : f.type = t.toByte ∧ f.streamId = streamId → f.Response streamId := by
    rintro ⟨htype, hid⟩
    rcases ht with rfl | rfl
    · exact ⟨Or.inl htype, hid⟩
    · exact ⟨Or.inr htype, hid⟩
  by_cases hf : f.type = t.toByte ∧ f.streamId = streamId
  · simp [hf, himp hf]
  · simp [hf]

/-- At most one frame of each type. -/
theorem Progress.length_le {streamId : Nat} {fs : List Frame} (h : Progress streamId fs) {t : FrameType}
    (ht : t = .headers ∨ t = .data) : (framesOn t streamId fs).length ≤ 1 := by
  cases h with
  | none => exact Nat.zero_le _
  | headers n hn => exact List.length_filter_le _ _
  | full body hbody =>
      have hone : ∀ {p : Frame → Bool} {f g : Frame}, (p f = false ∨ p g = false) →
          ([f, g].filter p).length ≤ 1 := by
        intro p f g hp
        rcases hp with hp | hp
        · rw [List.filter_cons_of_neg (by simp [hp])]
          exact List.length_filter_le _ _
        · rcases hf : p f <;> simp [hf, hp]
      rcases ht with rfl | rfl
      · exact hone (Or.inr (by simp [responseData, FrameType.toByte]))
      · exact hone (Or.inl (by simp [responseHeaders, FrameType.toByte]))

/-- The body comes last, right after its headers. -/
theorem Progress.data {streamId : Nat} {before after : List Frame} {d : Frame}
    (h : Progress streamId (before ++ d :: after)) (hd : d.type = FrameType.data.toByte) :
    ∃ body : List UInt8, body.length ≤ 256 ∧ before = [responseHeaders streamId body.length]
      ∧ d = responseData streamId body := by
  rcases hfs : before ++ d :: after with _ | ⟨x, rest⟩
  · simp at hfs
  · rw [hfs] at h
    have hhead : ∀ n, before ++ d :: after ≠ [responseHeaders streamId n] := by
      intro n heq
      rcases before with _ | ⟨b, before⟩
      · rw [List.nil_append] at heq
        have hd' := (List.cons.inj heq).1
        rw [hd'] at hd
        cases hd
      · simp at heq
    cases h with
    | headers n hn => exact absurd hfs (hhead n)
    | full body hbody =>
        refine ⟨body, hbody, ?_⟩
        rcases before with _ | ⟨b, _ | ⟨b', before⟩⟩
        · rw [List.nil_append] at hfs
          have hd' := (List.cons.inj hfs).1
          rw [hd'] at hd
          cases hd
        · rw [List.singleton_append] at hfs
          obtain ⟨rfl, htail⟩ := List.cons.inj hfs
          exact ⟨rfl, (List.cons.inj htail).1⟩
        · simp at hfs

/-- **The response protocol of a stream**, in every run: at most one HEADERS and one DATA frame;
the DATA frame ends the stream, comes after the HEADERS frame and has the length that this
announces; and nothing is sent on a stream after the client has reset it. -/
theorem response_protocol (ops : List Op) (streamId : Nat) :
    (framesOn .headers streamId (exec ops).frames).length ≤ 1
    ∧ (framesOn .data streamId (exec ops).frames).length ≤ 1
    ∧ (∀ before d after, (exec ops).frames = before ++ d :: after →
        d.type = FrameType.data.toByte → d.streamId = streamId →
          hasFlag d.flags flagEndStream = true
          ∧ ∃ h ∈ before, h.type = FrameType.headers.toByte ∧ h.streamId = streamId
            ∧ ∀ fieldCap, 4 ≤ fieldCap →
              decodeHeaders h.payload fieldCap = .ok (responseFields d.payload.length))
    ∧ ∀ before st after, (exec ops).steps = before ++ st :: after →
        st.frame.type = FrameType.rstStream.toByte → st.frame.streamId = streamId → st.code = .ok →
          (∃ earlier, (exec ops).frames = earlier ++ after.flatMap FrameStep.queued)
          ∧ ∀ f ∈ after.flatMap FrameStep.queued, ¬ f.Response streamId := by
  have hprogress := exec_progress ops streamId
  refine ⟨?_, ?_, ?_, ?_⟩
  · -- what is queued on the stream is a prefix of HEADERS, DATA
    rw [← framesOn_responsesOn (Or.inl rfl)]
    exact hprogress.length_le (Or.inl rfl)
  · rw [← framesOn_responsesOn (Or.inr rfl)]
    exact hprogress.length_le (Or.inr rfl)
  · -- so in front of a DATA frame there is exactly the HEADERS frame
    intro before d after hframes hd hid
    have hresp : d.Response streamId := ⟨Or.inr hd, hid⟩
    rw [hframes, responsesOn_append, show d :: after = [d] ++ after from rfl, responsesOn_append,
      responsesOn_singleton, if_pos hresp] at hprogress
    obtain ⟨body, hbody, hbefore, rfl⟩ := hprogress.data hd
    have hmem : responseHeaders streamId body.length ∈ responsesOn streamId before := by
      rw [hbefore]
      exact List.mem_singleton.mpr rfl
    obtain ⟨hmem', hheaders⟩ := List.mem_filter.mp hmem
    refine ⟨(by decide : hasFlag flagEndStream flagEndStream = true), _, hmem', rfl,
      (of_decide_eq_true hheaders).2, fun fieldCap hcap => ?_⟩
    rw [responseHeaders_payload (by omega), responseData_payload (by omega)]
    exact decodeHeaders_responseBlock (by omega) hcap
  · -- the reset leaves a dead stream, and no later frame revives it
    intro before st after hsteps ht hid hok
    obtain ⟨opening, hframes, -⟩ := exec_frames_steps ops
    have hsilent := exec_since (R := Dead streamId)
      (Q := fun st => st.frame.type = FrameType.rstStream.toByte ∧ st.frame.streamId = streamId
        ∧ st.code = .ok)
      (S := fun st => ∀ f ∈ st.queued, ¬ f.Response streamId)
      (fun h _ _ _ _ _ _ => ⟨h.opened, h.closed⟩)
      (fun hc hq => by
        obtain ⟨ht, rfl, hok⟩ := hq
        exact rstStream_dead hc ht hok)
      (fun hc hd => hd.handleFrame hc _) ops before st after hsteps ⟨ht, hid, hok⟩
    refine ⟨⟨opening ++ (before ++ [st]).flatMap FrameStep.queued, ?_⟩, fun f hf => ?_⟩
    · rw [hframes, hsteps, List.append_assoc, ← List.flatMap_append, List.append_assoc]
      rfl
    · obtain ⟨st', hst', hf'⟩ := List.mem_flatMap.mp hf
      exact hsilent.2 st' hst' f hf'

end C11Omo.Http2
