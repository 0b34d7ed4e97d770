import C11Omo.Http2.Accepted
import C11Omo.Http2.Delivery

set_option autoImplicit false

/-! # Connections that answer alike

Two connections are `Alike` when they differ in nothing but their output buffers and the send
windows of closed streams. No handler looks at either, but for one thing: a frame is queued only
if the output has room for it. So alike connections take the same steps (`Follows`, one lemma for
each handler), and answer every frame with the same code and the same bytes
(`Alike.handleFrame`). How much the output buffers may differ, and which slots, is a parameter, the
`Tolerance`.
-/

namespace C11Omo.Http2

open C11Omo.Lib

namespace Connection

/-- How much two connections may differ. -/
structure Tolerance where
  /-- The slots in which the send window of a closed stream may be larger in the second. -/
  loose : Fin connMaxStreams → Prop
  /-- The bytes the first has pending, and those the second has. -/
  near : List UInt8 → List UInt8 → Prop
  /-- The first may run out of room where the second does not. -/
  lax : Prop
  near_push : ∀ {p p' : List UInt8} (data : List UInt8), near p p' → near (p ++ data) (p' ++ data)
  near_length : ∀ {p p' : List UInt8}, near p p' → p'.length ≤ p.length
  near_room : ∀ {p p' : List UInt8}, near p p' → lax ∨ p.length ≤ p'.length

/-- Two slots that are equal, but for the send window of a closed stream. -/
def SlotAlike (t : Tolerance) (pos : Fin connMaxStreams) (s s' : Stream) : Prop :=
  s = s' ∨ (t.loose pos ∧ s.state = .closed ∧ s.sendWindow ≤ s'.sendWindow
    ∧ s' = { s with sendWindow := s'.sendWindow })

/-- The same tolerance, but for one slot that has to be equal. -/
def Tolerance.tighten (t : Tolerance) (pos : Fin connMaxStreams) : Tolerance :=
  { t with loose := fun i => t.loose i ∧ i ≠ pos }

/-- The fields in which alike connections may differ. -/
structure View where
  streams : Fin connMaxStreams → Stream
  output : List UInt8
  outputSent : Nat

/-- The connection with other slots and another output. -/
def withView (c : Connection) (v : View) : Connection :=
  { c with streams := v.streams, output := v.output, outputSent := v.outputSent }

/-- **Alike connections.** -/
structure Alike (t : Tolerance) (c c' : Connection) : Prop where
  rest : ∃ v, c' = c.withView v
  slot : ∀ pos, SlotAlike t pos (c.streams pos) (c'.streams pos)
  output : t.near c.pending c'.pending

/-- Two results of a handler: the codes are the same and the connections alike, or the first has
run out of room. -/
def Follows (t : Tolerance) (r r' : ErrorCode × Connection) : Prop :=
  (r.1 = r'.1 ∧ Alike t r.2 r'.2) ∨ (t.lax ∧ r.1 = .internalError)

variable {t : Tolerance} {c c' : Connection} {pos : Fin connMaxStreams} {s s' : Stream}

/-! ## Slots -/

theorem SlotAlike.state (h : SlotAlike t pos s s') : s'.state = s.state := by
  rcases h with rfl | ⟨-, -, -, h⟩
  · rfl
  · rw [h]

theorem SlotAlike.id (h : SlotAlike t pos s s') : s'.id = s.id := by
  rcases h with rfl | ⟨-, -, -, h⟩
  · rfl
  · rw [h]

theorem SlotAlike.recvWindow (h : SlotAlike t pos s s') : s'.recvWindow = s.recvWindow := by
  rcases h with rfl | ⟨-, -, -, h⟩
  · rfl
  · rw [h]

/-- Only the slots of closed streams may differ. -/
theorem SlotAlike.eq (h : SlotAlike t pos s s') (hopen : s.state ≠ .closed) : s = s' := by
  rcases h with rfl | ⟨-, hclosed, -, -⟩
  · rfl
  · exact absurd hclosed hopen

theorem SlotAlike.live (h : SlotAlike t pos s s') : live s' = live s := by
  unfold Connection.live
  rw [h.state, h.id]

theorem SlotAlike.reusable (h : SlotAlike t pos s s') : reusable s' = reusable s := by
  unfold Connection.reusable
  rw [h.state, h.id]

/-- An update of a slot that has nothing to do with its send window and its state. -/
theorem SlotAlike.update (h : SlotAlike t pos s s') {g : Stream → Stream}
    (hcomm : ∀ s w, g { s with sendWindow := w } = { g s with sendWindow := w })
    (hkeep : ∀ s, (g s).state = s.state ∧ (g s).sendWindow = s.sendWindow) :
    SlotAlike t pos (g s) (g s') := by
  rcases h with rfl | ⟨hloose, hclosed, hle, h⟩
  · exact Or.inl rfl
  · refine Or.inr ⟨hloose, ?_, ?_, ?_⟩
    · rw [(hkeep s).1, hclosed]
    · rw [(hkeep s).2, (hkeep s').2]
      exact hle
    · rw [(hkeep s').2]
      calc g s' = g { s with sendWindow := s'.sendWindow } := congrArg g h
        _ = { g s with sendWindow := s'.sendWindow } := hcomm s s'.sendWindow

/-- Closing a stream resets its send window. -/
theorem SlotAlike.close (h : SlotAlike t pos s s') : s'.close = s.close := by
  rcases h with rfl | ⟨-, -, -, h⟩
  · rfl
  · rw [h]
    rfl

/-! ## Alike connections -/

theorem Alike.refl (h : t.near c.pending c.pending) : Alike t c c where
  rest := ⟨⟨c.streams, c.output, c.outputSent⟩, rfl⟩
  slot := fun _ => Or.inl rfl
  output := h

/-- The write of two slots that are alike. -/
theorem Alike.setStream (h : Alike t c c') (hs : SlotAlike t pos s s') :
    Alike t (c.setStream pos s) (c'.setStream pos s') := by
  obtain ⟨v, rfl⟩ := h.rest
  refine ⟨⟨{ v with streams := Function.update v.streams pos s' }, rfl⟩, fun i => ?_, h.output⟩
  by_cases hi : i = pos
  · subst hi
    rw [setStream_streams_self, setStream_streams_self]
    exact hs
  · rw [setStream_streams_ne c hi, setStream_streams_ne _ hi]
    exact h.slot i

theorem Alike.findStream (h : Alike t c c') (streamId : Nat) :
    c'.findStream streamId = c.findStream streamId := by
  unfold Connection.findStream
  congr 1
  funext i
  rw [(h.slot i).id]

/-- A slot that is equal in both may be required to stay so. -/
theorem Alike.tighten (h : Alike t c c') (heq : c.streams pos = c'.streams pos) :
    Alike (t.tighten pos) c c' := by
  refine ⟨h.rest, fun i => ?_, h.output⟩
  by_cases hi : i = pos
  · subst hi
    exact Or.inl heq
  · rcases h.slot i with hs | ⟨hloose, hs⟩
    · exact Or.inl hs
    · exact Or.inr ⟨⟨hloose, hi⟩, hs⟩

theorem Alike.loosen (h : Alike (t.tighten pos) c c') : Alike t c c' := by
  refine ⟨h.rest, fun i => ?_, h.output⟩
  rcases h.slot i with hs | ⟨hloose, hs⟩
  · exact Or.inl hs
  · exact Or.inr ⟨hloose.1, hs⟩

theorem Alike.slot_eq (h : Alike (t.tighten pos) c c') : c.streams pos = c'.streams pos := by
  rcases h.slot pos with hs | ⟨hloose, -⟩
  · exact hs
  · exact absurd rfl hloose.2

/-! ## Results -/

theorem Follows.pair (ret : ErrorCode) (h : Alike t c c') : Follows t (ret, c) (ret, c') :=
  Or.inl ⟨rfl, h⟩

theorem Follows.loosen {r r' : ErrorCode × Connection} (h : Follows (t.tighten pos) r r') :
    Follows t r r' := by
  rcases h with ⟨hcode, hstate⟩ | hfull
  · exact Or.inl ⟨hcode, hstate.loosen⟩
  · exact Or.inr hfull

/-- **One step after the other.** -/
theorem Follows.andThen {r r' : ErrorCode × Connection} (h : Follows t r r')
    {next next' : Connection → ErrorCode × Connection}
    (hnext : ∀ c c', Alike t c c' → Follows t (next c) (next' c')) :
    Follows t (andThen r next) (andThen r' next') := by
  obtain ⟨ret, c⟩ := r
  obtain ⟨ret', c'⟩ := r'
  rcases h with ⟨hcode, hstate⟩ | ⟨hlax, hcode⟩
  · obtain rfl : ret = ret' := hcode
    by_cases hret : ret = .ok
    · subst hret
      exact hnext c c' hstate
    · rw [andThen_err hret, andThen_err hret]
      exact Or.inl ⟨rfl, hstate⟩
  · obtain rfl : ret = .internalError := hcode
    rw [andThen_err (by decide)]
    exact Or.inr ⟨hlax, rfl⟩

/-- A result with a code that is not an internal error comes with the same code and an alike
connection. -/
theorem Follows.left {r r' : ErrorCode × Connection} (h : Follows t r r')
    (hne : t.lax → r.1 ≠ .internalError) : r.1 = r'.1 ∧ Alike t r.2 r'.2 := by
  rcases h with h | ⟨hlax, hcode⟩
  · exact h
  · exact absurd hcode (hne hlax)

/-! ## The output queue -/

/-- Two connections whose outputs are written together. -/
theorem Alike.withOutput (h : Alike t c c') {p p' : List UInt8} (hp : t.near p p') :
    Alike t { c with output := p, outputSent := 0 } { c' with output := p', outputSent := 0 } := by
  obtain ⟨v, rfl⟩ := h.rest
  exact ⟨⟨{ v with output := p', outputSent := 0 }, rfl⟩, h.slot, hp⟩

theorem Alike.queueBytes (h : Alike t c c') (data : List UInt8) :
    Follows t (c.queueBytes data) (c'.queueBytes data) := by
  rw [queueBytes_eq, queueBytes_eq]
  have hle := t.near_length h.output
  by_cases hfull' : data.length > connOutputCap - c'.pending.length
  · rw [if_pos hfull', if_pos (by omega)]
    exact Follows.pair _ (h.withOutput h.output)
  · rw [if_neg hfull']
    by_cases hfull : data.length > connOutputCap - c.pending.length
    · rw [if_pos hfull]
      rcases t.near_room h.output with hlax | hge
      · exact Or.inr ⟨hlax, rfl⟩
      · omega
    · rw [if_neg hfull]
      exact Follows.pair _ (h.withOutput (t.near_push data h.output))

theorem Alike.queueWire (h : Alike t c c') (wire : Option (List UInt8)) :
    Follows t (c.queueWire wire) (c'.queueWire wire) := by
  rcases wire with _ | data
  · exact Follows.pair _ h
  · exact h.queueBytes data

theorem Alike.queueGoaway (h : Alike t c c') (errorCode : ErrorCode) :
    Follows t (c.queueGoaway errorCode) (c'.queueGoaway errorCode) := by
  obtain ⟨v, rfl⟩ := h.rest
  unfold Connection.queueGoaway
  by_cases hsent : c.goawaySent = true
  · have hsent' : (c.withView v).goawaySent = true := hsent
    rw [if_pos hsent, if_pos hsent']
    exact Follows.pair _ h
  · have hsent' : ¬ (c.withView v).goawaySent = true := hsent
    rw [if_neg hsent, if_neg hsent', show (c.withView v).lastStreamId = c.lastStreamId from rfl]
    rcases encodeGoaway (frameHeaderLen + 8) c.lastStreamId errorCode.toNat [] with _ | wire
    · exact Follows.pair _ h
    · have hsaid : Alike t { c with goawaySent := true, goawayError := errorCode.toNat }
          { c.withView v with goawaySent := true, goawayError := errorCode.toNat } :=
        ⟨⟨v, rfl⟩, h.slot, h.output⟩
      exact hsaid.queueBytes wire

/-- A frame is queued, and what follows does not run out of room. -/
theorem Alike.queueWire_match (h : Alike t c c') (wire : Option (List UInt8))
    {next next' : Connection → ErrorCode × Connection}
    (hnext : ∀ c c', Alike t c c' → Follows t (next c) (next' c')) :
    Follows t
      (match c.queueWire wire with
        | (.ok, conn) => next conn
        | (_, conn) => (.internalError, conn))
      (match c'.queueWire wire with
        | (.ok, conn) => next' conn
        | (_, conn) => (.internalError, conn)) := by
  have hqueue := h.queueWire wire
  rcases hres : c.queueWire wire with ⟨ret, d⟩
  rcases hres' : c'.queueWire wire with ⟨ret', d'⟩
  rw [hres, hres'] at hqueue
  rcases hqueue with ⟨hcode, hstate⟩ | ⟨hlax, hcode⟩
  · obtain rfl : ret = ret' := hcode
    cases ret <;> first | exact hnext d d' hstate | exact Follows.pair _ hstate
  · obtain rfl : ret = .internalError := hcode
    exact Or.inr ⟨hlax, rfl⟩

/-! ## Receive windows -/

theorem Alike.refreshConnRecvWindow (h : Alike t c c') :
    Follows t c.refreshConnRecvWindow c'.refreshConnRecvWindow := by
  obtain ⟨v, rfl⟩ := h.rest
  unfold Connection.refreshConnRecvWindow
  rw [show (c.withView v).connRecvWindow = c.connRecvWindow from rfl]
  by_cases hlow : c.connRecvWindow ≤ 65535 / 2
  · rw [if_pos hlow, if_pos hlow]
    have hwindow : ∀ w, Alike t { c with connRecvWindow := w }
        { c.withView v with connRecvWindow := w } := fun _ => ⟨⟨v, rfl⟩, h.slot, h.output⟩
    exact (hwindow _).queueWire_match _ fun _ _ h => Follows.pair _ h
  · rw [if_neg hlow, if_neg hlow]
    exact Follows.pair _ h

theorem Alike.refreshStreamRecvWindow (h : Alike t c c') (pos : Fin connMaxStreams) :
    Follows t (c.refreshStreamRecvWindow pos) (c'.refreshStreamRecvWindow pos) := by
  have hslot := h.slot pos
  unfold Connection.refreshStreamRecvWindow
  simp only [hslot.recvWindow, hslot.id]
  by_cases hlow : (c.streams pos).recvWindow ≤ 65535 / 2
  · rw [if_pos hlow, if_pos hlow]
    have hset := h.setStream (hslot.update (g := fun s => { s with
      recvWindow := (c.streams pos).recvWindow
        + toInt32 (toUInt32 (defaultWindowSize - (c.streams pos).recvWindow)) })
      (fun _ _ => rfl) fun _ => ⟨rfl, rfl⟩)
    simp only [hslot.id] at hset
    exact hset.queueWire_match _ fun _ _ h => Follows.pair _ h
  · rw [if_neg hlow, if_neg hlow]
    exact Follows.pair _ h

theorem Alike.refreshRecvWindows (h : Alike t c c') (stream : Option (Fin connMaxStreams)) :
    Follows t (c.refreshRecvWindows stream) (c'.refreshRecvWindows stream) := by
  refine h.refreshConnRecvWindow.andThen fun c c' h => ?_
  rcases stream with _ | pos
  · exact Follows.pair _ h
  · exact h.refreshStreamRecvWindow pos

/-! ## SETTINGS -/

/-- The windows of closed streams are left alone. -/
theorem Alike.shiftSendWindows (delta : Int) (ps : List (Fin connMaxStreams)) (h : Alike t c c') :
    Follows t (shiftSendWindows delta ps c) (shiftSendWindows delta ps c') := by
  induction ps generalizing c c' with
  | nil => exact Follows.pair _ h
  | cons pos rest ih =>
      rw [Connection.shiftSendWindows, Connection.shiftSendWindows]
      simp only [(h.slot pos).live]
      by_cases hlive : live (c.streams pos) = true
      · rw [if_pos hlive, if_pos hlive, ← (h.slot pos).eq (live_iff.mp hlive).2]
        by_cases hout : (c.streams pos).sendWindow + delta < int32Min
            ∨ (c.streams pos).sendWindow + delta > int32Max
        · rw [if_pos hout, if_pos hout]
          exact Follows.pair _ h
        · rw [if_neg hout, if_neg hout]
          exact ih (h.setStream (Or.inl rfl))
      · rw [if_neg hlive, if_neg hlive]
        exact ih h

theorem Alike.applySetting (h : Alike t c c') (setting : Setting) :
    Follows t (c.applySetting setting) (c'.applySetting setting) := by
  obtain ⟨v, rfl⟩ := h.rest
  unfold Connection.applySetting
  by_cases hpush : setting.id = settingsEnablePush
  · rw [if_pos hpush, if_pos hpush]
    split <;> exact Follows.pair _ h
  · rw [if_neg hpush, if_neg hpush]
    by_cases hwindow : setting.id = settingsInitialWindowSize
    · rw [if_pos hwindow, if_pos hwindow]
      by_cases hmax : (setting.value : Int) > int32Max
      · rw [if_pos hmax, if_pos hmax]
        exact Follows.pair _ h
      · rw [if_neg hmax, if_neg hmax]
        refine (h.shiftSendWindows _ _).andThen fun d d' hd => ?_
        obtain ⟨u, rfl⟩ := hd.rest
        exact Follows.pair _ ⟨⟨u, rfl⟩, hd.slot, hd.output⟩
    · rw [if_neg hwindow, if_neg hwindow]
      split
      · split
        · exact Follows.pair _ h
        · exact Follows.pair _ ⟨⟨v, rfl⟩, h.slot, h.output⟩
      · exact Follows.pair _ h

theorem Alike.applySettingsLoop (settings : List Setting) (h : Alike t c c') :
    Follows t (applySettingsLoop settings c) (applySettingsLoop settings c') := by
  induction settings generalizing c c' with
  | nil => exact Follows.pair _ h
  | cons setting rest ih => exact (h.applySetting setting).andThen fun _ _ h => ih h

theorem Alike.applySettings (h : Alike t c c') (header : FrameHeader) (payload : List UInt8) :
    Follows t (c.applySettings header payload) (c'.applySettings header payload) := by
  unfold Connection.applySettings
  rcases parseSettings header payload 32 with ret | settings
  · exact Follows.pair _ h
  · simp only
    split
    · exact Follows.pair _ h
    · exact (h.applySettingsLoop settings).andThen fun _ _ h => h.queueWire _

/-! ## Responses -/

/-- The body of a response on a slot that is equal in both connections. -/
theorem Alike.queueDeferredData (h : Alike (t.tighten pos) c c') (body : List UInt8) :
    Follows (t.tighten pos) (c.queueDeferredData pos body) (c'.queueDeferredData pos body) := by
  have hslot := h.slot_eq
  obtain ⟨v, rfl⟩ := h.rest
  unfold Connection.queueDeferredData
  rw [← hslot, show (c.withView v).connSendWindow = c.connSendWindow from rfl]
  by_cases hlow : c.connSendWindow < body.length ∨ (c.streams pos).sendWindow < body.length
  · rw [if_pos hlow, if_pos hlow]
    exact Follows.pair _ (h.setStream (Or.inl rfl))
  · rw [if_neg hlow, if_neg hlow]
    refine h.queueWire_match _ fun d d' hd => ?_
    have hsent := hd.slot_eq
    obtain ⟨u, rfl⟩ := hd.rest
    simp only
    rw [← hsent]
    refine Follows.pair _ (Alike.setStream ?_ (Or.inl rfl))
    exact ⟨⟨u, rfl⟩, hd.slot, hd.output⟩

theorem Alike.queueResponseHeaders (h : Alike (t.tighten pos) c c') (contentLength : List UInt8) :
    Follows (t.tighten pos) (c.queueResponseHeaders pos contentLength)
      (c'.queueResponseHeaders pos contentLength) := by
  unfold Connection.queueResponseHeaders
  rw [← h.slot_eq]
  rcases responseHeaderBlock contentLength with _ | block
  · exact Follows.pair _ h
  · refine h.queueWire_match _ fun d d' hd => ?_
    simp only
    rw [← hd.slot_eq]
    exact Follows.pair _ (hd.setStream (Or.inl rfl))

/-- **A response on a slot that is equal in both connections.** -/
theorem Alike.queueResponse (h : Alike (t.tighten pos) c c') :
    Follows (t.tighten pos) (c.queueResponse pos) (c'.queueResponse pos) := by
  unfold Connection.queueResponse
  rw [← h.slot_eq]
  by_cases hsent : (c.streams pos).responseSent = true
  · rw [if_pos hsent, if_pos hsent]
    exact Follows.pair _ h
  · rw [if_neg hsent, if_neg hsent]
    -- the path that is filled in is the same
    have hpath : Alike (t.tighten pos)
        (if (c.streams pos).path = [] then
          c.setStream pos { c.streams pos with path := ascii "/" } else c)
        (if (c.streams pos).path = [] then
          c'.setStream pos { c.streams pos with path := ascii "/" } else c') := by
      by_cases hnil : (c.streams pos).path = []
      · rw [if_pos hnil, if_pos hnil]
        exact h.setStream (Or.inl rfl)
      · rw [if_neg hnil, if_neg hnil]
        exact h
    generalize (if (c.streams pos).path = [] then
      c.setStream pos { c.streams pos with path := ascii "/" } else c) = d at hpath ⊢
    generalize (if (c.streams pos).path = [] then
      c'.setStream pos { c.streams pos with path := ascii "/" } else c') = d' at hpath ⊢
    simp only [← hpath.slot_eq]
    by_cases hbody : (responseBody (d.streams pos).path).length ≥ 320
    · simp only [if_pos hbody]
      exact Follows.pair _ hpath
    · simp only [if_neg hbody]
      by_cases hdec : (decimal (responseBody (d.streams pos).path).length).length ≥ 32
      · simp only [if_pos hdec]
        exact Follows.pair _ hpath
      · simp only [if_neg hdec]
        have hfirst : Follows (t.tighten pos)
            (if (d.streams pos).responseHeadersSent = true then (.ok, d)
              else d.queueResponseHeaders pos (decimal (responseBody (d.streams pos).path).length))
            (if (d.streams pos).responseHeadersSent = true then (.ok, d')
              else d'.queueResponseHeaders pos
                (decimal (responseBody (d.streams pos).path).length)) := by
          by_cases hheaders : (d.streams pos).responseHeadersSent = true
          · rw [if_pos hheaders, if_pos hheaders]
            exact Follows.pair _ hpath
          · rw [if_neg hheaders, if_neg hheaders]
            exact hpath.queueResponseHeaders _
        exact hfirst.andThen fun _ _ h => h.queueDeferredData _

theorem Alike.flushDeferredLoop (ps : List (Fin connMaxStreams)) (h : Alike t c c') :
    Follows t (flushDeferredLoop ps c) (flushDeferredLoop ps c') := by
  induction ps generalizing c c' with
  | nil => exact Follows.pair _ h
  | cons pos rest ih =>
      rw [Connection.flushDeferredLoop, Connection.flushDeferredLoop, (h.slot pos).live]
      by_cases hlive : live (c.streams pos) = true
      · have heq := (h.slot pos).eq (live_iff.mp hlive).2
        rw [← heq]
        by_cases hd : live (c.streams pos) ∧ (c.streams pos).responseBodyDeferred
        · rw [if_pos hd, if_pos hd]
          exact (h.tighten heq).queueResponse.loosen.andThen fun _ _ h => ih h
        · rw [if_neg hd, if_neg hd]
          exact ih h
      · rw [if_neg fun hd => hlive hd.1, if_neg fun hd => hlive hd.1]
        exact ih h

theorem Alike.flushDeferredResponses (h : Alike t c c') :
    Follows t c.flushDeferredResponses c'.flushDeferredResponses := h.flushDeferredLoop _

/-! ## Requests -/

theorem Alike.getStream (h : Alike t c c') (streamId : Nat) :
    (c'.getStream streamId).1 = (c.getStream streamId).1
      ∧ Alike t (c.getStream streamId).2 (c'.getStream streamId).2 := by
  have hinit : c'.initialStreamWindow = c.initialStreamWindow := by
    obtain ⟨v, rfl⟩ := h.rest
    rfl
  have hfree : (fun pos => reusable (c'.streams pos)) = fun pos => reusable (c.streams pos) :=
    funext fun pos => (h.slot pos).reusable
  unfold Connection.getStream
  rw [h.findStream, hfree, hinit]
  rcases c.findStream streamId with _ | pos
  · rcases (List.finRange connMaxStreams).find? fun pos => reusable (c.streams pos) with _ | pos
    · exact ⟨rfl, h⟩
    · exact ⟨rfl, h.setStream (Or.inl rfl)⟩
  · exact ⟨rfl, h⟩

/-- A closed stream takes no request, so the slots are equal once one has been taken. -/
theorem SlotAlike.receiveHeaders (h : SlotAlike t pos s s') (endStream : Bool) :
    (s'.receiveHeaders endStream).1 = (s.receiveHeaders endStream).1
      ∧ SlotAlike t pos (s.receiveHeaders endStream).2 (s'.receiveHeaders endStream).2
      ∧ ((s.receiveHeaders endStream).1 = .ok →
        (s.receiveHeaders endStream).2 = (s'.receiveHeaders endStream).2) := by
  unfold Stream.receiveHeaders
  rw [h.state]
  by_cases hidle : s.state = .idle
  · have heq := h.eq (by rw [hidle]; decide)
    rw [if_neg (not_not.mpr hidle), if_neg (not_not.mpr hidle), heq]
    exact ⟨rfl, Or.inl rfl, fun _ => rfl⟩
  · rw [if_pos hidle, if_pos hidle]
    exact ⟨rfl, h, fun hok => by cases hok⟩

/-- **A complete header block.** -/
theorem Alike.finishHeaders (h : Alike t c c') (streamId : Nat) (flags : UInt8)
    (block : List UInt8) :
    Follows t (c.finishHeaders streamId flags block) (c'.finishHeaders streamId flags block) := by
  have hlast : c'.lastStreamId = c.lastStreamId := by
    obtain ⟨v, rfl⟩ := h.rest
    rfl
  unfold Connection.finishHeaders
  rw [hlast]
  by_cases heven : streamId &&& 1 = 0
  · rw [if_pos heven, if_pos heven]
    exact Follows.pair _ h
  · rw [if_neg heven, if_neg heven]
    by_cases hold : streamId ≤ c.lastStreamId
    · rw [if_pos hold, if_pos hold]
      exact Follows.pair _ h
    · rw [if_neg hold, if_neg hold]
      obtain ⟨hpos, halike⟩ := h.getStream streamId
      rcases hres : c.getStream streamId with ⟨found, d⟩
      rcases hres' : c'.getStream streamId with ⟨found', d'⟩
      rw [hres, hres'] at hpos halike
      obtain rfl : found' = found := hpos
      rcases found' with _ | pos
      · exact Follows.pair _ halike
      · simp only
        rcases extractPath block streamPathCap with ⟨ret, path⟩
        -- the slot once its path has been written
        have hslot : SlotAlike t pos { d.streams pos with path := path }
            { d'.streams pos with path := path } :=
          (halike.slot pos).update (g := fun s => { s with path := path })
            (fun _ _ => rfl) fun _ => ⟨rfl, rfl⟩
        have hpath : Alike t
            ({ d with lastStreamId := streamId }.setStream pos { d.streams pos with path := path })
            ({ d' with lastStreamId := streamId }.setStream pos
              { d'.streams pos with path := path }) := by
          refine Alike.setStream ?_ hslot
          obtain ⟨v, rfl⟩ := halike.rest
          exact ⟨⟨v, rfl⟩, halike.slot, halike.output⟩
        by_cases hret : ret = .ok
        · rw [if_neg (not_not.mpr hret), if_neg (not_not.mpr hret), setStream_streams_self,
            setStream_streams_self]
          obtain ⟨hcode, hrecv, heq⟩ := hslot.receiveHeaders (hasFlag flags flagEndStream)
          have hset := hpath.setStream hrecv
          rw [hcode]
          by_cases hok : (Stream.receiveHeaders { d.streams pos with path := path }
              (hasFlag flags flagEndStream)).1 = .ok
          · rw [if_neg (not_not.mpr hok), if_neg (not_not.mpr hok)]
            refine (hset.tighten ?_).queueResponse.loosen
            rw [setStream_streams_self, setStream_streams_self]
            exact heq hok
          · rw [if_pos hok, if_pos hok]
            exact Follows.pair _ hset
        · rw [if_pos hret, if_pos hret]
          exact Follows.pair _ hpath

theorem Alike.appendHeaderBlock (h : Alike t c c') (data : List UInt8) :
    Follows t (c.appendHeaderBlock data) (c'.appendHeaderBlock data) := by
  obtain ⟨v, rfl⟩ := h.rest
  unfold Connection.appendHeaderBlock
  rw [show (c.withView v).headerBlock = c.headerBlock from rfl]
  by_cases hbig : data.length > headerBlockCap - c.headerBlock.length
  · rw [if_pos hbig, if_pos hbig]
    exact Follows.pair _ h
  · rw [if_neg hbig, if_neg hbig]
    exact Follows.pair _ ⟨⟨v, rfl⟩, h.slot, h.output⟩

theorem Alike.processHeaders (h : Alike t c c') (header : FrameHeader) (payload : List UInt8) :
    Follows t (c.processHeaders header payload) (c'.processHeaders header payload) := by
  have hopen : c'.headerBlockOpen = c.headerBlockOpen := by
    obtain ⟨v, rfl⟩ := h.rest
    rfl
  unfold Connection.processHeaders
  rcases parseHeaders header payload with ret | parsed
  · exact Follows.pair _ h
  · simp only [hopen]
    by_cases hend : hasFlag header.flags flagEndHeaders = false
    · rw [if_pos hend, if_pos hend]
      by_cases hblock : c.headerBlockOpen = true
      · rw [if_pos hblock, if_pos hblock]
        exact Follows.pair _ h
      · rw [if_neg hblock, if_neg hblock]
        refine Alike.appendHeaderBlock ?_ _
        obtain ⟨v, rfl⟩ := h.rest
        exact ⟨⟨v, rfl⟩, h.slot, h.output⟩
    · rw [if_neg hend, if_neg hend]
      exact h.finishHeaders _ _ _

theorem Alike.processContinuation (h : Alike t c c') (header : FrameHeader)
    (payload : List UInt8) :
    Follows t (c.processContinuation header payload) (c'.processContinuation header payload) := by
  have hblock : c'.headerBlockOpen = c.headerBlockOpen
      ∧ c'.headerBlockStreamId = c.headerBlockStreamId := by
    obtain ⟨v, rfl⟩ := h.rest
    exact ⟨rfl, rfl⟩
  unfold Connection.processContinuation
  rw [hblock.1, hblock.2]
  by_cases hbad : c.headerBlockOpen = false ∨ header.streamId ≠ c.headerBlockStreamId
  · rw [if_pos hbad, if_pos hbad]
    exact Follows.pair _ h
  · rw [if_neg hbad, if_neg hbad]
    rcases parseContinuation header payload with ret | fragment
    · exact Follows.pair _ h
    · refine (h.appendHeaderBlock fragment).andThen fun d d' hd => ?_
      by_cases hend : hasFlag header.flags flagEndHeaders = false
      · rw [if_pos hend, if_pos hend]
        exact Follows.pair _ hd
      · rw [if_neg hend, if_neg hend]
        obtain ⟨u, rfl⟩ := hd.rest
        have hclosed : Alike t { d with headerBlockOpen := false }
            { d.withView u with headerBlockOpen := false } := ⟨⟨u, rfl⟩, hd.slot, hd.output⟩
        exact hclosed.finishHeaders _ _ _

/-! ## DATA -/

/-- The state of a stream after a DATA frame does not depend on its send window. -/
theorem Alike.charge (h : Alike t c c') (w : Int) :
    Alike t { c with connRecvWindow := w } { c' with connRecvWindow := w } := by
  obtain ⟨v, rfl⟩ := h.rest
  exact ⟨⟨v, rfl⟩, h.slot, h.output⟩

/-- **A DATA frame.** The handler ignores that a refill of the connection window does not fit the
output; then RST_STREAM will not fit either. -/
theorem Alike.processData (hc : Inv c) (hc' : Inv c') (h : Alike t c c') (header : FrameHeader)
    (payload : List UInt8) :
    Follows t (c.processData header payload) (c'.processData header payload)
      ∨ (t.lax ∧ (c.processData header payload).1 = .streamClosed
        ∧ ¬ Fits (c.processData header payload).2
          (rstStreamFrame header.streamId .streamClosed)) := by
  have hrecv : c'.connRecvWindow = c.connRecvWindow := by
    obtain ⟨v, rfl⟩ := h.rest
    rfl
  rcases hparse : parseData header payload with ret | parsed
  · rw [Connection.processData, Connection.processData, hparse]
    exact Or.inl (Follows.pair _ h)
  · rcases hfind : c.findStream header.streamId with _ | pos
    · rw [Connection.processData, Connection.processData, hparse, h.findStream, hfind]
      exact Or.inl (Follows.pair _ h)
    · have hslot := h.slot pos
      rw [processData_eq hc hparse hfind,
        processData_eq hc' hparse ((h.findStream _).trans hfind), hrecv, hslot.state,
        hslot.recvWindow]
      by_cases hlow : c.connRecvWindow < header.length
      · rw [if_pos hlow, if_pos hlow]
        exact Or.inl (Follows.pair _ h)
      · rw [if_neg hlow, if_neg hlow]
        have hcharged := h.charge (c.connRecvWindow - header.length)
        -- the states and the windows are the same, so both take the same branch
        by_cases hst : (c.streams pos).state ≠ .opened ∧ (c.streams pos).state ≠ .halfClosedLocal
        · rw [if_pos hst, if_pos hst]
          have hinv : Inv { c with connRecvWindow := c.connRecvWindow - header.length } :=
            charged_inv hc (not_lt.mp hlow)
          rcases hcharged.refreshRecvWindows none with ⟨-, hstate⟩ | ⟨hlax, hcode⟩
          · exact Or.inl (Follows.pair _ hstate)
          · refine Or.inr ⟨hlax, rfl, fun hfit => ?_⟩
            rw [refreshRecvWindows_room_ok hinv hfit] at hcode
            cases hcode
        · rw [if_neg hst, if_neg hst]
          by_cases hsr : (c.streams pos).recvWindow < header.length
          · rw [if_pos hsr, if_pos hsr]
            exact Or.inl (Follows.pair _ hcharged)
          · rw [if_neg hsr, if_neg hsr]
            -- the slots are equal unless the stream is closed
            have hopen : (c.streams pos).state ≠ .closed := by
              intro hclosed
              rw [hclosed] at hst
              exact hst ⟨by decide, by decide⟩
            rw [← hslot.eq hopen]
            exact Or.inl ((hcharged.setStream (Or.inl rfl)).refreshRecvWindows _)

/-! ## The other frames -/

/-- Credit that arrives for a closed stream at `pos` does not overflow the window of its slot. -/
def CreditFits (c : Connection) (header : FrameHeader) (payload : List UInt8)
    (pos : Fin connMaxStreams) : Prop :=
  ∀ increment, parseWindowUpdate header payload = .ok increment →
    c.findStream header.streamId = some pos → (c.streams pos).state = .closed →
      (c.streams pos).sendWindow + increment ≤ int32Max

theorem Alike.processWindowUpdate (h : Alike t c c') {header : FrameHeader}
    {payload : List UInt8} (hfits : ∀ pos, t.loose pos → c'.CreditFits header payload pos) :
    Follows t (c.processWindowUpdate header payload) (c'.processWindowUpdate header payload) := by
  rcases hparse : parseWindowUpdate header payload with ret | increment
  · rw [Connection.processWindowUpdate, Connection.processWindowUpdate, hparse]
    exact Follows.pair _ h
  · rw [processWindowUpdate_eq _ hparse, processWindowUpdate_eq _ hparse]
    by_cases hid : header.streamId = 0
    · obtain ⟨v, rfl⟩ := h.rest
      rw [if_pos hid, if_pos hid, show (c.withView v).connSendWindow = c.connSendWindow from rfl]
      by_cases hmax : c.connSendWindow + increment > int32Max
      · rw [if_pos hmax, if_pos hmax]
        exact Follows.pair _ h
      · rw [if_neg hmax, if_neg hmax]
        refine Alike.flushDeferredResponses ?_
        exact ⟨⟨v, rfl⟩, h.slot, h.output⟩
    · rw [if_neg hid, if_neg hid, h.findStream]
      rcases hfind : c.findStream header.streamId with _ | pos
      · exact Follows.pair _ h
      · simp only
        -- only the send windows of closed streams may differ
        rcases h.slot pos with heq | ⟨hloose, hclosed, hle, heq⟩
        · rw [← heq]
          by_cases hmax : (c.streams pos).sendWindow + increment > int32Max
          · rw [if_pos hmax, if_pos hmax]
            exact Follows.pair _ h
          · rw [if_neg hmax, if_neg hmax]
            exact (h.setStream (Or.inl rfl)).flushDeferredResponses
        · -- the window of a closed stream overflows in neither connection
          have hmax' : ¬ (c'.streams pos).sendWindow + increment > int32Max :=
            not_lt.mpr (hfits pos hloose increment hparse ((h.findStream _).trans hfind)
              ((h.slot pos).state.trans hclosed))
          have hmax : ¬ (c.streams pos).sendWindow + increment > int32Max := by omega
          have hshift : SlotAlike t pos ((c.streams pos).shift increment)
              ((c'.streams pos).shift increment) := by
            refine Or.inr ⟨hloose, hclosed, ?_, ?_⟩
            · simp only [Stream.shift]
              omega
            · rw [heq]
              rfl
          rw [if_neg hmax, if_neg hmax']
          exact (h.setStream hshift).flushDeferredResponses

theorem Alike.processRstStream (h : Alike t c c') (header : FrameHeader) (payload : List UInt8) :
    Follows t (c.processRstStream header payload) (c'.processRstStream header payload) := by
  have hlast : c'.lastStreamId = c.lastStreamId := by
    obtain ⟨v, rfl⟩ := h.rest
    rfl
  unfold Connection.processRstStream
  rcases parseRstStream header payload with ret | code
  · exact Follows.pair _ h
  · simp only [h.findStream, hlast]
    rcases c.findStream header.streamId with _ | pos
    · simp only
      split_ifs <;> exact Follows.pair _ h
    · simp only [(h.slot pos).close]
      exact Follows.pair _ (h.setStream (Or.inl rfl))

theorem Alike.processPing (h : Alike t c c') (header : FrameHeader) (payload : List UInt8) :
    Follows t (c.processPing header payload) (c'.processPing header payload) := by
  unfold Connection.processPing
  rcases parsePing header payload with ret | opaqueData
  · exact Follows.pair _ h
  · simp only
    split
    · exact Follows.pair _ h
    · exact h.queueWire _

theorem Alike.resetStreamError (h : Alike t c c') (streamId : Nat) (errorCode : ErrorCode) :
    Follows t (c.resetStreamError streamId errorCode) (c'.resetStreamError streamId errorCode) := by
  unfold Connection.resetStreamError
  refine (h.queueWire _).andThen fun d d' hd => ?_
  rw [h.findStream]
  rcases c.findStream streamId with _ | pos
  · exact Follows.pair _ hd
  · simp only [(hd.slot pos).close]
    exact Follows.pair _ (hd.setStream (Or.inl rfl))

/-! ## A whole frame -/

theorem Alike.admits (h : Alike t c c') (f : Frame) : c'.Admits f ↔ c.Admits f := by
  obtain ⟨v, rfl⟩ := h.rest
  exact Iff.rfl

/-- A frame that does not pass the checks is rejected by both connections. -/
theorem Alike.processFrame_rejected (h : Alike t c c') {f : Frame} (hno : ¬ c.Admits f) :
    Follows t (c.processFrame f.header f.payload) (c'.processFrame f.header f.payload) := by
  obtain ⟨v, rfl⟩ := h.rest
  rw [Admits, not_and_or, not_le, not_not] at hno
  unfold processFrame
  rw [Frame.header_length, Frame.header_type, Frame.header_streamId]
  by_cases hlen : f.payload.length > c.maxFrameSize
  · have hlen' : f.payload.length > (c.withView v).maxFrameSize := hlen
    rw [if_pos hlen, if_pos hlen']
    exact Follows.pair _ h
  · have hlen' : ¬ f.payload.length > (c.withView v).maxFrameSize := hlen
    have hblock := hno.resolve_left hlen
    have hblock' : (c.withView v).headerBlockOpen = true
        ∧ (f.type ≠ FrameType.continuation.toByte
          ∨ f.streamId ≠ (c.withView v).headerBlockStreamId) := hblock
    rw [if_neg hlen, if_pos hblock, if_neg hlen', if_pos hblock']
    exact Follows.pair _ h

theorem Alike.processFrame (hc : Inv c) (hc' : Inv c') (h : Alike t c c') {f : Frame}
    (hfits : ∀ pos, t.loose pos → c'.CreditFits f.header f.payload pos) :
    Follows t (c.processFrame f.header f.payload) (c'.processFrame f.header f.payload)
      ∨ (t.lax ∧ (c.processFrame f.header f.payload).1 = .streamClosed
        ∧ ¬ Fits (c.processFrame f.header f.payload).2
          (rstStreamFrame f.streamId .streamClosed)) := by
  by_cases hadmits : c.Admits f
  · have hadmits' := (h.admits f).mpr hadmits
    rcases htype : FrameType.ofByte? f.type with _ | ty
    · rw [processFrame_unknown hadmits htype, processFrame_unknown hadmits' htype]
      exact Or.inl (Follows.pair _ h)
    · have ht := FrameType.ofByte?_eq_some htype
      rw [processFrame_handler hadmits ht, processFrame_handler hadmits' ht]
      cases ty with
      | data => exact h.processData hc hc' _ _
      | headers => exact Or.inl (h.processHeaders _ _)
      | priority =>
          refine Or.inl ?_
          unfold handler
          rcases parsePriority f.header f.payload with ret | priority <;> exact Follows.pair _ h
      | rstStream => exact Or.inl (h.processRstStream _ _)
      | settings => exact Or.inl (h.applySettings _ _)
      | pushPromise => exact Or.inl (Follows.pair _ h)
      | ping => exact Or.inl (h.processPing _ _)
      | goaway => exact Or.inl (Follows.pair _ h)
      | windowUpdate => exact Or.inl (h.processWindowUpdate hfits)
      | continuation => exact Or.inl (h.processContinuation _ _)
  · exact Or.inl (h.processFrame_rejected hadmits)

/-- **Alike connections handle a frame alike**, if the first accepts it where it may run out of
room, and if credit for closed streams overflows no window of the second. -/
theorem Alike.handleFrame (hc : Inv c) (hc' : Inv c') (h : Alike t c c') {f : Frame}
    (hfits : ∀ pos, t.loose pos → c'.CreditFits f.header f.payload pos)
    (hok : t.lax → (c.handleFrame f).1 = .ok) :
    (c.handleFrame f).1 = (c'.handleFrame f).1
      ∧ Alike t (c.handleFrame f).2 (c'.handleFrame f).2 := by
  have hproc := h.processFrame hc hc' hfits
  obtain ⟨es, hacts, -⟩ := processFrame_acts hc f
  rcases hres : c.processFrame f.header f.payload with ⟨ret, d⟩
  rcases hres' : c'.processFrame f.header f.payload with ⟨ret', d'⟩
  rw [hres, hres'] at hproc
  rw [hres] at hacts
  rcases hproc with (⟨hcode, hd⟩ | ⟨hlax, hcode⟩) | ⟨hlax, hcode, hroom⟩
  · obtain rfl : ret = ret' := hcode
    -- the handlers agree: what follows depends on the code and on the room
    by_cases hret : ret = .ok
    · subst hret
      rw [handleFrame_ok hres, handleFrame_ok hres']
      exact ⟨rfl, hd⟩
    · by_cases hreset : isStreamError ret = true ∧ f.streamId ≠ 0
      · rw [handleFrame_reset hres hreset.1 hreset.2] at hok ⊢
        rw [handleFrame_reset hres' hreset.1 hreset.2]
        refine (hd.resetStreamError f.streamId ret).left fun hlax hcode => ?_
        rw [hok hlax] at hcode
        cases hcode
      · rw [handleFrame_goaway hres hret hreset] at hok ⊢
        rw [handleFrame_goaway hres' hret hreset]
        rcases hd.queueGoaway ret with ⟨-, hstate⟩ | ⟨hlax, -⟩
        · exact ⟨rfl, hstate⟩
        · exact absurd (hok hlax) hret
  · -- the first has run out of room, and does not accept the frame
    obtain rfl : ret = .internalError := hcode
    have hfail := hok hlax
    rw [handleFrame_goaway hres (by decide) fun h => by cases h.1] at hfail
    cases hfail
  · -- there is no room for RST_STREAM
    obtain rfl : ret = .streamClosed := hcode
    have hfail := hok hlax
    by_cases h0 : f.streamId = 0
    · rw [handleFrame_goaway hres (by decide) fun h => h.2 h0] at hfail
      cases hfail
    · rw [handleFrame_reset hres rfl h0, resetStreamError_eq (hacts.inv hc) h0,
        if_neg hroom] at hfail
      cases hfail

end Connection

end C11Omo.Http2
