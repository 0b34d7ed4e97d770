import C11Omo.Http2.Chunking
import C11Omo.Http2.Deferred
import C11Omo.Http2.IdleStreams

set_option autoImplicit false

/-! # Credit for closed streams

A closed stream stays in its slot until a new stream takes it over, and
`h2_connection_process_window_update` finds it there: the credit goes to the window of the dead
slot. It can be seen in three ways. The window overflows, now or with a later WINDOW_UPDATE frame
for the same stream, or the flush behind the credit sends a response that SETTINGS has left
waiting. Otherwise the connection goes on as if the frame had not been received
(`closed_windowUpdate_ignored`).
-/

namespace C11Omo.Http2

open C11Omo.Lib Connection

/-! ## Runs from alike connections -/

/-- The windows of closed streams in the slot at `pos` may differ, and nothing else. -/
def quiet (pos : Fin connMaxStreams) : Tolerance where
  loose := fun i => i = pos
  near := fun p p' => p = p'
  lax := False
  near_push := fun _ h => by rw [h]
  near_length := fun h => h ▸ le_rfl
  near_room := fun h => Or.inr (h ▸ le_rfl)

/-- Credit for the closed stream at `pos` has overflowed no window so far. -/
def CreditsFit (pos : Fin connMaxStreams) (steps : List FrameStep) : Prop :=
  ∀ st ∈ steps, st.before.CreditFits st.frame.header st.frame.payload pos

namespace Connection

variable {c c' : Connection} {pos : Fin connMaxStreams}

theorem Alike.withInput {t : Tolerance} (h : Alike t c c') (input : List UInt8) :
    Alike t { c with input := input } { c' with input := input } := by
  obtain ⟨v, rfl⟩ := h.rest
  exact ⟨⟨v, rfl⟩, h.slot, h.output⟩

theorem Alike.feedLoop (hc : Inv c) (hc' : Inv c') (h : Alike (quiet pos) c c') (fuel : Nat)
    (hfits : CreditsFit pos (c'.loopSteps fuel)) :
    (c.feedLoop fuel).1 = (c'.feedLoop fuel).1
      ∧ Alike (quiet pos) (c.feedLoop fuel).2 (c'.feedLoop fuel).2 := by
  induction fuel generalizing c c' with
  | zero => exact ⟨rfl, h⟩
  | succ fuel ih =>
      have hinput : c'.input = c.input := by
        obtain ⟨v, rfl⟩ := h.rest
        rfl
      rw [loopSteps, hinput] at hfits
      rw [Connection.feedLoop, Connection.feedLoop]
      rcases hcut : cutFrame c.input with _ | ⟨f, rest⟩
      · rw [feedStep_of_cut_none hcut, feedStep_of_cut_none (hinput ▸ hcut)]
        exact ⟨rfl, h⟩
      · simp only [hcut] at hfits
        have hfirst := hfits _ List.mem_cons_self
        obtain ⟨hcode, hstate⟩ := h.handleFrame hc hc' (f := f)
          (fun i hi => by rw [show i = pos from hi]; exact hfirst) False.elim
        rw [feedStep_of_cut hc hcut, feedStep_of_cut hc' (hinput ▸ hcut), hcode]
        by_cases hok : (c'.handleFrame f).1 = .ok
        · rw [if_pos hok] at hfits
          rw [if_pos hok, if_pos hok]
          refine ih { handleFrame_inv hc f with } { handleFrame_inv hc' f with }
            (hstate.withInput rest) fun st hst => ?_
          exact hfits st (List.mem_cons_of_mem _ hst)
        · rw [if_neg hok, if_neg hok]
          exact ⟨rfl, hstate⟩

theorem feed_seen (hc : Inv c) (hseen : c.prefaceSeen = true) (data : List UInt8) :
    (c.feed data).2.prefaceSeen = true := by
  by_cases hbig : data.length > connInputCap - c.input.length
  · rw [Connection.feed, if_pos hbig]
    exact hseen
  · rw [(feed_of_seen hseen hbig).1]
    exact @feedLoop_seen { c with input := c.input ++ data } { hc with } hseen _

/-- **One call of `feed` on alike connections.** -/
theorem Alike.feed (hc : Inv c) (hc' : Inv c') (h : Alike (quiet pos) c c')
    (hseen : c.prefaceSeen = true) {data : List UInt8}
    (hfits : CreditsFit pos (c'.feedSteps data)) :
    (c.feed data).1 = (c'.feed data).1
      ∧ Alike (quiet pos) (c.feed data).2 (c'.feed data).2 := by
  have hsame : c'.input = c.input ∧ c'.prefaceSeen = c.prefaceSeen := by
    obtain ⟨v, rfl⟩ := h.rest
    exact ⟨rfl, rfl⟩
  by_cases hbig : data.length > connInputCap - c.input.length
  · rw [Connection.feed, Connection.feed, if_pos hbig, hsame.1, if_pos hbig]
    exact ⟨rfl, h⟩
  · have hfed' := @feed_of_seen c' (hsame.2.trans hseen) data (by rw [hsame.1]; exact hbig)
    rw [hsame.1] at hfed'
    rw [hfed'.2] at hfits
    rw [(feed_of_seen hseen hbig).1, hfed'.1]
    have hinv : Inv { c with input := c.input ++ data } := { hc with }
    have hinv' : Inv { c' with input := c.input ++ data } := { hc' with }
    exact (h.withInput (c.input ++ data)).feedLoop hinv hinv' _ hfits

theorem Alike.consume (hc : Inv c) (hc' : Inv c') (h : Alike (quiet pos) c c') (sentLen : Nat) :
    Alike (quiet pos) (c.consumeOutput sentLen) (c'.consumeOutput sentLen) := by
  have hout : c.pending = c'.pending := h.output
  rw [pending, pending, hc.output_sent, hc'.output_sent, List.drop_zero, List.drop_zero] at hout
  rw [consumeOutput_eq hc.output_sent, consumeOutput_eq hc'.output_sent]
  obtain ⟨v, hv⟩ := h.rest
  refine ⟨⟨{ v with output := c'.output.drop sentLen }, ?_⟩, h.slot, ?_⟩
  · rw [hv]
    rfl
  · show (c.output.drop sentLen).drop c.outputSent = (c'.output.drop sentLen).drop c'.outputSent
    rw [hout, hc.output_sent, hc'.output_sent]

end Connection

/-- A run from a connection on. -/
def resume (c : Connection) : Run :=
  { conn := c, received := [], sent := [], steps := [], codes := [] }

/-- Two runs have returned the same codes and produced the same bytes. -/
def SameAnswers (r r' : Run) : Prop := r.codes = r'.codes ∧ r.total = r'.total

theorem call_steps (r : Run) (op : Op) {st : FrameStep} (hst : st ∈ r.steps) :
    st ∈ (r.call op).steps := by
  cases op with
  | feed data => exact List.mem_append_left _ hst
  | consume sentLen => exact hst

theorem calls_steps (r : Run) (ops : List Op) {st : FrameStep} (hst : st ∈ r.steps) :
    st ∈ (r.calls ops).steps := by
  induction ops generalizing r with
  | nil => exact hst
  | cons op ops ih => exact ih (r.call op) (call_steps r op hst)

/-- **Runs from alike connections give the same answers**, as long as credit for the closed stream
fits. -/
theorem calls_alike {pos : Fin connMaxStreams} {r r' : Run} (hg : Good r.toObs)
    (hg' : Good r'.toObs) (h : Alike (quiet pos) r.conn r'.conn)
    (hseen : r.conn.prefaceSeen = true) (hcodes : r.codes = r'.codes) (hsent : r.sent = r'.sent)
    {ops : List Op} (hfits : CreditsFit pos (r'.calls ops).steps) :
    SameAnswers (r.calls ops) (r'.calls ops) := by
  induction ops generalizing r r' with
  | nil =>
      refine ⟨hcodes, ?_⟩
      show r.sent ++ r.conn.pending = r'.sent ++ r'.conn.pending
      rw [hsent, show r.conn.pending = r'.conn.pending from h.output]
  | cons op ops ih =>
      have hnext := call_good hg op
      have hnext' := call_good hg' op
      cases op with
      | feed data =>
          have hnow : CreditsFit pos (r'.conn.feedSteps data) := fun st hst =>
            hfits st (calls_steps _ ops (List.mem_append_right _ hst))
          obtain ⟨hcode, hstate⟩ := h.feed hg.inv hg'.inv hseen hnow
          refine ih hnext hnext' hstate (feed_seen hg.inv hseen data) ?_ hsent hfits
          show r.codes ++ _ = r'.codes ++ _
          rw [hcodes, hcode]
      | consume sentLen =>
          have hpend : r.conn.pending = r'.conn.pending := h.output
          refine ih hnext hnext' (h.consume hg.inv hg'.inv sentLen) ?_ hcodes ?_ hfits
          · show (r.conn.consumeOutput sentLen).prefaceSeen = true
            rw [consumeOutput_eq hg.inv.output_sent]
            exact hseen
          · show r.sent ++ _ = r'.sent ++ _
            rw [hsent, hpend]

/-! ## The flush behind the credit -/

theorem Does.output_le {c : Connection} {r : ErrorCode × Connection} (h : Does c r) :
    c.output.length ≤ r.2.output.length := by
  obtain ⟨es, hes, -⟩ := h
  rw [hes.output, List.length_append]
  exact Nat.le_add_right _ _

namespace Connection

variable {c : Connection} {pos : Fin connMaxStreams}

/-- A deferred response that is still blocked stays as it is. -/
theorem queueDeferredData_blocked (hc : Inv c) (hcan : (c.streams pos).CanSend)
    (hd : (c.streams pos).responseBodyDeferred = true) (hb : c.Blocked pos) :
    c.queueDeferredData pos (responseBody (c.streams pos).path) = (.ok, c) := by
  have hself : { c.streams pos with responseBodyDeferred := true } = c.streams pos := by
    rw [← hd]
  rw [queueDeferredData_eq hc hcan, if_pos hb, hself, setStream_self]

/-- Without a response that could be sent a flush does nothing. -/
theorem flushDeferredLoop_of_ready (hc : Inv c) (hr : c.Ready) (ps : List (Fin connMaxStreams)) :
    flushDeferredLoop ps c = (.ok, c) := by
  induction ps with
  | nil => rfl
  | cons pos rest ih =>
      rw [flushDeferredLoop]
      by_cases hd : live (c.streams pos) ∧ (c.streams pos).responseBodyDeferred
      · obtain ⟨hst, -⟩ := (hc.slot pos).deferred hd.2
        rw [if_pos hd, queueResponse_deferred hc hd.2,
          queueDeferredData_blocked hc ⟨(live_iff.mp hd.1).1, hst⟩ hd.2 (hr pos hd.1 hd.2)]
        exact ih
      · rw [if_neg hd]
        exact ih

/-- A flush that succeeds and appends nothing has done nothing. -/
theorem flushDeferredLoop_silent (hc : Inv c) {ps : List (Fin connMaxStreams)}
    (hok : (flushDeferredLoop ps c).1 = .ok)
    (hout : (flushDeferredLoop ps c).2.output = c.output) : (flushDeferredLoop ps c).2 = c := by
  induction ps with
  | nil => rfl
  | cons pos rest ih =>
      rw [flushDeferredLoop] at hok hout ⊢
      -- only a slot with a response in waiting is touched, and a blocked one is left as it is
      by_cases hd : live (c.streams pos) ∧ (c.streams pos).responseBodyDeferred
      · obtain ⟨hst, hhead, hbody, hpath⟩ := (hc.slot pos).deferred hd.2
        have hcan : (c.streams pos).CanSend := ⟨(live_iff.mp hd.1).1, hst⟩
        rw [if_pos hd, queueResponse_deferred hc hd.2] at hok hout ⊢
        by_cases hb : c.Blocked pos
        · rw [queueDeferredData_blocked hc hcan hd.2 hb] at hok hout ⊢
          exact ih hok hout
        · have hfirst := queueDeferredData_does hc hcan hhead hbody hpath
          rw [queueDeferredData_eq hc hcan, if_neg hb] at hok hout hfirst
          by_cases hfit : c.Fits (c.dataFrame pos)
          · -- the response is sent, and the output has grown
            rw [if_pos hfit] at hok hout hfirst
            rw [andThen_ok] at hout
            have hgrown := (flushDeferredLoop_does (hfirst.inv hc) rest).output_le
            rw [hout] at hgrown
            have hlen : ((c.push (c.dataFrame pos)).answered pos
                (responseBody (c.streams pos).path).length).output
                  = c.output ++ (c.dataFrame pos).wire := rfl
            rw [hlen, List.length_append, Frame.wire_length] at hgrown
            simp only [frameHeaderLen] at hgrown
            omega
          · rw [if_neg hfit, andThen_err (by decide)] at hok
            cases hok
      · rw [if_neg hd] at hok hout ⊢
        exact ih hok hout

/-- **A flush that succeeds appends nothing exactly if no response could be sent.** -/
theorem flushDeferredResponses_silent_iff (hc : Inv c) :
    (c.flushDeferredResponses.1 = .ok ∧ c.flushDeferredResponses.2.output = c.output)
      ↔ c.Ready := by
  constructor
  · rintro ⟨hok, hout⟩
    have hready := flushDeferredResponses_ready hc hok
    rwa [show c.flushDeferredResponses.2 = c from flushDeferredLoop_silent hc hok hout] at hready
  · intro hr
    rw [flushDeferredResponses, flushDeferredLoop_of_ready hc hr]
    exact ⟨rfl, rfl⟩

end Connection

/-! ## The windows of closed streams -/

/-- A closed stream has no debts: its window starts at zero and is only credited. -/
def ClosedWindows (c : Connection) : Prop :=
  ∀ pos, (c.streams pos).state = .closed → 0 ≤ (c.streams pos).sendWindow

theorem Act.closedWindows {c c' : Connection} {es : List Event} (h : Act c es c')
    (htorn : Event.torn ∉ es) (hw : ClosedWindows c) : ClosedWindows c' := by
  have hset : ∀ {d : Connection} {pos : Fin connMaxStreams} {s : Stream}, ClosedWindows d →
      (s.state = .closed → 0 ≤ s.sendWindow) → ClosedWindows (d.setStream pos s) :=
    fun hd hs => setStream_forall (P := fun s => s.state = .closed → 0 ≤ s.sendWindow) hd hs
  cases h with
  | control f hf hroom => exact hw
  | recvConn w hr => exact hw
  | recvStream pos w hr => exact hset hw (hw pos)
  | openSlot pos streamId hfree hodd hlast hlt =>
      exact hset (d := c) hw fun hclosed => by cases hclosed
  | path pos p hidle hlen htext => exact hset hw (hw pos)
  | request pos endStream hidle =>
      refine hset hw fun hclosed => ?_
      cases endStream <;> cases hclosed
  | sendHeaders pos hcan hnew hroom => exact hset (d := c.push _) hw (hw pos)
  | defer pos hcan hhead hbody hpath hblocked => exact hset hw (hw pos)
  -- `h2_stream_close` sets the window to zero
  | sendData pos hcan hhead hbody hpath hconn hstream hroom =>
      refine hset hw fun hclosed => ?_
      rcases hcan.2 with hst | hst
      · simp [push, Stream.sendEndStream, hst] at hclosed
      · simp [push, Stream.sendEndStream, hst, Stream.close]
  | endRemote pos hopen => exact hset hw fun hclosed => by cases hclosed
  | close pos => exact hset hw fun _ => le_refl 0
  | creditConn increment hmax => exact hw
  -- credit for a dead slot only raises its window
  | creditStream pos increment hid hmax =>
      refine hset hw fun hclosed => ?_
      have hold := hw pos hclosed
      simp only
      omega
  | resize value hvalue hrange =>
      intro pos hclosed
      simp only [resizeWindows] at hclosed ⊢
      by_cases hlive : live (c.streams pos) = true
      · rw [if_pos hlive] at hclosed
        exact absurd hclosed (live_iff.mp hlive).2
      · rw [if_neg hlive] at hclosed ⊢
        exact hw pos hclosed
  | shiftOne pos w hr => exact absurd (List.mem_singleton.mpr rfl) htorn
  | maxFrame size hsize => exact hw
  | block isOpen streamId flags bytes => exact hw

theorem exec_closedWindows {ops : List Op} (hok : (exec ops).AllOk) :
    ClosedWindows (exec ops).conn := by
  refine exec_history_ok (R := fun hist c => Event.torn ∉ hist → ClosedWindows c)
    (fun h _ _ _ _ _ _ htorn => h htorn) (fun _ pos hclosed => by cases hclosed) ?_ hok
    (torn_notMem_history _)
  intro hist c es c' hc hact hw htorn
  rw [List.mem_append, not_or] at htorn
  exact hact.closedWindows htorn.2 (hw htorn.1)

/-! ## WINDOW_UPDATE on a closed stream -/

/-- The increment of a WINDOW_UPDATE frame. -/
def Frame.credit (f : Frame) : Nat :=
  match parseWindowUpdate f.header f.payload with
  | .ok increment => increment
  | .error _ => 0

/-- A well-formed WINDOW_UPDATE frame for a stream. -/
def Frame.Credits (f : Frame) (streamId : Nat) : Prop :=
  f.type = FrameType.windowUpdate.toByte ∧ f.streamId = streamId
    ∧ parseWindowUpdate f.header f.payload = .ok f.credit

/-- The increments of some frames. -/
def creditOf (fs : List Frame) : Nat := (fs.map Frame.credit).sum

namespace Connection

variable {c : Connection} {pos : Fin connMaxStreams} {streamId : Nat}

/-- Credit for the stream in a slot. -/
def credited (c : Connection) (pos : Fin connMaxStreams) (n : Nat) : Connection :=
  c.setStream pos ((c.streams pos).shift n)

theorem credited_streams (c : Connection) (pos : Fin connMaxStreams) (n : Nat) :
    (c.credited pos n).streams pos = (c.streams pos).shift n := setStream_streams_self _ _ _

theorem credited_zero (c : Connection) (pos : Fin connMaxStreams) : c.credited pos 0 = c := by
  have hself : (c.streams pos).shift (0 : Nat) = c.streams pos := by simp [Stream.shift]
  rw [credited, hself, setStream_self]

theorem credited_credited (c : Connection) (pos : Fin connMaxStreams) (m n : Nat) :
    (c.credited pos m).credited pos n = c.credited pos (m + n) := by
  have hsum : ((c.streams pos).shift m).shift n = (c.streams pos).shift ((m + n : Nat) : Int) := by
    simp [Stream.shift, Int.add_assoc]
  rw [credited, credited_streams, hsum, credited, setStream_setStream, credited]

/-- The slot of a closed stream, in a connection that may receive a frame for it. -/
structure DeadSlot (c : Connection) (streamId : Nat) (pos : Fin connMaxStreams) : Prop where
  inv : Inv c
  block : c.headerBlockOpen = false
  id : (c.streams pos).id = streamId
  ne_zero : streamId ≠ 0
  closed : (c.streams pos).state = .closed

theorem DeadSlot.find (h : DeadSlot c streamId pos) : c.findStream streamId = some pos := by
  obtain ⟨i, hi⟩ := exists_findStream h.id
  have hid : (c.streams i).id = streamId := findStream_eq_some hi
  have hpos : i = pos := by
    refine h.inv.id_inj i pos ?_ (hid.trans h.id.symm)
    rw [hid]
    exact h.ne_zero
  rw [hi, hpos]

theorem DeadSlot.credited (h : DeadSlot c streamId pos) {n : Nat}
    (hmax : (c.streams pos).sendWindow + n ≤ int32Max) : DeadSlot (c.credited pos n) streamId pos where
  inv := (Act.creditStream c pos n (by rw [h.id]; exact h.ne_zero) hmax).inv h.inv
  block := h.block
  id := by
    rw [credited_streams]
    exact h.id
  ne_zero := h.ne_zero
  closed := by
    rw [credited_streams]
    exact h.closed

/-- Credit for a closed stream unblocks nothing. -/
theorem DeadSlot.ready_credited (h : DeadSlot c streamId pos) (n : Nat) :
    (c.credited pos n).Ready ↔ c.Ready := by
  refine forall_congr' fun i => ?_
  by_cases hi : i = pos
  · subst hi
    have hdead : ¬ live (c.streams i) = true := fun hl => (live_iff.mp hl).2 h.closed
    have hdead' : ¬ live ((c.credited i n).streams i) = true := by
      rw [credited_streams]
      exact hdead
    exact ⟨fun _ hl => absurd hl hdead, fun _ hl => absurd hl hdead'⟩
  · rw [ReadyAt, ReadyAt, Blocked, Blocked, Connection.credited, setStream_streams_ne c hi]
    exact Iff.rfl

theorem DeadSlot.processFrame (h : DeadSlot c streamId pos) {f : Frame} (hf : f.Credits streamId) :
    c.processFrame f.header f.payload
      = if (c.streams pos).sendWindow + f.credit > int32Max then (.flowControlError, c)
        else (c.credited pos f.credit).flushDeferredResponses := by
  obtain ⟨ht, hid, hparse⟩ := hf
  have hlen : f.payload.length = 4 := parseWindowUpdate_length hparse
  have hadmits : c.Admits f := by
    refine ⟨?_, fun hopen => absurd (h.block.symm.trans hopen.1) (by decide)⟩
    rw [hlen]
    exact Nat.le_trans (by decide) h.inv.max_frame.1
  have hfind : c.findStream f.header.streamId = some pos := by
    rw [Frame.header_streamId, hid]
    exact h.find
  rw [processFrame_handler hadmits ht, handler, processWindowUpdate_eq c hparse,
    Frame.header_streamId, if_neg (by rw [hid]; exact h.ne_zero), ← Frame.header_streamId, hfind]
  rfl

/-- Without a response that could be sent, credit that fits is all that the frame does. -/
theorem DeadSlot.handleFrame_eq (h : DeadSlot c streamId pos) {f : Frame} (hf : f.Credits streamId)
    (hr : c.Ready) (hmax : (c.streams pos).sendWindow + f.credit ≤ int32Max) :
    c.handleFrame f = (.ok, c.credited pos f.credit) := by
  have hproc := h.processFrame hf
  rw [if_neg (not_lt.mpr hmax), flushDeferredResponses,
    flushDeferredLoop_of_ready (h.credited hmax).inv ((h.ready_credited _).mpr hr)] at hproc
  exact handleFrame_ok hproc

/-- **One frame**: it is accepted and appends nothing exactly if the credit fits and no response
could be sent. -/
theorem DeadSlot.handleFrame_iff (h : DeadSlot c streamId pos) {f : Frame} (hf : f.Credits streamId) :
    ((c.handleFrame f).1 = .ok ∧ (c.handleFrame f).2.output = c.output)
      ↔ c.Ready ∧ (c.streams pos).sendWindow + f.credit ≤ int32Max := by
  constructor
  · rintro ⟨hok, hout⟩
    have hproc := h.processFrame hf
    by_cases hmax : (c.streams pos).sendWindow + f.credit > int32Max
    · rw [if_pos hmax] at hproc
      rw [handleFrame_goaway hproc (by decide) fun herr => by cases herr.1] at hok
      cases hok
    · have hinv := (h.credited (not_lt.mp hmax)).inv
      have hsilent := flushDeferredResponses_silent_iff hinv
      rw [if_neg hmax] at hproc
      rcases hres : (c.credited pos f.credit).flushDeferredResponses with ⟨ret, d⟩
      rw [hres] at hproc hsilent
      have hcode : ret = .ok ∨ ret = .internalError := by
        have hloop := flushDeferredLoop_code hinv (List.finRange connMaxStreams)
        rw [flushDeferredResponses] at hres
        rwa [hres] at hloop
      rcases hcode with rfl | rfl
      · rw [handleFrame_ok hproc] at hout
        exact ⟨(h.ready_credited _).mp (hsilent.mp ⟨rfl, hout⟩), not_lt.mp hmax⟩
      · rw [handleFrame_goaway hproc (by decide) fun herr => by cases herr.1] at hok
        cases hok
  · rintro ⟨hr, hmax⟩
    rw [h.handleFrame_eq hf hr hmax]
    exact ⟨rfl, rfl⟩

/-- The output only grows. -/
theorem handleFrames_output_le (hc : Inv c) (fs : List Frame) :
    c.output.length ≤ (c.handleFrames fs).2.output.length := by
  induction fs generalizing c with
  | nil => exact le_refl _
  | cons f fs ih =>
      have hframe := frameStep_output hc f
      have hle : c.output.length ≤ (c.handleFrame f).2.output.length := by
        rw [hframe, List.length_append]
        exact Nat.le_add_right _ _
      have hinv := handleFrame_inv hc f
      rw [handleFrames_cons]
      rcases hres : c.handleFrame f with ⟨ret, d⟩
      rw [hres] at hle hinv
      by_cases hret : ret = .ok
      · subst hret
        exact hle.trans (ih hinv)
      · rw [andThen_err hret]
        exact hle

theorem DeadSlot.handleFrames_eq (h : DeadSlot c streamId pos) {fs : List Frame}
    (hfs : ∀ f ∈ fs, f.Credits streamId) (hr : c.Ready)
    (hmax : (c.streams pos).sendWindow + creditOf fs ≤ int32Max) :
    c.handleFrames fs = (.ok, c.credited pos (creditOf fs)) := by
  induction fs generalizing c with
  | nil =>
      show (ErrorCode.ok, c) = _
      rw [show creditOf [] = 0 from rfl, credited_zero]
  | cons f fs ih =>
      have hsum : creditOf (f :: fs) = f.credit + creditOf fs := by simp [creditOf]
      rw [hsum] at hmax ⊢
      have hfirst : (c.streams pos).sendWindow + f.credit ≤ int32Max := by omega
      rw [handleFrames_cons, h.handleFrame_eq (hfs f List.mem_cons_self) hr hfirst, andThen_ok,
        ← credited_credited]
      refine ih (h.credited hfirst) (fun g hg => hfs g (List.mem_cons_of_mem _ hg))
        ((h.ready_credited _).mpr hr) ?_
      rw [credited_streams]
      simp only [Stream.shift]
      omega

/-- **Frames in a row** are accepted and append nothing exactly if all the credit fits and no
response could be sent. -/
theorem DeadSlot.handleFrames_iff (h : DeadSlot c streamId pos) {fs : List Frame}
    (hfs : ∀ f ∈ fs, f.Credits streamId) :
    ((c.handleFrames fs).1 = .ok ∧ (c.handleFrames fs).2.output = c.output)
      ↔ fs = [] ∨ (c.Ready ∧ (c.streams pos).sendWindow + creditOf fs ≤ int32Max) := by
  constructor
  · intro hsilent
    induction fs generalizing c with
    | nil => exact Or.inl rfl
    | cons f fs ih =>
        obtain ⟨hok, hout⟩ := hsilent
        have hf := hfs f List.mem_cons_self
        have hsum : creditOf (f :: fs) = f.credit + creditOf fs := by simp [creditOf]
        have hinv := handleFrame_inv h.inv f
        have hgrown := frameStep_output h.inv f
        have hiff := h.handleFrame_iff hf
        have heq := h.handleFrame_eq hf
        rw [handleFrames_cons] at hok hout
        rcases hres : c.handleFrame f with ⟨ret, d⟩
        rw [hres] at hok hout hinv hgrown hiff heq
        by_cases hret : ret = .ok
        · subst hret
          rw [andThen_ok] at hok hout
          -- the output never shrinks, so the first frame has appended nothing either
          have hle := handleFrames_output_le hinv fs
          rw [hout, hgrown, List.length_append] at hle
          have hnil : wireOf (c.frameStep f).queued = [] := List.length_eq_zero_iff.mp (by omega)
          rw [hnil, List.append_nil] at hgrown
          obtain ⟨hr, hmax⟩ := hiff.mp ⟨rfl, hgrown⟩
          obtain rfl : d = c.credited pos f.credit := (Prod.mk.inj (heq hr hmax)).2
          refine Or.inr ⟨hr, ?_⟩
          rw [hsum]
          rcases ih (h.credited hmax) (fun g hg => hfs g (List.mem_cons_of_mem _ hg))
            ⟨hok, hout⟩ with rfl | ⟨-, hrest⟩
          · simpa [creditOf] using hmax
          · rw [credited_streams] at hrest
            simp only [Stream.shift] at hrest
            omega
        · rw [andThen_err hret] at hok
          exact absurd hok hret
  · rintro (rfl | ⟨hr, hmax⟩)
    · exact ⟨rfl, rfl⟩
    · rw [h.handleFrames_eq hfs hr hmax]
      exact ⟨rfl, rfl⟩

/-! ## What can be seen of it -/

/-- A stream that has been closed: it has no slot any more, or the slot is closed. -/
def ClosedStream (c : Connection) (streamId : Nat) : Prop :=
  streamId % 2 = 1 ∧ streamId ≤ c.lastStreamId
    ∧ ∀ pos, (c.streams pos).id = streamId → (c.streams pos).state = .closed

instance (c : Connection) (streamId : Nat) : Decidable (c.ClosedStream streamId) :=
  inferInstanceAs (Decidable (_ ∧ _))

/-- The slot of the stream has been given to another one. -/
def Reclaimed (c : Connection) (streamId : Nat) : Prop := ∀ pos, (c.streams pos).id ≠ streamId

instance (c : Connection) (streamId : Nat) : Decidable (c.Reclaimed streamId) :=
  inferInstanceAs (Decidable (∀ _, _))

/-- Every chunk is accepted, and nothing is appended to the output. -/
def Silent (c : Connection) (chunks : List (List UInt8)) : Prop :=
  (c.feeds chunks).1 = .ok ∧ (c.feeds chunks).2.output = c.output

/-- After the chunks the run goes on as if they had not been received, and neither had what they
complete in the input. -/
def SameLater (c : Connection) (chunks : List (List UInt8)) (ops : List Op) : Prop :=
  SameAnswers ((resume { c with input := [] }).calls ops) ((resume (c.feeds chunks).2).calls ops)

/-- **The chunks cannot be noticed**, now or later. -/
def Unnoticed (c : Connection) (chunks : List (List UInt8)) : Prop :=
  c.Silent chunks ∧ ∀ ops, c.SameLater chunks ops

/-- Chunks that make up some frames. -/
theorem feeds_frames (hc : Inv c) (hseen : c.prefaceSeen = true) (hstop : cutFrame c.input = none)
    {fs : List Frame} {chunks : List (List UInt8)} (hwire : c.input ++ chunks.flatten = wireOf fs)
    (hfit : c.FeedsFit chunks) : Delivers (c.feeds chunks) (c.handleFrames fs) [] := by
  have hcut : ∀ (f : Frame) (tail : List UInt8), frameFraming.cut (f.wire ++ tail) = some (f, tail) :=
    cutFrame_wire
  have hsplit : frameFraming.split (wireOf fs) = (fs, []) := frameFraming.split_flatMap hcut fs
  have hfed := feeds_delivers hc hseen hstop hfit
  rwa [hwire, hsplit] at hfed

/-- Frames that change nothing are not noticed. -/
theorem unnoticed_of_still {fs : List Frame} {chunks : List (List UInt8)}
    (hfed : Delivers (c.feeds chunks) (c.handleFrames fs) [])
    (hstill : c.handleFrames fs = (.ok, c)) : c.Unnoticed chunks := by
  have hok : (c.feeds chunks).1 = .ok := by rw [hfed.code, hstill]
  have hstate : (c.feeds chunks).2 = { c with input := [] } := by
    rw [hfed.state, hfed.rest hok, hstill]
  refine ⟨⟨hok, by rw [hstate]⟩, fun ops => ?_⟩
  rw [SameLater, hstate]
  exact ⟨rfl, rfl⟩

/-- Without a slot nothing is credited. -/
theorem handleFrames_reclaimed (hc : Inv c) (hblock : c.headerBlockOpen = false)
    (h0 : streamId ≠ 0) (hgone : c.Reclaimed streamId) {fs : List Frame}
    (hfs : ∀ f ∈ fs, f.Credits streamId) : c.handleFrames fs = (.ok, c) := by
  induction fs with
  | nil => rfl
  | cons f fs ih =>
      obtain ⟨ht, hid, hparse⟩ := hfs f List.mem_cons_self
      have hlen : f.payload.length = 4 := parseWindowUpdate_length hparse
      have hadmits : c.Admits f := by
        refine ⟨?_, fun hopen => absurd (hblock.symm.trans hopen.1) (by decide)⟩
        rw [hlen]
        exact Nat.le_trans (by decide) hc.max_frame.1
      rw [handleFrames_cons, handleFrame_windowUpdate_untracked hadmits ht hparse
        (by rw [hid]; exact h0) (by rw [hid]; exact hgone), andThen_ok]
      exact ih fun g hg => hfs g (List.mem_cons_of_mem _ hg)

theorem windowUpdateFrame_credits {n : Nat} (h0 : n ≠ 0) (hn : n < 2 ^ 31)
    (hid : streamId < 2 ^ 31) : (windowUpdateFrame streamId n).Credits streamId
      ∧ (windowUpdateFrame streamId n).credit = n := by
  have hpay : (windowUpdateFrame streamId n).payload = writeU32 n :=
    Frame.of_payload (by simp [maxFrameSizeLimit]) _ _ _
  have hread : readU31 (windowUpdateFrame streamId n).payload = n := by
    have h := readU31_writeU32 n []
    rw [List.append_nil, Nat.mod_eq_of_lt hn] at h
    rw [hpay, h]
  have hparse : parseWindowUpdate (windowUpdateFrame streamId n).header
      (windowUpdateFrame streamId n).payload = .ok n := by
    have htype : (windowUpdateFrame streamId n).header.type = FrameType.windowUpdate.toByte := rfl
    have hlen : (windowUpdateFrame streamId n).header.length = 4 := by
      rw [Frame.header_length, hpay]
      rfl
    have hvalid : validatePayload (windowUpdateFrame streamId n).header = .ok := by
      rw [validatePayload, htype, FrameType.ofByte?_toByte, hlen]
      rfl
    rw [parseWindowUpdate, if_neg (not_not.mpr htype), if_neg (not_not.mpr hvalid), hread, if_neg h0]
  have hcredit : (windowUpdateFrame streamId n).credit = n := by rw [Frame.credit, hparse]
  refine ⟨⟨rfl, Frame.of_streamId hid _ _ _, ?_⟩, hcredit⟩
  rw [hparse, hcredit]

theorem resume_good (hc : Inv c) (hseen : c.prefaceSeen = true) (hnil : c.input = []) :
    Good (resume c).toObs :=
  ⟨hc, by rw [show (resume c).conn.input = [] from hnil]; exact Nat.zero_le _, .of_seen hseen⟩

section DeadSlot

variable {fs : List Frame} {chunks : List (List UInt8)}

theorem DeadSlot.silent_iff (h : DeadSlot c streamId pos) (hfs : ∀ f ∈ fs, f.Credits streamId)
    (hfed : Delivers (c.feeds chunks) (c.handleFrames fs) []) :
    c.Silent chunks
      ↔ fs = [] ∨ (c.Ready ∧ (c.streams pos).sendWindow + creditOf fs ≤ int32Max) := by
  have hout : (c.feeds chunks).2.output = (c.handleFrames fs).2.output := by rw [hfed.state]
  rw [Silent, hfed.code, hout]
  exact h.handleFrames_iff hfs

/-- Credit that is accepted is all that the chunks leave behind. -/
theorem DeadSlot.feeds_eq (h : DeadSlot c streamId pos) (hfs : ∀ f ∈ fs, f.Credits streamId)
    (hfed : Delivers (c.feeds chunks) (c.handleFrames fs) []) (hsilent : c.Silent chunks) :
    (c.feeds chunks).2 = { c.credited pos (creditOf fs) with input := [] } := by
  have hhandled : c.handleFrames fs = (.ok, c.credited pos (creditOf fs)) := by
    rcases (h.silent_iff hfs hfed).mp hsilent with rfl | ⟨hr, hmax⟩
    · rw [show creditOf [] = 0 from rfl, credited_zero]
      rfl
    · exact h.handleFrames_eq hfs hr hmax
  rw [hfed.state, hfed.rest hsilent.1, hhandled]

/-- **Accepted credit is not noticed later**, as long as the window of the dead slot does not
overflow. -/
theorem DeadSlot.sameLater (h : DeadSlot c streamId pos) (hseen : c.prefaceSeen = true)
    (hfs : ∀ f ∈ fs, f.Credits streamId)
    (hfed : Delivers (c.feeds chunks) (c.handleFrames fs) []) (hsilent : c.Silent chunks)
    {ops : List Op} (hfits : CreditsFit pos ((resume (c.feeds chunks).2).calls ops).steps) :
    c.SameLater chunks ops := by
  have hiff := h.silent_iff hfs hfed
  have hinv : Inv (c.credited pos (creditOf fs)) := by
    rcases hiff.mp hsilent with rfl | ⟨-, hmax⟩
    · rw [show creditOf [] = 0 from rfl, credited_zero]
      exact h.inv
    · exact (h.credited hmax).inv
  -- the two connections differ in the send window of the dead slot alone
  have halike : Alike (quiet pos) { c with input := [] }
      { c.credited pos (creditOf fs) with input := [] } := by
    refine ⟨⟨⟨(c.credited pos (creditOf fs)).streams, c.output, c.outputSent⟩, rfl⟩, fun i => ?_,
      rfl⟩
    by_cases hi : i = pos
    · subst hi
      refine Or.inr ⟨rfl, h.closed, ?_, ?_⟩
      · rw [show ({ c.credited i (creditOf fs) with input := [] } : Connection).streams i
          = (c.streams i).shift (creditOf fs) from credited_streams c i _]
        simp only [Stream.shift]
        omega
      · rw [show ({ c.credited i (creditOf fs) with input := [] } : Connection).streams i
          = (c.streams i).shift (creditOf fs) from credited_streams c i _]
        rfl
    · exact Or.inl (setStream_streams_ne c hi _).symm
  rw [SameLater]
  rw [h.feeds_eq hfs hfed hsilent] at hfits ⊢
  have hgood : Good (resume { c with input := [] }).toObs := resume_good { h.inv with } hseen rfl
  have hgood' : Good (resume { c.credited pos (creditOf fs) with input := [] }).toObs :=
    resume_good { hinv with } hseen rfl
  exact calls_alike hgood hgood' halike hseen rfl rfl hfits

/-- **Credit for a dead slot can always be noticed later**: one more frame that the window would
have covered overflows it. -/
theorem DeadSlot.noticed (h : DeadSlot c streamId pos) (hseen : c.prefaceSeen = true)
    (hwindow : 0 ≤ (c.streams pos).sendWindow) (hne : fs ≠ [])
    (hfs : ∀ f ∈ fs, f.Credits streamId)
    (hfed : Delivers (c.feeds chunks) (c.handleFrames fs) []) : ¬ c.Unnoticed chunks := by
  rintro ⟨hsilent, hlater⟩
  obtain ⟨hr, hmax⟩ := ((h.silent_iff hfs hfed).mp hsilent).resolve_left hne
  -- the frames bring some credit
  have hsome : 0 < creditOf fs := by
    obtain ⟨f, rest, rfl⟩ := List.exists_cons_of_ne_nil hne
    have hcredit := (parseWindowUpdate_ok (hfs f List.mem_cons_self).2.2).1
    simp only [creditOf, List.map_cons, List.sum_cons]
    omega
  simp only [int32Max] at hmax
  -- a frame that fills the window of the slot as it was before
  obtain ⟨n, hn⟩ : ∃ n : Nat, (n : Int) = 2147483647 - (c.streams pos).sendWindow :=
    ⟨(2147483647 - (c.streams pos).sendWindow).toNat, by omega⟩
  have hid : streamId < 2 ^ 31 := by
    rw [← h.id]
    exact h.inv.id_lt pos
  obtain ⟨hcredits, hcredit⟩ := @windowUpdateFrame_credits streamId n (by omega) (by omega) hid
  have hfit : (windowUpdateFrame streamId n).wire.length ≤ connInputCap := by
    rw [windowUpdateFrame_wire_length]
    decide
  have hcodes := (hlater [.feed (windowUpdateFrame streamId n).wire]).1
  rw [h.feeds_eq hfs hfed hsilent] at hcodes
  have hlast : ∀ {d : Connection}, Inv d → d.prefaceSeen = true →
      ((resume { d with input := [] }).calls [.feed (windowUpdateFrame streamId n).wire]).codes
        = [(d.handleFrame (windowUpdateFrame streamId n)).1] := by
    intro d hd hdseen
    have hdone := @feed_completes { d with input := [] } { hd with } hdseen
      (windowUpdateFrame streamId n).wire (windowUpdateFrame streamId n) (List.nil_append _) hfit
    rw [handleFrame_withInput] at hdone
    exact congrArg (fun code => [code]) hdone.code
  have hdead := h.credited (n := creditOf fs) (by simp only [int32Max]; omega)
  have hbefore := h.handleFrame_eq hcredits hr (by rw [hcredit]; simp only [int32Max]; omega)
  have hafter := hdead.processFrame hcredits
  rw [hcredit, credited_streams, if_pos (by simp only [Stream.shift, int32Max]; omega)] at hafter
  rw [hlast h.inv hseen, hlast hdead.inv hseen, hbefore,
    handleFrame_goaway hafter (by decide) fun herr => by cases herr.1] at hcodes
  cases hcodes

end DeadSlot

end Connection

/-- **WINDOW_UPDATE on a closed stream**, in a state without errors and outside a header block. The
frames, in whatever chunks they arrive, cannot be noticed exactly if the slot of the stream has been
reclaimed or there are none. With the slot still there they are accepted and append nothing exactly
if the window of the dead slot does not overflow and no response could be sent; and then the run
goes on as without them as long as that window does not overflow later. -/
theorem closed_windowUpdate_ignored {ops : List Op} (hok : (exec ops).AllOk)
    (hblock : (exec ops).conn.headerBlockOpen = false) {streamId : Nat}
    (hclosed : (exec ops).conn.ClosedStream streamId) {fs : List Frame}
    (hfs : ∀ f ∈ fs, f.Credits streamId) {chunks : List (List UInt8)}
    (hwire : (exec ops).conn.input ++ chunks.flatten = wireOf fs)
    (hfit : (exec ops).conn.FeedsFit chunks) :
    ((exec ops).conn.Unnoticed chunks ↔ fs = [] ∨ (exec ops).conn.Reclaimed streamId)
      ∧ ∀ pos, ((exec ops).conn.streams pos).id = streamId →
        ((exec ops).conn.Silent chunks
            ↔ fs = [] ∨ ((exec ops).conn.Ready
              ∧ ((exec ops).conn.streams pos).sendWindow + creditOf fs ≤ int32Max))
          ∧ ((exec ops).conn.Silent chunks → ∀ later,
              CreditsFit pos ((resume ((exec ops).conn.feeds chunks).2).calls later).steps →
                (exec ops).conn.SameLater chunks later) := by
  have hc := (exec_good ops).inv
  have hwindows := exec_closedWindows hok
  have hstop := (exec_stop hok).1
  have hseen : (exec ops).conn.prefaceSeen = true := by
    by_contra hno
    have hinit := ((exec_mirrored hok).unseen (by simpa using hno)).1
    have hlast := hclosed.2.1
    rw [hinit] at hlast
    have hzero : streamId = 0 := Nat.le_zero.mp hlast
    have hodd := hclosed.1
    rw [hzero] at hodd
    cases hodd
  generalize (exec ops).conn = c at *
  have hfed := feeds_frames hc hseen (hstop hseen) hwire hfit
  have h0 : streamId ≠ 0 := by
    intro hzero
    have hodd := hclosed.1
    rw [hzero] at hodd
    cases hodd
  -- a closed stream has a dead slot, or none at all
  have hdead : ∀ pos, (c.streams pos).id = streamId → DeadSlot c streamId pos := fun pos hid =>
    ⟨hc, hblock, hid, h0, hclosed.2.2 pos hid⟩
  refine ⟨⟨fun hunnoticed => ?_, ?_⟩, fun pos hid => ?_⟩
  · -- with a slot and a frame, a continuation that fills the window tells the difference
    by_contra hno
    obtain ⟨hne, hthere⟩ := not_or.mp hno
    obtain ⟨pos, hpos⟩ := not_forall.mp hthere
    have hid := not_not.mp hpos
    exact (hdead pos hid).noticed hseen (hwindows pos (hdead pos hid).closed) hne hfs hfed hunnoticed
  · rintro (rfl | hgone)
    · exact unnoticed_of_still hfed rfl
    · exact unnoticed_of_still hfed (handleFrames_reclaimed hc hblock h0 hgone hfs)
  · exact ⟨(hdead pos hid).silent_iff hfs hfed,
      fun hsilent later hfits => (hdead pos hid).sameLater hseen hfs hfed hsilent hfits⟩

/-- A request that has been answered: its stream is closed, and still in its slot. -/
def answeredRequest : List Op := [.feed (clientInput [getRequest 1])]

/-- The slot of an answered request has been given to the next one. -/
theorem closed_windowUpdate_ignored_reclaimed :
    (exec [.feed (clientInput [getRequest 1, getRequest 3])]).conn.Unnoticed
      [(windowUpdateFrame 1 7).wire] := by
  have hok : (exec [.feed (clientInput [getRequest 1, getRequest 3])]).AllOk := by decide +kernel
  have hclosed : (exec [.feed (clientInput [getRequest 1, getRequest 3])]).conn.ClosedStream 1 := by
    decide +kernel
  have hgone : (exec [.feed (clientInput [getRequest 1, getRequest 3])]).conn.Reclaimed 1 := by
    decide +kernel
  have hfs : ∀ f ∈ [windowUpdateFrame 1 7], f.Credits 1 := by
    intro f hf
    rw [List.mem_singleton.mp hf]
    exact (windowUpdateFrame_credits (by decide) (by decide) (by decide)).1
  have hfit : (exec [.feed (clientInput [getRequest 1, getRequest 3])]).conn.FeedsFit
      [(windowUpdateFrame 1 7).wire] := And.intro (by decide +kernel) fun _ => trivial
  exact (closed_windowUpdate_ignored hok (by decide +kernel) hclosed hfs (by decide +kernel)
    hfit).1.mpr (Or.inr hgone)

/-- Two frames fill the window of a dead slot. -/
theorem closed_windowUpdate_overflows : (exec answeredRequest).AllOk
    ∧ (exec answeredRequest).conn.headerBlockOpen = false
    ∧ (exec answeredRequest).conn.ClosedStream 1
    ∧ ((exec answeredRequest).conn.feeds
      [(windowUpdateFrame 1 0x7fffffff).wire, (windowUpdateFrame 1 1).wire]).1
        = .flowControlError := by
  decide +kernel

end C11Omo.Http2
