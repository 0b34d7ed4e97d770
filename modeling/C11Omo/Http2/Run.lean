import C11Omo.Http2.Handlers

set_option autoImplicit false

/-! # Runs

A run is a sequence of `h2_connection_feed` and `h2_connection_consume_output` calls on a fresh
connection (`exec`). Beside the connection a `Run` records what can be seen from outside: the
bytes fed, the bytes consumed, the return codes, and every frame that was handled with the states
before and after it (`FrameStep`).

One call of `feed` handles many frames. For proofs it is cut into small steps (`Micro`): bytes
arrive, the preface is read, one frame is handled, output is consumed. `exec_invariant` and
`exec_invariant_ok` are the induction rules for all runs and for runs without errors.
-/

namespace C11Omo.Http2

open C11Omo.Lib

namespace Connection

variable {c : Connection}

/-! ## A frame does not depend on what is behind it -/

theorem processFrame_append (c : Connection) (f : Frame) (tail : List UInt8) :
    c.processFrame f.header (f.payload ++ tail) = c.processFrame f.header f.payload := by
  have hlen : f.payload.length = f.header.length := rfl
  rw [processFrame, processFrame, processData, processData, parseData_append hlen, processHeaders,
    processHeaders, parseHeaders_append hlen, parsePriority_frame_append hlen, processRstStream,
    processRstStream, parseRstStream_append hlen, applySettings, applySettings,
    parseSettings_append hlen, processPing, processPing, parsePing_append hlen,
    processWindowUpdate, processWindowUpdate, parseWindowUpdate_append hlen, processContinuation,
    processContinuation, parseContinuation_append hlen]

/-- What `h2_connection_feed` does with a frame before it removes it from the input. -/
def handleFrame (conn : Connection) (f : Frame) : ErrorCode × Connection :=
  match conn.processFrame f.header f.payload with
  | (.ok, conn) => (.ok, conn)
  | (ret, conn) =>
      if isStreamError ret ∧ f.streamId ≠ 0 then conn.resetStreamError f.streamId ret
      else (ret, (conn.queueGoaway ret).2)

theorem handleFrame_ok {c' : Connection} {f : Frame}
    (h : c.processFrame f.header f.payload = (.ok, c')) : c.handleFrame f = (.ok, c') := by
  rw [handleFrame, h]

theorem handleFrame_reset {c' : Connection} {f : Frame} {ret : ErrorCode}
    (h : c.processFrame f.header f.payload = (ret, c')) (hret : isStreamError ret = true)
    (h0 : f.streamId ≠ 0) : c.handleFrame f = c'.resetStreamError f.streamId ret := by
  have hne : ret ≠ .ok := by rintro rfl; cases hret
  rw [handleFrame, h]
  cases ret <;> first | exact absurd rfl hne | simp [hret, h0]

theorem handleFrame_goaway {c' : Connection} {f : Frame} {ret : ErrorCode}
    (h : c.processFrame f.header f.payload = (ret, c')) (hne : ret ≠ .ok)
    (hret : ¬ (isStreamError ret = true ∧ f.streamId ≠ 0)) :
    c.handleFrame f = (ret, (c'.queueGoaway ret).2) := by
  rw [handleFrame, h]
  cases ret <;> first | exact absurd rfl hne | exact if_neg hret

theorem resetStreamError_code (hc : Inv c) {streamId : Nat} (h0 : streamId ≠ 0)
    (errorCode : ErrorCode) : (c.resetStreamError streamId errorCode).1 = .ok
      ∨ c.resetStreamError streamId errorCode = (.internalError, c) := by
  rw [resetStreamError_eq hc h0]
  split
  · rcases c.findStream streamId with _ | pos <;> exact Or.inl rfl
  · exact Or.inr rfl

/-- **How a frame ends**: it is accepted, or its stream cannot be reset, or the connection
fails and a GOAWAY is due. -/
theorem handleFrame_spec (hc : Inv c) (f : Frame) : ∃ es c₁, Acts c es c₁ ∧
    ((c.handleFrame f = (.ok, c₁) ∧ ∃ q, es = frameEvents c f ++ q ∧ Queues q)
      ∨ c.handleFrame f = (.internalError, c₁)
      ∨ ∃ ret, ret ≠ .ok ∧ c.handleFrame f = (ret, (c₁.queueGoaway ret).2)) := by
  obtain ⟨es, hes, hq⟩ := processFrame_acts hc f
  rcases hres : c.processFrame f.header f.payload with ⟨ret, c₁⟩
  rw [hres] at hes hq
  by_cases hok : ret = .ok
  · subst hok
    obtain ⟨q, hev, hquiet⟩ := hq (Or.inl rfl)
    exact ⟨es, c₁, hes, Or.inl ⟨handleFrame_ok hres, q, hev, hquiet.queues⟩⟩
  · by_cases hreset : isStreamError ret = true ∧ f.streamId ≠ 0
    · obtain ⟨q, rfl, hquiet⟩ := hq (Or.inr hreset.1)
      obtain ⟨q', hq', hqueues⟩ := resetStreamError_acts (hes.inv hc) hreset.2 ret
      refine ⟨(frameEvents c f ++ q) ++ q', _, hes.trans hq', ?_⟩
      rw [handleFrame_reset hres hreset.1 hreset.2]
      rcases resetStreamError_code (hes.inv hc) hreset.2 ret with hcode | hcode
      · refine Or.inl ⟨Prod.ext hcode rfl, q ++ q', ?_, hquiet.queues.append hqueues⟩
        rw [List.append_assoc]
      · rw [hcode]
        exact Or.inr (Or.inl rfl)
    · exact ⟨es, c₁, hes, Or.inr (Or.inr ⟨ret, hok, handleFrame_goaway hres hok hreset⟩)⟩

/-- A frame that is accepted without a stream error has been accepted by its handler. -/
theorem handleFrame_of_ok {f : Frame} {t : FrameType} (ht : f.type = t.toByte)
    (hok : (c.handleFrame f).1 = .ok) (hstream : isStreamError (c.handler t f).1 = false) :
    c.Admits f ∧ (c.handler t f).1 = .ok ∧ c.handleFrame f = c.handler t f := by
  have hgo : ∀ {ret c'}, ret ≠ .ok → isStreamError ret = false →
      c.processFrame f.header f.payload = (ret, c') → (c.handleFrame f).1 ≠ .ok := by
    intro ret c' hne herr hres
    rw [handleFrame_goaway hres hne (by simp [herr])]
    exact hne
  by_cases hadmits : c.Admits f
  · have hproc := processFrame_handler hadmits ht
    rcases hres : c.handler t f with ⟨ret, c'⟩
    rw [hres] at hproc hstream
    by_cases hret : ret = .ok
    · subst hret
      exact ⟨hadmits, rfl, handleFrame_ok hproc⟩
    · exact absurd hok (hgo hret hstream hproc)
  · obtain ⟨ret, hret, heq⟩ := processFrame_rejected hadmits
    rcases hret with rfl | rfl
    · exact absurd hok (hgo (by decide) rfl heq)
    · exact absurd hok (hgo (by decide) rfl heq)

/-- `queue_goaway` keeps the invariant. -/
theorem queueGoaway_inv (hc : Inv c) (errorCode : ErrorCode) : Inv (c.queueGoaway errorCode).2 := by
  rw [queueGoaway_eq hc]
  split
  · exact hc
  · split
    · next hfit =>
        have hc' : Inv { c with goawaySent := true, goawayError := errorCode.toNat } := { hc with }
        exact hc'.push hfit
    · exact { hc with }

theorem handleFrame_inv (hc : Inv c) (f : Frame) : Inv (c.handleFrame f).2 := by
  obtain ⟨es, c₁, hes, ⟨h, -⟩ | h | ⟨ret, -, h⟩⟩ := handleFrame_spec hc f
  · rw [h]
    exact hes.inv hc
  · rw [h]
    exact hes.inv hc
  · rw [h]
    exact queueGoaway_inv (hes.inv hc) ret

theorem queueGoaway_input (hc : Inv c) (errorCode : ErrorCode) :
    (c.queueGoaway errorCode).2.input = c.input
      ∧ (c.queueGoaway errorCode).2.prefaceSeen = c.prefaceSeen := by
  rw [queueGoaway_eq hc]
  split
  · exact ⟨rfl, rfl⟩
  · split <;> exact ⟨rfl, rfl⟩

/-- No frame touches the input or the preface flag. -/
theorem handleFrame_input (hc : Inv c) (f : Frame) : (c.handleFrame f).2.input = c.input
    ∧ (c.handleFrame f).2.prefaceSeen = c.prefaceSeen := by
  obtain ⟨es, c₁, hes, ⟨h, -⟩ | h | ⟨ret, -, h⟩⟩ := handleFrame_spec hc f
  · rw [h]
    exact ⟨hes.sameFeed.input, hes.sameFeed.prefaceSeen⟩
  · rw [h]
    exact ⟨hes.sameFeed.input, hes.sameFeed.prefaceSeen⟩
  · rw [h]
    obtain ⟨hi, hp⟩ := queueGoaway_input (hes.inv hc) ret
    exact ⟨hi.trans hes.sameFeed.input, hp.trans hes.sameFeed.prefaceSeen⟩

/-! ## The loop of `feed` -/

theorem feedStep_of_cut_none (h : cutFrame c.input = none) : c.feedStep = .stop := by
  unfold cutFrame at h
  rw [feedStep]
  by_cases hlen : c.input.length < frameHeaderLen
  · rw [if_pos hlen]
  · rw [if_neg hlen]
    rcases hp : parseHeader c.input with ret | header
    · -- `parse_header` fails on short input only
      rw [parseHeader, if_neg hlen] at hp
      cases hp
    · rw [hp] at h
      simp only at h ⊢
      by_cases hw : frameHeaderLen + header.length > c.input.length
      · rw [if_pos hw]
      · rw [if_neg hw] at h
        cases h

/-- **One iteration of the loop handles the frame at the front of the input.** -/
theorem feedStep_of_cut (hc : Inv c) {f : Frame} {rest : List UInt8}
    (h : cutFrame c.input = some (f, rest)) : c.feedStep
      = if (c.handleFrame f).1 = .ok then .next { (c.handleFrame f).2 with input := rest }
        else .fail (c.handleFrame f).1 (c.handleFrame f).2 := by
  obtain ⟨hparse, hdrop, hlen, hrest⟩ := cutFrame_eq_some h
  have hinput := (handleFrame_input hc f).1
  have h1 : ¬ c.input.length < frameHeaderLen := by omega
  have h2 : ¬ frameHeaderLen + f.header.length > c.input.length := by
    rw [Frame.header_length]
    omega
  rw [feedStep, if_neg h1, hparse]
  simp only [if_neg h2]
  rw [hdrop, processFrame_append]
  -- the handlers leave the input alone, so what is dropped is the frame
  have hdone : ∀ c' : Connection, c'.input = c.input →
      c'.dropInput (frameHeaderLen + f.header.length) = { c' with input := rest } := by
    intro c' hc'
    rw [dropInput, hc', hrest, Frame.header_length]
  rcases hres : c.processFrame f.header f.payload with ⟨ret, c₁⟩
  -- the three ways in which `handleFrame` ends
  by_cases hok : ret = .ok
  · subst hok
    rw [handleFrame_ok hres] at hinput ⊢
    rw [if_pos rfl]
    simp only
    rw [hdone c₁ hinput]
  · by_cases hreset : isStreamError ret = true ∧ f.streamId ≠ 0
    · have hfin := handleFrame_reset hres hreset.1 hreset.2
      rw [hfin] at hinput ⊢
      have hcond : isStreamError ret = true ∧ f.header.streamId ≠ 0 := hreset
      -- a stream error goes on if RST_STREAM can be queued
      have hstep : (match (ret, c₁) with
          | (.ok, conn) => FeedStep.next (conn.dropInput (frameHeaderLen + f.header.length))
          | (ret, conn) =>
              if isStreamError ret ∧ f.header.streamId ≠ 0 then
                match conn.resetStreamError f.header.streamId ret with
                | (.ok, conn) => .next (conn.dropInput (frameHeaderLen + f.header.length))
                | (rstRet, conn) => .fail rstRet conn
              else .fail ret (conn.queueGoaway ret).2)
          = match c₁.resetStreamError f.streamId ret with
            | (.ok, conn) => .next (conn.dropInput (frameHeaderLen + f.header.length))
            | (rstRet, conn) => .fail rstRet conn := by
        cases ret <;> first | exact absurd rfl hok | exact if_pos hcond
      refine hstep.trans ?_
      rcases hrst : c₁.resetStreamError f.streamId ret with ⟨rstRet, c₂⟩
      rw [hrst] at hinput
      by_cases hrok : rstRet = .ok
      · subst hrok
        rw [if_pos rfl]
        simp only
        rw [hdone c₂ hinput]
      · rw [if_neg hrok]
        cases rstRet <;> first | exact absurd rfl hrok | rfl
    · rw [handleFrame_goaway hres hok hreset, if_neg hok]
      have hcond : ¬ (isStreamError ret = true ∧ f.header.streamId ≠ 0) := hreset
      cases ret <;> first | exact absurd rfl hok | exact if_neg hcond

/-- **The length of the input is enough fuel**: a loop that ends without an error leaves no
complete frame behind. -/
theorem feedLoop_stop {fuel : Nat} (hc : Inv c) (hfuel : c.input.length ≤ fuel)
    (hok : (c.feedLoop fuel).1 = .ok) : cutFrame (c.feedLoop fuel).2.input = none := by
  induction fuel generalizing c with
  | zero =>
      have hnil : c.input = [] := List.length_eq_zero_iff.mp (by omega)
      rw [feedLoop, hnil]
      rfl
  | succ fuel ih =>
      rw [feedLoop] at hok ⊢
      rcases hcut : cutFrame c.input with _ | ⟨f, rest⟩
      · rw [feedStep_of_cut_none hcut]
        exact hcut
      · have hlt : rest.length < c.input.length := frameFraming.cut_length_lt hcut
        rw [feedStep_of_cut hc hcut] at hok ⊢
        by_cases hframe : (c.handleFrame f).1 = .ok
        · rw [if_pos hframe] at hok ⊢
          have hc' : Inv { (c.handleFrame f).2 with input := rest } :=
            { handleFrame_inv hc f with }
          exact ih hc' (by simp only; omega) hok
        · rw [if_neg hframe] at hok
          exact absurd hok hframe

/-- **Feeding one frame** to a connection with no input pending. -/
theorem feed_frame (hc : Inv c) (hseen : c.prefaceSeen = true) (hnil : c.input = []) {f : Frame}
    (hfit : f.wire.length ≤ connInputCap) :
    c.feed f.wire
      = if ({ c with input := f.wire }.handleFrame f).1 = .ok then
          (.ok, { ({ c with input := f.wire }.handleFrame f).2 with input := [] })
        else { c with input := f.wire }.handleFrame f := by
  have hbig : ¬ f.wire.length > connInputCap - c.input.length := by
    rw [hnil, List.length_nil]
    omega
  have hc' : Inv { c with input := f.wire } := { hc with }
  have hcut : cutFrame ({ c with input := f.wire } : Connection).input = some (f, []) := by
    have hwire := cutFrame_wire f []
    rwa [List.append_nil] at hwire
  obtain ⟨fuel, hfuel⟩ : ∃ fuel, f.wire.length = fuel + 1 := by
    refine ⟨f.wire.length - 1, ?_⟩
    rw [Frame.wire_length, frameHeaderLen]
    omega
  rw [feed, if_neg hbig, hnil, List.nil_append]
  simp only [if_pos hseen]
  rw [hfuel, feedLoop, feedStep_of_cut hc' hcut]
  by_cases hok : ({ c with input := f.wire }.handleFrame f).1 = .ok
  · rw [if_pos hok, if_pos hok]
    -- nothing is left for the rest of the loop
    have hempty : ∀ c' : Connection, c'.input = [] → c'.feedLoop fuel = (.ok, c') := by
      intro c' hinput
      cases fuel with
      | zero => rfl
      | succ fuel =>
          have hstop : c'.feedStep = .stop := feedStep_of_cut_none (by rw [hinput]; rfl)
          rw [feedLoop, hstop]
    exact hempty _ rfl
  · rw [if_neg hok, if_neg hok]

end Connection

/-! ## Runs -/

/-- A frame that was handled, with the states before and after. The frame is still in the input
in both. -/
structure FrameStep where
  before : Connection
  frame : Frame
  code : ErrorCode
  after : Connection

namespace Connection

/-- Handle one frame and record it. -/
def frameStep (c : Connection) (f : Frame) : FrameStep :=
  { before := c, frame := f, code := (c.handleFrame f).1, after := (c.handleFrame f).2 }

/-- The frames that `feedLoop` handles. -/
def loopSteps : (fuel : Nat) → Connection → List FrameStep
  | 0, _ => []
  | fuel + 1, c =>
      match cutFrame c.input with
      | none => []
      | some (f, rest) =>
          c.frameStep f ::
            if (c.handleFrame f).1 = .ok then loopSteps fuel { (c.handleFrame f).2 with input := rest }
            else []

/-- The frames that one call of `feed` handles. -/
def feedSteps (c : Connection) (data : List UInt8) : List FrameStep :=
  if data.length > connInputCap - c.input.length then []
  else
    let c := { c with input := c.input ++ data }
    if c.prefaceSeen then loopSteps c.input.length c
    else if c.input.length < clientPrefaceLen then []
    else if c.feedPreface.1 = .ok then loopSteps c.feedPreface.2.input.length c.feedPreface.2
    else []

/-- A frame that fails gives the call its return code. -/
theorem loopSteps_code {c : Connection} (hc : Inv c) {fuel : Nat} {st : FrameStep}
    (hst : st ∈ c.loopSteps fuel) (herr : st.code ≠ .ok) :
    (c.feedLoop fuel).1 = st.code := by
  induction fuel generalizing c with
  | zero => cases hst
  | succ fuel ih =>
      rw [loopSteps] at hst
      rw [feedLoop]
      rcases hcut : cutFrame c.input with _ | ⟨f, rest⟩
      · simp only [hcut] at hst
        cases hst
      · simp only [hcut] at hst
        rw [feedStep_of_cut hc hcut]
        by_cases hok : (c.handleFrame f).1 = .ok
        · rw [if_pos hok] at hst ⊢
          rcases List.mem_cons.mp hst with rfl | hst
          · exact absurd hok herr
          · exact ih { handleFrame_inv hc f with } hst
        · rw [if_neg hok] at hst ⊢
          rw [List.mem_singleton.mp hst]
          rfl

end Connection

/-- What can be seen of a connection: its state, the bytes fed so far, the bytes consumed so far
and the frames handled so far. -/
structure Obs where
  conn : Connection
  received : List UInt8
  sent : List UInt8
  steps : List FrameStep

/-- The total output: the bytes consumed, then the bytes still pending. -/
def Obs.total (o : Obs) : List UInt8 := o.sent ++ o.conn.pending

/-- The frames of the total output. -/
def Obs.frames (o : Obs) : List Frame := framesOf o.total

/-- A run: what can be seen, and the return codes of `feed`. -/
structure Run extends Obs where
  codes : List ErrorCode

/-- A call of the interface. -/
inductive Op
  | feed (data : List UInt8)
  | consume (sentLen : Nat)

namespace Run

def start : Run :=
  { conn := Connection.init, received := [], sent := [], steps := [], codes := [] }

/-- One call. -/
def call (r : Run) : Op → Run
  | .feed data =>
      { conn := (r.conn.feed data).2
        received := r.received ++ data
        sent := r.sent
        steps := r.steps ++ r.conn.feedSteps data
        codes := r.codes ++ [(r.conn.feed data).1] }
  | .consume sentLen =>
      { r with
        conn := r.conn.consumeOutput sentLen
        sent := r.sent ++ r.conn.pending.take sentLen }

@[simp] theorem call_feed_conn (r : Run) (data : List UInt8) :
    (r.call (.feed data)).conn = (r.conn.feed data).2 := rfl

@[simp] theorem call_feed_sent (r : Run) (data : List UInt8) :
    (r.call (.feed data)).sent = r.sent := rfl

@[simp] theorem call_feed_codes (r : Run) (data : List UInt8) :
    (r.call (.feed data)).codes = r.codes ++ [(r.conn.feed data).1] := rfl

/-- Calls in a row. -/
def calls (r : Run) (ops : List Op) : Run := ops.foldl call r

/-- Every chunk that is fed in the calls is within the remaining input capacity. -/
def ChunksFit (r : Run) : List Op → Prop
  | [] => True
  | .feed data :: ops =>
      r.conn.input.length + data.length ≤ connInputCap ∧ (r.call (.feed data)).ChunksFit ops
  | .consume sentLen :: ops => (r.call (.consume sentLen)).ChunksFit ops

/-- Every `feed` has returned `H2_OK`. -/
def AllOk (r : Run) : Prop := ∀ code ∈ r.codes, code = .ok

instance (r : Run) : Decidable r.AllOk := inferInstanceAs (Decidable (∀ code ∈ r.codes, _))

end Run

/-- A run from the start. -/
def exec (ops : List Op) : Run := Run.start.calls ops

/-- What a client sends: the preface, then frames. -/
def clientInput (fs : List Frame) : List UInt8 := clientPreface ++ wireOf fs

/-- A request for `/` without a body, in one frame. -/
def getRequest (streamId : Nat) : Frame :=
  Frame.of FrameType.headers.toByte (flagEndHeaders ||| flagEndStream) streamId [0x84]

/-- A SETTINGS frame with one entry. -/
def settingsFrame (id value : Nat) : Frame :=
  Frame.of FrameType.settings.toByte 0 0 (writeU16 id ++ writeU32 value)

@[simp] theorem Run.calls_append (r : Run) (ops ops' : List Op) :
    r.calls (ops ++ ops') = (r.calls ops).calls ops' := List.foldl_append

theorem exec_append (ops ops' : List Op) : exec (ops ++ ops') = (exec ops).calls ops' :=
  Run.calls_append _ _ _

/-! ## Small steps -/

/-- Before the preface is complete nothing has been queued but a GOAWAY. -/
def Started (c : Connection) : Prop :=
  c.prefaceSeen = false → c.settingsSent = false ∧ c.output.length ≤ 17
    ∧ (c.goawaySent = false → c.output = [])

/-- The state invariant of all runs. -/
structure Good (o : Obs) : Prop where
  inv : Inv o.conn
  input_le : o.conn.input.length ≤ connInputCap
  started : Started o.conn

/-- The connection after a correct preface. -/
def Connection.greeted (c : Connection) : Connection :=
  { c.dropInput clientPrefaceLen with prefaceSeen := true, settingsSent := true }.push
    serverSettingsFrame

/-- A small step of a run. It is labelled with the return code of a `feed` that it ends with an
error. -/
inductive Micro : Obs → List ErrorCode → Obs → Prop
  /-- Output is consumed. -/
  | consume (o : Obs) (sentLen : Nat) :
      Micro o [] { o with
        conn := { o.conn with output := o.conn.output.drop sentLen }
        sent := o.sent ++ o.conn.output.take sentLen }
  /-- Bytes arrive. -/
  | arrive (o : Obs) (data : List UInt8)
      (hfit : o.conn.input.length + data.length ≤ connInputCap) :
      Micro o [] { o with
        conn := { o.conn with input := o.conn.input ++ data }
        received := o.received ++ data }
  /-- A chunk is too long for the input buffer. -/
  | refuse (o : Obs) (data : List UInt8)
      (hbig : connInputCap < o.conn.input.length + data.length) :
      Micro o [.internalError] { o with received := o.received ++ data }
  /-- The preface is complete. -/
  | preface (o : Obs) (hnew : o.conn.prefaceSeen = false)
      (hlen : clientPrefaceLen ≤ o.conn.input.length)
      (hpre : o.conn.input.take clientPrefaceLen = clientPreface) :
      Micro o [] { o with conn := o.conn.greeted }
  /-- The preface is wrong. -/
  | badPreface (o : Obs) (hnew : o.conn.prefaceSeen = false)
      (hlen : clientPrefaceLen ≤ o.conn.input.length)
      (hpre : o.conn.input.take clientPrefaceLen ≠ clientPreface) :
      Micro o [.protocolError] { o with conn := (o.conn.queueGoaway .protocolError).2 }
  /-- A frame is accepted. -/
  | frame (o : Obs) (f : Frame) (rest : List UInt8) (hseen : o.conn.prefaceSeen = true)
      (hcut : cutFrame o.conn.input = some (f, rest)) (hok : (o.conn.handleFrame f).1 = .ok) :
      Micro o [] { o with
        conn := { (o.conn.handleFrame f).2 with input := rest }
        steps := o.steps ++ [o.conn.frameStep f] }
  /-- A frame fails. -/
  | fail (o : Obs) (f : Frame) (rest : List UInt8) (hseen : o.conn.prefaceSeen = true)
      (hcut : cutFrame o.conn.input = some (f, rest)) (herr : (o.conn.handleFrame f).1 ≠ .ok) :
      Micro o [(o.conn.handleFrame f).1] { o with
        conn := (o.conn.handleFrame f).2
        steps := o.steps ++ [o.conn.frameStep f] }

theorem Started.of_seen {c : Connection} (h : c.prefaceSeen = true) : Started c := by
  intro h'
  rw [h] at h'
  cases h'

theorem serverSettingsFrame_wire_length : serverSettingsFrame.wire.length = 15 := by
  rw [Frame.wire_length, serverSettingsFrame, Frame.of_payload (by decide)]
  rfl

theorem goawayFrame_wire_length (lastStreamId : Nat) (errorCode : ErrorCode) :
    (goawayFrame lastStreamId errorCode).wire.length = 17 := by
  rw [Frame.wire_length, goawayFrame, Frame.of_payload (by simp [maxFrameSizeLimit])]
  simp [frameHeaderLen]

namespace Connection

variable {c : Connection}

/-- Before the preface is complete there is always room for a GOAWAY. -/
theorem queueGoaway_started (hc : Inv c) (hs : Started c) (errorCode : ErrorCode) :
    Started (c.queueGoaway errorCode).2 := by
  intro hseen
  rw [(queueGoaway_input hc errorCode).2] at hseen
  obtain ⟨hset, hlen, hnil⟩ := hs hseen
  rw [queueGoaway_eq hc]
  by_cases hg : c.goawaySent = true
  · rw [if_pos hg]
    exact ⟨hset, hlen, hnil⟩
  · have hout := hnil (by simpa using hg)
    rw [if_neg hg]
    split
    · refine ⟨hset, ?_, by simp [push]⟩
      show (c.output ++ (goawayFrame c.lastStreamId errorCode).wire).length ≤ 17
      rw [hout, List.nil_append, goawayFrame_wire_length]
    · exact ⟨hset, hlen, by simp⟩

theorem greeted_inv (hc : Inv c) (hlen : c.output.length ≤ 17) : Inv c.greeted := by
  have hc' : Inv { c.dropInput clientPrefaceLen with prefaceSeen := true, settingsSent := true } :=
    { hc with }
  refine hc'.push ?_
  rw [Fits, serverSettingsFrame_wire_length]
  simp only [dropInput, connOutputCap]
  omega

end Connection

/-- Every small step keeps the invariant. -/
theorem Micro.good {o o' : Obs} {es : List ErrorCode} (h : Micro o es o') (hg : Good o) :
    Good o' := by
  obtain ⟨hc, hin, hs⟩ := hg
  cases h with
  | consume sentLen =>
      -- the output only gets shorter
      have hle : (o.conn.output.drop sentLen).length ≤ o.conn.output.length := by simp
      refine ⟨{ hc with output_le := hle.trans hc.output_le }, hin, fun hseen => ?_⟩
      obtain ⟨hset, hlen, hnil⟩ := hs hseen
      refine ⟨hset, hle.trans hlen, fun hg => ?_⟩
      have hout := hnil hg
      simp [hout]
  | arrive data hfit =>
      refine ⟨{ hc with }, ?_, hs⟩
      show (o.conn.input ++ data).length ≤ connInputCap
      rwa [List.length_append]
  | refuse data hbig => exact ⟨hc, hin, hs⟩
  | preface hnew hlen hpre =>
      -- nothing but a GOAWAY has been queued before the preface
      refine ⟨Connection.greeted_inv hc (hs hnew).2.1, ?_, .of_seen rfl⟩
      show (o.conn.input.drop clientPrefaceLen).length ≤ connInputCap
      rw [List.length_drop]
      omega
  | badPreface hnew hlen hpre =>
      refine ⟨Connection.queueGoaway_inv hc _, ?_, Connection.queueGoaway_started hc hs _⟩
      show (o.conn.queueGoaway .protocolError).2.input.length ≤ connInputCap
      rw [(Connection.queueGoaway_input hc _).1]
      exact hin
  | frame f rest hseen hcut hok =>
      -- a frame is handled before it is removed from the input
      have hfeed := (Connection.handleFrame_input hc f).2
      have hlt : rest.length < o.conn.input.length := frameFraming.cut_length_lt hcut
      exact ⟨{ Connection.handleFrame_inv hc f with }, hlt.le.trans hin, .of_seen (hfeed.trans hseen)⟩
  | fail f rest hseen hcut herr =>
      obtain ⟨hinput, hfeed⟩ := Connection.handleFrame_input hc f
      refine ⟨Connection.handleFrame_inv hc f, ?_, .of_seen (hfeed.trans hseen)⟩
      show (o.conn.handleFrame f).2.input.length ≤ connInputCap
      rw [hinput]
      exact hin

/-! ## From calls to small steps -/

/-- A call is made of small steps: with a label if it fails, and without one otherwise. -/
def Made (o : Obs) (code : ErrorCode) (o' : Obs) : Prop :=
  ∃ es, Steps Micro o es o' ∧ (code = .ok ∧ es = [] ∨ code ≠ .ok ∧ es = [code])

theorem Made.refl (o : Obs) : Made o .ok o := ⟨[], .refl o, Or.inl ⟨rfl, rfl⟩⟩

theorem Made.after {o o' o'' : Obs} {code : ErrorCode} (h : Micro o [] o')
    (hm : Made o' code o'') : Made o code o'' := by
  obtain ⟨es, hes, hcode⟩ := hm
  exact ⟨[] ++ es, .head h hes, hcode⟩

theorem Made.error {o o' : Obs} {code : ErrorCode} (h : Micro o [code] o') (hne : code ≠ .ok) :
    Made o code o' := ⟨[code], .single h, Or.inr ⟨hne, rfl⟩⟩

theorem feedLoop_made {fuel : Nat} {o : Obs} (hg : Good o) (hseen : o.conn.prefaceSeen = true) :
    Made o (o.conn.feedLoop fuel).1 { o with
      conn := (o.conn.feedLoop fuel).2
      steps := o.steps ++ o.conn.loopSteps fuel } := by
  induction fuel generalizing o with
  | zero =>
      simp only [Connection.feedLoop, Connection.loopSteps, List.append_nil]
      exact .refl o
  | succ fuel ih =>
      rw [Connection.feedLoop, Connection.loopSteps]
      rcases hcut : cutFrame o.conn.input with _ | ⟨f, rest⟩
      · rw [Connection.feedStep_of_cut_none hcut]
        simp only [List.append_nil]
        exact .refl o
      · rw [Connection.feedStep_of_cut hg.inv hcut]
        by_cases hok : (o.conn.handleFrame f).1 = .ok
        · have hstep := Micro.frame o f rest hseen hcut hok
          have hrest := ih (hstep.good hg)
            ((Connection.handleFrame_input hg.inv f).2.trans hseen)
          simp only [if_pos hok]
          simp only [List.append_assoc, List.singleton_append] at hrest
          exact .after hstep hrest
        · simp only [if_neg hok]
          exact .error (.fail o f rest hseen hcut hok) hok

namespace Connection

variable {c : Connection}

theorem feedPreface_bad (hpre : c.input.take clientPrefaceLen ≠ clientPreface) :
    c.feedPreface = (.protocolError, (c.queueGoaway .protocolError).2) := by
  rw [feedPreface, if_pos hpre]

theorem feedPreface_good (hc : Inv c) (hs : Started c) (hnew : c.prefaceSeen = false)
    (hpre : c.input.take clientPrefaceLen = clientPreface) : c.feedPreface = (.ok, c.greeted) := by
  obtain ⟨hset, hlen, -⟩ := hs hnew
  have hc' : Inv { c.dropInput clientPrefaceLen with prefaceSeen := true } := { hc with }
  have hfit : Fits { c.dropInput clientPrefaceLen with prefaceSeen := true }
      serverSettingsFrame := by
    rw [Fits, serverSettingsFrame_wire_length]
    simp only [dropInput, connOutputCap]
    omega
  have hset' : ¬ (c.dropInput clientPrefaceLen).settingsSent = true := by
    show ¬ c.settingsSent = true
    simp [hset]
  rw [feedPreface, if_neg (not_not.mpr hpre)]
  simp only [if_neg hset']
  rw [queueSettings, encodeSettings_server_eq, queueWire_wire hc', if_pos hfit]
  rfl

/-- With nothing sent half way, consuming output drops it. -/
theorem consumeOutput_eq (h0 : c.outputSent = 0) (sentLen : Nat) :
    c.consumeOutput sentLen = { c with output := c.output.drop sentLen } := by
  have hpend : c.pending = c.output := by rw [pending, h0, List.drop_zero]
  rw [consumeOutput, hpend, h0, compactOutput]
  simp only [Nat.zero_add]
  by_cases hbig : sentLen > c.output.length
  · rw [if_pos hbig]
    have hdrop : c.output.drop sentLen = [] := List.drop_of_length_le (by omega)
    by_cases hnil : c.output.length = 0
    · have hout : c.output = [] := List.length_eq_zero_iff.mp hnil
      rw [if_pos hnil, hdrop]
      simp only [hnil, ← h0, ← hout]
    · rw [if_neg hnil, if_pos (Nat.le_refl _), hdrop, ← h0]
  · rw [if_neg hbig]
    by_cases hzero : sentLen = 0
    · rw [if_pos hzero, hzero, List.drop_zero, ← h0]
    · rw [if_neg hzero]
      by_cases hall : sentLen ≥ c.output.length
      · rw [if_pos hall, List.drop_of_length_le hall, ← h0]
      · rw [if_neg hall, ← h0]

end Connection

theorem preface_made {o : Obs} (hg : Good o) (hnew : o.conn.prefaceSeen = false)
    (hlen : clientPrefaceLen ≤ o.conn.input.length) :
    Made o (Connection.andThen o.conn.feedPreface fun c => c.feedLoop c.input.length).1 { o with
      conn := (Connection.andThen o.conn.feedPreface fun c => c.feedLoop c.input.length).2
      steps := o.steps ++
        if o.conn.feedPreface.1 = .ok then
          o.conn.feedPreface.2.loopSteps o.conn.feedPreface.2.input.length
        else [] } := by
  by_cases hpre : o.conn.input.take clientPrefaceLen = clientPreface
  · have hgood := Connection.feedPreface_good hg.inv hg.started hnew hpre
    have hstep := Micro.preface o hnew hlen hpre
    have hloop := @feedLoop_made o.conn.greeted.input.length _ (hstep.good hg) rfl
    simp only [hgood, Connection.andThen_ok, if_true]
    exact .after hstep hloop
  · have hbad := Connection.feedPreface_bad hpre
    have hstep := Micro.badPreface o hnew hlen hpre
    have herr : ErrorCode.protocolError ≠ .ok := by decide
    simp only [hbad, if_neg herr, List.append_nil]
    rw [Connection.andThen_err herr]
    exact .error hstep herr

theorem feed_made {o : Obs} (hg : Good o) (data : List UInt8) :
    Made o (o.conn.feed data).1 { o with
      conn := (o.conn.feed data).2
      received := o.received ++ data
      steps := o.steps ++ o.conn.feedSteps data } := by
  rw [Connection.feed, Connection.feedSteps]
  by_cases hbig : data.length > connInputCap - o.conn.input.length
  · simp only [if_pos hbig, List.append_nil]
    exact .error (.refuse o data (by omega)) (by decide)
  · have hin := hg.input_le
    have harrive := Micro.arrive o data (by omega)
    have hg' := harrive.good hg
    simp only [if_neg hbig]
    refine .after harrive ?_
    by_cases hseen : o.conn.prefaceSeen = true
    · simp only [if_pos hseen]
      exact feedLoop_made hg' hseen
    · have hnew : o.conn.prefaceSeen = false := by simpa using hseen
      simp only [if_neg hseen]
      by_cases hlen : (o.conn.input ++ data).length < clientPrefaceLen
      · simp only [if_pos hlen, List.append_nil]
        exact .refl _
      · simp only [if_neg hlen]
        exact preface_made hg' hnew (not_lt.mp hlen)

theorem feedSteps_code {o : Obs} (hg : Good o) {data : List UInt8} {st : FrameStep}
    (hst : st ∈ o.conn.feedSteps data) (herr : st.code ≠ .ok) :
    (o.conn.feed data).1 = st.code := by
  rw [Connection.feedSteps] at hst
  rw [Connection.feed]
  by_cases hbig : data.length > connInputCap - o.conn.input.length
  · rw [if_pos hbig] at hst
    cases hst
  · have hc : Inv { o.conn with input := o.conn.input ++ data } := { hg.inv with }
    simp only [if_neg hbig] at hst ⊢
    by_cases hseen : o.conn.prefaceSeen = true
    · simp only [if_pos hseen] at hst ⊢
      exact Connection.loopSteps_code hc hst herr
    · simp only [if_neg hseen] at hst ⊢
      by_cases hlen : (o.conn.input ++ data).length < clientPrefaceLen
      · rw [if_pos hlen] at hst
        cases hst
      · simp only [if_neg hlen] at hst ⊢
        have hnew : o.conn.prefaceSeen = false := by simpa using hseen
        by_cases hpre : (o.conn.input ++ data).take clientPrefaceLen = clientPreface
        · have hgreet := Connection.feedPreface_good hc hg.started hnew hpre
          rw [hgreet, Connection.andThen_ok]
          rw [hgreet, if_pos rfl] at hst
          exact Connection.loopSteps_code (Connection.greeted_inv hc (hg.started hnew).2.1) hst herr
        · have hbad := Connection.feedPreface_bad (c := { o.conn with
            input := o.conn.input ++ data }) hpre
          have herr' : ¬ ErrorCode.protocolError = .ok := by decide
          rw [hbad, if_neg herr'] at hst
          cases hst

/-- **Every call is made of small steps.** -/
theorem call_made {r : Run} (hg : Good r.toObs) (op : Op) :
    ∃ es, Steps Micro r.toObs es (r.call op).toObs
      ∧ ((r.call op).AllOk → r.AllOk ∧ es = []) := by
  cases op with
  | feed data =>
      obtain ⟨es, hes, hcode⟩ := feed_made hg data
      refine ⟨es, hes, fun hok => ⟨fun code hcode' => hok code (List.mem_append_left _ hcode'), ?_⟩⟩
      have hlast : (r.conn.feed data).1 = .ok := hok _ (List.mem_append_right _ (by simp))
      rcases hcode with ⟨-, h⟩ | ⟨h, -⟩
      · exact h
      · exact absurd hlast h
  | consume sentLen =>
      have hstep := Micro.consume r.toObs sentLen
      refine ⟨[], ?_, fun hok => ⟨hok, rfl⟩⟩
      have hpend : r.conn.pending = r.conn.output := by
        rw [Connection.pending, hg.inv.output_sent, List.drop_zero]
      rw [Run.call, Connection.consumeOutput_eq hg.inv.output_sent, hpend]
      exact .single hstep

theorem good_start : Good Run.start.toObs :=
  ⟨Inv.init, Nat.zero_le _, fun _ => ⟨rfl, Nat.zero_le _, fun _ => rfl⟩⟩

theorem call_good {r : Run} (hg : Good r.toObs) (op : Op) : Good (r.call op).toObs := by
  obtain ⟨es, hes, -⟩ := call_made hg op
  exact hes.invariant (fun hstep hgood => hstep.good hgood) hg

theorem calls_good {r : Run} (hg : Good r.toObs) (ops : List Op) : Good (r.calls ops).toObs := by
  induction ops generalizing r with
  | nil => exact hg
  | cons op ops ih => exact ih (call_good hg op)

theorem exec_good (ops : List Op) : Good (exec ops).toObs := calls_good good_start ops

/-- **The induction rule for all runs.** -/
theorem calls_invariant {P : Obs → Prop}
    (hstep : ∀ {o es o'}, Good o → Micro o es o' → P o → P o') {r : Run} (hg : Good r.toObs)
    (h : P r.toObs) (ops : List Op) : P (r.calls ops).toObs := by
  induction ops generalizing r with
  | nil => exact h
  | cons op ops ih =>
      obtain ⟨es, hes, -⟩ := call_made hg op
      have hboth := hes.invariant (P := fun o => Good o ∧ P o)
        (fun hs hb => ⟨hs.good hb.1, hstep hb.1 hs hb.2⟩) ⟨hg, h⟩
      exact ih hboth.1 hboth.2

theorem exec_invariant {P : Obs → Prop} (h0 : P Run.start.toObs)
    (hstep : ∀ {o es o'}, Good o → Micro o es o' → P o → P o') (ops : List Op) :
    P (exec ops).toObs := calls_invariant hstep good_start h0 ops

/-- The return codes contain those of the frames that failed. -/
theorem exec_codes (ops : List Op) :
    ∀ st ∈ (exec ops).steps, st.code ≠ .ok → st.code ∈ (exec ops).codes := by
  have hcalls : ∀ (ops : List Op) {r : Run}, Good r.toObs →
      (∀ st ∈ r.steps, st.code ≠ .ok → st.code ∈ r.codes) →
      ∀ st ∈ (r.calls ops).steps, st.code ≠ .ok → st.code ∈ (r.calls ops).codes := by
    intro ops
    induction ops with
    | nil => exact fun _ h => h
    | cons op ops ih =>
        intro r hg h
        refine ih (call_good hg op) ?_
        cases op with
        | consume sentLen => exact h
        | feed data =>
            intro st hst herr
            rcases List.mem_append.mp hst with hst | hst
            · exact List.mem_append_left _ (h st hst herr)
            · refine List.mem_append_right _ (List.mem_singleton.mpr ?_)
              exact (feedSteps_code hg hst herr).symm
  exact hcalls ops good_start (by simp [Run.start])

/-- What holds of every frame that is handled in a state with the invariant holds of the frames
handled in a run. -/
theorem exec_steps {Q : FrameStep → Prop}
    (hQ : ∀ {c : Connection} {f : Frame}, Inv c → Q (c.frameStep f)) (ops : List Op) :
    ∀ st ∈ (exec ops).steps, Q st := by
  refine exec_invariant (P := fun o => ∀ st ∈ o.steps, Q st) (by simp [Run.start]) ?_ ops
  intro o es o' hg hs hall
  have hsnoc : ∀ f, ∀ st ∈ o.steps ++ [o.conn.frameStep f], Q st := by
    intro f st hst
    rcases List.mem_append.mp hst with hst | hst
    · exact hall st hst
    · rw [List.mem_singleton.mp hst]
      exact hQ hg.inv
  cases hs with
  | frame f rest hseen hcut hok => exact hsnoc f
  | fail f rest hseen hcut herr => exact hsnoc f
  | _ => exact hall

theorem allOk_of_call {r : Run} {op : Op} (h : (r.call op).AllOk) : r.AllOk := by
  cases op with
  | feed data => exact fun code hcode => h code (List.mem_append_left _ hcode)
  | consume sentLen => exact h

theorem allOk_of_calls {r : Run} {ops : List Op} (h : (r.calls ops).AllOk) : r.AllOk := by
  induction ops generalizing r with
  | nil => exact h
  | cons op ops ih => exact allOk_of_call (ih h)

/-- What the steps without an error preserve, a sequence of them preserves. -/
theorem steps_invariant_ok {P : Obs → Prop}
    (hstep : ∀ {o o'}, Good o → Micro o [] o' → P o → P o') {o o' : Obs}
    (hsteps : Steps Micro o [] o') (hg : Good o) (h : P o) : Good o' ∧ P o' := by
  have h0 : (fun (hist : List ErrorCode) o => hist = [] → Good o ∧ P o) [] o := fun _ => ⟨hg, h⟩
  -- as long as no label has been recorded, all steps have been successful
  exact hsteps.history (R := fun hist o => hist = [] → Good o ∧ P o)
    (fun {hist s es t} hs hb hnil => by
      obtain ⟨hh, rfl⟩ := List.append_eq_nil_iff.mp hnil
      obtain ⟨hgs, hps⟩ := hb hh
      exact ⟨hs.good hgs, hstep hgs hs hps⟩) h0 rfl

/-- **The induction rule for runs in which every `feed` has returned `H2_OK`**: no step fails. -/
theorem calls_invariant_ok {P : Obs → Prop}
    (hstep : ∀ {o o'}, Good o → Micro o [] o' → P o → P o') {r : Run} (hg : Good r.toObs)
    (h : P r.toObs) {ops : List Op} (hok : (r.calls ops).AllOk) : P (r.calls ops).toObs := by
  induction ops generalizing r with
  | nil => exact h
  | cons op ops ih =>
      obtain ⟨es, hes, hlabel⟩ := call_made hg op
      obtain ⟨-, rfl⟩ := hlabel (allOk_of_calls hok)
      obtain ⟨hg', h'⟩ := steps_invariant_ok hstep hes hg h
      exact ih hg' h' hok

theorem exec_invariant_ok {P : Obs → Prop} (h0 : P Run.start.toObs)
    (hstep : ∀ {o o'}, Good o → Micro o [] o' → P o → P o') {ops : List Op}
    (hok : (exec ops).AllOk) : P (exec ops).toObs := calls_invariant_ok hstep good_start h0 hok

/-! ## What has been received

The frames handled so far are the complete frames behind the preface, in whatever pieces they have
arrived. -/

/-- The frames handled and those still in the input are the frames received. -/
structure Cut (o : Obs) : Prop where
  unseen : o.conn.prefaceSeen = false → o.received = o.conn.input ∧ o.steps = []
  seen : o.conn.prefaceSeen = true → clientPrefaceLen ≤ o.received.length
    ∧ frameFraming.split (o.received.drop clientPrefaceLen)
      = (o.steps.map FrameStep.frame ++ (frameFraming.split o.conn.input).1,
        (frameFraming.split o.conn.input).2)

theorem Micro.cut {o o' : Obs} (h : Micro o [] o') (hg : Good o) (hcut : Cut o) : Cut o' := by
  cases h with
  | consume sentLen => exact ⟨hcut.unseen, hcut.seen⟩
  | arrive data hfit =>
      refine ⟨fun hseen => ?_, fun hseen => ?_⟩
      · obtain ⟨hrec, hsteps⟩ := hcut.unseen hseen
        exact ⟨by simp only [hrec], hsteps⟩
      · obtain ⟨hlen, hsplit⟩ := hcut.seen hseen
        refine ⟨hlen.trans (by simp), ?_⟩
        simp only
        rw [List.drop_append_of_le_length hlen, Framing.split_append, hsplit,
          Framing.split_append _ o.conn.input, List.append_assoc]
  | preface hnew hlen hpre =>
      obtain ⟨hrec, hsteps⟩ := hcut.unseen hnew
      refine ⟨fun hseen => (by cases hseen), fun _ => ⟨by simp only [hrec]; exact hlen, ?_⟩⟩
      simp only [hrec, hsteps]
      rfl
  | frame f rest hseen hcutf hok =>
      have hseen' := (Connection.handleFrame_input hg.inv f).2.trans hseen
      obtain ⟨hlen, hsplit⟩ := hcut.seen hseen
      refine ⟨fun hnew => ?_, fun _ => ⟨hlen, ?_⟩⟩
      · rw [show ({ (o.conn.handleFrame f).2 with input := rest } : Connection).prefaceSeen
          = (o.conn.handleFrame f).2.prefaceSeen from rfl, hseen'] at hnew
        cases hnew
      · have hfront : frameFraming.cut o.conn.input = some (f, rest) := hcutf
        simp only
        rw [hsplit, Framing.split_of_cut_eq_some _ hfront, List.map_append, List.append_assoc]
        rfl

theorem exec_cut {ops : List Op} (hok : (exec ops).AllOk) : Cut (exec ops).toObs := by
  refine exec_invariant_ok ⟨fun _ => ⟨rfl, rfl⟩, fun hseen => ?_⟩ (fun hg hs hcut => hs.cut hg hcut) hok
  cases hseen

namespace Connection

variable {c : Connection}

/-- The loop does not touch the preface flag. -/
theorem feedLoop_seen (hc : Inv c) (hseen : c.prefaceSeen = true) (fuel : Nat) :
    (c.feedLoop fuel).2.prefaceSeen = true := by
  induction fuel generalizing c with
  | zero => exact hseen
  | succ fuel ih =>
      rw [feedLoop]
      rcases hcut : cutFrame c.input with _ | ⟨f, rest⟩
      · rw [feedStep_of_cut_none hcut]
        exact hseen
      · have hframe := (handleFrame_input hc f).2.trans hseen
        rw [feedStep_of_cut hc hcut]
        split_ifs
        · exact ih { handleFrame_inv hc f with } hframe
        · exact hframe

/-- A `feed` without an error leaves no complete frame in the input, and the preface only if it is
not complete. -/
theorem feed_stop (hc : Inv c) (hs : Started c) {data : List UInt8} (hok : (c.feed data).1 = .ok) :
    ((c.feed data).2.prefaceSeen = true → cutFrame (c.feed data).2.input = none)
      ∧ ((c.feed data).2.prefaceSeen = false → (c.feed data).2.input.length < clientPrefaceLen) := by
  have hc' : Inv { c with input := c.input ++ data } := { hc with }
  rw [feed] at hok ⊢
  by_cases hbig : data.length > connInputCap - c.input.length
  · rw [if_pos hbig] at hok
    cases hok
  · simp only [if_neg hbig] at hok ⊢
    by_cases hseen : c.prefaceSeen = true
    · simp only [if_pos hseen] at hok ⊢
      refine ⟨fun _ => feedLoop_stop hc' le_rfl hok, fun hno => ?_⟩
      rw [feedLoop_seen hc' hseen] at hno
      cases hno
    · have hnew : c.prefaceSeen = false := by simpa using hseen
      simp only [if_neg hseen] at hok ⊢
      by_cases hlen : (c.input ++ data).length < clientPrefaceLen
      · simp only [if_pos hlen]
        exact ⟨fun h => absurd h hseen, fun _ => hlen⟩
      · simp only [if_neg hlen] at hok ⊢
        by_cases hpre : (c.input ++ data).take clientPrefaceLen = clientPreface
        · have hgreet := feedPreface_good hc' hs hnew hpre
          have hinv := greeted_inv hc' (hs hnew).2.1
          rw [hgreet, andThen_ok] at hok ⊢
          refine ⟨fun _ => feedLoop_stop hinv le_rfl hok, fun hno => ?_⟩
          rw [feedLoop_seen hinv rfl] at hno
          cases hno
        · rw [feedPreface_bad hpre, andThen_err (by decide)] at hok
          cases hok

theorem queueGoaway_sent (hc : Inv c) (errorCode : ErrorCode) :
    (c.queueGoaway errorCode).2.goawaySent = true := by
  rw [queueGoaway_eq hc]
  split_ifs with hsent
  · exact hsent
  · rfl
  · rfl

/-- A preface that is complete has been accepted, or a GOAWAY has been sent. -/
theorem feed_unseen (hc : Inv c) (hs : Started c)
    (h : c.prefaceSeen = false → c.input.length < clientPrefaceLen ∨ c.goawaySent = true)
    (data : List UInt8) (hnew : (c.feed data).2.prefaceSeen = false) :
    (c.feed data).2.input.length < clientPrefaceLen ∨ (c.feed data).2.goawaySent = true := by
  have hc' : Inv { c with input := c.input ++ data } := { hc with }
  rw [feed] at hnew ⊢
  by_cases hbig : data.length > connInputCap - c.input.length
  · rw [if_pos hbig] at hnew ⊢
    exact h hnew
  · simp only [if_neg hbig] at hnew ⊢
    by_cases hseen : c.prefaceSeen = true
    · simp only [if_pos hseen] at hnew
      rw [feedLoop_seen hc' hseen] at hnew
      cases hnew
    · simp only [if_neg hseen] at hnew ⊢
      by_cases hlen : (c.input ++ data).length < clientPrefaceLen
      · simp only [if_pos hlen]
        exact Or.inl hlen
      · simp only [if_neg hlen] at hnew ⊢
        by_cases hpre : (c.input ++ data).take clientPrefaceLen = clientPreface
        · have hinv := greeted_inv hc' (hs (by simpa using hseen)).2.1
          rw [feedPreface_good hc' hs (by simpa using hseen) hpre, andThen_ok,
            feedLoop_seen hinv rfl] at hnew
          cases hnew
        · rw [feedPreface_bad hpre, andThen_err (by decide)]
          exact Or.inr (queueGoaway_sent hc' _)

end Connection

/-- In every run a complete preface has been accepted, or answered with a GOAWAY. -/
theorem exec_unseen (ops : List Op) (hnew : (exec ops).conn.prefaceSeen = false) :
    (exec ops).conn.input.length < clientPrefaceLen ∨ (exec ops).conn.goawaySent = true := by
  induction ops using List.reverseRecOn with
  | nil => exact Or.inl (by decide)
  | append_singleton ops op ih =>
      have hcall : exec (ops ++ [op]) = (exec ops).call op := exec_append ops [op]
      have hg := exec_good ops
      rw [hcall] at hnew ⊢
      cases op with
      | feed data => exact Connection.feed_unseen hg.inv hg.started ih data hnew
      | consume sentLen =>
          have hsame := Connection.consumeOutput_eq hg.inv.output_sent sentLen
          simp only [Run.call, hsame] at hnew ⊢
          exact ih hnew

/-- **The input is handled completely**: after a run without errors no complete frame is left in
the input. -/
theorem exec_stop {ops : List Op} (hok : (exec ops).AllOk) :
    ((exec ops).conn.prefaceSeen = true → cutFrame (exec ops).conn.input = none)
      ∧ ((exec ops).conn.prefaceSeen = false →
        (exec ops).conn.input.length < clientPrefaceLen) := by
  induction ops using List.reverseRecOn with
  | nil => exact ⟨fun h => (by cases h), fun _ => (by decide)⟩
  | append_singleton ops op ih =>
      have hcall : exec (ops ++ [op]) = (exec ops).call op := exec_append ops [op]
      rw [hcall] at hok ⊢
      have hg := exec_good ops
      cases op with
      | feed data =>
          have hlast : ((exec ops).conn.feed data).1 = .ok :=
            hok _ (List.mem_append_right _ (by simp))
          exact Connection.feed_stop hg.inv hg.started hlast
      | consume sentLen =>
          have hsame := Connection.consumeOutput_eq hg.inv.output_sent sentLen
          simp only [Run.call, hsame]
          exact ih hok

/-- **The frames handled are the frames received**, behind the preface. -/
theorem exec_received {ops : List Op} (hok : (exec ops).AllOk) :
    (exec ops).steps.map FrameStep.frame
      = framesOf ((exec ops).received.drop clientPrefaceLen) := by
  have hcut := exec_cut hok
  obtain ⟨hdone, hshort⟩ := exec_stop hok
  rw [framesOf]
  by_cases hseen : (exec ops).conn.prefaceSeen = true
  · have hnone : frameFraming.cut (exec ops).conn.input = none := hdone hseen
    rw [(hcut.seen hseen).2, Framing.split_of_cut_eq_none _ hnone, List.append_nil]
  · have hnew : (exec ops).conn.prefaceSeen = false := by simpa using hseen
    obtain ⟨hrec, hsteps⟩ := hcut.unseen hnew
    have hlen := hshort hnew
    rw [hsteps, hrec, List.drop_of_length_le hlen.le]
    rfl

end C11Omo.Http2
