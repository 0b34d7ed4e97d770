import C11Omo.Http2.Rejections

set_option autoImplicit false

/-! # Errors are final

After a `feed` that has failed the server may go on feeding, because output is still pending. Every
further `feed` comes to the same preface or to the same frame. If that frame is conclusive it is
rejected each time, so nothing is changed any more and at most a GOAWAY is queued
(`failures_final`). A frame whose reply has found no room is handled anew once the output has
drained, and a torn SETTINGS frame moves the same windows again (`failures_not_final`).
-/

namespace C11Omo.Http2

open C11Omo.Lib Connection

namespace Connection

variable {c : Connection} {f : Frame}

/-- What is at the front of the input makes every further `feed` fail. -/
inductive Stuck (c : Connection) : Prop
  | preface (hnew : c.prefaceSeen = false) (hlen : clientPrefaceLen ≤ c.input.length)
      (hpre : c.input.take clientPrefaceLen ≠ clientPreface)
  | frame (f : Frame) (rest : List UInt8) (hseen : c.prefaceSeen = true)
      (hcut : cutFrame c.input = some (f, rest)) (hrej : c.Rejects f)

/-- More input does not help. -/
theorem Stuck.more (h : c.Stuck) (data : List UInt8) :
    Stuck { c with input := c.input ++ data } := by
  cases h with
  | preface hnew hlen hpre =>
      refine .preface hnew ?_ ?_
      · show clientPrefaceLen ≤ (c.input ++ data).length
        rw [List.length_append]
        omega
      · show (c.input ++ data).take clientPrefaceLen ≠ clientPreface
        rwa [List.take_append_of_le_length hlen]
  | frame f rest hseen hcut hrej =>
      exact .frame f (rest ++ data) hseen (frameFraming.cut_append hcut data)
        (hrej.withPipes ⟨c.input ++ data, c.output, c.outputSent, c.goawaySent, c.goawayError⟩)

/-- Nor does a change of the output or of the GOAWAY flags. -/
theorem Stuck.withPipes (h : c.Stuck) (p : Pipes) (hinput : p.input = c.input) :
    (c.withPipes p).Stuck := by
  cases h with
  | preface hnew hlen hpre =>
      refine .preface hnew ?_ ?_
      · show clientPrefaceLen ≤ p.input.length
        rwa [hinput]
      · show p.input.take clientPrefaceLen ≠ clientPreface
        rwa [hinput]
  | frame f rest hseen hcut hrej =>
      refine .frame f rest hseen ?_ (hrej.withPipes p)
      show cutFrame p.input = some (f, rest)
      rwa [hinput]

/-- **A `feed` at a rejected front** takes the bytes and announces the error. -/
theorem Stuck.feed (h : c.Stuck) (hc : Inv c) {data : List UInt8}
    (hfit : c.input.length + data.length ≤ connInputCap) :
    ∃ ret : ErrorCode, ret ≠ .ok
      ∧ c.feed data = (ret, ({ c with input := c.input ++ data }.queueGoaway ret).2) := by
  have hc' : Inv { c with input := c.input ++ data } := { hc with }
  have hbig : ¬ data.length > connInputCap - c.input.length := by omega
  rw [Connection.feed, if_neg hbig]
  cases h.more data with
  | preface hnew hlen hpre =>
      have hunseen : c.prefaceSeen = false := hnew
      have hnew' : ¬ c.prefaceSeen = true := by simp [hunseen]
      have hlen' : ¬ (c.input ++ data).length < clientPrefaceLen := not_lt.mpr hlen
      refine ⟨.protocolError, by decide, ?_⟩
      simp only [if_neg hnew', if_neg hlen']
      rw [feedPreface_bad hpre, andThen_err (by decide)]
  | frame f rest hseen hcut hrej =>
      obtain ⟨ret, hret, hframe⟩ := hrej.handleFrame hc'
      have hseen' : c.prefaceSeen = true := hseen
      obtain ⟨fuel, hfuel⟩ : ∃ fuel, (c.input ++ data).length = fuel + 1 := by
        have hlt : rest.length < (c.input ++ data).length := frameFraming.cut_length_lt hcut
        exact ⟨(c.input ++ data).length - 1, by omega⟩
      refine ⟨ret, hret, ?_⟩
      simp only [if_pos hseen']
      rw [hfuel, feedLoop, feedStep_of_cut hc' hcut, hframe, if_neg hret]

/-- The frame that it handles is not accepted. -/
theorem Stuck.feedSteps (h : c.Stuck) (hc : Inv c) (data : List UInt8) :
    ∀ st ∈ c.feedSteps data, st.code ≠ .ok := by
  have hc' : Inv { c with input := c.input ++ data } := { hc with }
  intro st hst
  rw [Connection.feedSteps] at hst
  by_cases hbig : data.length > connInputCap - c.input.length
  · rw [if_pos hbig] at hst
    cases hst
  · rw [if_neg hbig] at hst
    cases h.more data with
    | preface hnew hlen hpre =>
        have hunseen : c.prefaceSeen = false := hnew
        have hnew' : ¬ c.prefaceSeen = true := by simp [hunseen]
        have hlen' : ¬ (c.input ++ data).length < clientPrefaceLen := not_lt.mpr hlen
        simp only [if_neg hnew', if_neg hlen'] at hst
        have herr : ErrorCode.protocolError ≠ .ok := by decide
        rw [feedPreface_bad hpre, if_neg herr] at hst
        cases hst
    | frame f rest hseen hcut hrej =>
        obtain ⟨ret, hret, hframe⟩ := hrej.handleFrame hc'
        have hseen' : c.prefaceSeen = true := hseen
        obtain ⟨fuel, hfuel⟩ : ∃ fuel, (c.input ++ data).length = fuel + 1 := by
          have hlt : rest.length < (c.input ++ data).length := frameFraming.cut_length_lt hcut
          exact ⟨(c.input ++ data).length - 1, by omega⟩
        simp only [if_pos hseen'] at hst
        rw [hfuel, loopSteps, hcut] at hst
        simp only [hframe, if_neg hret] at hst
        rw [List.mem_singleton.mp hst, frameStep, hframe]
        exact hret

end Connection

/-! ## Runs -/

/-- **Nothing has happened since `r`** but calls of `feed` that have failed: no frame has been
accepted, no field has changed but the buffers and the GOAWAY flags, and at most one GOAWAY has been
queued, if there was none. -/
structure Run.StaysFailed (r r' : Run) : Prop where
  codes : ∃ codes, r'.codes = r.codes ++ codes ∧ ∀ code ∈ codes, code ≠ .ok
  steps : ∃ steps, r'.steps = r.steps ++ steps ∧ ∀ st ∈ steps, st.code ≠ .ok
  conn : ∃ p, r'.conn = r.conn.withPipes p
  output : r'.total = r.total ∧ (r.conn.goawaySent = true → r'.conn.goawaySent = true)
    ∨ r.conn.goawaySent = false ∧ r'.conn.goawaySent = true
      ∧ ∃ code, r'.total = r.total ++ (goawayFrame r.conn.lastStreamId code).wire

theorem Run.StaysFailed.refl (r : Run) : r.StaysFailed r where
  codes := ⟨[], (List.append_nil _).symm, by simp⟩
  steps := ⟨[], (List.append_nil _).symm, by simp⟩
  conn := ⟨⟨r.conn.input, r.conn.output, r.conn.outputSent, r.conn.goawaySent,
    r.conn.goawayError⟩, rfl⟩
  output := Or.inl ⟨rfl, id⟩

theorem Run.StaysFailed.trans {r r' r'' : Run} (h : r.StaysFailed r') (h' : r'.StaysFailed r'') :
    r.StaysFailed r'' where
  codes := by
    obtain ⟨codes, hcodes, hall⟩ := h.codes
    obtain ⟨codes', hcodes', hall'⟩ := h'.codes
    refine ⟨codes ++ codes', by rw [hcodes', hcodes, List.append_assoc], fun code hcode => ?_⟩
    exact (List.mem_append.mp hcode).elim (hall code) (hall' code)
  steps := by
    obtain ⟨steps, hsteps, hall⟩ := h.steps
    obtain ⟨steps', hsteps', hall'⟩ := h'.steps
    refine ⟨steps ++ steps', by rw [hsteps', hsteps, List.append_assoc], fun st hst => ?_⟩
    exact (List.mem_append.mp hst).elim (hall st) (hall' st)
  conn := by
    obtain ⟨p, hp⟩ := h.conn
    obtain ⟨q, hq⟩ := h'.conn
    exact ⟨q, by rw [hq, hp]; rfl⟩
  output := by
    obtain ⟨p, hp⟩ := h.conn
    have hlast : r'.conn.lastStreamId = r.conn.lastStreamId := by
      rw [hp]
      rfl
    rcases h.output with ⟨htotal, hsent⟩ | ⟨hclear, hsent, code, htotal⟩
    · rcases h'.output with ⟨htotal', hsent'⟩ | ⟨hclear', hsent', code, htotal'⟩
      · exact Or.inl ⟨htotal'.trans htotal, hsent' ∘ hsent⟩
      · refine Or.inr ⟨?_, hsent', code, by rw [htotal', htotal, hlast]⟩
        by_contra hset
        rw [hsent (by simpa using hset)] at hclear'
        cases hclear'
    · rcases h'.output with ⟨htotal', hsent'⟩ | ⟨hclear', -⟩
      · exact Or.inr ⟨hclear, hsent' hsent, code, htotal'.trans htotal⟩
      · -- the flag is set with the first GOAWAY
        rw [hsent] at hclear'
        cases hclear'

/-- **One call on a stuck connection.** -/
theorem call_staysFailed {r : Run} (hg : Good r.toObs) (hstuck : r.conn.Stuck) {op : Op}
    (hfit : r.ChunksFit [op]) : r.StaysFailed (r.call op) ∧ (r.call op).conn.Stuck := by
  cases op with
  | consume sentLen =>
      have hsame := consumeOutput_eq hg.inv.output_sent sentLen
      have hconn : (r.call (.consume sentLen)).conn = r.conn.withPipes ⟨r.conn.input,
          r.conn.output.drop sentLen, r.conn.outputSent, r.conn.goawaySent,
          r.conn.goawayError⟩ := hsame
      have hstay : r.StaysFailed (r.call (.consume sentLen)) := by
        refine ⟨⟨[], (List.append_nil _).symm, by simp⟩, ⟨[], (List.append_nil _).symm, by simp⟩,
          ⟨_, hconn⟩, Or.inl ⟨?_, ?_⟩⟩
        · exact call_consume_total hg sentLen
        · rw [hconn]
          exact id
      refine ⟨hstay, ?_⟩
      rw [hconn]
      exact hstuck.withPipes _ rfl
  | feed data =>
      have hc' : Inv { r.conn with input := r.conn.input ++ data } := { hg.inv with }
      obtain ⟨ret, hret, hfeed⟩ := hstuck.feed hg.inv hfit.1
      have hconn : (r.call (.feed data)).conn
          = ({ r.conn with input := r.conn.input ++ data }.queueGoaway ret).2 := by
        rw [Run.call_feed_conn, hfeed]
      obtain ⟨p, hp⟩ := queueGoaway_pipes hc' ret
      have hinput := (queueGoaway_input hc' ret).1
      have htotal := Obs.total_eq hg
      have htotal' : (r.call (.feed data)).total
          = r.sent ++ (r.call (.feed data)).conn.output := Obs.total_eq (call_good hg (.feed data))
      refine ⟨⟨⟨[ret], ?_, by simpa using hret⟩, ⟨_, rfl, hstuck.feedSteps hg.inv data⟩,
        ⟨p, hconn.trans hp⟩, ?_⟩, ?_⟩
      · rw [Run.call_feed_codes, hfeed]
      · have hgo := queueGoaway_eq hc' ret
        -- the only thing that a failing call can still do is to queue the first GOAWAY
        by_cases hsent : r.conn.goawaySent = true
        · rw [if_pos hsent] at hgo
          rw [hgo] at hconn
          refine Or.inl ⟨?_, fun _ => ?_⟩
          · rw [htotal', hconn, htotal]
          · rw [hconn]
            exact hsent
        · rw [if_neg hsent] at hgo
          by_cases hfits : Fits { r.conn with input := r.conn.input ++ data }
              (goawayFrame r.conn.lastStreamId ret)
          · rw [if_pos hfits] at hgo
            rw [hgo] at hconn
            refine Or.inr ⟨by simpa using hsent, ?_, ret, ?_⟩
            · rw [hconn]
              rfl
            · rw [htotal', hconn, htotal, List.append_assoc]
              rfl
          · rw [if_neg hfits] at hgo
            rw [hgo] at hconn
            refine Or.inl ⟨?_, fun h => absurd h hsent⟩
            rw [htotal', hconn, htotal]
      · rw [hconn, hp]
        refine (hstuck.more data).withPipes p ?_
        rw [hp] at hinput
        exact hinput

/-- **All calls on a stuck connection.** -/
theorem calls_staysFailed {r : Run} (hg : Good r.toObs) (hstuck : r.conn.Stuck) {ops : List Op}
    (hfit : r.ChunksFit ops) : r.StaysFailed (r.calls ops) := by
  induction ops generalizing r with
  | nil => exact .refl r
  | cons op ops ih =>
      have hone : r.ChunksFit [op] ∧ (r.call op).ChunksFit ops := by
        cases op with
        | feed data => exact ⟨⟨hfit.1, trivial⟩, hfit.2⟩
        | consume sentLen => exact ⟨trivial, hfit⟩
      obtain ⟨hstay, hstuck'⟩ := call_staysFailed hg hstuck hone.1
      exact hstay.trans (ih (call_good hg op) hstuck' hone.2)

/-! ## The first error -/

/-- A conclusive failure leaves a stuck connection. -/
theorem Fails.stuck {o o' : Obs} {code : ErrorCode} (h : Fails o code o') (hg : Good o)
    (hledger : ReceiveLedger o.steps o.conn)
    (hdone : ∀ st ∈ o'.steps, st.code ≠ .ok → st.before.Conclusive st.frame) :
    o'.conn.Stuck := by
  cases h with
  | preface hnew hlen hpre =>
      obtain ⟨hinput, hseen⟩ := queueGoaway_input hg.inv .protocolError
      refine .preface (hseen.trans hnew) ?_ ?_
      · show clientPrefaceLen ≤ (o.conn.queueGoaway .protocolError).2.input.length
        rwa [hinput]
      · show (o.conn.queueGoaway .protocolError).2.input.take clientPrefaceLen ≠ clientPreface
        rwa [hinput]
  | frame f rest hseen hcut herr =>
      obtain ⟨hinput, hkept⟩ := handleFrame_input hg.inv f
      have hconclusive : o.conn.Conclusive f := hdone (o.conn.frameStep f) (by simp) herr
      refine .frame f rest (hkept.trans hseen) ?_ ?_
      · show cutFrame (o.conn.handleFrame f).2.input = some (f, rest)
        rwa [hinput]
      · exact handleFrame_rejects hg.inv (fun i hi => (hledger.stream i hi).2.2) hconclusive herr

theorem Micro.receiveLedger {o o' : Obs} (h : Micro o [] o') (hg : Good o)
    (hledger : ReceiveLedger o.steps o.conn) : ReceiveLedger o'.steps o'.conn := by
  cases h with
  | frame f rest hseen hcut hok =>
      have hstep : ReceiveLedger (o.steps ++ [o.conn.frameStep f]) (o.conn.handleFrame f).2 :=
        hledger.accept hg.inv (handleFrame_accepts hg.inv hok) rfl
      exact ⟨hstep.conn, hstep.conn_low, hstep.stream, hstep.fresh⟩
  | _ => exact ⟨hledger.conn, hledger.conn_low, hledger.stream, hledger.fresh⟩

/-- **Errors are final** if the first frame that fails is conclusive: whatever is fed and consumed
afterwards, every `feed` fails, nothing is changed but the buffers and the GOAWAY flags, and at most
a GOAWAY is queued. -/
theorem failures_final {ops : List Op} (hok : (exec ops).AllOk) {data : List UInt8}
    {later : List Op} (hfit : (exec ops).ChunksFit (.feed data :: later))
    (herr : ((exec ops).conn.feed data).1 ≠ .ok)
    (hdone : ∀ st ∈ (exec (ops ++ [Op.feed data])).steps, st.code ≠ .ok →
      st.before.Conclusive st.frame) :
    (exec (ops ++ [Op.feed data])).StaysFailed (exec (ops ++ Op.feed data :: later)) := by
  have hg := exec_good ops
  have hcall : exec (ops ++ [Op.feed data]) = (exec ops).call (.feed data) := exec_append ops _
  have hlater : exec (ops ++ Op.feed data :: later) = (exec (ops ++ [Op.feed data])).calls later := by
    rw [← exec_append, List.append_assoc]
    rfl
  have hin := hg.input_le
  obtain ⟨hchunk, hchunks⟩ := hfit
  obtain ⟨o₁, hsteps, hfails⟩ := feed_failed hg (by omega) herr
  obtain ⟨hg₁, hledger⟩ := steps_invariant_ok (P := fun o => ReceiveLedger o.steps o.conn)
    (fun hg hs h => hs.receiveLedger hg h) hsteps hg
    ((exec_receiveLedger ops).1 (exec_steps_ok hok))
  rw [hcall] at hdone
  have hstuck : (exec (ops ++ [Op.feed data])).conn.Stuck := by
    rw [hcall]
    exact hfails.stuck hg₁ hledger hdone
  rw [hlater]
  rw [← hcall] at hchunks
  exact calls_staysFailed (exec_good _) hstuck hchunks

/-- Behind a PUSH_PROMISE, a PING and what the client still reads change nothing. -/
theorem failures_final_promise : (exec [.feed clientPreface, .feed promise.wire]).StaysFailed
    (exec [.feed clientPreface, .feed promise.wire, .feed ping.wire, .consume 20, .feed []]) := by
  have hfirst : ((exec [.feed clientPreface]).conn.feed promise.wire).1 = .protocolError := by
    decide +kernel
  refine @failures_final [.feed clientPreface] (by decide +kernel) promise.wire
    [.feed ping.wire, .consume 20, .feed []] ?_ ?_ ?_
  · exact ⟨by decide +kernel, by decide +kernel, by decide +kernel, trivial⟩
  · rw [hfirst]
    decide
  · have hsteps : (exec ([.feed clientPreface] ++ [Op.feed promise.wire])).steps
        = [{ (exec [.feed clientPreface]).conn with input := promise.wire }.frameStep promise] := rfl
    intro st hst _
    rw [hsteps] at hst
    rw [List.mem_singleton.mp hst]
    intro _
    exact ⟨by decide +kernel, fun htears => absurd htears.1 (by decide)⟩

/-! ## Errors that are not final -/

/-- A PING without room for the reply fails, and leaves everything as it is but the GOAWAY flags. -/
theorem handleFrame_ping_full {c : Connection} (hc : Inv c) (hopen : c.headerBlockOpen = false)
    (hunsent : c.goawaySent = false) (hfull : connOutputCap < c.output.length + 17) :
    c.handleFrame ping = (.internalError,
      { c with goawaySent := true, goawayError := ErrorCode.internalError.toNat }) := by
  have hsize : ping.payload.length ≤ c.maxFrameSize := by
    have hmax := hc.max_frame.1
    have hlen : ping.payload.length = 8 := by decide +kernel
    simp only [defaultMaxFrameSize] at hmax
    omega
  have hparse : parsePing ping.header ping.payload = .ok (List.replicate 8 0) := by decide +kernel
  have hack : ¬ hasFlag ping.header.flags flagAck = true := by decide +kernel
  have hpong : pong.wire.length = 17 := by decide +kernel
  have hnofit : ¬ c.Fits pong := by
    rw [Fits, hpong]
    omega
  have hproc : c.processFrame ping.header ping.payload = (.internalError, c) := by
    rw [processFrame_handler (admits_closed hopen hsize) (t := .ping) rfl, handler, processPing, hparse]
    simp only
    rw [if_neg hack, encodePing_eq (by decide), queueWire_wire hc]
    exact if_neg hnofit
  have hroom : ¬ c.Fits (goawayFrame c.lastStreamId .internalError) := by
    rw [goaway_fits_iff]
    omega
  have hgo := queueGoaway_eq hc .internalError
  rw [if_neg (by simp [hunsent]), if_neg hroom] at hgo
  rw [handleFrame_goaway hproc (by decide) (by simp [isStreamError]), hgo]

/-- A `feed` that returns `H2_OK` after a failure and a drain. -/
theorem not_staysFailed {ops : List Op} {data data' : List UInt8} {sentLen : Nat}
    (hok : ((exec (ops ++ [Op.feed data, .consume sentLen])).conn.feed data').1 = .ok) :
    ¬ (exec (ops ++ [Op.feed data])).StaysFailed
      (exec (ops ++ [Op.feed data, .consume sentLen, .feed data'])) := by
  intro hstays
  obtain ⟨codes, hcodes, hall⟩ := hstays.codes
  have hlast : (exec (ops ++ [Op.feed data, .consume sentLen, .feed data'])).codes
      = (exec (ops ++ [Op.feed data])).codes ++ [.ok] := by
    rw [exec_append, exec_append, ← hok, exec_append]
    rfl
  have heq := List.append_cancel_left (hcodes.symm.trans hlast)
  exact hall .ok (by rw [heq]; exact List.mem_singleton_self _) rfl

/-- **A PING is answered after its failure**: the output has no room for the reply, `feed` fails,
the client reads the output, and the next `feed` accepts the PING. -/
theorem ping_revived {n : Nat} (hn : 15 + 17 * n ≤ connOutputCap)
    (hfull : connOutputCap < 15 + 17 * n + 17) : (exec (pings n)).AllOk
    ∧ ((exec (pings n)).conn.feed ping.wire).1 = .internalError
    ∧ (exec (pings n)).ChunksFit [.feed ping.wire, .consume connOutputCap, .feed []]
    ∧ ((exec (pings n ++ [Op.feed ping.wire, .consume connOutputCap])).conn.feed []).1 = .ok
    ∧ ¬ (exec (pings n ++ [Op.feed ping.wire])).StaysFailed
      (exec (pings n ++ [Op.feed ping.wire, .consume connOutputCap, .feed []])) := by
  obtain ⟨hconn, -, hok⟩ := exec_pings hn
  have hg := exec_good (pings n)
  have hlen := pinged_length n
  have hwire : ping.wire.length = 17 := by decide +kernel
  have hpong : pong.wire.length = 17 := by decide +kernel
  have hframe := handleFrame_ping_full (c := { (exec (pings n)).conn with input := ping.wire })
    { hg.inv with } (by rw [hconn]; rfl) (by rw [hconn]; rfl) (by
      rw [hconn]
      simp only [hlen]
      omega)
  have hfeed := feed_frame hg.inv (by rw [hconn]; rfl) (by rw [hconn]; rfl)
    (by decide +kernel : ping.wire.length ≤ connInputCap)
  have herr : ErrorCode.internalError ≠ .ok := by decide
  rw [if_neg (by rw [hframe]; exact herr), hframe] at hfeed
  have hfed : (exec (pings n ++ [Op.feed ping.wire])).conn = { started with
      input := ping.wire
      output := wireOf (serverSettingsFrame :: List.replicate n pong)
      goawaySent := true
      goawayError := ErrorCode.internalError.toNat } := by
    have hcall : exec (pings n ++ [Op.feed ping.wire]) = (exec (pings n)).call (.feed ping.wire) :=
      exec_append _ _
    rw [hcall, Run.call_feed_conn, hfeed, hconn]
  -- the PING is still at the front of the input when the output has been read
  have hdrained : (exec (pings n ++ [Op.feed ping.wire, .consume connOutputCap])).conn = { started with
      input := ping.wire
      output := []
      goawaySent := true
      goawayError := ErrorCode.internalError.toNat } := by
    have hcall : exec (pings n ++ [Op.feed ping.wire, .consume connOutputCap])
        = (exec (pings n ++ [Op.feed ping.wire])).call (.consume connOutputCap) := by
      rw [show pings n ++ [Op.feed ping.wire, .consume connOutputCap]
        = (pings n ++ [Op.feed ping.wire]) ++ [Op.consume connOutputCap] by simp]
      exact exec_append _ _
    have hsame := consumeOutput_eq (exec_good (pings n ++ [Op.feed ping.wire])).inv.output_sent
      connOutputCap
    have hdrop : (wireOf (serverSettingsFrame :: List.replicate n pong)).drop connOutputCap = [] :=
      List.drop_eq_nil_of_le (by rw [hlen]; exact hn)
    rw [hcall]
    show (exec (pings n ++ [Op.feed ping.wire])).conn.consumeOutput connOutputCap = _
    rw [hsame, hfed]
    simp only [hdrop]
  have hinv := (exec_good (pings n ++ [Op.feed ping.wire, .consume connOutputCap])).inv
  have hagain : Delivers
      ((exec (pings n ++ [Op.feed ping.wire, .consume connOutputCap])).conn.feed [])
      ((exec (pings n ++ [Op.feed ping.wire, .consume connOutputCap])).conn.handleFrame ping) [] :=
    feed_completes hinv (by rw [hdrained]; rfl) (by rw [hdrained, List.append_nil]) (by decide +kernel)
  have hpinged := handleFrame_ping hinv (by rw [hdrained]; rfl) (by
    rw [Fits, hdrained, hpong]
    decide)
  have hrevived : ((exec (pings n ++ [Op.feed ping.wire, .consume connOutputCap])).conn.feed []).1
      = .ok := by
    rw [hagain.code, hpinged]
  refine ⟨hok, by rw [hfeed], ⟨?_, ?_, trivial⟩, hrevived, not_staysFailed hrevived⟩
  · rw [hconn, hwire]
    show ([] : List UInt8).length + 17 ≤ connInputCap
    decide
  · have hcalls : (exec (pings n)).calls [.feed ping.wire, .consume connOutputCap]
        = exec (pings n ++ [Op.feed ping.wire, .consume connOutputCap]) := (exec_append _ _).symm
    show ((exec (pings n)).calls [.feed ping.wire, .consume connOutputCap]).conn.input.length
      + ([] : List UInt8).length ≤ connInputCap
    rw [hcalls, hdrained]
    simp only [hwire]
    decide

/-- Two requests that stay open, and credit that fills the window of the second one. -/
def fullWindow : List Op :=
  [.feed (clientInput [postRequest 1, postRequest 3, windowUpdateFrame 3 2147418114])]

/-- A new initial window size that the second stream does not take. -/
def tornSettings : Frame := settingsFrame settingsInitialWindowSize 65536

/-- **Errors are not final in general.** With four bytes of the output free a PING fails, and is
answered once the client has read the output. A SETTINGS frame that overflows the second of two send
windows moves the first one again with each `feed`. -/
theorem failures_not_final :
    ((exec (pings 7709)).AllOk
      ∧ ((exec (pings 7709)).conn.feed ping.wire).1 = .internalError
      ∧ (exec (pings 7709)).ChunksFit [.feed ping.wire, .consume connOutputCap, .feed []]
      ∧ ((exec (pings 7709 ++ [Op.feed ping.wire, .consume connOutputCap])).conn.feed []).1 = .ok
      ∧ ¬ (exec (pings 7709 ++ [Op.feed ping.wire])).StaysFailed
        (exec (pings 7709 ++ [Op.feed ping.wire, .consume connOutputCap, .feed []])))
    ∧ (exec fullWindow).AllOk
      ∧ ((exec fullWindow).conn.feed tornSettings.wire).1 = .flowControlError
      ∧ (exec fullWindow).ChunksFit [.feed tornSettings.wire, .feed []]
      ∧ ((exec (fullWindow ++ [Op.feed tornSettings.wire])).conn.streams 0).sendWindow = 65534
      ∧ ((exec (fullWindow ++ [Op.feed tornSettings.wire, .feed []])).conn.streams 0).sendWindow = 65535
      ∧ ¬ (exec (fullWindow ++ [Op.feed tornSettings.wire])).StaysFailed
        (exec (fullWindow ++ [Op.feed tornSettings.wire, .feed []])) := by
  refine ⟨ping_revived (by decide) (by decide), ?_⟩
  have hbefore : ((exec (fullWindow ++ [Op.feed tornSettings.wire])).conn.streams 0).sendWindow
      = 65534 := by decide +kernel
  have hafter : ((exec (fullWindow ++ [Op.feed tornSettings.wire, .feed []])).conn.streams 0).sendWindow
      = 65535 := by decide +kernel
  refine ⟨by decide +kernel, by decide +kernel, ⟨by decide +kernel, by decide +kernel, trivial⟩,
    hbefore, hafter, fun hstays => ?_⟩
  obtain ⟨p, hp⟩ := hstays.conn
  rw [hp, withPipes_streams, hbefore] at hafter
  exact absurd hafter (by decide)

end C11Omo.Http2
