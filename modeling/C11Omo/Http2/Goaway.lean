import C11Omo.Http2.Fragments
import C11Omo.Http2.LateFrames

set_option autoImplicit false

/-! # GOAWAY

A `feed` that fails on bytes it has taken has come to a wrong preface, or to a frame that fails
(`feed_failed`). Only some failures raise a GOAWAY (`FrameStep.raised`): a stream error whose
RST_STREAM does not fit fails without one. And `goaway_sent` is set before the frame is queued, so
a GOAWAY that does not fit is never sent. An error is therefore announced exactly if it is raised
with room for a GOAWAY in the output (`errors_announced`).
-/

namespace C11Omo.Http2

open C11Omo.Lib Connection

/-! ## How `feed` fails -/

/-- The last step of a `feed` that fails on bytes it has taken. -/
inductive Fails : Obs → ErrorCode → Obs → Prop
  /-- The preface is wrong. -/
  | preface (o : Obs) (hnew : o.conn.prefaceSeen = false)
      (hlen : clientPrefaceLen ≤ o.conn.input.length)
      (hpre : o.conn.input.take clientPrefaceLen ≠ clientPreface) :
      Fails o .protocolError { o with conn := (o.conn.queueGoaway .protocolError).2 }
  /-- A frame fails. -/
  | frame (o : Obs) (f : Frame) (rest : List UInt8) (hseen : o.conn.prefaceSeen = true)
      (hcut : cutFrame o.conn.input = some (f, rest)) (herr : (o.conn.handleFrame f).1 ≠ .ok) :
      Fails o (o.conn.handleFrame f).1 { o with
        conn := (o.conn.handleFrame f).2
        steps := o.steps ++ [o.conn.frameStep f] }

/-- Small steps without an error lead to a step that fails. -/
def Breaks (o : Obs) (code : ErrorCode) (o' : Obs) : Prop :=
  ∃ o₁, Steps Micro o [] o₁ ∧ Fails o₁ code o'

theorem Breaks.after {o o' o'' : Obs} {code : ErrorCode} (h : Micro o [] o')
    (hb : Breaks o' code o'') : Breaks o code o'' := by
  obtain ⟨o₁, hsteps, hfails⟩ := hb
  exact ⟨o₁, .head h hsteps, hfails⟩

theorem feedLoop_failed {fuel : Nat} {o : Obs} (hg : Good o) (hseen : o.conn.prefaceSeen = true)
    (herr : (o.conn.feedLoop fuel).1 ≠ .ok) :
    Breaks o (o.conn.feedLoop fuel).1 { o with
      conn := (o.conn.feedLoop fuel).2
      steps := o.steps ++ o.conn.loopSteps fuel } := by
  induction fuel generalizing o with
  | zero => exact absurd rfl herr
  | succ fuel ih =>
      rw [Connection.feedLoop] at herr ⊢
      rw [Connection.loopSteps]
      rcases hcut : cutFrame o.conn.input with _ | ⟨f, rest⟩
      · rw [Connection.feedStep_of_cut_none hcut] at herr
        exact absurd rfl herr
      · rw [Connection.feedStep_of_cut hg.inv hcut] at herr ⊢
        by_cases hok : (o.conn.handleFrame f).1 = .ok
        · have hstep := Micro.frame o f rest hseen hcut hok
          simp only [if_pos hok] at herr ⊢
          have hrest := ih (hstep.good hg)
            ((Connection.handleFrame_input hg.inv f).2.trans hseen) herr
          simp only [List.append_assoc, List.singleton_append] at hrest
          exact .after hstep hrest
        · simp only [if_neg hok]
          exact ⟨o, .refl o, .frame o f rest hseen hcut hok⟩

theorem preface_failed {o : Obs} (hg : Good o) (hnew : o.conn.prefaceSeen = false)
    (hlen : clientPrefaceLen ≤ o.conn.input.length)
    (herr : (Connection.andThen o.conn.feedPreface fun c => c.feedLoop c.input.length).1 ≠ .ok) :
    Breaks o (Connection.andThen o.conn.feedPreface fun c => c.feedLoop c.input.length).1 { o with
      conn := (Connection.andThen o.conn.feedPreface fun c => c.feedLoop c.input.length).2
      steps := o.steps ++
        if o.conn.feedPreface.1 = .ok then
          o.conn.feedPreface.2.loopSteps o.conn.feedPreface.2.input.length
        else [] } := by
  by_cases hpre : o.conn.input.take clientPrefaceLen = clientPreface
  · have hgood := Connection.feedPreface_good hg.inv hg.started hnew hpre
    have hstep := Micro.preface o hnew hlen hpre
    rw [hgood, Connection.andThen_ok] at herr
    have hloop := @feedLoop_failed o.conn.greeted.input.length _ (hstep.good hg) rfl herr
    simp only [hgood, Connection.andThen_ok, if_true]
    exact .after hstep hloop
  · have hbad := Connection.feedPreface_bad hpre
    have hne : ErrorCode.protocolError ≠ .ok := by decide
    simp only [hbad, if_neg hne, List.append_nil]
    rw [Connection.andThen_err hne]
    exact ⟨o, .refl o, .preface o hnew hlen hpre⟩

/-- **How a `feed` fails** on bytes that it has taken. -/
theorem feed_failed {o : Obs} (hg : Good o) {data : List UInt8}
    (hfit : data.length ≤ connInputCap - o.conn.input.length)
    (herr : (o.conn.feed data).1 ≠ .ok) :
    Breaks o (o.conn.feed data).1 { o with
      conn := (o.conn.feed data).2
      received := o.received ++ data
      steps := o.steps ++ o.conn.feedSteps data } := by
  have hin := hg.input_le
  have hbig : ¬ data.length > connInputCap - o.conn.input.length := not_lt.mpr hfit
  have harrive := Micro.arrive o data (by omega)
  have hg' := harrive.good hg
  rw [Connection.feed] at herr ⊢
  rw [Connection.feedSteps]
  simp only [if_neg hbig] at herr ⊢
  apply Breaks.after harrive
  by_cases hseen : o.conn.prefaceSeen = true
  · simp only [if_pos hseen] at herr ⊢
    exact feedLoop_failed hg' hseen herr
  · have hnew : o.conn.prefaceSeen = false := by simpa using hseen
    simp only [if_neg hseen] at herr ⊢
    by_cases hlen : (o.conn.input ++ data).length < clientPrefaceLen
    · rw [if_pos hlen] at herr
      exact absurd rfl herr
    · simp only [if_neg hlen] at herr ⊢
      exact preface_failed hg' hnew (not_lt.mp hlen) herr

/-! ## What raises a GOAWAY -/

/-- The error for which `feed` queues a GOAWAY, with the connection in which it does so. -/
def FrameStep.raised (st : FrameStep) : Option (ErrorCode × Connection) :=
  match st.before.processFrame st.frame.header st.frame.payload with
  | (.ok, _) => none
  | (ret, conn) => if isStreamError ret ∧ st.frame.streamId ≠ 0 then none else some (ret, conn)

/-- The GOAWAY is queued, and there is room for its 17 bytes. -/
def FrameStep.Announces (st : FrameStep) : Prop :=
  ∃ ret conn, st.raised = some (ret, conn) ∧ conn.output.length + 17 ≤ connOutputCap

/-- There is room for the GOAWAY if it is the first one. -/
def FrameStep.HasRoom (st : FrameStep) : Prop :=
  ∀ ret conn, st.raised = some (ret, conn) → conn.goawaySent = false →
    conn.output.length + 17 ≤ connOutputCap

/-- **A frame and its GOAWAY**: what the handler queues is no GOAWAY, and one is queued in the
state the handler leaves if the error is raised. -/
theorem frameStep_raised {c : Connection} (hc : Inv c) (f : Frame) :
    ∃ fs : List Frame, (∀ g ∈ fs, g.type ≠ FrameType.goaway.toByte)
      ∧ ((c.frameStep f).raised = none ∧ (c.handleFrame f).2.goawaySent = c.goawaySent
          ∧ (c.handleFrame f).2.output = c.output ++ wireOf fs
        ∨ ∃ ret conn, (c.frameStep f).raised = some (ret, conn) ∧ ret ≠ .ok ∧ Inv conn
          ∧ conn.goawaySent = c.goawaySent ∧ conn.output = c.output ++ wireOf fs
          ∧ c.handleFrame f = (ret, (conn.queueGoaway ret).2)) := by
  obtain ⟨es, hes, -⟩ := processFrame_acts hc f
  rcases hres : c.processFrame f.header f.payload with ⟨ret, conn⟩
  rw [hres] at hes
  have hc' := hes.inv hc
  rw [FrameStep.raised, frameStep, hres]
  by_cases hok : ret = .ok
  · subst hok
    rw [handleFrame_ok hres]
    exact ⟨_, hes.no_goaway, Or.inl ⟨rfl, hes.sameFeed.goawaySent, hes.output⟩⟩
  · by_cases hreset : isStreamError ret = true ∧ f.streamId ≠ 0
    · obtain ⟨q, hq, -⟩ := resetStreamError_acts hc' hreset.2 ret
      have hall : Acts c (es ++ q) (conn.resetStreamError f.streamId ret).2 := hes.trans hq
      rw [handleFrame_reset hres hreset.1 hreset.2]
      refine ⟨_, hall.no_goaway, Or.inl ⟨?_, hall.sameFeed.goawaySent, hall.output⟩⟩
      cases ret <;> first | exact absurd rfl hok | exact if_pos hreset
    · refine ⟨_, hes.no_goaway, Or.inr ⟨ret, conn, ?_, hok, hc', hes.sameFeed.goawaySent, hes.output,
        handleFrame_goaway hres hok hreset⟩⟩
      cases ret <;> first | exact absurd rfl hok | exact if_neg hreset

theorem goaway_fits_iff (c : Connection) (lastStreamId : Nat) (errorCode : ErrorCode) :
    c.Fits (goawayFrame lastStreamId errorCode) ↔ c.output.length + 17 ≤ connOutputCap := by
  rw [Fits, goawayFrame_wire_length]

/-! ## The first error -/

/-- Every `feed` has returned `H2_OK`, or has not taken its bytes. -/
def NoError (ops : List Op) : Prop :=
  ∀ before data after, ops = before ++ .feed data :: after →
    data.length ≤ connInputCap - (exec before).conn.input.length →
    ((exec before).conn.feed data).1 = .ok

theorem noError_of_allOk {ops : List Op} (hok : (exec ops).AllOk) : NoError ops := by
  intro before data after hops _
  subst hops
  have hsplit : exec (before ++ Op.feed data :: after)
      = ((exec before).call (.feed data)).calls after := exec_append before (.feed data :: after)
  rw [hsplit] at hok
  exact allOk_of_calls hok _ (List.mem_append_right _ (by simp))

/-- Nothing has failed so far. -/
structure Untroubled (o : Obs) : Prop where
  unsent : o.conn.goawaySent = false
  output : ∃ fs, o.total = wireOf fs ∧ ∀ g ∈ fs, g.type ≠ FrameType.goaway.toByte
  steps : ∀ st ∈ o.steps, st.code = .ok

/-- The output ends with a GOAWAY that carries the error, and there is no other. -/
def Obs.Announced (o : Obs) (errorCode : ErrorCode) : Prop :=
  ∃ before, o.total = wireOf (before ++ [goawayFrame o.conn.lastStreamId errorCode])
    ∧ ∀ g ∈ before, g.type ≠ FrameType.goaway.toByte

theorem not_announced {o : Obs} {fs : List Frame} (htotal : o.total = wireOf fs)
    (hfs : ∀ g ∈ fs, g.type ≠ FrameType.goaway.toByte) (errorCode : ErrorCode) :
    ¬ o.Announced errorCode := by
  rintro ⟨before, hbefore, -⟩
  have heq := congrArg framesOf (htotal.symm.trans hbefore)
  rw [framesOf_wireOf, framesOf_wireOf] at heq
  have hlast : goawayFrame o.conn.lastStreamId errorCode ∈ fs := by
    rw [heq]
    simp
  exact hfs _ hlast rfl

theorem Micro.untroubled {o o' : Obs} (h : Micro o [] o') (hg : Good o) (hu : Untroubled o) :
    Untroubled o' := by
  have htotal' := Obs.total_eq (h.good hg)
  obtain ⟨hunsent, ⟨fs, hfs, hno⟩, hsteps⟩ := hu
  have htotal := Obs.total_eq hg
  rw [htotal] at hfs
  cases h with
  | consume sentLen =>
      refine ⟨hunsent, ⟨fs, ?_, hno⟩, hsteps⟩
      rw [htotal', List.append_assoc, List.take_append_drop, hfs]
  | arrive data hfit => exact ⟨hunsent, ⟨fs, htotal'.trans hfs, hno⟩, hsteps⟩
  -- the greeting is a SETTINGS frame
  | preface hnew hlen hpre =>
      refine ⟨hunsent, ⟨fs ++ [serverSettingsFrame], ?_, ?_⟩, hsteps⟩
      · have hout : o.conn.greeted.output = o.conn.output ++ serverSettingsFrame.wire := rfl
        rw [htotal', hout, ← List.append_assoc, hfs, wireOf_append, wireOf_singleton]
      · intro g hmem
        rcases List.mem_append.mp hmem with hmem | hmem
        · exact hno g hmem
        · rw [List.mem_singleton.mp hmem]
          decide
  -- an accepted frame queues whole frames, none of them a GOAWAY, and raises no error
  | frame f rest hseen hcut hok =>
      have hacts := frameStep_acts hg.inv hok
      refine ⟨hacts.sameFeed.goawaySent.trans hunsent,
        ⟨fs ++ queuedFrames (o.conn.frameStep f).events, ?_, ?_⟩, ?_⟩
      · rw [htotal', wireOf_append, ← hfs, List.append_assoc, ← hacts.output]
      · intro g hmem
        rcases List.mem_append.mp hmem with hmem | hmem
        · exact hno g hmem
        · exact hacts.no_goaway g hmem
      · intro st hst
        rcases List.mem_append.mp hst with hst | hst
        · exact hsteps st hst
        · rw [List.mem_singleton.mp hst]
          exact hok

theorem exec_untroubled {ops : List Op} (hno : NoError ops) : Untroubled (exec ops).toObs := by
  induction ops using List.reverseRecOn with
  | nil => exact ⟨rfl, ⟨[], rfl, by simp⟩, by simp [exec, Run.calls, Run.start]⟩
  | append_singleton ops op ih =>
      have hg := exec_good ops
      have hcall : exec (ops ++ [op]) = (exec ops).call op := exec_append ops [op]
      have hu := ih fun before data after hops => hno before data (after ++ [op]) (by simp [hops])
      rw [hcall]
      cases op with
      | consume sentLen =>
          have htotal := call_consume_total hg sentLen
          have hsame := Connection.consumeOutput_eq hg.inv.output_sent sentLen
          refine ⟨?_, ?_, hu.steps⟩
          · simp only [Run.call, hsame]
            exact hu.unsent
          · rw [htotal]
            exact hu.output
      | feed data =>
          by_cases hfit : data.length ≤ connInputCap - (exec ops).conn.input.length
          · have hok := hno ops data [] rfl hfit
            -- the call is a series of steps that all succeed
            obtain ⟨es, hes, ⟨-, rfl⟩ | ⟨hne, -⟩⟩ := feed_made hg data
            · have hsteps := steps_invariant_ok (fun hg hs hu => hs.untroubled hg hu) hes hg hu
              exact hsteps.2
            · exact absurd hok hne
          · -- the bytes are not taken
            have hbig : data.length > connInputCap - (exec ops).conn.input.length := not_le.mp hfit
            have hsame : (exec ops).conn.feed data = (.internalError, (exec ops).conn) := by
              rw [Connection.feed, if_pos hbig]
            have hnone : (exec ops).conn.feedSteps data = [] := by
              rw [Connection.feedSteps, if_pos hbig]
            obtain ⟨hunsent, hout, hsteps⟩ := hu
            refine ⟨?_, ?_, ?_⟩
            · rw [Run.call_feed_conn, hsame]
              exact hunsent
            · rw [Obs.total, Run.call_feed_conn, Run.call_feed_sent, hsame]
              exact hout
            · show ∀ st ∈ (exec ops).steps ++ (exec ops).conn.feedSteps data, st.code = .ok
              rw [hnone, List.append_nil]
              exact hsteps

/-- **A failure is announced** exactly if it raises a GOAWAY with room for it. -/
theorem Fails.announced_iff {o o' : Obs} {code : ErrorCode} (h : Fails o code o') (hg : Good o)
    (hb : Begun o) (hu : Untroubled o) :
    o'.Announced code ↔ ∀ st ∈ o'.steps, st.code ≠ .ok → st.Announces := by
  have htotal := Obs.total_eq hg
  obtain ⟨hunsent, ⟨fs, hfs, hno⟩, hsteps⟩ := hu
  have hgood : Good o' := by
    cases h with
    | preface hnew hlen hpre => exact (Micro.badPreface o hnew hlen hpre).good hg
    | frame f rest hseen hcut herr => exact (Micro.fail o f rest hseen hcut herr).good hg
  have htotal' := Obs.total_eq hgood
  cases h with
  | preface hnew hlen hpre =>
      have hnil := (hb.unseen hnew).1
      -- the first call that has 24 bytes: nothing is queued yet, so the GOAWAY fits
      have hempty := (hg.started hnew).2.2 hunsent
      have hfit : o.conn.Fits (goawayFrame o.conn.lastStreamId .protocolError) := by
        rw [goaway_fits_iff, hempty]
        decide
      have hgo := queueGoaway_eq hg.inv .protocolError
      rw [if_neg (by simp [hunsent]), if_pos hfit] at hgo
      constructor
      · intro _ st hst
        have hst' : st ∈ o.steps := hst
        rw [hnil] at hst'
        cases hst'
      · intro _
        simp only [hgo] at htotal' ⊢
        refine ⟨fs, ?_, hno⟩
        rw [htotal', wireOf_append, ← hfs, htotal, List.append_assoc, wireOf_singleton]
        rfl
  | frame f rest hseen hcut herr =>
      obtain ⟨gs, hgs, hcases⟩ := frameStep_raised hg.inv f
      -- everything before the GOAWAY
      have hall : ∀ g ∈ fs ++ gs, g.type ≠ FrameType.goaway.toByte := by
        intro g hmem
        rcases List.mem_append.mp hmem with hmem | hmem
        · exact hno g hmem
        · exact hgs g hmem
      have hlast : o.conn.frameStep f ∈ o.steps ++ [o.conn.frameStep f] := by simp
      -- either the frame raises no GOAWAY, or `queue_goaway` is called in the state `conn`
      rcases hcases with ⟨hnone, -, hout⟩ | ⟨ret, conn, hsome, hret, hconn, hsent, hout, hres⟩
      · -- `feed` returns the error of the handler without a GOAWAY
        constructor
        · intro hann
          refine absurd hann (@not_announced _ (fs ++ gs) ?_ hall _)
          rw [htotal', wireOf_append, ← hfs, htotal, hout, List.append_assoc]
        · intro hst
          obtain ⟨ret, conn, hsome, -⟩ := hst _ hlast herr
          rw [hnone] at hsome
          cases hsome
      · have hgo := queueGoaway_eq hconn ret
        rw [if_neg (by simp [hsent, hunsent])] at hgo
        have hbefore : o.sent ++ conn.output = wireOf (fs ++ gs) := by
          rw [wireOf_append, ← hfs, htotal, hout, List.append_assoc]
        -- the flag is set either way; only the frame depends on the room
        by_cases hroom : conn.output.length + 17 ≤ connOutputCap
        · rw [if_pos ((goaway_fits_iff conn _ _).mpr hroom)] at hgo
          constructor
          · intro _ st hst hcode
            rcases List.mem_append.mp hst with hst | hst
            · exact absurd (hsteps st hst) hcode
            · rw [List.mem_singleton.mp hst]
              exact ⟨ret, conn, hsome, hroom⟩
          · intro _
            simp only [hres, hgo] at htotal' ⊢
            refine ⟨fs ++ gs, ?_, hall⟩
            rw [htotal', wireOf_append (fs ++ gs), wireOf_singleton, ← hbefore, List.append_assoc]
            rfl
        · rw [if_neg (mt (goaway_fits_iff conn _ _).mp hroom)] at hgo
          constructor
          · intro hann
            refine absurd hann (@not_announced _ (fs ++ gs) ?_ hall _)
            rw [htotal']
            simp only [hres, hgo]
            exact hbefore
          · intro hst
            obtain ⟨ret', conn', hsome', hroom'⟩ := hst _ hlast herr
            rw [hsome] at hsome'
            obtain ⟨rfl, rfl⟩ := Prod.mk.inj (Option.some.inj hsome')
            exact absurd hroom' hroom

/-! ## All runs -/

/-- A GOAWAY is part of the output. -/
def Obs.HasGoaway (o : Obs) : Prop := ∃ g ∈ o.frames, g.type = FrameType.goaway.toByte

theorem hasGoaway_iff {o : Obs} {fs : List Frame} (htotal : o.total = wireOf fs) :
    o.HasGoaway ↔ ∃ g ∈ fs, g.type = FrameType.goaway.toByte := by
  rw [Obs.HasGoaway, Obs.frames, htotal, framesOf_wireOf]

/-- The flag and the output: before the flag is set no GOAWAY has been raised, and once it is set
the GOAWAY is in the output if there was room for it. -/
structure Flagged (o : Obs) : Prop where
  output : ∃ fs, o.total = wireOf fs
  unsent : o.conn.goawaySent = false →
    ¬ o.HasGoaway ∧ ∀ st ∈ o.steps, st.raised = none
  sent : o.conn.goawaySent = true → (o.HasGoaway ↔ ∀ st ∈ o.steps, st.HasRoom)

theorem Flagged.iff {o : Obs} (h : Flagged o) :
    (o.conn.goawaySent = true ↔ o.HasGoaway) ↔ ∀ st ∈ o.steps, st.HasRoom := by
  by_cases hsent : o.conn.goawaySent = true
  · rw [← h.sent hsent]
    exact ⟨fun hiff => hiff.mp hsent, fun hgo => iff_of_true hsent hgo⟩
  · obtain ⟨hno, hsteps⟩ := h.unsent (by simpa using hsent)
    constructor
    · intro _ st hst ret conn hsome
      rw [hsteps st hst] at hsome
      cases hsome
    · exact fun _ => iff_of_false hsent hno

theorem hasGoaway_congr {o o' : Obs} (h : o'.total = o.total) : o'.HasGoaway ↔ o.HasGoaway := by
  rw [Obs.HasGoaway, Obs.HasGoaway, Obs.frames, Obs.frames, h]

theorem hasGoaway_append {o o' : Obs} {fs gs : List Frame} (htotal : o.total = wireOf fs)
    (h : o'.total = o.total ++ wireOf gs) (hgs : ∀ g ∈ gs, g.type ≠ FrameType.goaway.toByte) :
    o'.HasGoaway ↔ o.HasGoaway := by
  have htotal' : o'.total = wireOf (fs ++ gs) := by rw [h, htotal, wireOf_append]
  rw [hasGoaway_iff htotal, hasGoaway_iff htotal']
  constructor
  · rintro ⟨g, hmem, htype⟩
    rcases List.mem_append.mp hmem with hmem | hmem
    · exact ⟨g, hmem, htype⟩
    · exact absurd htype (hgs g hmem)
  · rintro ⟨g, hmem, htype⟩
    exact ⟨g, List.mem_append_left _ hmem, htype⟩

/-- One more frame. -/
theorem Flagged.frame {o o' : Obs} (hflag : Flagged o) (hg : Good o) (hg' : Good o') {f : Frame}
    (hsame : o'.sent = o.sent) (hout' : o'.conn.output = (o.conn.handleFrame f).2.output)
    (hsent' : o'.conn.goawaySent = (o.conn.handleFrame f).2.goawaySent)
    (hsteps' : o'.steps = o.steps ++ [o.conn.frameStep f]) : Flagged o' := by
  obtain ⟨⟨fs, hfs⟩, hunsent, hsent⟩ := hflag
  have htotal := Obs.total_eq hg
  have htotal' : o'.total = o.sent ++ (o.conn.handleFrame f).2.output := by
    rw [Obs.total_eq hg', hsame, hout']
  have hlast : ∀ P : FrameStep → Prop, (∀ st ∈ o'.steps, P st)
      ↔ (∀ st ∈ o.steps, P st) ∧ P (o.conn.frameStep f) := by
    intro P
    rw [hsteps', List.forall_mem_append, List.forall_mem_singleton]
  obtain ⟨gs, hgs, ⟨hnone, hkeep, hout⟩ | ⟨ret, conn, hsome, -, hconn, hkeep, hout, hres⟩⟩ :=
    frameStep_raised hg.inv f
  · -- no GOAWAY is raised
    have hroom : (o.conn.frameStep f).HasRoom := by
      intro ret conn hsome
      rw [hnone] at hsome
      cases hsome
    have hgrown : o'.total = o.total ++ wireOf gs := by
      rw [htotal', hout, htotal, List.append_assoc]
    have hiff := hasGoaway_append hfs hgrown hgs
    rw [hkeep] at hsent'
    refine ⟨⟨fs ++ gs, by rw [hgrown, hfs, wireOf_append]⟩, fun h => ?_, fun h => ?_⟩
    · obtain ⟨hno, hall⟩ := hunsent (hsent'.symm.trans h)
      exact ⟨mt hiff.mp hno, (hlast _).mpr ⟨hall, hnone⟩⟩
    · rw [hiff, hlast, hsent (hsent'.symm.trans h), and_iff_left hroom]
  · have hgo := queueGoaway_eq hconn ret
    by_cases hset : o.conn.goawaySent = true
    · -- it is not the first
      have hroom : (o.conn.frameStep f).HasRoom := by
        intro ret' conn' hsome' hno
        rw [hsome] at hsome'
        obtain ⟨rfl, rfl⟩ := Prod.mk.inj (Option.some.inj hsome')
        rw [hkeep, hset] at hno
        cases hno
      rw [if_pos (hkeep.trans hset)] at hgo
      rw [hres, hgo] at htotal' hsent'
      have hgrown : o'.total = o.total ++ wireOf gs := by
        rw [htotal', htotal, List.append_assoc, hout]
      have hiff := hasGoaway_append hfs hgrown hgs
      have hset' : o'.conn.goawaySent = true := hsent'.trans (hkeep.trans hset)
      refine ⟨⟨fs ++ gs, by rw [hgrown, hfs, wireOf_append]⟩, fun h => ?_, fun _ => ?_⟩
      · rw [hset'] at h
        cases h
      · rw [hiff, hlast, hsent hset, and_iff_left hroom]
    · have hclear : o.conn.goawaySent = false := by simpa using hset
      obtain ⟨hno, hall⟩ := hunsent hclear
      have hfirst : ∀ st ∈ o.steps, st.HasRoom := by
        intro st hst ret' conn' hsome'
        rw [hall st hst] at hsome'
        cases hsome'
      rw [if_neg (by simp [hkeep, hclear])] at hgo
      have hroom : (o.conn.frameStep f).HasRoom ↔ conn.output.length + 17 ≤ connOutputCap := by
        constructor
        · exact fun h => h ret conn hsome (hkeep.trans hclear)
        · intro h ret' conn' hsome' _
          rw [hsome] at hsome'
          obtain ⟨rfl, rfl⟩ := Prod.mk.inj (Option.some.inj hsome')
          exact h
      -- the first GOAWAY: it is written if there is room, and lost for good if there is not
      by_cases hfit : conn.output.length + 17 ≤ connOutputCap
      · rw [if_pos ((goaway_fits_iff conn _ _).mpr hfit)] at hgo
        rw [hres, hgo] at htotal' hsent'
        have hgrown : o'.total
            = wireOf (fs ++ gs ++ [goawayFrame conn.lastStreamId ret]) := by
          rw [htotal', wireOf_append (fs ++ gs), wireOf_append fs, ← hfs, htotal,
            List.append_assoc o.sent, ← hout, wireOf_singleton, List.append_assoc]
          rfl
        refine ⟨⟨_, hgrown⟩, fun h => ?_, fun _ => ?_⟩
        · rw [hsent'] at h
          cases h
        · rw [hlast]
          refine iff_of_true ?_ ⟨hfirst, hroom.mpr hfit⟩
          rw [hasGoaway_iff hgrown]
          exact ⟨_, List.mem_append_right _ (List.mem_singleton_self _), rfl⟩
      · rw [if_neg (mt (goaway_fits_iff conn _ _).mp hfit)] at hgo
        rw [hres, hgo] at htotal' hsent'
        have hgrown : o'.total = o.total ++ wireOf gs := by
          rw [htotal', htotal, List.append_assoc, ← hout]
        have hiff := hasGoaway_append hfs hgrown hgs
        refine ⟨⟨fs ++ gs, by rw [hgrown, hfs, wireOf_append]⟩, fun h => ?_, fun _ => ?_⟩
        · rw [hsent'] at h
          cases h
        · rw [hlast, hiff]
          exact iff_of_false hno (fun h => hfit (hroom.mp h.2))

theorem Micro.flagged {o o' : Obs} {es : List ErrorCode} (h : Micro o es o') (hg : Good o)
    (hb : Begun o) (hflag : Flagged o) : Flagged o' := by
  have hg' := h.good hg
  have htotal := Obs.total_eq hg
  have htotal' := Obs.total_eq hg'
  -- a step that leaves the output, the flag and the frames alone
  have hidle : o'.total = o.total → o'.conn.goawaySent = o.conn.goawaySent →
      o'.steps = o.steps → Flagged o' := by
    intro hout hsent hsteps
    obtain ⟨⟨fs, hfs⟩, h1, h2⟩ := hflag
    have hiff := hasGoaway_congr hout
    refine ⟨⟨fs, hout.trans hfs⟩, ?_, ?_⟩
    · rw [hsent, hsteps, hiff]
      exact h1
    · rw [hsent, hsteps, hiff]
      exact h2
  cases h with
  | consume sentLen =>
      refine hidle ?_ rfl rfl
      rw [htotal', List.append_assoc, List.take_append_drop, htotal]
  | arrive data hfit => exact hidle (htotal'.trans htotal.symm) rfl rfl
  | refuse data hbig => exact hidle (htotal'.trans htotal.symm) rfl rfl
  | preface hnew hlen hpre =>
      obtain ⟨⟨fs, hfs⟩, h1, h2⟩ := hflag
      have hgrown : Obs.total { o with conn := o.conn.greeted }
          = o.total ++ wireOf [serverSettingsFrame] := by
        rw [htotal', htotal, List.append_assoc, wireOf_singleton]
        rfl
      have hiff := hasGoaway_append hfs hgrown (by decide)
      refine ⟨⟨fs ++ [serverSettingsFrame], by rw [hgrown, hfs, wireOf_append]⟩, ?_, ?_⟩
      · rw [hiff]
        exact h1
      · rw [hiff]
        exact h2
  | badPreface hnew hlen hpre =>
      have hgo := queueGoaway_eq hg.inv .protocolError
      by_cases hset : o.conn.goawaySent = true
      · rw [if_pos hset] at hgo
        apply hidle
        · rw [Obs.total, hgo]
          rfl
        · rw [hgo]
        · rfl
      · -- no frame has been handled, so the GOAWAY is the whole output
        have hclear : o.conn.goawaySent = false := by simpa using hset
        have hempty := (hg.started hnew).2.2 hclear
        have hfit : o.conn.Fits (goawayFrame o.conn.lastStreamId .protocolError) := by
          rw [goaway_fits_iff, hempty]
          decide
        obtain ⟨⟨fs, hfs⟩, -, -⟩ := hflag
        rw [if_neg hset, if_pos hfit] at hgo
        have hsteps : o.steps = [] := (hb.unseen hnew).1
        simp only [hgo] at htotal' ⊢
        have hgrown := calc
          _ = _ := htotal'
          _ = o.total ++ (goawayFrame o.conn.lastStreamId .protocolError).wire := by
            rw [htotal, List.append_assoc]
            rfl
          _ = wireOf (fs ++ [goawayFrame o.conn.lastStreamId .protocolError]) := by
            rw [hfs, wireOf_append, wireOf_singleton]
        refine ⟨⟨_, hgrown⟩, fun h => (by cases h), fun _ => ?_⟩
        rw [hasGoaway_iff hgrown, hsteps]
        exact iff_of_true ⟨_, List.mem_append_right _ (List.mem_singleton_self _), rfl⟩ (by simp)
  | frame f rest hseen hcut hok => exact hflag.frame hg hg' rfl rfl rfl rfl
  | fail f rest hseen hcut herr => exact hflag.frame hg hg' rfl rfl rfl rfl

theorem exec_flagged (ops : List Op) : Flagged (exec ops).toObs := by
  have hstart : Flagged Run.start.toObs := by
    refine ⟨⟨[], rfl⟩, fun _ => ⟨?_, by simp [Run.start]⟩, fun h => (by cases h)⟩
    rintro ⟨g, hg, -⟩
    cases hg
  have hbegun : Begun Run.start.toObs := exec_begun []
  have hboth := exec_invariant (P := fun o => Begun o ∧ Flagged o) ⟨hbegun, hstart⟩
    (fun hg hs hb => ⟨hs.begun hg hb.1, hs.flagged hg hb.1 hb.2⟩) ops
  exact hboth.2

/-- **Errors are announced** if they are raised with room for a GOAWAY: the first `feed` that
fails on bytes it has taken ends the output with the only GOAWAY exactly if its frame does not fail
with a stream error and finds room, and in every run `goaway_sent` tells whether the output has a
GOAWAY exactly if every frame that was to queue the first one has found room. -/
theorem errors_announced (ops : List Op) :
    (∀ data, NoError ops → data.length ≤ connInputCap - (exec ops).conn.input.length →
      ((exec ops).conn.feed data).1 ≠ .ok →
      ((exec (ops ++ [.feed data])).Announced ((exec ops).conn.feed data).1
        ↔ ∀ st ∈ (exec (ops ++ [.feed data])).steps, st.code ≠ .ok → st.Announces))
      ∧ (((exec ops).conn.goawaySent = true ↔ (exec ops).HasGoaway)
        ↔ ∀ st ∈ (exec ops).steps, st.HasRoom) := by
  refine ⟨fun data hno hfit herr => ?_, (exec_flagged ops).iff⟩
  have hg := exec_good ops
  obtain ⟨o₁, hsteps, hfails⟩ := feed_failed hg hfit herr
  obtain ⟨hg₁, hb₁, hu₁⟩ := steps_invariant_ok (P := fun o => Begun o ∧ Untroubled o)
    (fun hg hs h => ⟨hs.begun hg h.1, hs.untroubled hg h.2⟩) hsteps hg
    ⟨exec_begun ops, exec_untroubled hno⟩
  have hcall : exec (ops ++ [Op.feed data]) = (exec ops).call (.feed data) := exec_append ops _
  rw [hcall]
  exact hfails.announced_iff hg₁ hb₁ hu₁

/-- A PUSH_PROMISE, which no client may send. -/
def promise : Frame := Frame.of FrameType.pushPromise.toByte 0 1 []

/-- Behind the preface it is announced. -/
theorem errors_announced_promise :
    (exec [.feed clientPreface, .feed promise.wire]).Announced .protocolError := by
  have hfirst : ((exec [.feed clientPreface]).conn.feed promise.wire).1 = .protocolError := by
    decide +kernel
  have hno : NoError [.feed clientPreface] := noError_of_allOk (by decide +kernel)
  have hiff := (errors_announced [.feed clientPreface]).1 promise.wire hno (by decide +kernel)
    (by rw [hfirst]; decide)
  rw [hfirst] at hiff
  refine hiff.mpr fun st hst _ => ?_
  have hsteps : (exec ([.feed clientPreface] ++ [Op.feed promise.wire])).steps
      = [{ (exec [.feed clientPreface]).conn with input := promise.wire }.frameStep promise] := rfl
  rw [hsteps] at hst
  rw [List.mem_singleton.mp hst]
  exact ⟨.protocolError, _, rfl, by decide +kernel⟩

/-! ## An output without room -/

/-- A PING, and the reply to it. -/
def ping : Frame := Frame.of FrameType.ping.toByte 0 0 (List.replicate 8 0)

def pong : Frame := pingAckFrame (List.replicate 8 0)

/-- The preface and `n` PINGs, while nothing is consumed. -/
def pings (n : Nat) : List Op := .feed clientPreface :: List.replicate n (.feed ping.wire)

theorem handleFrame_ping {c : Connection} (hc : Inv c) (hopen : c.headerBlockOpen = false)
    (hfit : c.Fits pong) : c.handleFrame ping = (.ok, c.push pong) := by
  have hsize : ping.payload.length ≤ c.maxFrameSize := by
    have hmax := hc.max_frame.1
    have hlen : ping.payload.length = 8 := by decide +kernel
    simp only [defaultMaxFrameSize] at hmax
    omega
  have hparse : parsePing ping.header ping.payload = .ok (List.replicate 8 0) := by decide +kernel
  have hack : ¬ hasFlag ping.header.flags flagAck = true := by decide +kernel
  have htype : ping.type = FrameType.ping.toByte := rfl
  apply handleFrame_ok
  rw [processFrame_handler (admits_closed hopen hsize) htype, handler, processPing, hparse]
  simp only
  rw [if_neg hack, encodePing_eq (by decide), queueWire_wire hc]
  exact if_pos hfit

theorem handleFrame_promise {c : Connection} (hc : Inv c) (hopen : c.headerBlockOpen = false)
    (hunsent : c.goawaySent = false) (hfull : connOutputCap < c.output.length + 17) :
    c.handleFrame promise = (.protocolError,
      { c with goawaySent := true, goawayError := ErrorCode.protocolError.toNat }) := by
  have htype : promise.type = FrameType.pushPromise.toByte := rfl
  have hsize : promise.payload.length ≤ c.maxFrameSize := Nat.zero_le _
  have hproc : c.processFrame promise.header promise.payload = (.protocolError, c) :=
    processFrame_handler (admits_closed hopen hsize) htype
  have hroom : ¬ c.Fits (goawayFrame c.lastStreamId .protocolError) := by
    rw [goaway_fits_iff]
    omega
  have hgo := queueGoaway_eq hc .protocolError
  rw [if_neg (by simp [hunsent]), if_neg hroom] at hgo
  rw [handleFrame_goaway hproc (by decide) (by simp [isStreamError]), hgo]

/-- The connection after the PINGs. -/
structure Pinged (n : Nat) (r : Run) : Prop where
  conn : r.conn = { started with
    output := wireOf (serverSettingsFrame :: List.replicate n pong) }
  sent : r.sent = []
  ok : r.AllOk

theorem pinged_length (n : Nat) :
    (wireOf (serverSettingsFrame :: List.replicate n pong)).length = 15 + 17 * n := by
  have hpong : pong.wire.length = 17 := by decide +kernel
  have hall : ∀ n, (wireOf (List.replicate n pong)).length = 17 * n := by
    intro n
    induction n with
    | zero => rfl
    | succ n ih =>
        rw [List.replicate_succ, wireOf, List.flatMap_cons, List.length_append, hpong]
        rw [wireOf] at ih
        omega
  rw [← List.singleton_append, wireOf_append, List.length_append, hall, wireOf_singleton,
    serverSettingsFrame_wire_length]

theorem exec_pings {n : Nat} (hn : 15 + 17 * n ≤ connOutputCap) : Pinged n (exec (pings n)) := by
  induction n with
  | zero =>
      have hfed : Delivers (Connection.init.feed clientPreface)
          (started.handleFrames (frameFraming.split []).1) (frameFraming.split []).2 :=
        feed_start_delivers (rfl : [] ++ clientPreface = clientPreface ++ []) (by decide)
      have hok : (Connection.init.feed clientPreface).1 = .ok := hfed.code
      have hconn : (Connection.init.feed clientPreface).2 = started := by
        rw [hfed.state, hfed.rest hok]
        rfl
      refine ⟨?_, rfl, fun code hcode => ?_⟩
      · show (Connection.init.feed clientPreface).2 = _
        rw [hconn]
        rfl
      · rw [List.mem_singleton.mp hcode]
        exact hok
  | succ n ih =>
      obtain ⟨hconn, hsent, hok⟩ := ih (by omega)
      have hinv := (exec_good (pings n)).inv
      have hcall : exec (pings (n + 1)) = (exec (pings n)).call (.feed ping.wire) := by
        rw [pings, List.replicate_succ', ← List.cons_append]
        exact exec_append (pings n) [.feed ping.wire]
      have hlen := pinged_length n
      -- there is room for one more reply
      have hfit : Fits { (exec (pings n)).conn with input := ping.wire } pong := by
        have hpong : pong.wire.length = 17 := by decide +kernel
        rw [Fits, hconn, hpong]
        simp only [hlen]
        omega
      have hframe := handleFrame_ping (c := { (exec (pings n)).conn with input := ping.wire })
        { hinv with } (by rw [hconn]; rfl) hfit
      have hfeed := feed_frame hinv (by rw [hconn]; rfl) (by rw [hconn]; rfl)
        (by decide +kernel : ping.wire.length ≤ connInputCap)
      rw [if_pos (by rw [hframe]), hframe] at hfeed
      rw [hcall]
      refine ⟨?_, hsent, fun code hcode => ?_⟩
      · rw [Run.call_feed_conn, hfeed, hconn, List.replicate_succ', ← List.cons_append,
          wireOf_append, wireOf_singleton]
        rfl
      · rw [Run.call_feed_codes, hfeed] at hcode
        rcases List.mem_append.mp hcode with hcode | hcode
        · exact hok code hcode
        · exact List.mem_singleton.mp hcode

/-- With less than 17 bytes of the output free, a failing frame sets `goaway_sent`, but there is no
GOAWAY in the output. -/
theorem pings_promise {n : Nat} (hn : 15 + 17 * n ≤ connOutputCap)
    (hfull : connOutputCap < 15 + 17 * n + 17) : (exec (pings n)).AllOk
    ∧ ((exec (pings n)).conn.feed promise.wire).1 = .protocolError
    ∧ ¬ (exec (pings n ++ [Op.feed promise.wire])).Announced .protocolError
    ∧ (exec (pings n ++ [Op.feed promise.wire])).conn.goawaySent = true
    ∧ ¬ (exec (pings n ++ [Op.feed promise.wire])).HasGoaway := by
  obtain ⟨hconn, hsent, hok⟩ := exec_pings hn
  have hinv := (exec_good (pings n)).inv
  have hlen := pinged_length n
  have hcall : exec (pings n ++ [Op.feed promise.wire])
      = (exec (pings n)).call (.feed promise.wire) := exec_append _ _
  have hframe := handleFrame_promise (c := { (exec (pings n)).conn with input := promise.wire })
    { hinv with } (by rw [hconn]; rfl) (by rw [hconn]; rfl) (by
      rw [hconn]
      simp only [hlen]
      omega)
  have hfeed := feed_frame hinv (by rw [hconn]; rfl) (by rw [hconn]; rfl)
    (by decide +kernel : promise.wire.length ≤ connInputCap)
  have herr : ErrorCode.protocolError ≠ .ok := by decide
  rw [if_neg (by rw [hframe]; exact herr), hframe] at hfeed
  -- the output is that of the PINGs
  have htotal : (exec (pings n ++ [Op.feed promise.wire])).total
      = wireOf (serverSettingsFrame :: List.replicate n pong) := by
    rw [Obs.total_eq (exec_good _), hcall, Run.call_feed_conn, Run.call_feed_sent, hfeed, hconn,
      hsent]
    rfl
  have hno : ∀ g ∈ serverSettingsFrame :: List.replicate n pong,
      g.type ≠ FrameType.goaway.toByte := by
    intro g hmem
    rcases List.mem_cons.mp hmem with rfl | hmem
    · decide
    · rw [List.eq_of_mem_replicate hmem]
      decide
  refine ⟨hok, by rw [hfeed], not_announced htotal hno _, by rw [hcall, Run.call_feed_conn, hfeed],
    ?_⟩
  rw [hasGoaway_iff htotal]
  rintro ⟨g, hmem, htype⟩
  exact hno g hmem htype

/-- **A GOAWAY is lost**: 7709 PINGs leave four bytes of the output free. -/
theorem goaway_lost : (exec (pings 7709)).AllOk
    ∧ ((exec (pings 7709)).conn.feed promise.wire).1 = .protocolError
    ∧ ¬ (exec (pings 7709 ++ [.feed promise.wire])).Announced .protocolError
    ∧ (exec (pings 7709 ++ [.feed promise.wire])).conn.goawaySent = true
    ∧ ¬ (exec (pings 7709 ++ [.feed promise.wire])).HasGoaway :=
  pings_promise (by decide) (by decide)

end C11Omo.Http2
