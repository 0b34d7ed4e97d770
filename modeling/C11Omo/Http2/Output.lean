import C11Omo.Http2.Run

set_option autoImplicit false

/-! # The total output

The bytes a connection has ever queued are the wire forms of a list of frames, and each frame of
that list was queued by one handled frame (`FrameStep.queued`) or is the SETTINGS frame of the
greeting. A run without errors therefore determines a history of protocol events
(`Obs.history`), and a relation between history and state that every action extends holds of
every run (`exec_history_ok`, and `exec_history` for runs with errors).
-/

namespace C11Omo.Http2

open C11Omo.Lib Connection

/-- The frames a handled frame made the server queue. -/
def FrameStep.queued (st : FrameStep) : List Frame :=
  framesOf (st.after.output.drop st.before.output.length)

/-- The events of a frame that was accepted. -/
def FrameStep.events (st : FrameStep) : List Event :=
  frameEvents st.before st.frame ++ st.queued.map .queued

/-- The frames the server queues on its own. -/
def greeting (c : Connection) : List Frame := if c.prefaceSeen then [serverSettingsFrame] else []

/-- The history of a run without errors. -/
def Obs.history (o : Obs) : List Event :=
  (greeting o.conn).map .queued ++ o.steps.flatMap FrameStep.events

theorem queuedFrames_of_queues {es : List Event} (h : Queues es) :
    es = (queuedFrames es).map .queued := by
  induction es with
  | nil => rfl
  | cons e es ih =>
      obtain ⟨f, rfl⟩ := h e (by simp)
      have hrest := ih fun e' he' => h e' (List.mem_cons_of_mem _ he')
      have hcons : queuedFrames (.queued f :: es) = f :: queuedFrames es := rfl
      rw [hcons, List.map_cons, ← hrest]

@[simp] theorem queuedFrames_map_queued (fs : List Frame) :
    queuedFrames (fs.map .queued) = fs := by
  induction fs with
  | nil => rfl
  | cons f fs ih =>
      have hcons : queuedFrames (.queued f :: fs.map .queued) = f :: queuedFrames (fs.map .queued) :=
        rfl
      rw [List.map_cons, hcons, ih]

/-- The events of a frame besides queued frames queue nothing. -/
theorem queuedFrames_frameEvents (c : Connection) (f : Frame) :
    queuedFrames (frameEvents c f) = [] := by
  have hsettings : ∀ settings : List Setting,
      queuedFrames (settings.flatMap settingEvents) = [] := by
    intro settings
    induction settings with
    | nil => rfl
    | cons s rest ih =>
        rw [List.flatMap_cons, queuedFrames_append, ih, List.append_nil, settingEvents]
        split <;> rfl
  unfold frameEvents
  split
  · unfold windowCredit
    split
    · rfl
    · split <;> rfl
  · unfold settingsEvents
    split
    · rfl
    · exact hsettings _
  · rfl

theorem FrameStep.queuedFrames_events (st : FrameStep) : queuedFrames st.events = st.queued := by
  rw [FrameStep.events, queuedFrames_append, queuedFrames_frameEvents, List.nil_append,
    queuedFrames_map_queued]

/-- `queue_goaway` adds at most one GOAWAY frame to the output and touches nothing else but its
own flags. -/
theorem queueGoaway_cases {c : Connection} (hc : Inv c) (errorCode : ErrorCode) :
    ∃ fs : List Frame, (fs = [] ∨ fs = [goawayFrame c.lastStreamId errorCode]) ∧
      ∃ goawaySent goawayError, (c.queueGoaway errorCode).2 = { c with
        goawaySent := goawaySent
        goawayError := goawayError
        output := c.output ++ wireOf fs } := by
  rw [queueGoaway_eq hc]
  split
  · exact ⟨[], Or.inl rfl, c.goawaySent, c.goawayError, by simp⟩
  · split
    · exact ⟨_, Or.inr rfl, true, errorCode.toNat, by simp [push]⟩
    · exact ⟨[], Or.inl rfl, true, errorCode.toNat, by simp⟩

namespace Connection

variable {c : Connection}

/-- The frames between two outputs. -/
theorem framesOf_drop {c c' : Connection} {fs : List Frame}
    (h : c'.output = c.output ++ wireOf fs) : framesOf (c'.output.drop c.output.length) = fs := by
  rw [h, List.drop_left, framesOf_wireOf]

/-- **An accepted frame**: its events lead from the state before to the state after. -/
theorem frameStep_acts (hc : Inv c) {f : Frame} (hok : (c.handleFrame f).1 = .ok) :
    Acts c (c.frameStep f).events (c.handleFrame f).2 := by
  obtain ⟨es, c₁, hes, ⟨h, q, rfl, hq⟩ | h | ⟨ret, hne, h⟩⟩ := handleFrame_spec hc f
  · have hout := hes.output
    rw [queuedFrames_append, queuedFrames_frameEvents, List.nil_append] at hout
    have hqueued : (c.frameStep f).queued = queuedFrames q := by
      rw [FrameStep.queued, frameStep, h]
      exact framesOf_drop hout
    rw [FrameStep.events, hqueued, ← queuedFrames_of_queues hq, h]
    exact hes
  · rw [h] at hok
    cases hok
  · rw [h] at hok
    exact absurd hok hne

/-- The greeting is an action. -/
theorem greeted_act (hlen : c.output.length ≤ 17) :
    Act { c.dropInput clientPrefaceLen with prefaceSeen := true, settingsSent := true }
      [.queued serverSettingsFrame] c.greeted := by
  have hfit : Fits { c.dropInput clientPrefaceLen with prefaceSeen := true, settingsSent := true }
      serverSettingsFrame := by
    rw [Fits, serverSettingsFrame_wire_length]
    simp only [dropInput, connOutputCap]
    omega
  exact .control _ _ (control_of (by simp) _ _ _) hfit

/-- The output grows by the frames the step records, also when the frame fails. -/
theorem frameStep_output (hc : Inv c) (f : Frame) :
    (c.handleFrame f).2.output = c.output ++ wireOf (c.frameStep f).queued := by
  have hqueued : ∀ fs, (c.handleFrame f).2.output = c.output ++ wireOf fs →
      (c.handleFrame f).2.output = c.output ++ wireOf (c.frameStep f).queued := by
    intro fs hout
    rw [FrameStep.queued, frameStep, framesOf_drop hout]
    exact hout
  obtain ⟨es, c₁, hes, ⟨h, -⟩ | h | ⟨ret, -, h⟩⟩ := handleFrame_spec hc f
  · exact hqueued (queuedFrames es) (by rw [h, hes.output])
  · exact hqueued (queuedFrames es) (by rw [h, hes.output])
  · obtain ⟨fs, -, gs, ge, hgo⟩ := queueGoaway_cases (hes.inv hc) ret
    refine hqueued (queuedFrames es ++ fs) ?_
    rw [h, hgo, hes.output, wireOf_append, List.append_assoc]

end Connection

theorem Obs.total_eq {o : Obs} (hg : Good o) : o.total = o.sent ++ o.conn.output := by
  rw [Obs.total, Connection.pending, hg.inv.output_sent, List.drop_zero]

/-! ## Runs without errors -/

/-- The connection without the fields of `feed` and without the buffers is what an invariant may
talk about. -/
def Insensitive (R : List Event → Connection → Prop) : Prop :=
  ∀ {hist c}, R hist c → ∀ (prefaceSeen settingsSent goawaySent : Bool) (goawayError : Nat)
    (input output : List UInt8), R hist { c with
      prefaceSeen := prefaceSeen
      settingsSent := settingsSent
      goawaySent := goawaySent
      goawayError := goawayError
      input := input
      output := output }

/-- In a run without errors the preface comes first, and the output is the history. -/
structure Logged (o : Obs) : Prop where
  total : o.total = wireOf (queuedFrames o.history)
  unseen : o.conn.prefaceSeen = false → o.steps = [] ∧ o.total = []

theorem Micro.logged {o o' : Obs} (h : Micro o [] o') (hg : Good o) (hl : Logged o) :
    Logged o' := by
  have hg' := h.good hg
  have htotal := Obs.total_eq hg
  have htotal' := Obs.total_eq hg'
  have hlog := hl.total
  rw [htotal] at hlog
  cases h with
  -- what leaves the output has been sent, so the total stays
  | consume sentLen =>
      have hsame : (o.sent ++ o.conn.output.take sentLen) ++ o.conn.output.drop sentLen
          = o.sent ++ o.conn.output := by
        rw [List.append_assoc, List.take_append_drop]
      exact ⟨by rw [htotal', hsame, hlog]; rfl, fun hseen => by
        rw [htotal', hsame, ← htotal]
        exact hl.unseen hseen⟩
  | arrive data hfit =>
      refine ⟨by rw [htotal', hlog]; rfl, fun hseen => ?_⟩
      rw [htotal', ← htotal]
      exact hl.unseen hseen
  -- before the preface nothing has been queued, and now the greeting has
  | preface hnew hlen hpre =>
      obtain ⟨hsteps, hnil⟩ := hl.unseen hnew
      rw [htotal] at hnil
      refine ⟨?_, fun hseen => by cases hseen⟩
      have hout : o.conn.greeted.output = o.conn.output ++ serverSettingsFrame.wire := rfl
      rw [htotal', hout, ← List.append_assoc, hnil, Obs.history, hsteps]
      show serverSettingsFrame.wire = wireOf (queuedFrames ([Event.queued serverSettingsFrame] ++ []))
      simp [queuedFrames]
  -- the frames of the step come behind those of the steps before it
  | frame f rest hseen hcut hok =>
      have hout := Connection.frameStep_output hg.inv f
      have hseen' := (Connection.handleFrame_input hg.inv f).2.trans hseen
      refine ⟨?_, fun hnew => ?_⟩
      · rw [htotal', Obs.history]
        have hgreet : greeting { (o.conn.handleFrame f).2 with input := rest }
            = greeting o.conn := by
          rw [greeting, greeting, hseen]
          simp only [hseen']
        rw [hgreet, List.flatMap_append, ← List.append_assoc, queuedFrames_append, wireOf_append,
          List.flatMap_singleton, FrameStep.queuedFrames_events]
        show o.sent ++ (o.conn.handleFrame f).2.output = _
        rw [hout, ← List.append_assoc, hlog]
        rfl
      · rw [show ({ (o.conn.handleFrame f).2 with input := rest } : Connection).prefaceSeen
          = (o.conn.handleFrame f).2.prefaceSeen from rfl, hseen'] at hnew
        cases hnew

theorem logged_start : Logged Run.start.toObs :=
  ⟨rfl, fun _ => ⟨rfl, rfl⟩⟩

theorem exec_logged {ops : List Op} (hok : (exec ops).AllOk) : Logged (exec ops).toObs :=
  exec_invariant_ok logged_start (fun hg hs hl => hs.logged hg hl) hok

/-- The frames of the total output: the greeting, and what each handled frame made the server
queue. -/
theorem exec_frames {ops : List Op} (hok : (exec ops).AllOk) :
    (exec ops).frames = greeting (exec ops).conn ++ (exec ops).steps.flatMap FrameStep.queued := by
  rw [Obs.frames, (exec_logged hok).total, framesOf_wireOf, Obs.history, queuedFrames_append,
    queuedFrames_map_queued]
  congr 1
  induction (exec ops).steps with
  | nil => rfl
  | cons st steps ih =>
      rw [List.flatMap_cons, List.flatMap_cons, queuedFrames_append, ih,
        FrameStep.queuedFrames_events]

/-- **The history rule for runs without errors.** -/
theorem Micro.history_ok {R : List Event → Connection → Prop} (hsens : Insensitive R)
    (hact : ∀ {hist c es c'}, Inv c → Act c es c' → R hist c → R (hist ++ es) c')
    {o o' : Obs} (h : Micro o [] o') (hg : Good o) (hl : Logged o) (hR : R o.history o.conn) :
    R o'.history o'.conn := by
  have hacts : ∀ {hist c es c'}, Inv c → Acts c es c' → R hist c → R (hist ++ es) c' := by
    intro hist c es c' hc hes hr
    have h0 : (fun hist c => Inv c ∧ R hist c) hist c := ⟨hc, hr⟩
    exact (hes.history (R := fun hist c => Inv c ∧ R hist c)
      (fun ha hb => ⟨ha.inv hb.1, hact hb.1 ha hb.2⟩) h0).2
  cases h with
  | consume sentLen => exact hsens hR _ _ _ _ _ _
  | arrive data hfit => exact hsens hR _ _ _ _ _ _
  | preface hnew hlen hpre =>
      have hsteps := (hl.unseen hnew).1
      -- the history of a run without a preface is empty
      have hnil : o.history = [] := by
        rw [Obs.history, greeting, hnew, hsteps]
        rfl
      rw [hnil] at hR
      have hstart := hsens hR true true o.conn.goawaySent o.conn.goawayError
        (o.conn.input.drop clientPrefaceLen) o.conn.output
      have hinv : Inv { o.conn.dropInput clientPrefaceLen with
        prefaceSeen := true, settingsSent := true } := { hg.inv with }
      have hpush := hact hinv (greeted_act (hg.started hnew).2.1) hstart
      have hhist : Obs.history { o with conn := o.conn.greeted }
          = [] ++ [Event.queued serverSettingsFrame] := by
        rw [Obs.history, hsteps]
        rfl
      rw [hhist]
      exact hpush
  | frame f rest hseen hcut hok =>
      have hseen' := (Connection.handleFrame_input hg.inv f).2.trans hseen
      have hhist : Obs.history { o with
          conn := { (o.conn.handleFrame f).2 with input := rest }
          steps := o.steps ++ [o.conn.frameStep f] }
            = o.history ++ (o.conn.frameStep f).events := by
        rw [Obs.history, Obs.history, List.flatMap_append, List.flatMap_singleton,
          ← List.append_assoc, greeting, greeting, hseen]
        simp only [hseen']
      rw [hhist]
      exact hsens (hacts hg.inv (Connection.frameStep_acts hg.inv hok) hR) _ _ _ _ _ _

theorem exec_history_ok {R : List Event → Connection → Prop} (hsens : Insensitive R)
    (h0 : R [] Connection.init)
    (hact : ∀ {hist c es c'}, Inv c → Act c es c' → R hist c → R (hist ++ es) c')
    {ops : List Op} (hok : (exec ops).AllOk) : R (exec ops).history (exec ops).conn := by
  have hboth := exec_invariant_ok (P := fun o => Logged o ∧ R o.history o.conn)
    ⟨logged_start, h0⟩
    (fun hg hs hb => ⟨hs.logged hg hb.1, hs.history_ok hsens hact hg hb.1 hb.2⟩) hok
  exact hboth.2

/-! ## All runs -/

/-- A run with its output as a history in which `R` holds. -/
def Recorded (R : List Event → Connection → Prop) (o : Obs) : Prop :=
  ∃ hist, o.total = wireOf (queuedFrames hist) ∧ R hist o.conn

theorem Micro.recorded {R : List Event → Connection → Prop} (hsens : Insensitive R)
    (hact : ∀ {hist c es c'}, Inv c → Act c es c' → R hist c → R (hist ++ es) c')
    (hgoaway : ∀ {hist c} (f : Frame), f.type = FrameType.goaway.toByte → R hist c →
      R (hist ++ [Event.queued f]) c)
    {o o' : Obs} {es : List ErrorCode} (h : Micro o es o') (hg : Good o) (hr : Recorded R o) :
    Recorded R o' := by
  have hg' := h.good hg
  obtain ⟨hist, htotal, hR⟩ := hr
  rw [Obs.total_eq hg] at htotal
  have hacts : ∀ {hist c es c'}, Inv c → Acts c es c' → R hist c → R (hist ++ es) c' := by
    intro hist c es c' hc hes hr
    have h0 : (fun hist c => Inv c ∧ R hist c) hist c := ⟨hc, hr⟩
    exact (hes.history (R := fun hist c => Inv c ∧ R hist c)
      (fun ha hb => ⟨ha.inv hb.1, hact hb.1 ha hb.2⟩) h0).2
  -- a GOAWAY at the end of a step
  have hgo : ∀ {hist c} (ret : ErrorCode), Inv c → o.sent ++ c.output = wireOf (queuedFrames hist) →
      R hist c → ∃ hist', o.sent ++ (c.queueGoaway ret).2.output = wireOf (queuedFrames hist')
        ∧ R hist' (c.queueGoaway ret).2 := by
    intro hist c ret hc hout hr
    obtain ⟨fs, hfs, gs, ge, hq⟩ := queueGoaway_cases hc ret
    rw [hq]
    rcases hfs with rfl | rfl
    · exact ⟨hist, by simpa using hout, hsens hr _ _ _ _ _ _⟩
    · refine ⟨hist ++ [Event.queued (goawayFrame c.lastStreamId ret)], ?_,
        hsens (hgoaway _ rfl hr) _ _ _ _ _ _⟩
      rw [queuedFrames_append, wireOf_append, ← hout, List.append_assoc]
      rfl
  cases h with
  | consume sentLen =>
      refine ⟨hist, ?_, hsens hR _ _ _ _ _ _⟩
      rw [Obs.total_eq hg', ← htotal, List.append_assoc, List.take_append_drop]
  | arrive data hfit =>
      refine ⟨hist, ?_, hsens hR _ _ _ _ _ _⟩
      rw [Obs.total_eq hg', ← htotal]
  -- the bytes are not taken
  | refuse data hbig => exact ⟨hist, by rw [Obs.total_eq hg', ← htotal], hR⟩
  | preface hnew hlen hpre =>
      have hstart := hsens hR true true o.conn.goawaySent o.conn.goawayError
        (o.conn.input.drop clientPrefaceLen) o.conn.output
      have hinv : Inv { o.conn.dropInput clientPrefaceLen with
        prefaceSeen := true, settingsSent := true } := { hg.inv with }
      have hpush := hact hinv (greeted_act (hg.started hnew).2.1) hstart
      refine ⟨hist ++ [Event.queued serverSettingsFrame], ?_, hpush⟩
      rw [Obs.total_eq hg', queuedFrames_append, wireOf_append, ← htotal, List.append_assoc]
      simp [queuedFrames, greeted, push, dropInput]
  | badPreface hnew hlen hpre =>
      obtain ⟨hist', hout, hr'⟩ := hgo .protocolError hg.inv htotal hR
      exact ⟨hist', by rw [Obs.total_eq hg']; exact hout, hr'⟩
  | frame f rest hseen hcut hok =>
      have hes := Connection.frameStep_acts hg.inv hok
      refine ⟨hist ++ (o.conn.frameStep f).events, ?_, hsens (hacts hg.inv hes hR) _ _ _ _ _ _⟩
      rw [Obs.total_eq hg', queuedFrames_append, wireOf_append, ← htotal, List.append_assoc,
        ← hes.output]
  -- the actions of the handler stay, and a GOAWAY may follow them
  | fail f rest hseen hcut herr =>
      obtain ⟨es, c₁, hes, ⟨h, -⟩ | h | ⟨ret, hne, h⟩⟩ := handleFrame_spec hg.inv f
      · rw [h] at herr
        exact absurd rfl herr
      · refine ⟨hist ++ es, ?_, ?_⟩
        · rw [Obs.total_eq hg', queuedFrames_append, wireOf_append, ← htotal, List.append_assoc,
            ← hes.output]
          simp only [h]
        · simp only [h]
          exact hacts hg.inv hes hR
      · have hout : o.sent ++ c₁.output = wireOf (queuedFrames (hist ++ es)) := by
          rw [queuedFrames_append, wireOf_append, ← htotal, List.append_assoc, ← hes.output]
        obtain ⟨hist', hout', hr'⟩ := hgo ret (hes.inv hg.inv) hout (hacts hg.inv hes hR)
        refine ⟨hist', ?_, ?_⟩
        · rw [Obs.total_eq hg']
          simp only [h]
          exact hout'
        · simp only [h]
          exact hr'

/-- **The history rule for all runs.** -/
theorem exec_history {R : List Event → Connection → Prop} (hsens : Insensitive R)
    (h0 : R [] Connection.init)
    (hact : ∀ {hist c es c'}, Inv c → Act c es c' → R hist c → R (hist ++ es) c')
    (hgoaway : ∀ {hist c} (f : Frame), f.type = FrameType.goaway.toByte → R hist c →
      R (hist ++ [Event.queued f]) c)
    (ops : List Op) : ∃ hist, (exec ops).frames = queuedFrames hist ∧ R hist (exec ops).conn := by
  obtain ⟨hist, htotal, hR⟩ := exec_invariant (P := Recorded R) ⟨[], rfl, h0⟩
    (fun hg hs hr => hs.recorded hsens hact hgoaway hg hr) ops
  exact ⟨hist, by rw [Obs.frames, htotal, framesOf_wireOf], hR⟩

/-- **What a frame starts**: if the frames in `Q` lead to a state in `R`, and `R` is kept by every
later frame, which then is in `S`, then all frames after one in `Q` are in `S`. -/
theorem exec_since {Q S : FrameStep → Prop} {R : Connection → Prop}
    (hsens : Insensitive fun _ => R)
    (hmark : ∀ {c f}, Inv c → Q (c.frameStep f) → R (c.handleFrame f).2)
    (hstep : ∀ {c f}, Inv c → R c → R (c.handleFrame f).2 ∧ S (c.frameStep f)) (ops : List Op) :
    ∀ before st after, (exec ops).steps = before ++ st :: after → Q st →
      R (exec ops).conn ∧ ∀ st' ∈ after, S st' := by
  refine exec_invariant (P := fun o => ∀ before st after, o.steps = before ++ st :: after → Q st →
    R o.conn ∧ ∀ st' ∈ after, S st') (by simp [Run.start]) ?_ ops
  intro o es o' hg hs hall
  have hkeep : ∀ {c : Connection}, R c → ∀ (prefaceSeen settingsSent goawaySent : Bool)
      (goawayError : Nat) (input output : List UInt8), R { c with
        prefaceSeen := prefaceSeen
        settingsSent := settingsSent
        goawaySent := goawaySent
        goawayError := goawayError
        input := input
        output := output } := fun h => @hsens [] _ h
  -- one more frame
  have hsnoc : ∀ f before st after, o.steps ++ [o.conn.frameStep f] = before ++ st :: after → Q st →
      R (o.conn.handleFrame f).2 ∧ ∀ st' ∈ after, S st' := by
    intro f before st after heq hq
    rcases snoc_eq_append_cons heq with ⟨rfl, -, rfl⟩ | ⟨after', rfl, hsteps⟩
    · exact ⟨hmark hg.inv hq, by simp⟩
    · obtain ⟨hr, hafter⟩ := hall before st after' hsteps hq
      obtain ⟨hr', hlast⟩ := hstep (f := f) hg.inv hr
      refine ⟨hr', fun st' hst' => ?_⟩
      rcases List.mem_append.mp hst' with hst' | hst'
      · exact hafter st' hst'
      · rw [List.mem_singleton.mp hst']
        exact hlast
  cases hs with
  | consume sentLen =>
      intro before st after heq hq
      obtain ⟨hr, hafter⟩ := hall before st after heq hq
      exact ⟨hkeep hr _ _ _ _ _ _, hafter⟩
  | arrive data hfit =>
      intro before st after heq hq
      obtain ⟨hr, hafter⟩ := hall before st after heq hq
      exact ⟨hkeep hr _ _ _ _ _ _, hafter⟩
  | refuse data hbig => exact hall
  | preface hnew hlen hpre =>
      intro before st after heq hq
      obtain ⟨hr, hafter⟩ := hall before st after heq hq
      exact ⟨hkeep hr _ _ _ _ _ _, hafter⟩
  | badPreface hnew hlen hpre =>
      intro before st after heq hq
      obtain ⟨hr, hafter⟩ := hall before st after heq hq
      obtain ⟨fs, -, gs, ge, hgo⟩ := queueGoaway_cases hg.inv .protocolError
      refine ⟨?_, hafter⟩
      simp only [hgo]
      exact hkeep hr _ _ _ _ _ _
  | frame f rest hseen hcut hok =>
      intro before st after heq hq
      obtain ⟨hr, hafter⟩ := hsnoc f before st after heq hq
      exact ⟨hkeep hr _ _ _ _ _ _, hafter⟩
  | fail f rest hseen hcut herr => exact hsnoc f

/-- In every run the frames after the opening ones were queued by the frames handled. -/
theorem exec_frames_steps (ops : List Op) : ∃ opening : List Frame,
    (exec ops).frames = opening ++ (exec ops).steps.flatMap FrameStep.queued
      ∧ ∀ f ∈ opening, f.type = FrameType.settings.toByte ∨ f.type = FrameType.goaway.toByte := by
  have hrun := exec_invariant (P := fun o =>
    (∃ opening : List Frame, o.total = wireOf (opening ++ o.steps.flatMap FrameStep.queued)
      ∧ ∀ f ∈ opening, f.type = FrameType.settings.toByte ∨ f.type = FrameType.goaway.toByte)
    ∧ (o.conn.prefaceSeen = false → o.steps = [])) ⟨⟨[], rfl, by simp⟩, fun _ => rfl⟩ ?_ ops
  · obtain ⟨⟨opening, htotal, hopening⟩, -⟩ := hrun
    exact ⟨opening, by rw [Obs.frames, htotal, framesOf_wireOf], hopening⟩
  · rintro o es o' hg hs ⟨⟨opening, htotal, hopening⟩, hnew⟩
    have hg' := hs.good hg
    rw [Obs.total_eq hg] at htotal
    -- frames that a frame of the client makes the server queue
    have hframe : ∀ f, o.sent ++ (o.conn.handleFrame f).2.output
        = wireOf (opening ++ (o.steps ++ [o.conn.frameStep f]).flatMap FrameStep.queued) := by
      intro f
      rw [Connection.frameStep_output hg.inv f, ← List.append_assoc, htotal, List.flatMap_append,
        List.flatMap_singleton, ← wireOf_append, List.append_assoc]
    cases hs with
    | consume sentLen =>
        refine ⟨⟨opening, ?_, hopening⟩, hnew⟩
        rw [Obs.total_eq hg', List.append_assoc, List.take_append_drop, htotal]
    | arrive data hfit => exact ⟨⟨opening, by rw [Obs.total_eq hg', htotal], hopening⟩, hnew⟩
    | refuse data hbig => exact ⟨⟨opening, by rw [Obs.total_eq hg', htotal], hopening⟩, hnew⟩
    | preface hunseen hlen hpre =>
        rw [hnew hunseen, List.flatMap_nil, List.append_nil] at htotal
        refine ⟨⟨opening ++ [serverSettingsFrame], ?_, ?_⟩, fun h => by cases h⟩
        · have hout : o.conn.greeted.output = o.conn.output ++ serverSettingsFrame.wire := rfl
          rw [Obs.total_eq hg', hout, ← List.append_assoc, htotal, hnew hunseen]
          simp
        · intro f hf
          rcases List.mem_append.mp hf with hf | hf
          · exact hopening f hf
          · exact Or.inl (by rw [List.mem_singleton.mp hf]; rfl)
    | badPreface hunseen hlen hpre =>
        rw [hnew hunseen, List.flatMap_nil, List.append_nil] at htotal
        obtain ⟨fs, hfs, gs, ge, hgo⟩ := queueGoaway_cases hg.inv .protocolError
        refine ⟨⟨opening ++ fs, ?_, ?_⟩, fun _ => hnew hunseen⟩
        · rw [Obs.total_eq hg', hgo, hnew hunseen, ← List.append_assoc, htotal]
          simp
        · intro f hf
          rcases List.mem_append.mp hf with hf | hf
          · exact hopening f hf
          · rcases hfs with rfl | rfl
            · cases hf
            · exact Or.inr (by rw [List.mem_singleton.mp hf]; rfl)
    | frame f rest hseen hcut hok =>
        have hseen' := (Connection.handleFrame_input hg.inv f).2.trans hseen
        refine ⟨⟨opening, by rw [Obs.total_eq hg']; exact hframe f, hopening⟩, fun h => ?_⟩
        rw [show ({ (o.conn.handleFrame f).2 with input := rest } : Connection).prefaceSeen
          = (o.conn.handleFrame f).2.prefaceSeen from rfl, hseen'] at h
        cases h
    | fail f rest hseen hcut herr =>
        have hseen' := (Connection.handleFrame_input hg.inv f).2.trans hseen
        refine ⟨⟨opening, by rw [Obs.total_eq hg']; exact hframe f, hopening⟩, fun h => ?_⟩
        rw [hseen'] at h
        cases h

end C11Omo.Http2
