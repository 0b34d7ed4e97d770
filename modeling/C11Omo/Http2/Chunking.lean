import C11Omo.Http2.Alike

set_option autoImplicit false

/-! # Chunks and consumption

A run without errors is compared with the connection that is fed one frame at a time and whose
output is consumed after every frame (`drained`). The run has produced the same bytes and is in the
same state, but for the input and the output that are still buffered (`exec_mirrored`). What the
drained connection does depends on the bytes received only, so neither the chunks nor the
consumption of the output can be seen (`delivery_independent`).
-/

namespace C11Omo.Http2

open C11Omo.Lib Connection

/-! ## The drained connection -/

/-- A connection whose output has been consumed, with the bytes consumed. -/
structure Drained where
  conn : Connection
  sent : List UInt8
  inv : Inv conn
  output : conn.output = []

namespace Drained

/-- The connection after the preface. -/
def start : Drained where
  conn := { started with output := [] }
  sent := started.output
  inv := { started_inv with output_le := Nat.zero_le _ }
  output := rfl

/-- One frame is handled, and the output is consumed. -/
def frame (d : Drained) (f : Frame) : Drained where
  conn := { (d.conn.handleFrame f).2 with output := [] }
  sent := d.sent ++ (d.conn.handleFrame f).2.output
  inv := { handleFrame_inv d.inv f with output_le := Nat.zero_le _ }
  output := rfl

end Drained

/-- The drained connection after some frames. -/
def drained (fs : List Frame) : Drained := fs.foldl Drained.frame .start

theorem drained_snoc (fs : List Frame) (f : Frame) :
    drained (fs ++ [f]) = (drained fs).frame f := by
  rw [drained, List.foldl_append]
  rfl

/-- The total outputs are the same, and the second connection has more of it consumed. -/
def consumed (sent sent' : List UInt8) : Tolerance where
  loose := fun _ => False
  near p p' := sent ++ p = sent' ++ p' ∧ p'.length ≤ p.length
  lax := True
  near_push := by
    rintro p p' data ⟨htotal, hle⟩
    refine ⟨?_, by simpa using hle⟩
    rw [← List.append_assoc, ← List.append_assoc, htotal]
  near_length := And.right
  near_room := fun _ => Or.inl trivial

/-- Without loose slots, alike connections have the same slots. -/
theorem alike_streams {sent sent' : List UInt8} {c c' : Connection}
    (h : Alike (consumed sent sent') c c') : c.streams = c'.streams := by
  funext pos
  rcases h.slot pos with heq | ⟨hloose, -⟩
  · exact heq
  · exact hloose.elim

/-- The rest of the output of the second connection is consumed. -/
theorem alike_drain {sent sent' : List UInt8} {c c' : Connection}
    (h : Alike (consumed sent sent') c c') (h0 : c'.outputSent = 0) :
    Alike (consumed sent (sent' ++ c'.output)) c { c' with output := [] } := by
  have hpend : c'.pending = c'.output := by rw [pending, h0, List.drop_zero]
  obtain ⟨v, rfl⟩ := h.rest
  have htotal := h.output.1
  rw [hpend] at htotal
  refine ⟨⟨{ v with output := [] }, rfl⟩, fun pos => Or.inl (congrFun (alike_streams h) pos), ?_⟩
  refine ⟨?_, ?_⟩
  · show sent ++ c.pending = sent' ++ (c.withView v).output ++ List.drop _ []
    rw [List.drop_nil, List.append_nil, htotal]
  · show (List.drop _ []).length ≤ _
    rw [List.drop_nil]
    exact Nat.zero_le _

/-! ## Runs -/

/-- A run beside the drained connection that has handled the same frames. -/
structure Mirrored (o : Obs) : Prop where
  unseen : o.conn.prefaceSeen = false →
    o.conn = { Connection.init with input := o.conn.input } ∧ o.sent = []
  seen : o.conn.prefaceSeen = true →
    Alike (consumed o.sent (drained (o.steps.map FrameStep.frame)).sent)
      { o.conn with input := [] } (drained (o.steps.map FrameStep.frame)).conn

/-- Some of the output of the first connection is consumed. -/
theorem alike_consume {sent : List UInt8} {c : Connection} {d : Drained}
    (h : Alike (consumed sent d.sent) c d.conn) (h0 : c.outputSent = 0) (sentLen : Nat) :
    Alike (consumed (sent ++ c.output.take sentLen) d.sent)
      { c with output := c.output.drop sentLen } d.conn := by
  have hpend : c.pending = c.output := by rw [pending, h0, List.drop_zero]
  have hnil : d.conn.pending = [] := by rw [pending, d.output, List.drop_nil]
  obtain ⟨htotal, -⟩ := h.output
  rw [hpend] at htotal
  obtain ⟨v, hv⟩ := h.rest
  refine ⟨⟨v, ?_⟩, fun pos => Or.inl (congrFun (alike_streams h) pos), ?_, ?_⟩
  · rw [hv]
    rfl
  · show sent ++ c.output.take sentLen ++ (c.output.drop sentLen).drop c.outputSent = _
    rw [h0, List.drop_zero, List.append_assoc, List.take_append_drop, htotal]
  · rw [hnil]
    exact Nat.zero_le _

/-- **Every step of a run without errors** keeps the drained connection beside it. -/
theorem Micro.mirrored {o o' : Obs} (h : Micro o [] o') (hg : Good o) (hcut : Cut o)
    (hm : Mirrored o) : Mirrored o' := by
  cases h with
  | consume sentLen =>
      refine ⟨fun hnew => ?_, fun hseen => ?_⟩
      · obtain ⟨hinit, hsent⟩ := hm.unseen hnew
        have hout : o.conn.output = [] := by
          rw [hinit]
          rfl
        simp only [hout, List.drop_nil, List.take_nil, hsent, List.append_nil]
        refine ⟨?_, trivial⟩
        rw [← hout]
        exact hinit
      · exact alike_consume (hm.seen hseen) hg.inv.output_sent sentLen
  | arrive data hfit =>
      refine ⟨fun hnew => ?_, fun hseen => hm.seen hseen⟩
      obtain ⟨hinit, hsent⟩ := hm.unseen hnew
      refine ⟨?_, hsent⟩
      simp only
      rw [hinit]
  -- nothing was there before the preface, and the greeting is the start of the other
  | preface hnew hlen hpre =>
      refine ⟨fun hno => (by cases hno), fun _ => ?_⟩
      obtain ⟨hinit, hsent⟩ := hm.unseen hnew
      simp only [(hcut.unseen hnew).2, List.map_nil, hsent]
      rw [hinit]
      have hself : Alike (consumed [] []) started started :=
        Alike.refl ⟨rfl, le_rfl⟩
      exact alike_drain hself rfl
  -- alike connections handle the frame alike, and neither handler looks at the input
  | frame f rest hseen hcutf hok =>
      have hseen' := (handleFrame_input hg.inv f).2.trans hseen
      refine ⟨fun hnew => ?_, fun _ => ?_⟩
      · rw [show ({ (o.conn.handleFrame f).2 with input := rest } : Connection).prefaceSeen
          = (o.conn.handleFrame f).2.prefaceSeen from rfl, hseen'] at hnew
        cases hnew
      · have hinv : Inv { o.conn with input := [] } := { hg.inv with }
        have hframe := handleFrame_withInput o.conn f []
        have hnext := (hm.seen hseen).handleFrame hinv
          (drained (o.steps.map FrameStep.frame)).inv (fun _ hloose => hloose.elim) (f := f)
          (fun _ => by rw [hframe]; exact hok)
        have halike := alike_drain hnext.2
          (handleFrame_inv (drained (o.steps.map FrameStep.frame)).inv f).output_sent
        rw [hframe] at halike
        simp only [List.map_append, List.map_cons, List.map_nil]
        rw [show (o.conn.frameStep f).frame = f from rfl, drained_snoc]
        exact halike

theorem exec_mirrored {ops : List Op} (hok : (exec ops).AllOk) : Mirrored (exec ops).toObs := by
  have hboth : Cut (exec ops).toObs ∧ Mirrored (exec ops).toObs := by
    refine exec_invariant_ok (P := fun o => Cut o ∧ Mirrored o) ⟨?_, ?_⟩ ?_ hok
    · exact ⟨fun _ => ⟨rfl, rfl⟩, fun hseen => (by cases hseen)⟩
    · exact ⟨fun _ => ⟨rfl, rfl⟩, fun hseen => (by cases hseen)⟩
    · exact fun hg hs h => ⟨hs.cut hg h.1, hs.mirrored hg h.1 h.2⟩
  exact hboth.2

/-- What a stream of bytes makes of a fresh connection, apart from the output that is still
buffered, and all the output it produces. -/
def outcome (bytes : List UInt8) : Connection × List UInt8 :=
  if bytes.length < clientPrefaceLen then ({ Connection.init with input := bytes }, [])
  else
    ({ (drained (framesOf (bytes.drop clientPrefaceLen))).conn with
        input := (frameFraming.split (bytes.drop clientPrefaceLen)).2 },
      (drained (framesOf (bytes.drop clientPrefaceLen))).sent)

/-- Connections that are alike but for consumed output are equal without it. -/
theorem alike_eq {sent : List UInt8} {c : Connection} {d : Drained}
    (h : Alike (consumed sent d.sent) { c with input := [] } d.conn) (h0 : c.outputSent = 0) :
    { c with output := [] } = { d.conn with input := c.input } := by
  have hstreams := alike_streams h
  have hout := d.output
  have hsent := d.inv.output_sent
  obtain ⟨v, hv⟩ := h.rest
  rw [hv] at hstreams hout hsent ⊢
  obtain ⟨streams, output, outputSent⟩ := v
  obtain rfl : output = [] := hout
  obtain rfl : outputSent = 0 := hsent
  obtain rfl : c.streams = streams := hstreams
  rw [withView, ← h0]

/-- **A run without errors is determined by the bytes received.** -/
theorem exec_outcome {ops : List Op} (hok : (exec ops).AllOk) :
    ({ (exec ops).conn with output := [] }, (exec ops).total) = outcome (exec ops).received := by
  have hg := exec_good ops
  have hcut := exec_cut hok
  have hmirror := exec_mirrored hok
  obtain ⟨hstop, hshort⟩ := exec_stop hok
  have hframes := exec_received hok
  unfold outcome
  by_cases hseen : (exec ops).conn.prefaceSeen = true
  · obtain ⟨hlen, hsplit⟩ := hcut.seen hseen
    have hnone : frameFraming.cut (exec ops).conn.input = none := hstop hseen
    have halike := hmirror.seen hseen
    rw [hframes] at halike
    have hrest : (frameFraming.split ((exec ops).received.drop clientPrefaceLen)).2
        = (exec ops).conn.input := by
      rw [hsplit, frameFraming.split_of_cut_eq_none hnone]
    rw [if_neg (not_lt.mpr hlen), hrest]
    refine Prod.ext (alike_eq halike hg.inv.output_sent) ?_
    calc (exec ops).sent ++ (exec ops).conn.pending
        = (drained (framesOf ((exec ops).received.drop clientPrefaceLen))).sent
          ++ (drained (framesOf ((exec ops).received.drop clientPrefaceLen))).conn.pending :=
          halike.output.1
      _ = (drained (framesOf ((exec ops).received.drop clientPrefaceLen))).sent := by
          rw [pending, Drained.output, List.drop_nil, List.append_nil]
  · have hnew : (exec ops).conn.prefaceSeen = false := by simpa using hseen
    obtain ⟨hrec, -⟩ := hcut.unseen hnew
    obtain ⟨hinit, hsent⟩ := hmirror.unseen hnew
    rw [if_pos (by rw [hrec]; exact hshort hnew), hrec]
    have htotal : (exec ops).total = [] := by
      rw [Obs.total, hsent, hinit]
      rfl
    refine Prod.ext ?_ htotal
    simp only
    rw [hinit]
    rfl

/-- **Neither chunks nor consumption matter**: two runs without errors that have received the same
bytes have the same total output, and the same state apart from the output that is still
buffered. -/
theorem delivery_independent {ops ops' : List Op}
    (hsame : (exec ops).received = (exec ops').received) (hok : (exec ops).AllOk)
    (hok' : (exec ops').AllOk) :
    (exec ops).total = (exec ops').total
      ∧ { (exec ops).conn with output := [] } = { (exec ops').conn with output := [] } := by
  have hboth : ({ (exec ops).conn with output := [] }, (exec ops).total)
      = ({ (exec ops').conn with output := [] }, (exec ops').total) := by
    rw [exec_outcome hok, exec_outcome hok', hsame]
  exact ⟨congrArg Prod.snd hboth, congrArg Prod.fst hboth⟩

/-- A request in one chunk, and in two with some output consumed between them. -/
theorem delivery_independent_get :
    (exec [.feed (clientInput [getRequest 1])]).total
      = (exec [.feed ((clientInput [getRequest 1]).take 30), .consume 7,
          .feed ((clientInput [getRequest 1]).drop 30)]).total :=
  (delivery_independent (by decide +kernel) (by decide +kernel) (by decide +kernel)).1

end C11Omo.Http2
