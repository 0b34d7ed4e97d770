import C11Omo.Http2.Chunking

set_option autoImplicit false

/-! # The script of a run

The chunks of a run cannot be seen by the connection. What it does see is that the preface arrives,
that frames are completed, one after the other, and that output is consumed in between. This is the
`script` of the run. A run whose chunks fit has no errors if and only if its script has none, and
then it ends in the state that the script leads to (`exec_plays`, `exec_allOk`).
-/

namespace C11Omo.Http2

open C11Omo.Lib Connection

/-! ## Streams of bytes -/

/-- The bytes of each of the complete frames at the front of a byte string. -/
def piecesOf (bytes : List UInt8) : List (List UInt8) :=
  (frameFraming.pieces.split bytes).1.map Prod.snd

/-- A piece is one frame. -/
theorem pieces_framesOf (bytes : List UInt8) :
    ∀ p ∈ (frameFraming.pieces.split bytes).1, framesOf p.2 = [p.1] := by
  refine frameFraming.pieces_mem (P := fun f piece => framesOf piece = [f]) ?_ bytes
  intro xs f rest hcut
  obtain ⟨front, rfl, hfront⟩ := cutFrame_front hcut
  have hwhole : frameFraming.cut front = some (f, []) := hfront
  have hpiece : Framing.front (front ++ rest) rest = front := by
    rw [Framing.front, List.length_append, Nat.add_sub_cancel]
    exact List.take_left
  rw [hpiece, framesOf, frameFraming.split_of_cut_eq_some hwhole]
  rfl

/-- Something that happens to a connection. The preface and a frame come with their bytes. -/
inductive Item
  | preface (bytes : List UInt8)
  | frame (bytes : List UInt8)
  | consume (sentLen : Nat)
  deriving DecidableEq

/-- The preface and the complete frames of a stream. -/
def items (bytes : List UInt8) : List Item :=
  if bytes.length < clientPrefaceLen then []
  else .preface (bytes.take clientPrefaceLen)
    :: (piecesOf (bytes.drop clientPrefaceLen)).map .frame

/-- The bytes of a stream behind its last complete frame. -/
def unhandled (bytes : List UInt8) : List UInt8 :=
  if bytes.length < clientPrefaceLen then bytes
  else (frameFraming.split (bytes.drop clientPrefaceLen)).2

/-- What a chunk completes. -/
def arrivals (received data : List UInt8) : List Item :=
  (items (received ++ data)).drop (items received).length

/-- The calls of a run, each chunk replaced by what it completes. -/
def script (received : List UInt8) : List Op → List Item
  | [] => []
  | .feed data :: ops => arrivals received data ++ script (received ++ data) ops
  | .consume sentLen :: ops => .consume sentLen :: script received ops

section Arrivals

variable {received data : List UInt8}

/-- A chunk that does not complete the preface. -/
theorem arrivals_short (h : (received ++ data).length < clientPrefaceLen) :
    arrivals received data = [] ∧ unhandled (received ++ data) = received ++ data := by
  constructor
  · rw [arrivals, items.eq_1 (received ++ data), if_pos h, List.drop_nil]
  · rw [unhandled, if_pos h]

/-- A chunk that completes the preface. -/
theorem arrivals_preface (hshort : received.length < clientPrefaceLen) :
    arrivals received data = items (received ++ data) := by
  rw [arrivals, items.eq_1 received, if_pos hshort, List.length_nil, List.drop_zero]

/-- A chunk behind the preface. -/
theorem arrivals_seen (h : clientPrefaceLen ≤ received.length) :
    arrivals received data = (piecesOf (unhandled received ++ data)).map .frame
      ∧ unhandled (received ++ data) = (frameFraming.split (unhandled received ++ data)).2 := by
  have hlen : ¬ received.length < clientPrefaceLen := not_lt.mpr h
  have hlen' : ¬ (received ++ data).length < clientPrefaceLen := by
    rw [List.length_append]
    omega
  have hdrop : (received ++ data).drop clientPrefaceLen
      = received.drop clientPrefaceLen ++ data := List.drop_append_of_le_length h
  have hrest := (frameFraming.pieces_split (received.drop clientPrefaceLen)).2
  have htake : (received ++ data).take clientPrefaceLen = received.take clientPrefaceLen :=
    List.take_append_of_le_length h
  simp only [unhandled, if_neg hlen, if_neg hlen', hdrop]
  constructor
  · rw [arrivals, items, items, if_neg hlen, if_neg hlen', htake, hdrop, piecesOf, piecesOf,
      piecesOf, frameFraming.pieces.split_append, hrest, List.map_append, List.map_append,
      List.length_cons, List.drop_succ_cons, List.drop_left]
  · rw [frameFraming.split_append]

end Arrivals

/-! ## Playing a script -/

/-- A connection, the output consumed so far, and whether all has gone well so far. -/
structure Played where
  conn : Connection
  sent : List UInt8
  ok : Bool

namespace Played

/-- Before the first item. -/
def start : Played := { conn := Connection.init, sent := [], ok := true }

/-- One item. -/
def next (o : Played) : Item → Played
  | .preface bytes =>
      let r := { o.conn with input := bytes }.feedPreface
      { o with conn := r.2, ok := o.ok && r.1 == .ok }
  | .frame bytes =>
      let r := o.conn.handleFrames (framesOf bytes)
      { o with conn := r.2, ok := o.ok && r.1 == .ok }
  | .consume sentLen =>
      { o with
        conn := o.conn.consumeOutput sentLen
        sent := o.sent ++ o.conn.pending.take sentLen }

/-- An error is not forgotten. -/
theorem next_ok {o : Played} {e : Item} (h : (o.next e).ok = true) : o.ok = true := by
  cases e with
  | preface bytes => exact (Bool.and_eq_true_iff.mp h).1
  | frame bytes => exact (Bool.and_eq_true_iff.mp h).1
  | consume sentLen => exact h

theorem foldl_ok {o : Played} {es : List Item} (h : (es.foldl next o).ok = true) :
    o.ok = true := by
  induction es generalizing o with
  | nil => exact h
  | cons e es ih => exact next_ok (ih h)

/-- **Frames one by one**: they are played without an error if they are handled without one. -/
theorem foldl_frames {ps : List (Frame × List UInt8)} (hps : ∀ p ∈ ps, framesOf p.2 = [p.1])
    (o : Played) :
    ((((ps.map Prod.snd).map Item.frame).foldl next o).ok = true
        ↔ o.ok = true ∧ (o.conn.handleFrames (ps.map Prod.fst)).1 = .ok)
      ∧ ((o.conn.handleFrames (ps.map Prod.fst)).1 = .ok →
        ((ps.map Prod.snd).map Item.frame).foldl next o
          = { o with conn := (o.conn.handleFrames (ps.map Prod.fst)).2 }) := by
  induction ps generalizing o with
  | nil => exact ⟨⟨fun h => ⟨h, rfl⟩, And.left⟩, fun _ => rfl⟩
  | cons p ps ih =>
      have hone := hps p (List.mem_cons_self ..)
      have hnext : o.next (.frame p.2) = { o with
          conn := (o.conn.handleFrame p.1).2
          ok := o.ok && (o.conn.handleFrame p.1).1 == .ok } := by
        simp only [next, hone, handleFrames_singleton]
      obtain ⟨hok, hstate⟩ := ih (fun q hq => hps q (List.mem_cons_of_mem _ hq))
        (o.next (.frame p.2))
      simp only [List.map_cons, List.foldl_cons, handleFrames_cons]
      rw [hnext] at hok hstate ⊢
      rcases hres : o.conn.handleFrame p.1 with ⟨ret, c⟩
      rw [hres] at hok hstate
      by_cases hret : ret = .ok
      · subst hret
        rw [andThen_ok]
        simp only [beq_self_eq_true, Bool.and_true] at hok hstate ⊢
        exact ⟨hok, hstate⟩
      · -- the first frame has failed
        rw [andThen_err hret]
        have hfail : (o.ok && ret == .ok) = false := by simp [hret]
        refine ⟨⟨fun h => ?_, fun h => absurd h.2 hret⟩, fun h => absurd h hret⟩
        have hbad := foldl_ok h
        simp only [hfail] at hbad
        cases hbad

end Played

/-! ## The script of a run -/

/-- A run beside its script. -/
structure Tracks (r : Run) (o : Played) : Prop where
  conn : r.conn = { o.conn with input := unhandled r.received }
  input : o.conn.input = []
  sent : r.sent = o.sent
  ok : o.ok = true
  fresh : r.received.length < clientPrefaceLen → o.conn = Connection.init
  seen : clientPrefaceLen ≤ r.received.length → o.conn.prefaceSeen = true

namespace Tracks

variable {r : Run} {o : Played} {data : List UInt8}

theorem start : Tracks Run.start Played.start where
  conn := rfl
  input := rfl
  sent := rfl
  ok := rfl
  fresh _ := rfl
  seen h := absurd h (by decide)

theorem inv (h : Tracks r o) (hg : Good r.toObs) : Inv o.conn := by
  have hself : o.conn = { r.conn with input := [] } := by
    rw [h.conn, ← h.input]
  have hinv := hg.inv
  rw [hself]
  exact { hinv with }

/-- Frames do not leave anything in the input. -/
theorem handleFrames_input {c : Connection} (h : c.input = []) (fs : List Frame) :
    (c.handleFrames fs).2.input = [] := by
  have hself : { c with input := [] } = c := by rw [← h]
  have hkeep := handleFrames_withInput c fs []
  rw [hself] at hkeep
  rw [hkeep]

/-- The frames that a chunk completes, fed and played. -/
structure Fed (fed : ErrorCode × Connection) (o o' : Played) (rest : List UInt8) : Prop where
  code : fed.1 = .ok ↔ o'.ok = true
  conn : fed.1 = .ok → fed.2 = { o'.conn with input := rest }
  input : fed.1 = .ok → o'.conn.input = []
  sent : fed.1 = .ok → o'.sent = o.sent
  seen : fed.1 = .ok → o'.conn.prefaceSeen = o.conn.prefaceSeen

theorem fed_frames (hc : Inv o.conn) (hin : o.conn.input = []) (hok : o.ok = true)
    {stream : List UInt8} {fed : ErrorCode × Connection}
    (hfed : Delivers fed (o.conn.handleFrames (framesOf stream)) (frameFraming.split stream).2) :
    Fed fed o (((piecesOf stream).map Item.frame).foldl Played.next o)
      (frameFraming.split stream).2 := by
  have hplay := Played.foldl_frames (pieces_framesOf stream) o
  rw [(frameFraming.pieces_split stream).1] at hplay
  change ((((piecesOf stream).map Item.frame).foldl Played.next o).ok = true
      ↔ o.ok = true ∧ (o.conn.handleFrames (framesOf stream)).1 = .ok)
    ∧ ((o.conn.handleFrames (framesOf stream)).1 = .ok →
      ((piecesOf stream).map Item.frame).foldl Played.next o
        = { o with conn := (o.conn.handleFrames (framesOf stream)).2 }) at hplay
  obtain ⟨hcode, hstate⟩ := hplay
  have hplayed : fed.1 = .ok → ((piecesOf stream).map Item.frame).foldl Played.next o
      = { o with conn := (o.conn.handleFrames (framesOf stream)).2 } := by
    intro h
    exact hstate (hfed.code ▸ h)
  refine ⟨?_, fun h => ?_, fun h => ?_, fun h => ?_, fun h => ?_⟩
  · rw [hcode, hfed.code]
    exact ⟨fun h => ⟨hok, h⟩, And.right⟩
  · rw [hplayed h, hfed.state, hfed.rest h]
  · rw [hplayed h]
    exact handleFrames_input hin _
  · rw [hplayed h]
  · rw [hplayed h]
    exact (handleFrames_inv hc _).2

/-- A chunk behind the preface. -/
theorem feed_seen (h : Tracks r o) (hg : Good r.toObs)
    (hfit : r.conn.input.length + data.length ≤ connInputCap)
    (hlen : clientPrefaceLen ≤ r.received.length) :
    Fed (r.conn.feed data) o ((arrivals r.received data).foldl Played.next o)
      (unhandled (r.received ++ data)) := by
  obtain ⟨harrive, hrest⟩ : arrivals r.received data
      = (piecesOf (unhandled r.received ++ data)).map .frame
      ∧ unhandled (r.received ++ data)
        = (frameFraming.split (unhandled r.received ++ data)).2 := arrivals_seen hlen
  have hseen : r.conn.prefaceSeen = true := by
    rw [h.conn]
    exact h.seen hlen
  have hinput : r.conn.input = unhandled r.received := by rw [h.conn]
  have hfed := feed_delivers hg.inv hseen hfit
  rw [hinput] at hfed
  have hframes : Delivers (r.conn.feed data)
      (o.conn.handleFrames (framesOf (unhandled r.received ++ data)))
      (frameFraming.split (unhandled r.received ++ data)).2 := by
    have hmove := handleFrames_withInput o.conn (framesOf (unhandled r.received ++ data))
      (unhandled r.received)
    rw [← h.conn] at hmove
    rw [framesOf] at hmove ⊢
    rw [hmove] at hfed
    exact ⟨hfed.code, hfed.state, hfed.rest⟩
  rw [harrive, hrest]
  exact fed_frames (h.inv hg) h.input h.ok hframes

/-- A chunk that completes the preface. -/
theorem feed_preface (h : Tracks r o) (hfit : r.conn.input.length + data.length ≤ connInputCap)
    (hshort : r.received.length < clientPrefaceLen)
    (hlen : ¬ (r.received ++ data).length < clientPrefaceLen) :
    ((r.conn.feed data).1 = .ok ↔ ((arrivals r.received data).foldl Played.next o).ok = true)
      ∧ ((r.conn.feed data).1 = .ok → Fed (r.conn.feed data)
        { o with conn := started } ((arrivals r.received data).foldl Played.next o)
        (unhandled (r.received ++ data))) := by
  have hfresh := h.fresh hshort
  have hconn : r.conn = { Connection.init with input := r.received } := by
    rw [h.conn, hfresh, unhandled, if_pos hshort]
  have hcap : r.received.length + data.length ≤ connInputCap := by rwa [hconn] at hfit
  rw [arrivals_preface hshort, items, if_neg hlen, List.foldl_cons, unhandled, if_neg hlen]
  by_cases hpre : (r.received ++ data).take clientPrefaceLen = clientPreface
  · -- the connection is greeted, and then the frames are for the loop
    have hwire : r.received ++ data
        = clientPreface ++ (r.received ++ data).drop clientPrefaceLen := by
      rw [← hpre, List.take_append_drop]
    have hgreet : ({ o.conn with input := clientPreface } : Connection).feedPreface
        = (.ok, started) := by
      rw [hfresh]
      exact feedPreface_good { Inv.init with } (fun _ => ⟨rfl, Nat.zero_le _, fun _ => rfl⟩) rfl rfl
    have hnext : o.next (.preface clientPreface) = { o with conn := started } := by
      simp only [Played.next, hgreet, beq_self_eq_true, Bool.and_true]
    have hfed := feed_start_delivers hwire hcap
    rw [← hconn] at hfed
    rw [hpre, hnext]
    have hboth := fed_frames (o := { o with conn := started }) started_inv rfl h.ok hfed
    exact ⟨hboth.code, fun _ => hboth⟩
  · have hbig : ¬ data.length > connInputCap - r.received.length := by omega
    have hbad : (r.conn.feed data).1 ≠ .ok := by
      have hpref := feedPreface_bad
        (c := { Connection.init with input := r.received ++ data }) hpre
      have herr : ErrorCode.protocolError ≠ .ok := by decide
      have hnew : ¬ Connection.init.prefaceSeen = true := by simp [Connection.init]
      rw [hconn, Connection.feed]
      simp only [if_neg hbig, if_neg hnew, if_neg hlen]
      rw [hpref, andThen_err herr]
      exact herr
    -- a script whose first item is refused is refused as a whole
    have hplayed : ¬ ((((piecesOf ((r.received ++ data).drop clientPrefaceLen)).map
        Item.frame).foldl Played.next
          (o.next (.preface ((r.received ++ data).take clientPrefaceLen)))).ok = true) := by
      intro hok
      have hfirst := Played.foldl_ok hok
      have hpref := feedPreface_bad
        (c := { o.conn with input := (r.received ++ data).take clientPrefaceLen })
        (by rwa [List.take_take, Nat.min_self])
      simp only [Played.next, hpref] at hfirst
      cases (Bool.and_eq_true_iff.mp hfirst).2
    exact ⟨⟨fun h => absurd h hbad, fun h => absurd h hplayed⟩, fun h => absurd h hbad⟩

/-- **One chunk**: it is accepted if what it completes is played without an error, and then the
state is the one played. -/
theorem feed (h : Tracks r o) (hg : Good r.toObs)
    (hfit : r.conn.input.length + data.length ≤ connInputCap) :
    ((r.conn.feed data).1 = .ok ↔ ((arrivals r.received data).foldl Played.next o).ok = true)
      ∧ ((r.conn.feed data).1 = .ok →
        Tracks (r.call (.feed data)) ((arrivals r.received data).foldl Played.next o)) := by
  -- the preface came before, is still cut, or is completed by this call
  by_cases hlen : clientPrefaceLen ≤ r.received.length
  · have hfed := h.feed_seen hg hfit hlen
    have hgrown : clientPrefaceLen ≤ (r.received ++ data).length := by
      rw [List.length_append]
      omega
    refine ⟨hfed.code, fun hok => ⟨hfed.conn hok, hfed.input hok, h.sent.trans (hfed.sent hok).symm,
      hfed.code.mp hok, fun hshort => absurd hshort (not_lt.mpr hgrown), fun _ => ?_⟩⟩
    exact (hfed.seen hok).trans (h.seen hlen)
  · have hshort := not_le.mp hlen
    by_cases hstill : (r.received ++ data).length < clientPrefaceLen
    · obtain ⟨harrive, hrest⟩ := arrivals_short hstill
      have hconn : r.conn = { Connection.init with input := r.received } := by
        rw [h.conn, h.fresh hshort, unhandled, if_pos hshort]
      have hbig : ¬ data.length > connInputCap - r.conn.input.length := by omega
      have hfeed : r.conn.feed data = (.ok, { Connection.init with input := r.received ++ data }) := by
        have hnew : ¬ Connection.init.prefaceSeen = true := by simp [Connection.init]
        rw [hconn] at hbig ⊢
        rw [Connection.feed]
        simp only [if_neg hbig, if_neg hnew, if_pos hstill]
      rw [harrive, hfeed]
      refine ⟨⟨fun _ => h.ok, fun _ => rfl⟩, fun _ => ⟨?_, h.input, h.sent, h.ok,
        fun _ => h.fresh hshort, fun hgrown => absurd hstill (not_lt.mpr hgrown)⟩⟩
      show (r.conn.feed data).2 = { o.conn with input := unhandled (r.received ++ data) }
      rw [hfeed, h.fresh hshort, hrest]
    · obtain ⟨hcode, hfed⟩ := h.feed_preface hfit hshort hstill
      refine ⟨hcode, fun hok => ?_⟩
      exact ⟨(hfed hok).conn hok, (hfed hok).input hok, h.sent.trans ((hfed hok).sent hok).symm,
        hcode.mp hok, fun hgrown => absurd hgrown hstill, fun _ => (hfed hok).seen hok⟩

/-- Consumption. -/
theorem consume (h : Tracks r o) (sentLen : Nat) :
    Tracks (r.call (.consume sentLen)) (o.next (.consume sentLen)) := by
  have hkeep : ∀ (c : Connection) (input : List UInt8),
      { c with input := input }.consumeOutput sentLen
        = { c.consumeOutput sentLen with input := input } := by
    intro c input
    rw [consumeOutput, consumeOutput, compactOutput_eq, compactOutput_eq]
    rfl
  have hsame : (o.conn.consumeOutput sentLen).input = o.conn.input
      ∧ (o.conn.consumeOutput sentLen).prefaceSeen = o.conn.prefaceSeen := by
    rw [consumeOutput, compactOutput_eq]
    exact ⟨rfl, rfl⟩
  refine ⟨?_, hsame.1.trans h.input, ?_, h.ok, fun hshort => ?_, fun hlen => ?_⟩
  · show r.conn.consumeOutput sentLen = _
    rw [h.conn]
    exact hkeep _ _
  · show r.sent ++ r.conn.pending.take sentLen = o.sent ++ o.conn.pending.take sentLen
    rw [h.sent, h.conn]
    rfl
  · show o.conn.consumeOutput sentLen = Connection.init
    rw [h.fresh hshort, consumeOutput, compactOutput_eq]
    simp [Connection.init, pending]
  · exact hsame.2.trans (h.seen hlen)

end Tracks

/-! ## Runs and their scripts -/

/-- A chunk that is accepted fits. -/
theorem feed_fits {c : Connection} (hin : c.input.length ≤ connInputCap) {data : List UInt8}
    (hok : (c.feed data).1 = .ok) : c.input.length + data.length ≤ connInputCap := by
  by_contra hbig
  have hbig' : data.length > connInputCap - c.input.length := by omega
  rw [Connection.feed, if_pos hbig'] at hok
  cases hok

theorem Tracks.calls {r : Run} {o : Played} (h : Tracks r o) (hg : Good r.toObs) {ops : List Op}
    (hok : (r.calls ops).AllOk) :
    Tracks (r.calls ops) ((script r.received ops).foldl Played.next o) := by
  induction ops generalizing r o with
  | nil => exact h
  | cons op ops ih =>
      cases op with
      | feed data =>
          have hfirst : (r.call (.feed data)).AllOk := allOk_of_calls hok
          have hcode : (r.conn.feed data).1 = .ok :=
            hfirst _ (List.mem_append_right _ (List.mem_singleton.mpr rfl))
          have hstep := (h.feed hg (feed_fits hg.input_le hcode)).2 hcode
          rw [script, List.foldl_append]
          exact ih hstep (call_good hg _) hok
      | consume sentLen => exact ih (h.consume sentLen) (call_good hg _) hok

theorem Tracks.allOk {r : Run} {o : Played} (h : Tracks r o) (hg : Good r.toObs) (hr : r.AllOk)
    {ops : List Op} (hfit : r.ChunksFit ops)
    (hok : ((script r.received ops).foldl Played.next o).ok = true) : (r.calls ops).AllOk := by
  induction ops generalizing r o with
  | nil => exact hr
  | cons op ops ih =>
      cases op with
      | feed data =>
          rw [script, List.foldl_append] at hok
          obtain ⟨hcode, hstep⟩ := h.feed hg hfit.1
          have hfed := hcode.mpr (Played.foldl_ok hok)
          refine ih (hstep hfed) (call_good hg _) (fun code hmem => ?_) hfit.2 hok
          rcases List.mem_append.mp hmem with hmem | hmem
          · exact hr code hmem
          · rw [List.mem_singleton.mp hmem]
            exact hfed
      | consume sentLen => exact ih (h.consume sentLen) (call_good hg _) hr hfit hok

/-- **A run without errors plays its script.** -/
theorem exec_plays {ops : List Op} (hok : (exec ops).AllOk) :
    Tracks (exec ops) ((script [] ops).foldl Played.next .start) :=
  Tracks.start.calls good_start hok

/-- **A run has no errors if its chunks fit and its script has none.** -/
theorem exec_allOk {ops : List Op} (hfit : Run.start.ChunksFit ops)
    (hok : ((script [] ops).foldl Played.next .start).ok = true) : (exec ops).AllOk :=
  Tracks.start.allOk good_start (fun code hcode => by cases hcode) hfit hok

end C11Omo.Http2
