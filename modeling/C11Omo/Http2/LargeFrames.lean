import C11Omo.Http2.LateFrames
import C11Omo.Http2.Server

set_option autoImplicit false

/-! # Large frames

`h2_connection_feed` handles a frame when all its bytes are in the input buffer, and refuses a
chunk for which the buffer has no room. So a frame with its header is delivered exactly if the buffer
has room for the chunk that completes it, and a frame that comes alone exactly if it is no longer than
the buffer (`feeds_frame`, `feeds_overflow`). The client may raise `max_frame_size` above that with a
SETTINGS frame; from then on frames that the connection admits cannot be delivered, and frames above the
limit are not rejected as such.
-/

namespace C11Omo.Http2

open C11Omo.Lib Connection

/-! ## Frames in pieces -/

/-- The chunks up to the one in which the `n`-th byte lies. -/
def chunksTo : Nat → List (List UInt8) → List (List UInt8)
  | 0, _ => []
  | _ + 1, [] => []
  | n + 1, data :: chunks => data :: chunksTo (n + 1 - data.length) chunks

theorem chunksTo_zero (chunks : List (List UInt8)) : chunksTo 0 chunks = [] := by
  cases chunks <;> rfl

theorem chunksTo_cons {n : Nat} (h : n ≠ 0) (data : List UInt8) (chunks : List (List UInt8)) :
    chunksTo n (data :: chunks) = data :: chunksTo (n - data.length) chunks := by
  obtain ⟨m, rfl⟩ := Nat.exists_eq_succ_of_ne_zero h
  rfl

theorem chunksTo_prefix (n : Nat) (chunks : List (List UInt8)) : chunksTo n chunks <+: chunks := by
  induction chunks generalizing n with
  | nil => cases n <;> exact List.prefix_rfl
  | cons data chunks ih =>
      by_cases h : n = 0
      · rw [h, chunksTo_zero]
        exact List.nil_prefix
      · rw [chunksTo_cons h]
        exact (List.prefix_cons_inj data).mpr (ih _)

/-- They have `n` bytes if all chunks together have. -/
theorem le_chunksTo {n : Nat} {chunks : List (List UInt8)} (h : n ≤ chunks.flatten.length) :
    n ≤ (chunksTo n chunks).flatten.length := by
  induction chunks generalizing n with
  | nil =>
      rw [List.flatten_nil, List.length_nil, Nat.le_zero] at h
      rw [h]
      exact Nat.zero_le _
  | cons data chunks ih =>
      by_cases h0 : n = 0
      · rw [h0]
        exact Nat.zero_le _
      · rw [List.flatten_cons, List.length_append] at h
        rw [chunksTo_cons h0, List.flatten_cons, List.length_append]
        have hrest := @ih (n - data.length) (by omega)
        omega

theorem feeds_append (c : Connection) (chunks more : List (List UInt8)) :
    c.feeds (chunks ++ more) = andThen (c.feeds chunks) fun c => c.feeds more := by
  induction chunks generalizing c with
  | nil => rfl
  | cons data chunks ih =>
      rw [List.cons_append, feeds, feeds]
      rcases c.feed data with ⟨ret, c'⟩
      by_cases hret : ret = .ok
      · rw [hret, andThen_ok, andThen_ok]
        exact ih c'
      · rw [andThen_err hret, andThen_err hret, andThen_err hret]

/-- Splitting does not make the stream longer. -/
theorem split_rest_length_le (xs : List UInt8) : (frameFraming.split xs).2.length ≤ xs.length := by
  induction hn : xs.length using Nat.strong_induction_on generalizing xs with
  | _ n ih =>
      rcases hcut : frameFraming.cut xs with _ | ⟨f, rest⟩
      · rw [frameFraming.split_of_cut_eq_none hcut, hn]
      · have hlt := frameFraming.cut_length_lt hcut
        rw [frameFraming.split_of_cut_eq_some hcut]
        exact (ih rest.length (hn ▸ hlt) rest rfl).trans (by omega)

namespace Connection

variable {c : Connection} {f : Frame}

/-- Bytes that do not complete a frame are collected. -/
theorem feed_incomplete (hc : Inv c) (hseen : c.prefaceSeen = true) {data : List UInt8}
    (hfit : c.input.length + data.length ≤ connInputCap) (hnone : cutFrame (c.input ++ data) = none) :
    c.feed data = (.ok, { c with input := c.input ++ data }) := by
  obtain ⟨hcode, hstate, hrest⟩ := feed_delivers hc hseen hfit
  rw [frameFraming.split_of_cut_eq_none hnone] at hcode hstate hrest
  have hinput := hrest hcode
  rw [hinput] at hstate
  exact Prod.ext hcode hstate

/-- A chunk that completes a frame that fails: what follows the frame does not matter. -/
theorem feed_fails (hc : Inv c) (hseen : c.prefaceSeen = true) {data tail : List UInt8}
    (hwire : c.input ++ data = f.wire ++ tail)
    (hfit : c.input.length + data.length ≤ connInputCap) (hfail : (c.handleFrame f).1 ≠ .ok) :
    (c.feed data).1 = (c.handleFrame f).1
      ∧ (c.feed data).2 = { (c.handleFrame f).2 with input := (c.feed data).2.input } := by
  have hfed := feed_delivers hc hseen hfit
  have hcut : frameFraming.cut (f.wire ++ tail) = some (f, tail) := cutFrame_wire f tail
  rw [hwire, frameFraming.split_of_cut_eq_some hcut, handleFrames_cons] at hfed
  rw [andThen_err hfail] at hfed
  exact ⟨hfed.code, hfed.state⟩

/-- Chunks that are within the input capacity all together are within it one by one. -/
theorem feedsFit_total (hc : Inv c) (hseen : c.prefaceSeen = true) {chunks : List (List UInt8)}
    (hfit : c.input.length + chunks.flatten.length ≤ connInputCap) : c.FeedsFit chunks := by
  induction chunks generalizing c with
  | nil => trivial
  | cons data chunks ih =>
      rw [List.flatten_cons, List.length_append] at hfit
      refine ⟨by omega, fun hok => ?_⟩
      obtain ⟨-, hstate, hrest⟩ := @feed_delivers c hc hseen data (by omega)
      obtain ⟨hinv, hkeep⟩ := handleFrames_inv hc (frameFraming.split (c.input ++ data)).1
      have hinv' : Inv (c.feed data).2 := by
        rw [hstate]
        exact { hinv with }
      have hseen' : (c.feed data).2.prefaceSeen = true := by
        rw [hstate]
        exact hkeep.trans hseen
      have hshort := split_rest_length_le (c.input ++ data)
      rw [List.length_append] at hshort
      apply ih hinv' hseen'
      rw [hrest hok]
      omega

/-- The chunks in which a frame comes: the last one may hold bytes behind it. -/
def frameChunks (c : Connection) (f : Frame) (chunks : List (List UInt8)) : List (List UInt8) :=
  chunksTo (f.wire.length - c.input.length) chunks

/-- What the input buffer has to hold for the chunk that completes the frame. -/
def frameFill (c : Connection) (f : Frame) (chunks : List (List UInt8)) : Nat :=
  (c.input ++ (c.frameChunks f chunks).flatten).length

/-- What comes in these chunks behind the frame. -/
def behindFrame (c : Connection) (f : Frame) (chunks : List (List UInt8)) : List UInt8 :=
  (c.input ++ (c.frameChunks f chunks).flatten).drop f.wire.length

theorem frameChunks_bytes {chunks : List (List UInt8)} {tail : List UInt8}
    (hwire : c.input ++ chunks.flatten = f.wire ++ tail) :
    c.input ++ (c.frameChunks f chunks).flatten = f.wire ++ c.behindFrame f chunks
      ∧ c.behindFrame f chunks <+: tail := by
  have hsum : c.input.length + chunks.flatten.length = f.wire.length + tail.length := by
    rw [← List.length_append, hwire, List.length_append]
  have hle := @le_chunksTo (f.wire.length - c.input.length) chunks (by omega)
  have hpre : c.input ++ (c.frameChunks f chunks).flatten <+: f.wire ++ tail := by
    obtain ⟨more, hmore⟩ := chunksTo_prefix (f.wire.length - c.input.length) chunks
    rw [← hwire, frameChunks]
    conv_rhs => rw [← hmore, List.flatten_append, ← List.append_assoc]
    exact List.prefix_append _ _
  have hfront : f.wire <+: c.input ++ (c.frameChunks f chunks).flatten := by
    refine List.prefix_of_prefix_length_le (List.prefix_append _ tail) hpre ?_
    rw [List.length_append, frameChunks]
    omega
  obtain ⟨behind, hbehind⟩ := hfront
  have hdrop : c.behindFrame f chunks = behind := by
    rw [behindFrame, ← hbehind, List.drop_left]
  rw [hdrop]
  refine ⟨hbehind.symm, ?_⟩
  rw [← hbehind] at hpre
  exact (List.prefix_append_right_inj f.wire).mp hpre

/-- A frame that comes alone. -/
theorem frameFill_alone {chunks : List (List UInt8)} (hwire : c.input ++ chunks.flatten = f.wire) :
    c.frameFill f chunks = frameHeaderLen + f.payload.length := by
  obtain ⟨hbytes, hbehind⟩ := @frameChunks_bytes c f chunks [] (by rwa [List.append_nil])
  rw [List.prefix_nil] at hbehind
  rw [frameFill, hbytes, hbehind, List.append_nil, Frame.wire_length]

/-- **A frame whose chunks the input buffer can hold is delivered**, and then what comes behind it in
the last of them. -/
theorem feeds_front (hc : Inv c) (hseen : c.prefaceSeen = true) (hstop : cutFrame c.input = none)
    {chunks : List (List UInt8)} {tail : List UInt8}
    (hwire : c.input ++ chunks.flatten = f.wire ++ tail) (hfit : c.frameFill f chunks ≤ connInputCap) :
    c.FeedsFit (c.frameChunks f chunks) ∧ Delivers (c.feeds (c.frameChunks f chunks))
      (c.handleFrames (f :: (frameFraming.split (c.behindFrame f chunks)).1))
      (frameFraming.split (c.behindFrame f chunks)).2 := by
  have hfeeds : c.FeedsFit (c.frameChunks f chunks) :=
    feedsFit_total hc hseen (by rwa [← List.length_append])
  obtain ⟨hbytes, -⟩ := frameChunks_bytes hwire
  have hcut : frameFraming.cut (f.wire ++ c.behindFrame f chunks)
      = some (f, c.behindFrame f chunks) := cutFrame_wire f _
  have hfed := feeds_delivers hc hseen hstop hfeeds
  rw [hbytes, frameFraming.split_of_cut_eq_some hcut] at hfed
  exact ⟨hfeeds, hfed⟩

/-- A frame that comes alone. -/
theorem feeds_frame (hc : Inv c) (hseen : c.prefaceSeen = true) (hstop : cutFrame c.input = none)
    {chunks : List (List UInt8)} (hwire : c.input ++ chunks.flatten = f.wire)
    (hfit : f.wire.length ≤ connInputCap) :
    c.FeedsFit chunks ∧ Delivers (c.feeds chunks) (c.handleFrame f) [] := by
  have hfeeds := @feedsFit_total c hc hseen chunks (by rwa [← List.length_append, hwire])
  have hcut : frameFraming.cut f.wire = some (f, []) := by
    have h := cutFrame_wire f []
    rwa [List.append_nil] at h
  have hsplit : frameFraming.split (c.input ++ chunks.flatten) = ([f], []) := by
    rw [hwire, frameFraming.split_of_cut_eq_some hcut]
    rfl
  have hfed := feeds_delivers hc hseen hstop hfeeds
  rw [hsplit, handleFrames_singleton] at hfed
  exact ⟨hfeeds, hfed⟩

/-- **A frame whose chunks it cannot hold is never handled**: its bytes are collected until a chunk
has no room. -/
theorem feeds_overflow (hc : Inv c) (hseen : c.prefaceSeen = true)
    (hin : c.input.length ≤ connInputCap) {chunks : List (List UInt8)} {tail : List UInt8}
    (hwire : c.input ++ chunks.flatten = f.wire ++ tail)
    (hbig : connInputCap < c.frameFill f chunks) :
    ¬ c.FeedsFit (c.frameChunks f chunks)
      ∧ ∃ input, c.feeds chunks = (.internalError, { c with input := input }) := by
  induction chunks generalizing c with
  | nil =>
      have hnone : c.frameChunks f [] = [] := by
        rw [frameChunks]
        cases f.wire.length - c.input.length <;> rfl
      rw [frameFill, hnone, List.flatten_nil, List.append_nil] at hbig
      omega
  | cons data chunks ih =>
      by_cases hdone : f.wire.length - c.input.length = 0
      · rw [frameFill, frameChunks, hdone, chunksTo_zero, List.flatten_nil, List.append_nil] at hbig
        omega
      · have hchunks : c.frameChunks f (data :: chunks)
            = data :: frameChunks { c with input := c.input ++ data } f chunks := by
          rw [frameChunks, frameChunks, chunksTo_cons hdone, List.length_append, Nat.sub_add_eq]
        rw [hchunks, FeedsFit, feeds]
        by_cases hfit : c.input.length + data.length ≤ connInputCap
        · have hbig' : connInputCap
              < frameFill { c with input := c.input ++ data } f chunks := by
            rwa [frameFill, hchunks, List.flatten_cons, ← List.append_assoc] at hbig
          -- the frame goes on behind the chunk, or the buffer could hold it
          have hshort : (c.input ++ data).length < f.wire.length := by
            by_contra hlong
            have hzero : f.wire.length - (c.input ++ data).length = 0 := by omega
            rw [frameFill, frameChunks, hzero, chunksTo_zero, List.flatten_nil, List.append_nil,
              List.length_append] at hbig'
            omega
          have hwire' : c.input ++ data ++ chunks.flatten = f.wire ++ tail := by
            rwa [List.flatten_cons, ← List.append_assoc] at hwire
          have hpre : c.input ++ data <+: f.wire := by
            refine List.prefix_of_prefix_length_le ⟨chunks.flatten, hwire'⟩
              (List.prefix_append _ tail) hshort.le
          obtain ⟨more, hmore⟩ := hpre
          have hne : more ≠ [] := by
            rintro rfl
            rw [← hmore, List.append_nil] at hshort
            omega
          have hwhole : cutFrame (c.input ++ data ++ more) = some (f, []) := by
            rw [hmore, ← List.append_nil f.wire]
            exact cutFrame_wire f []
          have hfeed := feed_incomplete hc hseen hfit (cutFrame_incomplete hwhole hne)
          obtain ⟨hnot, input, hrest⟩ := @ih { c with input := c.input ++ data } { hc with } hseen
            (by rwa [List.length_append]) hwire' hbig'
          rw [hfeed, andThen_ok]
          exact ⟨fun h => hnot (h.2 rfl), input, hrest⟩
        · have hfull : c.feed data = (.internalError, c) := by
            rw [feed, if_pos (by omega)]
          rw [hfull, andThen_err (by decide)]
          exact ⟨fun h => hfit h.1, c.input, rfl⟩

theorem FeedsFit.front {chunks more : List (List UInt8)} (h : c.FeedsFit (chunks ++ more)) :
    c.FeedsFit chunks := by
  induction chunks generalizing c with
  | nil => trivial
  | cons data chunks ih => exact ⟨h.1, fun hok => ih (h.2 hok)⟩

/-- What fails in the chunks of the frame fails with all chunks. -/
theorem feeds_of_frameChunks {chunks : List (List UInt8)}
    (hfail : (c.feeds (c.frameChunks f chunks)).1 ≠ .ok) :
    c.feeds chunks = c.feeds (c.frameChunks f chunks) := by
  obtain ⟨more, hmore⟩ := chunksTo_prefix (f.wire.length - c.input.length) chunks
  calc c.feeds chunks
      = c.feeds (c.frameChunks f chunks ++ more) := by rw [frameChunks, hmore]
    _ = andThen (c.feeds (c.frameChunks f chunks)) fun c => c.feeds more := feeds_append ..
    _ = c.feeds (c.frameChunks f chunks) := andThen_err hfail _ _

/-- A frame that comes alone and is too long. -/
theorem feeds_overflow_alone (hc : Inv c) (hseen : c.prefaceSeen = true)
    (hin : c.input.length ≤ connInputCap) {chunks : List (List UInt8)}
    (hwire : c.input ++ chunks.flatten = f.wire) (hbig : connInputCap < f.wire.length) :
    ¬ c.FeedsFit chunks
      ∧ ∃ input, c.feeds chunks = (.internalError, { c with input := input }) := by
  have hfill : connInputCap < c.frameFill f chunks := by
    rwa [frameFill_alone hwire, ← Frame.wire_length]
  obtain ⟨hnot, hfeeds⟩ := @feeds_overflow c f hc hseen hin chunks [] (by rwa [List.append_nil]) hfill
  refine ⟨fun hfit => hnot ?_, hfeeds⟩
  obtain ⟨more, hmore⟩ := chunksTo_prefix (f.wire.length - c.input.length) chunks
  rw [← hmore] at hfit
  exact hfit.front

end Connection

/-! ## Frames above the limit -/

/-- A connection without errors has sent no GOAWAY. -/
theorem exec_goaway_unsent {ops : List Op} (hok : (exec ops).AllOk) :
    (exec ops).conn.goawaySent = false := by
  refine exec_invariant_ok (P := fun o => o.conn.goawaySent = false) rfl ?_ hok
  intro o o' hg hs hunsent
  cases hs with
  | frame f rest hseen hcut hok => exact (frameStep_acts hg.inv hok).sameFeed.goawaySent.trans hunsent
  | _ => exact hunsent

/-- A frame above the limit is a connection error, whatever else it is. -/
theorem Connection.handleFrame_oversized {c : Connection} (hc : Inv c) {f : Frame}
    (hlen : c.maxFrameSize < f.payload.length) (hunsent : c.goawaySent = false)
    (hroom : c.output.length + 17 ≤ connOutputCap) :
    c.handleFrame f = (.frameSizeError,
      { c with goawaySent := true, goawayError := ErrorCode.frameSizeError.toNat }.push
        (goawayFrame c.lastStreamId .frameSizeError)) := by
  have hproc : c.processFrame f.header f.payload = (.frameSizeError, c) := by
    rw [processFrame, Frame.header_length, if_pos hlen]
  have hfit : c.Fits (goawayFrame c.lastStreamId .frameSizeError) := by
    rw [Fits, goawayFrame_wire_length]
    exact hroom
  have hgoaway := queueGoaway_eq hc .frameSizeError
  rw [if_neg (by simp [hunsent]), if_pos hfit] at hgoaway
  rw [handleFrame_goaway hproc (by decide) (fun h => by cases h.1), hgoaway]

/-- **A frame above the limit is rejected as such** exactly if the input buffer can hold the chunks in
which it comes, whatever comes behind it: then some `feed` returns `H2_FRAME_SIZE_ERROR` with a GOAWAY.
Otherwise it ends in `H2_INTERNAL_ERROR` without one. A frame that comes alone needs room for nothing
but itself. -/
theorem oversized_frame_rejected {ops : List Op} (hok : (exec ops).AllOk)
    (hseen : (exec ops).conn.prefaceSeen = true) {f : Frame}
    (hlen : (exec ops).conn.maxFrameSize < f.payload.length)
    (hroom : (exec ops).conn.output.length + 17 ≤ connOutputCap) {chunks : List (List UInt8)}
    {tail : List UInt8} (hwire : (exec ops).conn.input ++ chunks.flatten = f.wire ++ tail) :
    (((exec ops).conn.feeds chunks).1 = .frameSizeError
        ∧ ((exec ops).conn.feeds chunks).2.output = (exec ops).conn.output
          ++ (goawayFrame (exec ops).conn.lastStreamId .frameSizeError).wire
      ↔ (exec ops).conn.frameFill f chunks ≤ connInputCap)
      ∧ (connInputCap < (exec ops).conn.frameFill f chunks →
        ((exec ops).conn.feeds chunks).1 = .internalError
          ∧ ((exec ops).conn.feeds chunks).2.output = (exec ops).conn.output)
      ∧ (tail = [] → (exec ops).conn.frameFill f chunks = frameHeaderLen + f.payload.length) := by
  have hgood := exec_good ops
  have hstop := (exec_stop hok).1 hseen
  have hunsent := exec_goaway_unsent hok
  have hc := hgood.inv
  have hin := hgood.input_le
  have hfull : connInputCap < (exec ops).conn.frameFill f chunks →
      ((exec ops).conn.feeds chunks).1 = .internalError
        ∧ ((exec ops).conn.feeds chunks).2.output = (exec ops).conn.output := by
    intro hbig
    obtain ⟨-, input, hfeeds⟩ := feeds_overflow hc hseen hin hwire hbig
    rw [hfeeds]
    exact ⟨rfl, rfl⟩
  refine ⟨⟨fun h => ?_, fun hfit => ?_⟩, hfull, fun htail => ?_⟩
  · -- beyond the buffer a chunk is refused before the frame is complete
    by_contra hbig
    have hcode := (hfull (not_le.mp hbig)).1
    rw [h.1] at hcode
    cases hcode
  · -- the frame is handled first, and its error is that of the chunks
    obtain ⟨-, hcode, hstate, -⟩ := feeds_front hc hseen hstop hwire hfit
    rw [handleFrames_cons, handleFrame_oversized hc hlen hunsent hroom,
      andThen_err (show ErrorCode.frameSizeError ≠ .ok by decide)] at hcode hstate
    replace hcode : ((exec ops).conn.feeds ((exec ops).conn.frameChunks f chunks)).1
        = .frameSizeError := hcode
    rw [feeds_of_frameChunks (by rw [hcode]; decide), hcode, hstate]
    exact ⟨rfl, rfl⟩
  · rw [htail, List.append_nil] at hwire
    exact frameFill_alone hwire

/-- A DATA frame of `n` zeros, for the stream 1. -/
def zeros (n : Nat) : Frame := Frame.of FrameType.data.toByte 0 1 (List.replicate n 0)

theorem zeros_length {n : Nat} (h : n ≤ maxFrameSizeLimit) : (zeros n).payload.length = n := by
  rw [zeros, Frame.of_payload (by rwa [List.length_replicate]), List.length_replicate]

/-- The bytes of a frame one by one. -/
def byteChunks (f : Frame) : List (List UInt8) := f.wire.map fun b => [b]

theorem byteChunks_flatten (f : Frame) : (byteChunks f).flatten = f.wire := by
  rw [byteChunks, ← List.flatMap_def]
  exact List.flatMap_singleton' _

/-- A client that has sent the preface, and one that has raised the limit as well. -/
def prefaceOnly : List Op := [.feed clientPreface]
def raisedLimit : List Op := [.feed (clientInput [settingsFrame settingsMaxFrameSize 16777215])]

set_option maxRecDepth 20000 in
theorem prefaceOnly_state : (exec prefaceOnly).AllOk ∧ (exec prefaceOnly).conn.prefaceSeen = true
    ∧ (exec prefaceOnly).conn.input = [] ∧ (exec prefaceOnly).conn.maxFrameSize = 16384
    ∧ (exec prefaceOnly).conn.output.length = 15 := by decide +kernel

theorem oversized_frame_rejected_small :
    ((exec prefaceOnly).conn.feeds (byteChunks (zeros 16385))).1 = .frameSizeError := by
  obtain ⟨hok, hseen, hinput, hmax, hout⟩ := prefaceOnly_state
  have hlen : (zeros 16385).payload.length = 16385 := zeros_length (by decide)
  obtain ⟨hiff, -, halone⟩ := @oversized_frame_rejected prefaceOnly hok hseen (zeros 16385)
    (by rw [hmax, hlen]; decide) (by rw [hout]; decide) (byteChunks (zeros 16385)) []
    (by rw [hinput, byteChunks_flatten, List.nil_append, List.append_nil])
  exact (hiff.mpr (by rw [halone rfl, hlen]; decide)).1

/-- One byte more than the input buffer can hold. -/
theorem oversized_frame_stuck : (exec prefaceOnly).conn.maxFrameSize < (zeros 131064).payload.length
    ∧ ((exec prefaceOnly).conn.feeds (byteChunks (zeros 131064))).1 = .internalError := by
  obtain ⟨hok, hseen, hinput, hmax, hout⟩ := prefaceOnly_state
  have hlen : (zeros 131064).payload.length = 131064 := zeros_length (by decide)
  have hgood := exec_good prefaceOnly
  obtain ⟨-, input, hfeeds⟩ := feeds_overflow_alone hgood.inv hseen hgood.input_le
    (show (exec prefaceOnly).conn.input ++ (byteChunks (zeros 131064)).flatten = (zeros 131064).wire by
      rw [hinput, byteChunks_flatten, List.nil_append])
    (by rw [Frame.wire_length, hlen]; decide)
  rw [hfeeds, hmax, hlen]
  exact ⟨by decide, rfl⟩

/-! ## The limit -/

namespace Connection

section Limit

variable {c : Connection} {size : Nat} {r : ErrorCode × Connection}

/-- A handler leaves `max_frame_size` as it is. -/
def KeepsLimit (size : Nat) (r : ErrorCode × Connection) : Prop := r.2.maxFrameSize = size

theorem KeepsLimit.andThen {next : Connection → ErrorCode × Connection} (h : KeepsLimit size r)
    (hnext : ∀ c : Connection, c.maxFrameSize = size → KeepsLimit size (next c)) :
    KeepsLimit size (andThen r next) := by
  obtain ⟨ret, c'⟩ := r
  by_cases hret : ret = .ok
  · subst hret
    exact hnext c' h
  · rw [andThen_err hret]
    exact h

theorem queueBytes_limit (h : c.maxFrameSize = size) (data : List UInt8) :
    KeepsLimit size (c.queueBytes data) := by
  have hcompact : c.compactOutput.maxFrameSize = size := by
    unfold compactOutput
    split_ifs <;> exact h
  unfold queueBytes
  simp only
  split_ifs <;> exact hcompact

theorem queueWire_limit (h : c.maxFrameSize = size) (wire : Option (List UInt8)) :
    KeepsLimit size (c.queueWire wire) := by
  cases wire with
  | none => exact h
  | some wire => exact queueBytes_limit h wire

/-- A frame is queued, and then the result is given one of two codes. -/
theorem queueWire_match_limit (h : c.maxFrameSize = size) (wire : Option (List UInt8))
    {next : Connection → ErrorCode × Connection}
    (hnext : ∀ c : Connection, c.maxFrameSize = size → KeepsLimit size (next c)) :
    KeepsLimit size (match c.queueWire wire with
      | (.ok, conn) => next conn
      | (_, conn) => (.internalError, conn)) := by
  have hqueue := queueWire_limit h wire
  rcases hres : c.queueWire wire with ⟨ret, c'⟩
  rw [hres] at hqueue
  cases ret <;> first | exact hnext c' hqueue | exact hqueue

theorem queueGoaway_limit (h : c.maxFrameSize = size) (errorCode : ErrorCode) :
    KeepsLimit size (c.queueGoaway errorCode) := by
  unfold queueGoaway
  split_ifs
  · exact h
  · rcases encodeGoaway (frameHeaderLen + 8) c.lastStreamId errorCode.toNat [] with _ | wire
    · exact h
    · exact @queueBytes_limit { c with goawaySent := true, goawayError := errorCode.toNat } _ h wire

theorem refreshRecvWindows_limit (h : c.maxFrameSize = size) (stream : Option (Fin connMaxStreams)) :
    KeepsLimit size (c.refreshRecvWindows stream) := by
  have hconn : KeepsLimit size c.refreshConnRecvWindow := by
    unfold refreshConnRecvWindow
    split_ifs
    · refine @queueWire_match_limit _ _ ?_ _ (fun conn => (.ok, conn)) fun _ h => h
      exact h
    · exact h
  refine hconn.andThen fun c h => ?_
  cases stream with
  | none => exact h
  | some pos =>
      show KeepsLimit size (c.refreshStreamRecvWindow pos)
      unfold refreshStreamRecvWindow
      simp only
      split_ifs
      · refine @queueWire_match_limit _ _ ?_ _ (fun conn => (.ok, conn)) fun _ h => h
        exact h
      · exact h

theorem queueDeferredData_limit (h : c.maxFrameSize = size) (pos : Fin connMaxStreams)
    (body : List UInt8) : KeepsLimit size (c.queueDeferredData pos body) := by
  unfold queueDeferredData
  split_ifs
  · exact h
  · exact queueWire_match_limit h _ fun _ h => h

theorem queueResponse_limit (h : c.maxFrameSize = size) (pos : Fin connMaxStreams) :
    KeepsLimit size (c.queueResponse pos) := by
  have hheaders : ∀ c : Connection, c.maxFrameSize = size → ∀ contentLength,
      KeepsLimit size (c.queueResponseHeaders pos contentLength) := by
    intro c h contentLength
    unfold queueResponseHeaders
    rcases responseHeaderBlock contentLength with _ | block
    · exact h
    · exact queueWire_match_limit h _ fun _ h => h
  -- what follows once the path has been filled in
  have hbody : ∀ c : Connection, c.maxFrameSize = size → ∀ body : List UInt8, KeepsLimit size
      (if body.length ≥ 320 then (.internalError, c)
        else if (decimal body.length).length ≥ 32 then (.internalError, c)
        else andThen (if (c.streams pos).responseHeadersSent then (.ok, c)
          else c.queueResponseHeaders pos (decimal body.length))
            fun conn => conn.queueDeferredData pos body) := by
    intro c h body
    split_ifs
    · exact h
    · exact h
    · exact KeepsLimit.andThen h fun c h => queueDeferredData_limit h pos body
    · exact (hheaders c h _).andThen fun c h => queueDeferredData_limit h pos body
  unfold queueResponse
  by_cases hsent : (c.streams pos).responseSent = true
  · rw [if_pos hsent]
    exact h
  · rw [if_neg hsent]
    simp only
    by_cases hpath : (c.streams pos).path = []
    · rw [if_pos hpath]
      refine hbody _ ?_ _
      exact h
    · rw [if_neg hpath]
      exact hbody c h _

theorem flushDeferredLoop_limit (ps : List (Fin connMaxStreams)) (h : c.maxFrameSize = size) :
    KeepsLimit size (flushDeferredLoop ps c) := by
  induction ps generalizing c with
  | nil => exact h
  | cons pos ps ih =>
      unfold flushDeferredLoop
      split_ifs
      · exact (queueResponse_limit h pos).andThen fun c h => ih h
      · exact ih h

theorem finishHeaders_limit (h : c.maxFrameSize = size) (streamId : Nat) (flags : UInt8)
    (block : List UInt8) : KeepsLimit size (c.finishHeaders streamId flags block) := by
  have hslot : (c.getStream streamId).2.maxFrameSize = size := by
    unfold getStream
    split
    · exact h
    · split <;> exact h
  unfold finishHeaders
  split_ifs
  · exact h
  · exact h
  · rcases hget : c.getStream streamId with ⟨_ | pos, c'⟩
    · rw [hget] at hslot
      exact hslot
    · rw [hget] at hslot
      simp only
      split_ifs
      · exact hslot
      · exact hslot
      · refine queueResponse_limit ?_ pos
        exact hslot

theorem processHeaders_limit (h : c.maxFrameSize = size) (header : FrameHeader)
    (payload : List UInt8) : KeepsLimit size (c.processHeaders header payload) := by
  unfold processHeaders
  rcases parseHeaders header payload with ret | parsed
  · exact h
  · simp only
    split_ifs
    · exact h
    · unfold appendHeaderBlock
      split_ifs <;> exact h
    · exact finishHeaders_limit h _ _ _

theorem processContinuation_limit (h : c.maxFrameSize = size) (header : FrameHeader)
    (payload : List UInt8) : KeepsLimit size (c.processContinuation header payload) := by
  unfold processContinuation
  by_cases hbad : c.headerBlockOpen = false ∨ header.streamId ≠ c.headerBlockStreamId
  · rw [if_pos hbad]
    exact h
  · rw [if_neg hbad]
    rcases parseContinuation header payload with ret | fragment
    · exact h
    · have happend : KeepsLimit size (c.appendHeaderBlock fragment) := by
        unfold appendHeaderBlock
        split_ifs <;> exact h
      refine happend.andThen fun c h => ?_
      by_cases hend : hasFlag header.flags flagEndHeaders = false
      · rw [if_pos hend]
        exact h
      · rw [if_neg hend]
        refine finishHeaders_limit ?_ _ _ _
        exact h

theorem processData_limit (h : c.maxFrameSize = size) (header : FrameHeader)
    (payload : List UInt8) : KeepsLimit size (c.processData header payload) := by
  unfold processData
  rcases parseData header payload with ret | parsed
  · exact h
  · rcases c.findStream header.streamId with _ | pos
    · exact h
    · simp only
      split_ifs
      · exact h
      · have hrefresh := @refreshRecvWindows_limit { c with
          connRecvWindow := c.connRecvWindow - toInt32 header.length } size h none
        exact hrefresh
      · exact h
      · exact h
      all_goals
        refine refreshRecvWindows_limit ?_ _
        exact h

theorem processWindowUpdate_limit (h : c.maxFrameSize = size) (header : FrameHeader)
    (payload : List UInt8) : KeepsLimit size (c.processWindowUpdate header payload) := by
  unfold processWindowUpdate
  rcases parseWindowUpdate header payload with ret | increment
  · exact h
  · simp only
    split_ifs
    · exact h
    · refine flushDeferredLoop_limit _ ?_
      exact h
    · rcases c.findStream header.streamId with _ | pos
      · exact h
      · simp only
        split_ifs
        · exact h
        · refine flushDeferredLoop_limit _ ?_
          exact h

/-- **Only SETTINGS changes `max_frame_size`.** -/
theorem handleFrame_limit {f : Frame} (ht : f.type ≠ FrameType.settings.toByte) :
    (c.handleFrame f).2.maxFrameSize = c.maxFrameSize := by
  have hproc : KeepsLimit c.maxFrameSize (c.processFrame f.header f.payload) := by
    by_cases hadmits : c.Admits f
    · rcases htype : FrameType.ofByte? f.type with _ | t
      · rw [processFrame_unknown hadmits htype]
        rfl
      · have ht' := FrameType.ofByte?_eq_some htype
        rw [processFrame_handler hadmits ht']
        cases t with
        | data => exact processData_limit rfl _ _
        | headers => exact processHeaders_limit rfl _ _
        | priority =>
            rw [handler]
            rcases parsePriority f.header f.payload with ret | parsed <;> rfl
        | rstStream =>
            rw [handler, processRstStream]
            rcases parseRstStream f.header f.payload with ret | code
            · rfl
            · rcases c.findStream f.header.streamId with _ | pos
              · simp only
                split_ifs <;> rfl
              · rfl
        | settings => exact absurd ht' ht
        | pushPromise => rfl
        | ping =>
            rw [handler, processPing]
            rcases parsePing f.header f.payload with ret | opaqueData
            · rfl
            · simp only
              split_ifs
              · rfl
              · exact queueWire_limit rfl _
        | goaway => rfl
        | windowUpdate => exact processWindowUpdate_limit rfl _ _
        | continuation => exact processContinuation_limit rfl _ _
    · obtain ⟨ret, -, heq⟩ := processFrame_rejected hadmits
      rw [heq]
      rfl
  -- RST_STREAM and GOAWAY leave the limit alone, too
  rcases hres : c.processFrame f.header f.payload with ⟨ret, c'⟩
  rw [hres] at hproc
  by_cases hok : ret = .ok
  · subst hok
    rw [handleFrame_ok hres]
    exact hproc
  · by_cases hreset : isStreamError ret = true ∧ f.streamId ≠ 0
    · rw [handleFrame_reset hres hreset.1 hreset.2]
      refine KeepsLimit.andThen (queueWire_limit hproc _) fun c h => ?_
      split <;> exact h
    · rw [handleFrame_goaway hres hok hreset]
      exact queueGoaway_limit hproc ret

end Limit

end Connection

/-- A list of entries leaves a value alone or sets it. -/
theorem lastValue_cases (id : Nat) (settings : List Setting) :
    (∀ d, lastValue id settings d = d)
      ∨ ∃ v : Nat, ∀ d, lastValue id settings d = v := by
  induction settings with
  | nil => exact Or.inl fun _ => rfl
  | cons s rest ih =>
      have hcons : ∀ d, lastValue id (s :: rest) d
          = lastValue id rest (if s.id = id then (s.value : Int) else d) := fun _ => rfl
      rcases ih with hkeep | ⟨v, hset⟩
      · by_cases hid : s.id = id
        · refine Or.inr ⟨s.value, fun d => ?_⟩
          rw [hcons, hkeep, if_pos hid]
        · refine Or.inl fun d => ?_
          rw [hcons, hkeep, if_neg hid]
      · exact Or.inr ⟨v, fun d => by rw [hcons, hset]⟩

/-- The last maximum frame size of a SETTINGS frame leaves room for the frame header. -/
def FrameStep.Moderate (st : FrameStep) : Prop :=
  ∀ settings, parseSettings st.frame.header st.frame.payload 32 = .ok settings →
    hasFlag st.frame.flags flagAck = false →
    frameHeaderLen + lastValue settingsMaxFrameSize settings defaultMaxFrameSize ≤ connInputCap

/-- What an accepted frame does to `max_frame_size`. -/
theorem Connection.handleFrame_maxFrameSize {c : Connection} (hc : Inv c) {f : Frame}
    (hok : (c.handleFrame f).1 = .ok) :
    (c.handleFrame f).2.maxFrameSize = c.maxFrameSize
        ∧ (∀ settings, parseSettings f.header f.payload 32 = .ok settings →
          hasFlag f.flags flagAck = false → ∀ d, lastValue settingsMaxFrameSize settings d = d)
      ∨ ∃ settings, parseSettings f.header f.payload 32 = .ok settings
        ∧ hasFlag f.flags flagAck = false
        ∧ ∀ d, lastValue settingsMaxFrameSize settings d = (c.handleFrame f).2.maxFrameSize := by
  by_cases ht : f.type = FrameType.settings.toByte
  · have hblock : c.blockOf f = none := by
      unfold blockOf
      rw [ht, FrameType.ofByte?_toByte]
    obtain ⟨-, hres, heq⟩ := handleFrame_of_ok ht hok (part_code hc hblock ht (by decide))
    rw [heq, handler]
    obtain ⟨settings, hparse, ⟨hack, -, hsame⟩ | ⟨hack, hall, hafter⟩⟩ := applySettings_of_ok hc hres
    · refine Or.inl ⟨by rw [hsame], fun _ _ hno => ?_⟩
      exact absurd (hack.symm.trans hno) (by decide)
    · have hsize : ((c.applySettings f.header f.payload).2.maxFrameSize : Int)
          = lastValue settingsMaxFrameSize settings c.maxFrameSize := by
        rw [hafter, foldl_applied]
        show ((lastValue settingsMaxFrameSize settings c.maxFrameSize).toNat : Int) = _
        rcases lastValue_cases settingsMaxFrameSize settings with hkeep | ⟨v, hset⟩
        · rw [hkeep, Int.toNat_natCast]
        · rw [hset, Int.toNat_natCast]
      rcases lastValue_cases settingsMaxFrameSize settings with hkeep | ⟨v, hset⟩
      · refine Or.inl ⟨by rw [hkeep] at hsize; exact_mod_cast hsize, fun settings' hparse' _ d => ?_⟩
        rw [hparse] at hparse'
        rw [← Except.ok.inj hparse']
        exact hkeep d
      · exact Or.inr ⟨settings, hparse, hack, fun d => by rw [hsize, hset, hset]⟩
  · refine Or.inl ⟨handleFrame_limit ht, fun settings hparse => ?_⟩
    have hbad : f.header.type ≠ FrameType.settings.toByte := ht
    rw [parseSettings, if_pos hbad] at hparse
    cases hparse

/-- **Every admitted frame can be delivered** as long as the SETTINGS frames of the client are
moderate: then the limit stays below the input capacity. In general a frame within the limit
reaches its handler exactly if the input buffer can hold the chunks in which it comes, whatever comes
behind it, and otherwise ends in `H2_INTERNAL_ERROR`. A frame that comes alone needs room for nothing
but itself. -/
theorem admitted_frame_delivered {ops : List Op} (hok : (exec ops).AllOk) :
    ((∀ st ∈ (exec ops).steps, st.Moderate) →
        frameHeaderLen + (exec ops).conn.maxFrameSize ≤ connInputCap)
      ∧ (∀ st ∈ (exec ops).steps, ¬ st.Moderate →
        connInputCap < frameHeaderLen + st.after.maxFrameSize)
      ∧ ((exec ops).conn.prefaceSeen = true → ∀ f : Frame,
        f.payload.length ≤ (exec ops).conn.maxFrameSize →
        ∀ (chunks : List (List UInt8)) (tail : List UInt8),
          (∀ data ∈ chunks, data.length ≤ readBufferLen) →
          (exec ops).conn.input ++ chunks.flatten = f.wire ++ tail →
          ((exec ops).conn.FeedsFit ((exec ops).conn.frameChunks f chunks)
              ∧ Delivers ((exec ops).conn.feeds ((exec ops).conn.frameChunks f chunks))
                ((exec ops).conn.handleFrames
                  (f :: (frameFraming.split ((exec ops).conn.behindFrame f chunks)).1))
                (frameFraming.split ((exec ops).conn.behindFrame f chunks)).2
            ↔ (exec ops).conn.frameFill f chunks ≤ connInputCap)
          ∧ (connInputCap < (exec ops).conn.frameFill f chunks →
            ((exec ops).conn.feeds chunks).1 = .internalError)
          ∧ (tail = [] →
            ((exec ops).conn.FeedsFit chunks
                ∧ Delivers ((exec ops).conn.feeds chunks) ((exec ops).conn.handleFrame f) []
              ↔ frameHeaderLen + f.payload.length ≤ connInputCap))) := by
  refine ⟨?_, ?_, ?_⟩
  · -- only an accepted SETTINGS frame moves the limit, and a moderate one keeps it in the buffer
    refine exec_invariant_ok (P := fun o => (∀ st ∈ o.steps, st.Moderate) →
      frameHeaderLen + o.conn.maxFrameSize ≤ connInputCap) (fun _ => by decide) ?_ hok
    intro o o' hg hs hall
    cases hs with
    | frame f rest hseen hcut hok =>
        intro hmoderate
        show frameHeaderLen + (o.conn.handleFrame f).2.maxFrameSize ≤ connInputCap
        have hlast : (o.conn.frameStep f).Moderate := hmoderate _ (List.mem_append_right _ (by simp))
        rcases handleFrame_maxFrameSize hg.inv hok with ⟨hsame, -⟩ | ⟨settings, hparse, hack, hset⟩
        · rw [hsame]
          exact hall fun st hst => hmoderate st (List.mem_append_left _ hst)
        · have hle := hlast settings hparse hack
          rw [hset] at hle
          exact_mod_cast hle
    | _ => exact hall
  · intro st hst hnot
    obtain ⟨hc, -, heq⟩ := exec_steps_cut ops st hst
    have hcode : (st.before.handleFrame st.frame).1 = .ok := by
      have hall := exec_steps_ok hok st hst
      rw [heq] at hall
      exact hall
    have hafter : st.after = (st.before.handleFrame st.frame).2 := congrArg FrameStep.after heq
    by_contra hle
    refine hnot fun settings hparse hack => ?_
    rcases handleFrame_maxFrameSize hc hcode with ⟨-, hkeep⟩ | ⟨settings', hparse', -, hset⟩
    · rw [hkeep settings hparse hack]
      decide
    · rw [hparse] at hparse'
      rw [Except.ok.inj hparse', hset, ← hafter]
      exact_mod_cast not_lt.mp hle
  · intro hseen f hlen chunks tail hchunks hwire
    have hgood := exec_good ops
    have hstop := (exec_stop hok).1 hseen
    refine ⟨⟨fun h => ?_, fun hfit => feeds_front hgood.inv hseen hstop hwire hfit⟩,
      fun hbig => ?_, fun htail => ?_⟩
    · -- too much for the input buffer: some chunk is refused
      by_contra hbig
      exact (feeds_overflow hgood.inv hseen hgood.input_le hwire (not_le.mp hbig)).1 h.1
    · obtain ⟨-, input, hfeeds⟩ := feeds_overflow hgood.inv hseen hgood.input_le hwire hbig
      rw [hfeeds]
    · rw [htail, List.append_nil] at hwire
      constructor
      · intro h
        by_contra hbig
        exact (feeds_overflow_alone hgood.inv hseen hgood.input_le hwire
          (by rw [Frame.wire_length]; omega)).1 h.1
      · intro hfit
        exact feeds_frame hgood.inv hseen hstop hwire (by rwa [Frame.wire_length])

set_option maxRecDepth 20000 in
theorem raisedLimit_state : (exec raisedLimit).AllOk ∧ (exec raisedLimit).conn.prefaceSeen = true
    ∧ (exec raisedLimit).conn.input = [] ∧ (exec raisedLimit).conn.maxFrameSize = 16777215 := by
  decide +kernel

theorem admitted_frame_delivered_small :
    Delivers ((exec prefaceOnly).conn.feeds (byteChunks (zeros 16384)))
      ((exec prefaceOnly).conn.handleFrame (zeros 16384)) [] := by
  obtain ⟨hok, hseen, hinput, hmax, -⟩ := prefaceOnly_state
  have hlen : (zeros 16384).payload.length = 16384 := zeros_length (by decide)
  have hbytes : ∀ data ∈ byteChunks (zeros 16384), data.length ≤ readBufferLen := by
    intro data hdata
    obtain ⟨b, -, rfl⟩ := List.mem_map.mp hdata
    exact Nat.le_add_left 1 8191
  have hwire : (exec prefaceOnly).conn.input ++ (byteChunks (zeros 16384)).flatten
      = (zeros 16384).wire ++ [] := by
    rw [hinput, byteChunks_flatten, List.nil_append, List.append_nil]
  exact (((admitted_frame_delivered hok).2.2 hseen (zeros 16384) (by rw [hmax, hlen])
    (byteChunks (zeros 16384)) [] hbytes hwire).2.2 rfl |>.mpr (by rw [hlen]; decide)).2

/-- After a SETTINGS frame with the largest limit, an admitted frame cannot be delivered. -/
theorem admitted_frame_stuck : (exec raisedLimit).AllOk
    ∧ (zeros 131064).payload.length ≤ (exec raisedLimit).conn.maxFrameSize
    ∧ connInputCap < frameHeaderLen + (exec raisedLimit).conn.maxFrameSize
    ∧ ((exec raisedLimit).conn.feeds (byteChunks (zeros 131064))).1 = .internalError := by
  obtain ⟨hok, hseen, hinput, hmax⟩ := raisedLimit_state
  have hlen : (zeros 131064).payload.length = 131064 := zeros_length (by decide)
  have hgood := exec_good raisedLimit
  obtain ⟨-, input, hfeeds⟩ := feeds_overflow_alone hgood.inv hseen hgood.input_le
    (show (exec raisedLimit).conn.input ++ (byteChunks (zeros 131064)).flatten = (zeros 131064).wire by
      rw [hinput, byteChunks_flatten, List.nil_append])
    (by rw [Frame.wire_length, hlen]; decide)
  rw [hfeeds, hmax, hlen]
  exact ⟨hok, by decide, by decide, rfl⟩

end C11Omo.Http2
