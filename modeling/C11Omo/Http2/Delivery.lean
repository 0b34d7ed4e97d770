import C11Omo.Http2.Scratch

set_option autoImplicit false

/-! # Delivery in chunks

What a connection does with a stream of frames does not depend on the chunks in which the stream
is fed: it handles one frame after the other, up to the first that fails (`handleFrames`), and the
only trace of the chunks is what is left in the input (`feeds_delivers`).
-/

namespace C11Omo.Http2

open C11Omo.Lib

namespace Connection

variable {c : Connection}

/-- Handle frames in a row, up to the first that fails. -/
def handleFrames (c : Connection) : List Frame → ErrorCode × Connection
  | [] => (.ok, c)
  | f :: fs => andThen (c.handleFrame f) fun c => c.handleFrames fs

/-- Feed chunks in a row, up to the first that fails. -/
def feeds (c : Connection) : List (List UInt8) → ErrorCode × Connection
  | [] => (.ok, c)
  | data :: rest => andThen (c.feed data) fun c => c.feeds rest

/-- Every chunk that is fed is within the remaining input capacity. -/
def FeedsFit (c : Connection) : List (List UInt8) → Prop
  | [] => True
  | data :: rest => c.input.length + data.length ≤ connInputCap
      ∧ ((c.feed data).1 = .ok → (c.feed data).2.FeedsFit rest)

theorem handleFrames_cons (c : Connection) (f : Frame) (fs : List Frame) :
    c.handleFrames (f :: fs) = andThen (c.handleFrame f) fun c => c.handleFrames fs := rfl

@[simp] theorem handleFrames_singleton (c : Connection) (f : Frame) :
    c.handleFrames [f] = c.handleFrame f := by
  rw [handleFrames_cons]
  rcases c.handleFrame f with ⟨ret, c'⟩
  cases ret <;> rfl

theorem handleFrames_append (c : Connection) (fs gs : List Frame) :
    c.handleFrames (fs ++ gs) = andThen (c.handleFrames fs) fun c => c.handleFrames gs := by
  induction fs generalizing c with
  | nil => rfl
  | cons f fs ih =>
      rw [List.cons_append, handleFrames_cons, handleFrames_cons]
      rcases c.handleFrame f with ⟨ret, c'⟩
      by_cases hret : ret = .ok
      · subst hret
        rw [andThen_ok, andThen_ok]
        exact ih c'
      · rw [andThen_err hret, andThen_err hret, andThen_err hret]

theorem handleFrames_withInput (c : Connection) (fs : List Frame) (input : List UInt8) :
    { c with input := input }.handleFrames fs
      = ((c.handleFrames fs).1, { (c.handleFrames fs).2 with input := input }) := by
  induction fs generalizing c with
  | nil => rfl
  | cons f fs ih =>
      rw [handleFrames_cons, handleFrames_cons, handleFrame_withInput]
      rcases c.handleFrame f with ⟨ret, c'⟩
      by_cases hret : ret = .ok
      · subst hret
        exact ih c'
      · rw [andThen_err hret, andThen_err hret]

theorem handleFrames_inv (hc : Inv c) (fs : List Frame) : Inv (c.handleFrames fs).2
    ∧ (c.handleFrames fs).2.prefaceSeen = c.prefaceSeen := by
  induction fs generalizing c with
  | nil => exact ⟨hc, rfl⟩
  | cons f fs ih =>
      have hc' := handleFrame_inv hc f
      have hseen := (handleFrame_input hc f).2
      rw [handleFrames_cons]
      rcases hres : c.handleFrame f with ⟨ret, c'⟩
      rw [hres] at hc' hseen
      by_cases hret : ret = .ok
      · subst hret
        exact ⟨(ih hc').1, (ih hc').2.trans hseen⟩
      · rw [andThen_err hret]
        exact ⟨hc', hseen⟩

/-- A result of `feed` that comes from handling frames: the code and the state are theirs, but for
the input, which is `rest` after a success. -/
structure Delivers (r : ErrorCode × Connection) (handled : ErrorCode × Connection)
    (rest : List UInt8) : Prop where
  code : r.1 = handled.1
  state : r.2 = { handled.2 with input := r.2.input }
  rest : r.1 = .ok → r.2.input = rest

/-- **One call of the loop** handles the frames that are complete. -/
theorem feedLoop_delivers (hc : Inv c) {fuel : Nat} (hfuel : c.input.length ≤ fuel) :
    Delivers (c.feedLoop fuel) (c.handleFrames (frameFraming.split c.input).1)
      (frameFraming.split c.input).2 := by
  induction fuel generalizing c with
  | zero =>
      have hnil : c.input = [] := List.length_eq_zero_iff.mp (by omega)
      have hcut : frameFraming.cut c.input = none := by
        rw [hnil]
        rfl
      rw [frameFraming.split_of_cut_eq_none hcut]
      exact ⟨rfl, rfl, fun _ => rfl⟩
  | succ fuel ih =>
      rw [feedLoop]
      rcases hcut : cutFrame c.input with _ | ⟨f, rest⟩
      · rw [feedStep_of_cut_none hcut, frameFraming.split_of_cut_eq_none hcut]
        exact ⟨rfl, rfl, fun _ => rfl⟩
      · have hlt : rest.length < c.input.length := frameFraming.cut_length_lt hcut
        rw [feedStep_of_cut hc hcut, frameFraming.split_of_cut_eq_some hcut]
        simp only [handleFrames_cons]
        rcases hres : c.handleFrame f with ⟨ret, c'⟩
        by_cases hret : ret = .ok
        · subst hret
          have hc' : Inv c' := by
            have hinv := handleFrame_inv hc f
            rwa [hres] at hinv
          have hrest := @ih { c' with input := rest } { hc' with } (by simp only; omega)
          rw [if_pos rfl, andThen_ok]
          -- the frames behind the first are handled with the rest as input
          rw [handleFrames_withInput] at hrest
          exact ⟨hrest.code, hrest.state, hrest.rest⟩
        · rw [if_neg hret, andThen_err hret]
          exact ⟨rfl, rfl, fun h => absurd h hret⟩

/-- A chunk behind the preface is for the loop. -/
theorem feed_of_seen (hseen : c.prefaceSeen = true) {data : List UInt8}
    (hfit : ¬ data.length > connInputCap - c.input.length) :
    c.feed data = { c with input := c.input ++ data }.feedLoop (c.input ++ data).length
      ∧ c.feedSteps data = { c with input := c.input ++ data }.loopSteps (c.input ++ data).length := by
  unfold Connection.feed feedSteps
  rw [if_neg hfit, if_neg hfit]
  exact ⟨if_pos hseen, if_pos hseen⟩

theorem feed_delivers (hc : Inv c) (hseen : c.prefaceSeen = true) {data : List UInt8}
    (hfit : c.input.length + data.length ≤ connInputCap) :
    Delivers (c.feed data) (c.handleFrames (frameFraming.split (c.input ++ data)).1)
      (frameFraming.split (c.input ++ data)).2 := by
  have hbig : ¬ data.length > connInputCap - c.input.length := by omega
  have hc' : Inv { c with input := c.input ++ data } := { hc with }
  have hloop := @feedLoop_delivers { c with input := c.input ++ data } hc' _ le_rfl
  rw [handleFrames_withInput] at hloop
  rw [feed, if_neg hbig]
  simp only [if_pos hseen]
  exact ⟨hloop.code, hloop.state, hloop.rest⟩

/-- The bytes that complete the frame at the front of the input. -/
theorem feed_completes (hc : Inv c) (hseen : c.prefaceSeen = true) {data : List UInt8} {f : Frame}
    (hwire : c.input ++ data = f.wire) (hfit : f.wire.length ≤ connInputCap) :
    Delivers (c.feed data) (c.handleFrame f) [] := by
  have hlen : c.input.length + data.length ≤ connInputCap := by
    rwa [← List.length_append, hwire]
  have hcut : frameFraming.cut f.wire = some (f, []) := by
    have hfront := cutFrame_wire f []
    rwa [List.append_nil] at hfront
  have hsplit : frameFraming.split (c.input ++ data) = ([f], []) := by
    rw [hwire, frameFraming.split_of_cut_eq_some hcut]
    rfl
  have hfed := feed_delivers hc hseen hlen
  rwa [hsplit, handleFrames_singleton] at hfed

/-- A chunk is fed and handled, and then the rest of the stream. -/
theorem Delivers.andThen {d : Connection} (hd : Inv d) (hdseen : d.prefaceSeen = true)
    {first : ErrorCode × Connection} {fs : List Frame} {rest tail : List UInt8}
    (hfirst : Delivers first (d.handleFrames fs) rest) {next : Connection → ErrorCode × Connection}
    (hnext : first.1 = .ok → Inv first.2 → first.2.prefaceSeen = true → Delivers (next first.2)
      (first.2.handleFrames (frameFraming.split (rest ++ tail)).1)
      (frameFraming.split (rest ++ tail)).2) :
    Delivers (andThen first next)
      (d.handleFrames (fs ++ (frameFraming.split (rest ++ tail)).1))
      (frameFraming.split (rest ++ tail)).2 := by
  rw [handleFrames_append]
  obtain ⟨hinv, hkeep⟩ := handleFrames_inv hd fs
  obtain ⟨ret, c'⟩ := first
  obtain ⟨hcode, hstate, hrest⟩ := hfirst
  rcases hframes : d.handleFrames fs with ⟨ret', d'⟩
  rw [hframes] at hcode hstate hinv hkeep
  simp only at hcode hstate hrest hinv hkeep hnext
  subst hcode
  by_cases hret : ret = .ok
  · subst hret
    have hseen' : c'.prefaceSeen = true := by
      rw [hstate]
      exact hkeep.trans hdseen
    have hc' : Inv c' := by
      rw [hstate]
      exact { hinv with }
    have hrest' := hnext rfl hc' hseen'
    rw [andThen_ok, andThen_ok]
    -- the state after the chunk differs from that after its frames in the input only
    rw [hstate, handleFrames_withInput] at hrest'
    rw [hstate]
    exact ⟨hrest'.code, hrest'.state, hrest'.rest⟩
  · rw [andThen_err hret, andThen_err hret]
    exact ⟨rfl, hstate, fun h => absurd h hret⟩

/-- **Feeding a stream in chunks is handling its frames**: the code and the state are those of
the frames one by one, but for what is left in the input. -/
theorem feeds_delivers (hc : Inv c) (hseen : c.prefaceSeen = true)
    (hstop : cutFrame c.input = none) {chunks : List (List UInt8)} (hfit : c.FeedsFit chunks) :
    Delivers (c.feeds chunks) (c.handleFrames (frameFraming.split (c.input ++ chunks.flatten)).1)
      (frameFraming.split (c.input ++ chunks.flatten)).2 := by
  induction chunks generalizing c with
  | nil =>
      rw [List.flatten_nil, List.append_nil, frameFraming.split_of_cut_eq_none hstop]
      exact ⟨rfl, rfl, fun _ => rfl⟩
  | cons data chunks ih =>
      have hfirst := feed_delivers hc hseen hfit.1
      rw [List.flatten_cons, ← List.append_assoc, frameFraming.split_append (c.input ++ data)]
      refine hfirst.andThen hc hseen fun hok hinv hseen' => ?_
      have hrest := ih hinv hseen' ((feed_stop hc (.of_seen hseen) hok).1 hseen') (hfit.2 hok)
      rwa [hfirst.rest hok] at hrest

/-! ## A stream of small frames -/

/-- An incomplete frame is shorter than the frames of the stream. -/
theorem input_lt {input tail : List UInt8} {size : Nat} (hstop : cutFrame input = none)
    (hall : (frameFraming.split (input ++ tail)).2 = [])
    (hsize : ∀ f ∈ (frameFraming.split (input ++ tail)).1, f.payload.length ≤ size) :
    input.length < frameHeaderLen + size ∨ input = [] := by
  rcases hcut : frameFraming.cut (input ++ tail) with _ | ⟨f, rest⟩
  · rw [frameFraming.split_of_cut_eq_none hcut] at hall
    exact Or.inr (List.append_eq_nil_iff.mp hall).1
  · rw [frameFraming.split_of_cut_eq_some hcut] at hsize
    have hf := hsize f (List.mem_cons_self ..)
    obtain ⟨hparse, -, hlen, -⟩ := cutFrame_eq_some hcut
    refine Or.inl ?_
    by_contra hlong
    unfold cutFrame at hstop
    rcases hp : parseHeader input with ret | header
    · -- there are enough bytes for a header
      have hlt : ¬ input.length < frameHeaderLen := by omega
      rw [parseHeader, if_neg hlt] at hp
      cases hp
    · rw [parseHeader_append hp tail] at hparse
      obtain rfl := Except.ok.inj hparse
      rw [hp] at hstop
      simp only at hstop
      rw [if_neg (by rw [Frame.header_length]; omega)] at hstop
      cases hstop

/-- Small chunks of a stream of small frames are within the input capacity. -/
theorem feedsFit_small (hc : Inv c) (hseen : c.prefaceSeen = true) (hstop : cutFrame c.input = none)
    {chunks : List (List UInt8)} {len size : Nat} (hchunks : ∀ data ∈ chunks, data.length ≤ len)
    (hcap : frameHeaderLen + size + len ≤ connInputCap)
    (hall : (frameFraming.split (c.input ++ chunks.flatten)).2 = [])
    (hsize : ∀ f ∈ (frameFraming.split (c.input ++ chunks.flatten)).1, f.payload.length ≤ size) :
    c.FeedsFit chunks := by
  induction chunks generalizing c with
  | nil => trivial
  | cons data chunks ih =>
      have hdata := hchunks data (List.mem_cons_self ..)
      have hfit : c.input.length + data.length ≤ connInputCap := by
        rcases input_lt hstop hall hsize with hlt | hnil
        · omega
        · rw [hnil, List.length_nil]
          omega
      refine ⟨hfit, fun hok => ?_⟩
      have hfed := feed_delivers hc hseen hfit
      obtain ⟨hinv, hkeep⟩ := handleFrames_inv hc (frameFraming.split (c.input ++ data)).1
      have hinv' : Inv (c.feed data).2 := by
        rw [hfed.state]
        exact { hinv with }
      have hseen' : (c.feed data).2.prefaceSeen = true := by
        rw [hfed.state]
        exact hkeep.trans hseen
      rw [List.flatten_cons, ← List.append_assoc, frameFraming.split_append (c.input ++ data)]
        at hall hsize
      rw [← hfed.rest hok] at hall hsize
      exact ih hinv' hseen' ((feed_stop hc (.of_seen hseen) hok).1 hseen')
        (fun data hmem => hchunks data (List.mem_cons_of_mem _ hmem)) hall
        fun f hf => hsize f (List.mem_append_right _ hf)

/-! ## From the start -/

/-- A fresh connection that has received the client preface. -/
def started : Connection := Connection.init.greeted

theorem started_inv : Inv started := greeted_inv Inv.init (by decide)

/-- Feeding the preface, and more, to a fresh connection. -/
theorem feed_start_delivers {input data rest : List UInt8} (hwire : input ++ data = clientPreface ++ rest)
    (hfit : input.length + data.length ≤ connInputCap) :
    Delivers ({ Connection.init with input := input }.feed data)
      (started.handleFrames (frameFraming.split rest).1) (frameFraming.split rest).2 := by
  have hbig : ¬ data.length > connInputCap - input.length := by omega
  have hlen : ¬ (input ++ data).length < clientPrefaceLen := by
    rw [hwire, List.length_append]
    exact not_lt.mpr (Nat.le_add_right _ _)
  have hnew : ¬ ({ Connection.init with input := input ++ data } : Connection).prefaceSeen = true := by
    simp [Connection.init]
  have hinv : Inv { Connection.init with input := input ++ data } := { Inv.init with }
  have hgreet := feedPreface_good hinv (fun _ => ⟨rfl, Nat.zero_le _, fun _ => rfl⟩) rfl (by
    show (input ++ data).take clientPrefaceLen = clientPreface
    rw [hwire]
    rfl)
  -- the preface is taken off the input
  have hrest : Connection.greeted { Connection.init with input := input ++ data }
      = { started with input := rest } := by
    unfold Connection.greeted started Connection.greeted dropInput
    rw [hwire]
    rfl
  rw [feed, if_neg hbig]
  simp only
  rw [if_neg hnew, if_neg hlen, hgreet, andThen_ok, hrest]
  have hloop := @feedLoop_delivers { started with input := rest } { started_inv with } _ le_rfl
  rw [handleFrames_withInput] at hloop
  exact ⟨hloop.code, hloop.state, hloop.rest⟩

/-- **The preface and small frames, in small chunks from the start.** -/
theorem feeds_start {chunks : List (List UInt8)} {rest : List UInt8} {len size : Nat}
    (hchunks : ∀ data ∈ chunks, data.length ≤ len)
    (hcap : frameHeaderLen + size + len ≤ connInputCap) (hpre : clientPrefaceLen + len ≤ connInputCap)
    (hall : (frameFraming.split rest).2 = [])
    (hsize : ∀ f ∈ (frameFraming.split rest).1, f.payload.length ≤ size)
    (hwire : chunks.flatten = clientPreface ++ rest) :
    Delivers (Connection.init.feeds chunks) (started.handleFrames (frameFraming.split rest).1)
      (frameFraming.split rest).2 := by
  -- as long as the preface is not complete it is collected in the input
  have key : ∀ (chunks : List (List UInt8)) (input : List UInt8), input.length < clientPrefaceLen →
      (∀ data ∈ chunks, data.length ≤ len) → input ++ chunks.flatten = clientPreface ++ rest →
      Delivers ({ Connection.init with input := input }.feeds chunks)
        (started.handleFrames (frameFraming.split rest).1) (frameFraming.split rest).2 := by
    intro chunks
    induction chunks with
    | nil =>
        intro input hshort _ hwire
        rw [List.flatten_nil, List.append_nil] at hwire
        rw [hwire, List.length_append] at hshort
        exact absurd hshort (not_lt.mpr (Nat.le_add_right _ _))
    | cons data chunks ih =>
        intro input hshort hchunks hwire
        have hdata := hchunks data (List.mem_cons_self ..)
        have hrest := fun data' hmem => hchunks data' (List.mem_cons_of_mem data hmem)
        rw [List.flatten_cons, ← List.append_assoc] at hwire
        rw [feeds]
        by_cases hlen : (input ++ data).length < clientPrefaceLen
        · have hfeed : ({ Connection.init with input := input } : Connection).feed data
              = (.ok, { Connection.init with input := input ++ data }) := by
            have hbig : ¬ data.length > connInputCap - input.length := by omega
            have hnew : ¬ Connection.init.prefaceSeen = true := by simp [Connection.init]
            rw [feed, if_neg hbig]
            simp only
            rw [if_neg hnew, if_pos hlen]
          rw [hfeed, andThen_ok]
          exact ih (input ++ data) hlen hrest hwire
        · have hprefix : clientPreface <+: input ++ data :=
            List.prefix_of_prefix_length_le (List.prefix_append _ _)
              (hwire ▸ List.prefix_append (input ++ data) _) (not_lt.mp hlen)
          obtain ⟨y, hy⟩ := hprefix
          have hsplit : rest = y ++ chunks.flatten := by
            rw [← hy, List.append_assoc] at hwire
            exact (List.append_cancel_left hwire).symm
          have hfirst := feed_start_delivers hy.symm (by omega)
          rw [hsplit, frameFraming.split_append] at hall hsize ⊢
          refine hfirst.andThen started_inv rfl fun hok hinv hseen => ?_
          have hstop := frameFraming.cut_split_rest y
          rw [← hfirst.rest hok] at hall hsize hstop ⊢
          exact feeds_delivers hinv hseen hstop (feedsFit_small hinv hseen hstop hrest hcap hall
            fun f hf => hsize f (List.mem_append_right _ hf))
  exact key chunks [] (by decide) hchunks hwire

end Connection

end C11Omo.Http2
