import C11Omo.Http2.Requests

set_option autoImplicit false

/-! # A full slot table

A request whose client keeps its side open holds its slot after it has been answered. 128 such
requests fill the table (`fillTable_filled`), and the next request is refused (`feed_refused`): the
server queues RST_STREAM and changes nothing else.
-/

namespace C11Omo.Http2

open C11Omo.Lib Connection

/-! ## Refusing a request -/

/-- A request that finds no slot is refused with RST_STREAM, and nothing else changes. -/
theorem handleFrame_refused {c : Connection} (hc : Inv c) (hblock : c.headerBlockOpen = false)
    (hfull : ∀ i, live (c.streams i) = true) {f : Frame} (ht : f.type = FrameType.headers.toByte)
    (hend : hasFlag f.flags flagEndHeaders = true) {parsed : HeadersPayload}
    (hparse : parseHeaders f.header f.payload = .ok parsed) (hodd : f.streamId % 2 = 1)
    (hlast : c.lastStreamId < f.streamId) (hlen : f.payload.length ≤ c.maxFrameSize)
    (hroom : c.Fits (rstStreamFrame f.streamId .refusedStream)) :
    c.handleFrame f = (.ok, c.push (rstStreamFrame f.streamId .refusedStream)) := by
  have h0 : f.streamId ≠ 0 := by omega
  have hadmits : c.Admits f := ⟨hlen, fun h => absurd (hblock.symm.trans h.1) (by decide)⟩
  have hnone : c.freeSlot = none := freeSlot_eq_none.mpr hfull
  have hproc := processFrame_headers hadmits ht hparse hend
  rw [finishHeaders_eq hc hodd hlast, hnone] at hproc
  have hreset := resetStreamError_eq hc h0 .refusedStream
  rw [if_pos hroom, findStream_new hc hlast] at hreset
  exact (handleFrame_reset hproc rfl h0).trans hreset

/-- **A request that finds no slot**: RST_STREAM is queued, and nothing else changes. -/
theorem feed_refused {c : Connection} (hc : Inv c) (hseen : c.prefaceSeen = true)
    (hinput : c.input = []) (hblock : c.headerBlockOpen = false)
    (hfull : ∀ i, live (c.streams i) = true) {f : Frame} (ht : f.type = FrameType.headers.toByte)
    (hend : hasFlag f.flags flagEndHeaders = true) {parsed : HeadersPayload}
    (hparse : parseHeaders f.header f.payload = .ok parsed) (hodd : f.streamId % 2 = 1)
    (hlast : c.lastStreamId < f.streamId) (hlen : f.payload.length ≤ c.maxFrameSize)
    (hfit : f.wire.length ≤ connInputCap)
    (hroom : c.Fits (rstStreamFrame f.streamId .refusedStream)) :
    c.feed f.wire = (.ok, c.push (rstStreamFrame f.streamId .refusedStream)) := by
  have hc' : Inv { c with input := f.wire } := { hc with }
  have hhandle := handleFrame_refused hc' hblock hfull ht hend hparse hodd hlast hlen hroom
  rw [feed_frame hc hseen hinput hfit, hhandle]
  simp [push, hinput]

/-- **RST_STREAM for a stream that has a slot** closes the stream. -/
theorem feed_rstStream {c : Connection} (hc : Inv c) (hseen : c.prefaceSeen = true)
    (hinput : c.input = []) (hblock : c.headerBlockOpen = false) {f : Frame}
    (ht : f.type = FrameType.rstStream.toByte) {code : Nat}
    (hparse : parseRstStream f.header f.payload = .ok code)
    (hlen : f.payload.length ≤ c.maxFrameSize) (hfit : f.wire.length ≤ connInputCap)
    {pos : Fin connMaxStreams} (hfind : c.findStream f.streamId = some pos) :
    c.feed f.wire = (.ok, c.setStream pos (c.streams pos).close) := by
  have hadmits : Admits { c with input := f.wire } f :=
    ⟨hlen, fun h => absurd (hblock.symm.trans h.1) (by decide)⟩
  have hfind' : findStream { c with input := f.wire } f.header.streamId = some pos := hfind
  have hproc := processFrame_handler hadmits ht
  rw [handler, processRstStream, hparse] at hproc
  simp only [hfind'] at hproc
  rw [feed_frame hc hseen hinput hfit, handleFrame_ok hproc]
  simp [Connection.setStream, hinput]

/-! ## Filling the table -/

/-- A request for `/` from a client that keeps its side open. -/
def postRequest (streamId : Nat) : Frame :=
  Frame.of FrameType.headers.toByte flagEndHeaders streamId [0x84]

theorem postRequest_eq {streamId : Nat} (h0 : streamId ≠ 0) (hlt : streamId < 2 ^ 31) :
    ∃ r : Request, r.streamId = streamId ∧ r.block = [0x84] ∧ r.endStream = false
      ∧ r.payload = [0x84] ∧ r.frame = postRequest streamId :=
  ⟨{ streamId := streamId, block := [0x84], endStream := false, padding := none, priority := none,
      streamId_pos := h0, streamId_lt := hlt, padding_le := by simp, dependency := by simp },
    rfl, rfl, rfl, rfl, by
      simp [Request.frame, Request.flags, Request.payload, Request.priorityField, postRequest]⟩

/-- The client preface and 128 requests. -/
def fillTable : List Op :=
  .feed clientPreface :: (List.range connMaxStreams).map fun k => .feed (postRequest (2 * k + 1)).wire

/-- A run after `n` requests that hold their slots. -/
structure Filled (n : Nat) (r : Run) : Prop where
  good : Good r.toObs
  ok : r.AllOk
  seen : r.conn.prefaceSeen = true
  input : r.conn.input = []
  block : r.conn.headerBlockOpen = false
  frame_size : r.conn.maxFrameSize = 16384
  initial : r.conn.initialStreamWindow = 65535
  conn_send : r.conn.connSendWindow = 65535 - 2 * n
  conn_recv : r.conn.connRecvWindow = 65535
  last : r.conn.lastStreamId ≤ 2 * n
  output : r.conn.output.length ≤ 15 + 81 * n
  table : ∃ used : Finset (Fin connMaxStreams), used.card = n
    ∧ ∀ i, live (r.conn.streams i) = true ↔ i ∈ used
  holds : ∀ k, k < n → ∃ i, live (r.conn.streams i) = true ∧ (r.conn.streams i).id = 2 * k + 1

set_option maxRecDepth 20000 in
theorem filled_preface : Filled 0 (exec [.feed clientPreface]) where
  good := exec_good _
  ok := by decide +kernel
  seen := by decide +kernel
  input := by decide +kernel
  block := by decide +kernel
  frame_size := by decide +kernel
  initial := by decide +kernel
  conn_send := by decide +kernel
  conn_recv := by decide +kernel
  last := by decide +kernel
  output := by decide +kernel
  table := ⟨∅, rfl, by decide +kernel⟩
  holds := fun k hk => absurd hk (Nat.not_lt_zero k)

/-- With less than 128 live streams some slot is not used. -/
theorem exists_reusable {c : Connection} {used : Finset (Fin connMaxStreams)}
    (hcard : used.card < connMaxStreams) (hused : ∀ i, live (c.streams i) = true ↔ i ∈ used) :
    ∃ i, reusable (c.streams i) = true := by
  obtain ⟨i, hi⟩ : ∃ i, i ∉ used := by
    by_contra hall
    have huniv : used = Finset.univ := Finset.eq_univ_iff_forall.mpr fun i => by
      by_contra hi
      exact hall ⟨i, hi⟩
    rw [huniv, Finset.card_univ, Fintype.card_fin] at hcard
    omega
  refine ⟨i, ?_⟩
  have hdead : ¬ live (c.streams i) = true := fun hl => hi ((hused i).mp hl)
  simpa [reusable_eq_not_live] using hdead

/-- The response for the path "/". -/
theorem rootResponse_length (streamId : Nat) :
    (wireOf [responseHeaders streamId ((ascii "/").length + 1),
      responseData streamId (responseBody (ascii "/"))]).length ≤ 81 := by
  have hdata : (responseData streamId (responseBody (ascii "/"))).payload.length = 2 := by
    rw [responseData_payload (by decide)]
    rfl
  have hheaders : (responseHeaders streamId ((ascii "/").length + 1)).payload.length ≤ 61 := by
    rw [responseHeaders_payload (by decide)]
    exact responseBlock_length_le (by decide)
  rw [wireOf, List.flatMap_cons, List.flatMap_singleton, List.length_append, Frame.wire_length,
    Frame.wire_length, hdata, frameHeaderLen]
  omega

/-- One more request. -/
theorem Filled.step {n : Nat} {r : Run} (h : Filled n r) (hn : n < connMaxStreams) :
    Filled (n + 1) (r.call (.feed (postRequest (2 * n + 1)).wire)) := by
  have hn' : n < 128 := hn
  obtain ⟨used, hcard, hused⟩ := h.table
  obtain ⟨req, hid, hreqblock, hend, hpayload, hframe⟩ :=
    @postRequest_eq (2 * n + 1) (by omega) (by omega)
  have hlast := h.last
  have hout := h.output
  have hslot := exists_reusable (by omega) hused
  have hone : (ascii "/").length = 1 := rfl
  have hwire := rootResponse_length req.streamId
  have hpath : extractPath req.block streamPathCap = (.ok, ascii "/") := by
    rw [hreqblock]
    decide
  obtain ⟨pos, hreuse, hfeed⟩ := feed_request h.good.inv h.seen h.input h.block hslot req
    (by rw [hid]; omega) (by rw [hid]; omega) (by rw [hpayload, h.frame_size]; decide)
    (by rw [hpayload]; decide) hpath
    (by rw [h.conn_send, hone]; push_cast; omega) (by rw [h.initial]; decide)
    (by simp only [connOutputCap]; omega)
  rw [hframe, hid, hend] at hfeed
  have hself : ((r.conn.served pos (2 * n + 1) (ascii "/") false).streams pos)
      = r.conn.servedStream (2 * n + 1) (ascii "/") false := Function.update_self _ _ _
  -- the slot that is taken was free, so one more is in use
  have hpos : pos ∉ used := by
    intro hmem
    rw [reusable_eq_not_live, (hused pos).mpr hmem] at hreuse
    cases hreuse
  refine ⟨call_good h.good _, ?_, ?_, ?_, ?_, ?_, ?_, ?_, ?_, ?_, ?_,
    ⟨insert pos used, ?_, fun i => ?_⟩, fun k hk => ?_⟩
  · intro code hcode
    rcases List.mem_append.mp hcode with hcode | hcode
    · exact h.ok code hcode
    · rw [List.mem_singleton.mp hcode, hfeed]
  · simp only [Run.call, hfeed]
    exact h.seen
  · simp only [Run.call, hfeed]
    exact h.input
  · simp only [Run.call, hfeed]
    exact h.block
  · simp only [Run.call, hfeed]
    exact h.frame_size
  · simp only [Run.call, hfeed]
    exact h.initial
  · have hsend := h.conn_send
    simp only [Run.call, hfeed, served, hsend, hone]
    push_cast
    omega
  · simp only [Run.call, hfeed]
    exact h.conn_recv
  · simp only [Run.call, hfeed]
    show 2 * n + 1 ≤ 2 * (n + 1)
    omega
  · simp only [Run.call, hfeed, served, List.length_append]
    rw [hid] at hwire
    omega
  · -- the slots in use
    rw [Finset.card_insert_of_notMem hpos, hcard]
  · simp only [Run.call, hfeed]
    by_cases hi : i = pos
    · subst hi
      rw [hself]
      simp [live, servedStream, Stream.init]
    · rw [served_streams_ne hi, hused, Finset.mem_insert]
      exact ⟨Or.inr, fun h => h.resolve_left hi⟩
  · simp only [Run.call, hfeed]
    -- the new stream, or an older one in a slot of its own
    by_cases hkn : k = n
    · subst hkn
      refine ⟨pos, ?_, ?_⟩
      · rw [hself]
        simp [live, servedStream, Stream.init]
      · rw [hself]
        rfl
    · obtain ⟨i, hl, hi⟩ := h.holds k (by omega)
      have hne : i ≠ pos := by
        rintro rfl
        rw [reusable_eq_not_live, hl] at hreuse
        cases hreuse
      refine ⟨i, ?_, ?_⟩
      · rwa [served_streams_ne hne]
      · rwa [served_streams_ne hne]

/-- **The table can be filled.** -/
theorem fillTable_filled : Filled connMaxStreams (exec fillTable) := by
  have hfill : ∀ n, n ≤ connMaxStreams → Filled n ((exec [.feed clientPreface]).calls
      ((List.range n).map fun k => .feed (postRequest (2 * k + 1)).wire)) := by
    intro n
    induction n with
    | zero => exact fun _ => filled_preface
    | succ n ih =>
        intro hn
        rw [List.range_succ, List.map_append, Run.calls_append]
        exact (ih (by omega)).step hn
  have hops : fillTable = [.feed clientPreface]
      ++ (List.range connMaxStreams).map fun k => .feed (postRequest (2 * k + 1)).wire := rfl
  rw [hops, exec_append]
  exact hfill connMaxStreams le_rfl

theorem Filled.full {r : Run} (h : Filled connMaxStreams r) :
    ∀ i, live (r.conn.streams i) = true := by
  obtain ⟨used, hcard, hused⟩ := h.table
  have huniv : used = Finset.univ := Finset.eq_univ_of_card used (by rw [hcard, Fintype.card_fin])
  intro i
  rw [hused, huniv]
  exact Finset.mem_univ i

end C11Omo.Http2
