import C11Omo.Http2.Responses

set_option autoImplicit false

/-! # Requests

What a complete header block makes the server do. A request whose response both send windows
cover is answered at once (`served`), whatever the padding and the priority fields of its frame
(`request_echo`). All other ends of a header block are errors, and a stream error leaves the
stream in a slot, unless there was no slot for it (`streamError_slot`).
-/

namespace C11Omo.Http2

open C11Omo.Lib

namespace Connection

variable {c : Connection} {pos : Fin connMaxStreams}

/-! ## Answering a request -/

/-- The slot of a stream that has been answered at once. -/
def servedStream (c : Connection) (streamId : Nat) (path : List UInt8) (endStream : Bool) : Stream :=
  let stream := { Stream.init streamId c.initialStreamWindow with
    path := path
    state := .halfClosedLocal
    responseHeadersSent := true
    responseSent := true
    sendWindow := c.initialStreamWindow - (path.length + 1) }
  if endStream then stream.close else stream

/-- The connection after a request that has been answered at once. -/
def served (c : Connection) (pos : Fin connMaxStreams) (streamId : Nat) (path : List UInt8)
    (endStream : Bool) : Connection :=
  { c with
    output := c.output ++ wireOf [responseHeaders streamId (path.length + 1),
      responseData streamId (responseBody path)]
    lastStreamId := streamId
    connSendWindow := c.connSendWindow - (path.length + 1)
    responsesSent := (c.responsesSent + 1) % 4294967296
    streams := Function.update c.streams pos (c.servedStream streamId path endStream) }

/-- **A request is answered at once** if both windows cover the body and the output has room. -/
theorem finishHeaders_served (hc : Inv c) {streamId : Nat} (hodd : streamId % 2 = 1)
    (hlast : c.lastStreamId < streamId) (hlt : streamId < 2 ^ 31) (hfree : c.freeSlot = some pos)
    {flags : UInt8} {block path : List UInt8} (hpath : extractPath block streamPathCap = (.ok, path))
    (hconn : (path.length + 1 : Int) ≤ c.connSendWindow)
    (hinit : (path.length + 1 : Int) ≤ c.initialStreamWindow)
    (hroom : c.output.length + (wireOf [responseHeaders streamId (path.length + 1),
      responseData streamId (responseBody path)]).length ≤ connOutputCap) :
    c.finishHeaders streamId flags block
      = (.ok, c.served pos streamId path (hasFlag flags flagEndStream)) := by
  have h0 : streamId ≠ 0 := by omega
  have htext := extractPath_pathText block
  rw [hpath] at htext
  have hne := extractPath_ne_nil hpath
  -- the slot is open and the request is complete
  obtain ⟨state, hstate⟩ : ∃ state, state = (if hasFlag flags flagEndStream then
      StreamState.halfClosedRemote else .opened) := ⟨_, rfl⟩
  have hopen : Inv (c.withStream pos streamId path state) := by
    rw [hstate]
    exact (withStream_opened hfree hodd hlast hlt htext _).inv hc
  have hcan : ((c.withStream pos streamId path state).streams pos).CanSend := by
    rw [hstate]
    exact withStream_canSend c pos h0 path _
  have hslot := withStream_streams c pos streamId path state
  have hlen : (responseBody path).length = path.length + 1 := responseBody_length path
  rw [wireOf, List.flatMap_cons, List.flatMap_singleton, List.length_append] at hroom
  -- the headers go out
  have hheaders : (c.withStream pos streamId path state).queueResponseHeaders pos
        (decimal (responseBody path).length)
      = (.ok, ((c.withStream pos streamId path state).push
          (responseHeaders streamId (path.length + 1))).setStream pos
            { Stream.init streamId c.initialStreamWindow with
              path := path, state := state, responseHeadersSent := true }) := by
    have heq := @queueResponseHeaders_eq _ pos hopen (by rw [hslot]; exact h0)
    rw [headersFrame, hslot] at heq
    refine heq.trans (if_pos ?_)
    show c.output.length + _ ≤ connOutputCap
    exact (Nat.add_le_add_left (Nat.le_add_right _ _) _).trans hroom
  -- and then the body
  have hsent : Inv (((c.withStream pos streamId path state).push
      (responseHeaders streamId (path.length + 1))).setStream pos
        { Stream.init streamId c.initialStreamWindow with
          path := path, state := state, responseHeadersSent := true }) := by
    have hdoes := queueResponseHeaders_does hopen hcan (by rw [hslot]; rfl)
    rw [hslot, hheaders] at hdoes
    exact hdoes.inv hopen
  rw [hslot] at hcan
  have hdata := @queueDeferredData_eq _ pos hsent (by
    rw [setStream_streams_self]
    exact hcan)
  rw [setStream_streams_self] at hdata
  have hunblocked : ¬ Blocked (((c.withStream pos streamId path state).push
      (responseHeaders streamId (path.length + 1))).setStream pos
        { Stream.init streamId c.initialStreamWindow with
          path := path, state := state, responseHeadersSent := true }) pos := by
    rw [Blocked, setStream_streams_self]
    show ¬ (c.connSendWindow < (responseBody path).length
      ∨ c.initialStreamWindow < (responseBody path).length)
    rw [hlen]
    push_cast
    omega
  rw [if_neg hunblocked, dataFrame, setStream_streams_self, if_pos ?_] at hdata
  · rw [finishHeaders_eq hc hodd hlast, hfree, hpath]
    simp only [if_true]
    rw [← hstate, queueResponse_eq hopen (by rw [hslot]; rfl) (by rw [hslot]; exact hne), hslot,
      hheaders]
    refine hdata.trans (Prod.ext rfl ?_)
    simp only [answered, served, servedStream, push, withStream, Connection.setStream,
      Function.update_self, Function.update_idem, hlen, wireOf, List.flatMap_cons,
      List.append_assoc]
    -- the server has ended its side: the stream is closed if the client has, too
    by_cases hend : hasFlag flags flagEndStream = true
    · simp [hend, hstate, Stream.sendEndStream, Stream.close, Stream.init]
    · simp [hend, hstate, Stream.sendEndStream, Stream.init, Stream.zero]
  · show (c.output ++ (responseHeaders streamId (path.length + 1)).wire).length
      + (responseData streamId (responseBody path)).wire.length ≤ connOutputCap
    rw [List.length_append]
    omega

/-- No stream but the new one is touched. -/
theorem served_streams_ne {i : Fin connMaxStreams} (h : i ≠ pos) (streamId : Nat) (path : List UInt8)
    (endStream : Bool) : (c.served pos streamId path endStream).streams i = c.streams i :=
  Function.update_of_ne h _ _

/-- A HEADERS frame with a complete header block. -/
theorem processFrame_headers {f : Frame} (hadmits : c.Admits f)
    (ht : f.type = FrameType.headers.toByte) {parsed : HeadersPayload}
    (hparse : parseHeaders f.header f.payload = .ok parsed)
    (hend : hasFlag f.flags flagEndHeaders = true) :
    c.processFrame f.header f.payload = c.finishHeaders f.streamId f.flags parsed.headerBlock := by
  have hnot : ¬ hasFlag f.header.flags flagEndHeaders = false := by
    rw [Frame.header_flags, hend]
    decide
  rw [processFrame_handler hadmits ht, handler, processHeaders, hparse]
  exact if_neg hnot

end Connection

/-! ## Request frames -/

/-- A request in one HEADERS frame: its header block, with optional padding and priority fields,
which do not make the stream depend on itself. -/
structure Request where
  streamId : Nat
  block : List UInt8
  endStream : Bool
  padding : Option (List UInt8)
  priority : Option PriorityPayload
  streamId_pos : streamId ≠ 0
  streamId_lt : streamId < 2 ^ 31
  padding_le : ∀ bytes ∈ padding, bytes.length ≤ 255
  dependency : ∀ p ∈ priority, p.streamDependency < 2 ^ 31 ∧ p.streamDependency ≠ streamId

namespace Request

/-- The flags of the frame. -/
def flags (r : Request) : UInt8 :=
  flagEndHeaders ||| (if r.endStream then flagEndStream else 0)
    ||| (if r.padding.isSome then flagPadded else 0)
    ||| (if r.priority.isSome then flagPriority else 0)

/-- The priority fields: five bytes. -/
def priorityBytes (p : PriorityPayload) : List UInt8 :=
  writeU32 (p.streamDependency + if p.exclusive then 2 ^ 31 else 0) ++ [UInt8.ofNat p.weight]

def priorityField (r : Request) : List UInt8 :=
  match r.priority with
  | none => []
  | some p => priorityBytes p

/-- The payload: the pad length, the priority fields, the header block and the padding. -/
def payload (r : Request) : List UInt8 :=
  match r.padding with
  | none => r.priorityField ++ r.block
  | some bytes => UInt8.ofNat bytes.length :: r.priorityField ++ (r.block ++ bytes)

def frame (r : Request) : Frame :=
  Frame.of FrameType.headers.toByte r.flags r.streamId r.payload

theorem flags_spec (r : Request) : hasFlag r.flags flagEndHeaders = true
    ∧ hasFlag r.flags flagEndStream = r.endStream ∧ hasFlag r.flags flagPadded = r.padding.isSome
    ∧ hasFlag r.flags flagPriority = r.priority.isSome := by
  have key : ∀ a b d : Bool,
      (fun fl => hasFlag fl flagEndHeaders = true ∧ hasFlag fl flagEndStream = a
        ∧ hasFlag fl flagPadded = b ∧ hasFlag fl flagPriority = d)
      (flagEndHeaders ||| (if a then flagEndStream else 0) ||| (if b then flagPadded else 0)
        ||| (if d then flagPriority else 0)) := by decide
  exact key r.endStream r.padding.isSome r.priority.isSome

/-- The header block is found behind whatever stands before it. -/
theorem parseHeadersBlock_eq (r : Request) {header : FrameHeader}
    (hid : header.streamId = r.streamId)
    (hprio : hasFlag header.flags flagPriority = r.priority.isSome) (front tail : List UInt8)
    (padLen : Nat) : ∃ parsed,
      parseHeadersBlock header (front ++ (r.priorityField ++ (r.block ++ tail))) front.length
        (r.priorityField.length + r.block.length) padLen = .ok parsed
      ∧ parsed.headerBlock = r.block := by
  rcases hp : r.priority with _ | p
  · have hfield : r.priorityField = [] := by rw [priorityField, hp]
    rw [parseHeadersBlock, hprio, hp, hfield]
    simp
  · obtain ⟨hlt, hne⟩ := r.dependency p hp
    have hfield : r.priorityField = priorityBytes p := by rw [priorityField, hp]
    have hlen : (priorityBytes p).length = 5 := rfl
    have hread : readU31 (priorityBytes p ++ (r.block ++ tail)) = p.streamDependency := by
      rw [priorityBytes, List.append_assoc, readU31_writeU32]
      by_cases hx : p.exclusive = true
      · rw [if_pos hx, Nat.add_mod_right, Nat.mod_eq_of_lt hlt]
      · rw [if_neg hx, Nat.add_zero, Nat.mod_eq_of_lt hlt]
    -- the five octets are read by the parser of PRIORITY, which checks a header of its own
    have hvalid : validatePayload
        { length := 5, type := FrameType.priority.toByte, flags := 0, streamId := header.streamId }
          = .ok := by
      have hbig : ¬ 5 > maxFrameSizeLimit := by decide
      rw [validatePayload, if_neg hbig]
      simp only [FrameType.ofByte?_toByte]
      rw [if_neg (by rw [hid]; exact r.streamId_pos), if_true]
    have hself : ¬ readU31 (priorityBytes p ++ (r.block ++ tail)) = header.streamId := by
      rw [hread, hid]
      exact hne
    have hshort : ¬ (priorityBytes p).length + r.block.length < 5 := by omega
    rw [parseHeadersBlock, hprio, hp, hfield, Option.isSome_some, if_pos rfl, if_neg hshort,
      List.drop_left, parsePriority]
    simp only [ne_eq, not_true_eq_false, hvalid, or_self, if_false, if_neg hself]
    refine ⟨_, rfl, ?_⟩
    show ((front ++ (priorityBytes p ++ (r.block ++ tail))).drop (front.length + 5)).take
      ((priorityBytes p).length + r.block.length - 5) = r.block
    rw [← List.drop_drop, List.drop_left, ← hlen, List.drop_left, Nat.add_sub_cancel_left,
      List.take_left]

/-- **The parser finds the header block.** -/
theorem parseHeaders_frame (r : Request) (hlen : r.payload.length ≤ maxFrameSizeLimit) :
    ∃ parsed, parseHeaders r.frame.header r.frame.payload = .ok parsed
      ∧ parsed.headerBlock = r.block := by
  have hpayload : r.frame.payload = r.payload := Frame.of_payload hlen _ _ _
  have hid : r.frame.header.streamId = r.streamId :=
    Frame.of_streamId r.streamId_lt FrameType.headers.toByte r.flags r.payload
  have hlength : r.frame.header.length = r.payload.length := by
    rw [Frame.header_length, hpayload]
  have htype : r.frame.header.type = FrameType.headers.toByte := rfl
  obtain ⟨-, -, hpadded, hprio⟩ := r.flags_spec
  have hvalid : validatePayload r.frame.header = .ok := by
    rw [validatePayload, if_neg (by omega), htype, FrameType.ofByte?_toByte]
    simp only [validateStreamNonzero]
    rw [if_neg (by rw [hid]; exact r.streamId_pos)]
  have hok : ¬ (r.frame.header.type ≠ FrameType.headers.toByte
      ∨ validatePayload r.frame.header ≠ .ok) := by
    rintro (h | h)
    · exact h htype
    · exact h hvalid
  have hpadded' : hasFlag r.frame.header.flags flagPadded = r.padding.isSome := hpadded
  rw [parseHeaders, if_neg hok, hpadded', hpayload, hlength]
  rcases hpad : r.padding with _ | bytes
  · -- no padding: the fields start the payload
    have hblock := r.parseHeadersBlock_eq hid hprio [] [] 0
    have hpl : r.payload = [] ++ (r.priorityField ++ (r.block ++ [])) := by
      simp [payload, hpad]
    have hsize : r.payload.length = r.priorityField.length + r.block.length := by
      simp [hpl]
    rw [hsize, hpl]
    exact hblock
  · -- one octet in front says how many follow at the end
    have hle := r.padding_le bytes hpad
    have hbyte : (UInt8.ofNat bytes.length).toNat = bytes.length := by
      rw [UInt8.toNat_ofNat']
      omega
    have hblock := r.parseHeadersBlock_eq hid hprio [UInt8.ofNat bytes.length] bytes bytes.length
    have hpl : r.payload
        = [UInt8.ofNat bytes.length] ++ (r.priorityField ++ (r.block ++ bytes)) := by
      simp [payload, hpad]
    have hsize : r.payload.length
        = 1 + (r.priorityField.length + r.block.length + bytes.length) := by
      simp [hpl]
      omega
    have hfirst : byteAt r.payload 0 = bytes.length := by
      rw [hpl, List.singleton_append, byteAt_cons_zero, hbyte]
    have hrest : r.payload.length - 1 - bytes.length = r.priorityField.length + r.block.length := by
      omega
    rw [Option.isSome_some, if_pos rfl, hfirst, hrest, if_neg (by omega), if_neg (by omega), hpl]
    exact hblock

end Request

/-! ## Request echo -/

open Connection

/-- A slot is free. -/
theorem exists_freeSlot {c : Connection} (h : ∃ i, reusable (c.streams i) = true) :
    ∃ pos, c.freeSlot = some pos := by
  obtain ⟨i, hi⟩ := h
  rcases hnone : c.freeSlot with _ | pos
  · rw [reusable_eq_not_live, freeSlot_eq_none.mp hnone i] at hi
    cases hi
  · exact ⟨pos, rfl⟩

/-- The result of feeding a request that is answered at once. -/
theorem feed_request {c : Connection} (hc : Inv c) (hseen : c.prefaceSeen = true)
    (hinput : c.input = []) (hblock : c.headerBlockOpen = false)
    (hslot : ∃ i, reusable (c.streams i) = true) (r : Request)
    (hodd : r.streamId % 2 = 1) (hlast : c.lastStreamId < r.streamId)
    (hlen : r.payload.length ≤ c.maxFrameSize)
    (hfit : frameHeaderLen + r.payload.length ≤ connInputCap) {path : List UInt8}
    (hpath : extractPath r.block streamPathCap = (.ok, path))
    (hconn : (path.length + 1 : Int) ≤ c.connSendWindow)
    (hinit : (path.length + 1 : Int) ≤ c.initialStreamWindow)
    (hroom : c.output.length + (wireOf [responseHeaders r.streamId (path.length + 1),
      responseData r.streamId (responseBody path)]).length ≤ connOutputCap) :
    ∃ pos, reusable (c.streams pos) = true
      ∧ c.feed r.frame.wire = (.ok, c.served pos r.streamId path r.endStream) := by
  obtain ⟨pos, hfree⟩ := exists_freeSlot hslot
  have hlimit : r.payload.length ≤ maxFrameSizeLimit := hlen.trans hc.max_frame.2
  have hpayload : r.frame.payload = r.payload := Frame.of_payload hlimit _ _ _
  have hid : r.frame.streamId = r.streamId :=
    Frame.of_streamId r.streamId_lt FrameType.headers.toByte r.flags r.payload
  obtain ⟨parsed, hparse, hparsed⟩ := r.parseHeaders_frame hlimit
  -- the frame arrives and is handled
  have hc' : Inv { c with input := r.frame.wire } := { hc with }
  have hadmits : Admits { c with input := r.frame.wire } r.frame :=
    ⟨by rw [hpayload]; exact hlen, fun h => absurd (hblock.symm.trans h.1) (by decide)⟩
  have hfinish := @finishHeaders_served { c with input := r.frame.wire } pos hc' r.streamId hodd hlast
    r.streamId_lt hfree r.frame.flags r.block path hpath hconn hinit hroom
  have hproc := processFrame_headers hadmits rfl hparse r.flags_spec.1
  have hend : hasFlag r.frame.flags flagEndStream = r.endStream := r.flags_spec.2.1
  rw [hid, hparsed, hfinish, hend] at hproc
  have hwire : r.frame.wire.length ≤ connInputCap := by
    rw [Frame.wire_length, hpayload]
    exact hfit
  refine ⟨pos, freeSlot_eq_some hfree, ?_⟩
  rw [feed_frame hc hseen hinput hwire, handleFrame_ok hproc]
  simp [served, servedStream, hinput]

/-- **Request echo.** A request in one frame that fits the input buffer is answered with two
frames: headers that announce the length of the body, and the path with a newline as the body. -/
theorem request_echo (ops : List Op) (hseen : (exec ops).conn.prefaceSeen = true)
    (hinput : (exec ops).conn.input = []) (hblock : (exec ops).conn.headerBlockOpen = false)
    (hslot : ∃ i, reusable ((exec ops).conn.streams i) = true) (r : Request)
    (hodd : r.streamId % 2 = 1) (hlast : (exec ops).conn.lastStreamId < r.streamId)
    (hlen : r.payload.length ≤ (exec ops).conn.maxFrameSize)
    (hfit : frameHeaderLen + r.payload.length ≤ connInputCap) {path : List UInt8}
    (hpath : extractPath r.block streamPathCap = (.ok, path))
    (hconn : (path.length + 1 : Int) ≤ (exec ops).conn.connSendWindow)
    (hinit : (path.length + 1 : Int) ≤ (exec ops).conn.initialStreamWindow)
    (hroom : (exec ops).conn.output.length + (wireOf [responseHeaders r.streamId (path.length + 1),
      responseData r.streamId (responseBody path)]).length ≤ connOutputCap) :
    ((exec ops).conn.feed r.frame.wire).1 = .ok
    ∧ ∃ h d : Frame,
      ((exec ops).conn.feed r.frame.wire).2.output = (exec ops).conn.output ++ (h.wire ++ d.wire)
      ∧ (h.type = FrameType.headers.toByte ∧ h.streamId = r.streamId
        ∧ hasFlag h.flags flagEndHeaders = true
        ∧ ∀ fieldCap, 4 ≤ fieldCap →
          decodeHeaders h.payload fieldCap = .ok (responseFields (path.length + 1)))
      ∧ (d.type = FrameType.data.toByte ∧ d.streamId = r.streamId
        ∧ hasFlag d.flags flagEndStream = true ∧ d.payload = path ++ [0x0a])
      ∧ ((exec ops).conn.feed r.frame.wire).2.connSendWindow
          = (exec ops).conn.connSendWindow - (path.length + 1)
      ∧ ((exec ops).conn.feed r.frame.wire).2.responsesSent
          = ((exec ops).conn.responsesSent + 1) % 4294967296
      ∧ ∀ i, live ((exec ops).conn.streams i) = true →
          ((exec ops).conn.feed r.frame.wire).2.streams i = (exec ops).conn.streams i := by
  obtain ⟨pos, hreuse, hfeed⟩ := feed_request (exec_good ops).inv hseen hinput hblock hslot r hodd
    hlast hlen hfit hpath hconn hinit hroom
  have hpathlen : path.length < streamPathCap := by
    have htext := (extractPath_pathText r.block).1
    rwa [hpath] at htext
  have hshort : path.length + 1 ≤ 256 := hpathlen
  have hbody : (responseBody path).length ≤ 1024 := by
    rw [responseBody_length]
    omega
  rw [hfeed]
  refine ⟨rfl, responseHeaders r.streamId (path.length + 1),
    responseData r.streamId (responseBody path), ?_, ⟨rfl, ?_,
      (by decide : hasFlag flagEndHeaders flagEndHeaders = true), fun fieldCap hcap => ?_⟩,
    ⟨rfl, ?_, (by decide : hasFlag flagEndStream flagEndStream = true),
      responseData_payload hbody _⟩, rfl, rfl, fun i hl => ?_⟩
  · simp [served, wireOf]
  · exact Frame.of_streamId r.streamId_lt _ _ _
  · rw [responseHeaders_payload (by omega)]
    exact decodeHeaders_responseBlock (by omega) hcap
  · exact Frame.of_streamId r.streamId_lt _ _ _
  · -- the slot that was taken was free, so the live ones are others
    have hne : i ≠ pos := by
      rintro rfl
      rw [reusable_eq_not_live, hl] at hreuse
      cases hreuse
    exact served_streams_ne hne _ _ _

/-- A request for `/` with padding and a dependency on stream 3. -/
def paddedRequest : Request where
  streamId := 1
  block := [0x84]
  endStream := false
  padding := some [0x00, 0x00]
  priority := some { exclusive := true, streamDependency := 3, weight := 15 }
  streamId_pos := by decide
  streamId_lt := by decide
  padding_le := by simp
  dependency := by simp

set_option maxRecDepth 20000 in
theorem request_echo_padded :
    ((exec [.feed clientPreface]).conn.feed paddedRequest.frame.wire).1 = .ok :=
  (request_echo [.feed clientPreface] (by decide +kernel) (by decide +kernel) (by decide +kernel)
    ⟨0, by decide +kernel⟩ paddedRequest (by decide) (by decide +kernel) (by decide +kernel)
    (by decide +kernel) (show extractPath [0x84] streamPathCap = (.ok, ascii "/") by decide +kernel)
    (by decide +kernel) (by decide +kernel) (by decide +kernel)).1

/-! Header fields that are not the path do not change what is extracted, so a header block can be
as long as the frame size allows, and longer than the input buffer. -/

theorem extractPathLoop_indexed {n fuel : Nat} (h : n ≤ fuel) (path : List UInt8) (pathCap : Nat) :
    extractPathLoop fuel (List.replicate n 0x82) path pathCap = (.ok, path) := by
  induction n generalizing fuel with
  | zero => cases fuel <;> rfl
  | succ n ih =>
      obtain ⟨fuel, rfl⟩ : ∃ k, fuel = k + 1 := ⟨fuel - 1, by omega⟩
      have hint : ∀ rest, decodeInteger ((0x82 : UInt8) :: rest) 7 = .ok (2, 1) := fun _ => rfl
      have hget : staticGet 2 = some { name := ascii ":method", value := ascii "GET" } := rfl
      have hcopy : maybeCopyPath (ascii ":method") (ascii "GET") path pathCap = (.ok, path) :=
        if_neg (by decide)
      have hindexed : (0x82 : UInt8) &&& 0x80 ≠ 0 := by decide
      rw [List.replicate_succ, extractPathLoop]
      simp only [if_pos hindexed, hint, hget, hcopy]
      exact ih (by omega)

theorem extractPath_long (n : Nat) :
    extractPath (0x84 :: List.replicate n 0x82) streamPathCap = (.ok, ascii "/") := by
  have hloop : extractPathLoop (n + 1) (0x84 :: List.replicate n 0x82) [] streamPathCap
      = (.ok, ascii "/") := by
    have hint : ∀ rest, decodeInteger ((0x84 : UInt8) :: rest) 7 = .ok (4, 1) := fun _ => rfl
    have hget : staticGet 4 = some { name := ascii ":path", value := ascii "/" } := rfl
    have hcopy : maybeCopyPath (ascii ":path") (ascii "/") [] streamPathCap = (.ok, ascii "/") := by
      decide
    have hindexed : (0x84 : UInt8) &&& 0x80 ≠ 0 := by decide
    rw [extractPathLoop]
    simp only [if_pos hindexed, hint, hget, hcopy]
    exact extractPathLoop_indexed (Nat.le_refl n) _ _
  have hcap : ¬ streamPathCap = 0 := by decide
  have hlen : (0x84 :: List.replicate n (0x82 : UInt8)).length = n + 1 := by simp
  have hne : ¬ ascii "/" = [] := by decide
  rw [extractPath, if_neg hcap, hlen, hloop]
  exact if_neg hne

/-- A request for `/` with a header block longer than the input buffer. -/
def longRequest : Request where
  streamId := 1
  block := 0x84 :: List.replicate 131072 0x82
  endStream := true
  padding := none
  priority := none
  streamId_pos := by decide
  streamId_lt := by decide
  padding_le := by simp
  dependency := by simp

/-- The client allows frames of any size. -/
def raisedFrameSize : List Op :=
  [.feed (clientInput [settingsFrame settingsMaxFrameSize 16777215])]

set_option maxRecDepth 20000 in
/-- A request that meets every condition but that its frame fits the input buffer is an error, and
a request before the client preface is not answered. -/
theorem request_echo_limits :
    ((exec raisedFrameSize).AllOk ∧ (exec raisedFrameSize).conn.prefaceSeen = true
      ∧ (exec raisedFrameSize).conn.input = []
      ∧ (exec raisedFrameSize).conn.headerBlockOpen = false
      ∧ reusable ((exec raisedFrameSize).conn.streams 0) = true
      ∧ (exec raisedFrameSize).conn.lastStreamId < longRequest.streamId
      ∧ longRequest.payload.length ≤ (exec raisedFrameSize).conn.maxFrameSize
      ∧ extractPath longRequest.block streamPathCap = (.ok, ascii "/")
      ∧ 2 ≤ (exec raisedFrameSize).conn.connSendWindow
      ∧ 2 ≤ (exec raisedFrameSize).conn.initialStreamWindow
      ∧ (exec raisedFrameSize).conn.output.length ≤ 100
      ∧ ((exec raisedFrameSize).conn.feed longRequest.frame.wire).1 = .internalError)
    ∧ (exec [.feed (getRequest 1).wire]).AllOk ∧ (exec [.feed (getRequest 1).wire]).frames = [] := by
  have hsize : (exec raisedFrameSize).conn.maxFrameSize = 16777215 := by decide +kernel
  have hlen : longRequest.payload.length = 131073 := by
    have hblock : longRequest.payload = 0x84 :: List.replicate 131072 0x82 := rfl
    rw [hblock, List.length_cons, List.length_replicate]
  have hpayload : longRequest.frame.payload = longRequest.payload :=
    Frame.of_payload (by rw [hlen]; decide) _ _ _
  have hbig : longRequest.frame.wire.length
      > connInputCap - (exec raisedFrameSize).conn.input.length := by
    rw [Frame.wire_length, hpayload, hlen, frameHeaderLen, connInputCap]
    omega
  refine ⟨⟨by decide +kernel, by decide +kernel, by decide +kernel, by decide +kernel,
    by decide +kernel, by decide +kernel, by rw [hlen, hsize]; decide, extractPath_long _,
    by decide +kernel, by decide +kernel, by decide +kernel, ?_⟩, by decide +kernel,
    by decide +kernel⟩
  rw [Connection.feed, if_pos hbig]

end C11Omo.Http2
