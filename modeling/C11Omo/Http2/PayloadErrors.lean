import C11Omo.Http2.FirstFrame
import C11Omo.Http2.IdleStreams

set_option autoImplicit false

/-! # The codes of invalid headers

`h2_frame_validate_payload` says what is wrong with a frame header, and every parser asks it. Six of
the ten parsers return its code, the others one code of their own (`rejectCode`). That is the same
code but for a PRIORITY frame on stream 0 and a PUSH_PROMISE frame that is too short
(`KeepsCode`), and the code of the parser is the one that the peer is told
(`payload_errors_keep_code`).
-/

namespace C11Omo.Http2

open C11Omo.Lib Connection

/-! ## The parsers -/

/-- The code that the parser of a frame type returns for a header that is not valid. -/
def rejectCode (header : FrameHeader) : FrameType → ErrorCode
  | .data | .headers | .pushPromise | .continuation => .protocolError
  | .priority => .frameSizeError
  | _ => validatePayload header

/-- The headers whose parser returns the code of the validation: not PRIORITY on stream 0, and not
PUSH_PROMISE on another stream. -/
def KeepsCode (header : FrameHeader) : FrameType → Prop
  | .priority => header.streamId ≠ 0
  | .pushPromise => header.streamId = 0
  | _ => True

section

variable {header : FrameHeader} {t : FrameType}

/-- **A parser refuses an invalid header** with the same code for every payload. -/
theorem parsePayload_invalid (htype : header.type = t.toByte) (h : validatePayload header ≠ .ok)
    (maxSettings : Nat) (payload : List UInt8) :
    parsePayload maxSettings t header payload = .error (rejectCode header t) := by
  cases t with
  | data => rw [parsePayload, parseData, if_pos (.inr h)]; rfl
  | headers => rw [parsePayload, parseHeaders, if_pos (.inr h)]; rfl
  | priority => rw [parsePayload, parsePriority, if_pos (.inr h)]; rfl
  | rstStream =>
      rw [parsePayload, parseRstStream, if_neg (not_not.mpr htype), if_pos h]; rfl
  | settings => rw [parsePayload, parseSettings, if_neg (not_not.mpr htype), if_pos h]; rfl
  | pushPromise => rw [parsePayload, parsePushPromise, if_pos (.inr h)]; rfl
  | ping => rw [parsePayload, parsePing, if_neg (not_not.mpr htype), if_pos h]; rfl
  | goaway => rw [parsePayload, parseGoaway, if_neg (not_not.mpr htype), if_pos h]; rfl
  | windowUpdate =>
      rw [parsePayload, parseWindowUpdate, if_neg (not_not.mpr htype), if_pos h]; rfl
  | continuation => rw [parsePayload, parseContinuation, if_pos (.inr h)]; rfl

/-- **Where the codes agree.** -/
theorem rejectCode_eq_iff (htype : header.type = t.toByte) (hlen : header.length ≤ maxFrameSizeLimit)
    (h : validatePayload header ≠ .ok) :
    rejectCode header t = validatePayload header ↔ KeepsCode header t := by
  have hwrong := validatePayload_wrongStream htype hlen
  have hcases := (validatePayload_cases header).resolve_left h
  have hallowed := mt (validatePayload_ok_iff htype hlen).mpr h
  cases t with
  | data | headers | continuation =>
      -- there is nothing wrong with these but the stream
      have hzero : header.streamId = 0 := not_not.mp hallowed
      rw [rejectCode, hwrong.mpr hzero]
      exact iff_of_true rfl trivial
  | priority =>
      rw [rejectCode, KeepsCode]
      by_cases hid : header.streamId = 0
      · rw [hwrong.mpr hid]
        exact iff_of_false (by decide) (not_not.mpr hid)
      · rw [hcases.resolve_left (mt hwrong.mp hid)]
        exact iff_of_true rfl hid
  | pushPromise =>
      rw [rejectCode, KeepsCode]
      by_cases hid : header.streamId = 0
      · rw [hwrong.mpr hid]
        exact iff_of_true rfl hid
      · rw [hcases.resolve_left (mt hwrong.mp hid)]
        exact iff_of_false (by decide) hid
  | rstStream | settings | ping | goaway | windowUpdate => exact iff_of_true rfl trivial

end

/-! ## The connection -/

namespace Connection

variable {c : Connection} {f : Frame} {t : FrameType}

theorem of_map_error {α β : Type} {x : Except ErrorCode α} {g : α → β} {ret : ErrorCode}
    (h : x.map g = .error ret) : x = .error ret := by
  cases x with
  | error e => exact congrArg _ (Except.error.inj h)
  | ok a => cases h

/-- **The handler of an invalid header** changes nothing and returns the code of the parser. -/
theorem handler_invalid (hblock : c.headerBlockOpen = false) (ht : f.type = t.toByte)
    (hpush : t ≠ .pushPromise) (h : validatePayload f.header ≠ .ok) :
    c.handler t f = (rejectCode f.header t, c) := by
  have hparse := fun maxSettings => parsePayload_invalid ht h maxSettings f.payload
  cases t with
  | data => rw [handler, processData, of_map_error (hparse 0)]
  | headers => rw [handler, processHeaders, of_map_error (hparse 0)]
  | priority =>
      have herror := of_map_error (hparse 0)
      rw [handler, herror]
  | rstStream => rw [handler, processRstStream, of_map_error (hparse 0)]
  | settings => rw [handler, applySettings, of_map_error (hparse 32)]
  | pushPromise => exact absurd rfl hpush
  | ping => rw [handler, processPing, of_map_error (hparse 0)]
  | goaway => rfl
  | windowUpdate => rw [handler, processWindowUpdate, of_map_error (hparse 0)]
  | continuation =>
      -- there is no header block to continue
      rw [handler, processContinuation, if_pos (.inl hblock)]
      rfl

/-- The peer is told this code: `feed` returns it, `goaway_error` has it, and the output grows by a
GOAWAY with it if there is room for one. -/
def Announces (c : Connection) (data : List UInt8) (code : ErrorCode) : Prop :=
  (c.feed data).1 = code
    ∧ (c.feed data).2.goawaySent = true ∧ (c.feed data).2.goawayError = code.toNat
    ∧ (c.feed data).2.output = c.output
      ++ if c.Fits (goawayFrame c.lastStreamId code) then (goawayFrame c.lastStreamId code).wire
        else []

/-- A GOAWAY that has not been sent yet. -/
theorem queueGoaway_announces (hc : Inv c) (hunsent : c.goawaySent = false)
    (errorCode : ErrorCode) : (c.queueGoaway errorCode).2.goawaySent = true
      ∧ (c.queueGoaway errorCode).2.goawayError = errorCode.toNat := by
  rw [queueGoaway_eq hc, if_neg (by simp [hunsent])]
  split_ifs
  · exact ⟨rfl, rfl⟩
  · exact ⟨rfl, rfl⟩

/-- **What the peer is told about an invalid header**: the code of the parser. -/
theorem invalid_announced (hc : Inv c) (hseen : c.prefaceSeen = true)
    (hblock : c.headerBlockOpen = false) (hunsent : c.goawaySent = false) {data tail : List UInt8}
    (hwire : c.input ++ data = f.wire ++ tail)
    (hfit : c.input.length + data.length ≤ connInputCap)
    (hlen : f.payload.length ≤ c.maxFrameSize) (ht : f.type = t.toByte) (hpush : t ≠ .pushPromise)
    (h : validatePayload f.header ≠ .ok) : c.Announces data (rejectCode f.header t) := by
  have hadmits : c.Admits f := ⟨hlen, fun hopen => absurd (hblock.symm.trans hopen.1) (by decide)⟩
  have hproc := (processFrame_handler hadmits ht).trans (handler_invalid hblock ht hpush h)
  have hcode : rejectCode f.header t = .protocolError ∨ rejectCode f.header t = .frameSizeError := by
    have hcases := (validatePayload_cases f.header).resolve_left h
    cases t with
    | data | headers | pushPromise | continuation => exact .inl rfl
    | priority => exact .inr rfl
    | rstStream | settings | ping | goaway | windowUpdate => exact hcases
  have hne : rejectCode f.header t ≠ .ok := by
    intro hok
    rw [hok] at hcode
    rcases hcode with hcode | hcode <;> cases hcode
  -- neither of the two codes is a stream error, so GOAWAY is queued
  have hconn : ¬ (isStreamError (rejectCode f.header t) = true ∧ f.streamId ≠ 0) := by
    rintro ⟨hstream, -⟩
    rcases hcode with hcode | hcode <;> rw [hcode] at hstream <;> cases hstream
  have hhandle := handleFrame_goaway hproc hne hconn
  obtain ⟨hret, hstate⟩ := feed_fails hc hseen hwire hfit (by rw [hhandle]; exact hne)
  rw [hhandle] at hret hstate
  obtain ⟨hsent, herror⟩ := queueGoaway_announces hc hunsent (rejectCode f.header t)
  refine ⟨hret, ?_, ?_, ?_⟩
  · rw [hstate]
    exact hsent
  · rw [hstate]
    exact herror
  · rw [hstate]
    exact (queueGoaway_unsent hc hunsent _).2

end Connection

/-- **Payload errors keep their code** from the validation to the parser exactly if `KeepsCode`
holds of the header, and so do they, but for PUSH_PROMISE, on the way to the peer, in every state
without errors and outside a header block. -/
theorem payload_errors_keep_code {wire : List UInt8} {header : FrameHeader} {t : FrameType}
    (hparse : parseHeader wire = .ok header) (htype : header.type = t.toByte)
    (hinvalid : validatePayload header ≠ .ok) :
    ((∀ maxSettings payload,
        parsePayload maxSettings t header payload = .error (validatePayload header))
      ↔ KeepsCode header t)
    ∧ ∀ (ops : List Op) (f : Frame) (data tail : List UInt8), f.header = header →
      (exec ops).AllOk → (exec ops).conn.prefaceSeen = true →
      (exec ops).conn.headerBlockOpen = false →
      (exec ops).conn.input ++ data = f.wire ++ tail →
      (exec ops).conn.input.length + data.length ≤ connInputCap →
      f.payload.length ≤ (exec ops).conn.maxFrameSize → t ≠ .pushPromise →
      ((exec ops).conn.Announces data (validatePayload header) ↔ KeepsCode header t) := by
  constructor
  · rw [← rejectCode_eq_iff htype (parseHeader_ok hparse).2.1 hinvalid]
    constructor
    · intro h
      exact Except.error.inj ((parsePayload_invalid htype hinvalid 0 []).symm.trans (h 0 []))
    · intro h maxSettings payload
      rw [parsePayload_invalid htype hinvalid, h]
  · intro ops f data tail hheader hok hseen hblock hwire hfit hlen hpush
    subst hheader
    -- a connection announces what the parser returns
    have hann := invalid_announced (exec_good ops).inv hseen hblock (exec_goaway_unsent hok) hwire
      hfit hlen htype hpush hinvalid
    rw [← rejectCode_eq_iff htype f.payload_le hinvalid]
    constructor
    · intro h
      exact hann.1.symm.trans h.1
    · intro h
      rwa [h] at hann

/-! ## Examples -/

/-- A PRIORITY frame of the right length on stream 0. -/
def priorityZero : Frame := Frame.of FrameType.priority.toByte 0 0 [0, 0, 0, 3, 15]

/-- The validation says `H2_PROTOCOL_ERROR`, the parser and the GOAWAY `H2_FRAME_SIZE_ERROR`. -/
theorem priorityZero_code : parseHeader [0, 0, 5, 2, 0, 0, 0, 0, 0] = .ok priorityZero.header
    ∧ validatePayload priorityZero.header = .protocolError
    ∧ parsePriority priorityZero.header priorityZero.payload = .error .frameSizeError
    ∧ (exec prefaceOnly).AllOk ∧ (exec prefaceOnly).conn.headerBlockOpen = false
    ∧ priorityZero.payload.length ≤ (exec prefaceOnly).conn.maxFrameSize
    ∧ ((exec prefaceOnly).conn.feed priorityZero.wire).1 = .frameSizeError
    ∧ ((exec prefaceOnly).conn.feed priorityZero.wire).2.output
      = (exec prefaceOnly).conn.output ++ (goawayFrame 0 .frameSizeError).wire := by
  decide +kernel

/-- RST_STREAM with five octets. -/
def longReset : Frame := Frame.of FrameType.rstStream.toByte 0 1 [0, 0, 0, 8, 0]

theorem longReset_code : (∀ maxSettings payload,
      parsePayload maxSettings .rstStream longReset.header payload = .error .frameSizeError)
    ∧ (exec prefaceOnly).conn.Announces longReset.wire .frameSizeError := by
  obtain ⟨hok, hseen, hinput, hmax, -⟩ := prefaceOnly_state
  have hvalid : validatePayload longReset.header = .frameSizeError := by decide
  have hinvalid : validatePayload longReset.header ≠ .ok := by decide
  have hparse : parseHeader [0, 0, 5, 3, 0, 0, 0, 0, 1] = .ok longReset.header := by decide
  have hblock : (exec prefaceOnly).conn.headerBlockOpen = false := by decide +kernel
  have hwire : (exec prefaceOnly).conn.input ++ longReset.wire = longReset.wire ++ [] := by
    rw [hinput, List.nil_append, List.append_nil]
  have hfit : (exec prefaceOnly).conn.input.length + longReset.wire.length ≤ connInputCap := by
    rw [hinput]
    decide
  have hlen : longReset.payload.length ≤ (exec prefaceOnly).conn.maxFrameSize := by
    rw [hmax]
    decide
  rw [← hvalid]
  obtain ⟨hcode, htold⟩ := payload_errors_keep_code (t := .rstStream) hparse rfl hinvalid
  refine ⟨hcode.mpr trivial, ?_⟩
  exact (htold _ longReset _ _ rfl hok hseen hblock hwire hfit hlen (by decide)).mpr trivial

end C11Omo.Http2
