import C11Omo.Http2.Frame
import C11Omo.Lib.Framing

set_option autoImplicit false

/-! # Frames on the wire

A `Frame` is a complete frame as a value: its fields fit the wire format, so it has exactly one
wire form (`Frame.wire`). The encoders of `frame.c` produce wire forms of frames
(`encodeRaw_eq_wire`), and `h2_frame_parse_header` finds the frame at the front of a byte
string again: `frameFraming` cuts a byte stream into frames with it.

The second half says what the payload parsers read: nothing behind the payload (`parseData_append`
and its siblings).
-/

namespace C11Omo.Http2

open C11Omo.Lib

/-! ## Reading and writing numbers -/

theorem writeU32_eq (value : Nat) : writeU32 value = beBytes 4 value := by
  simp [writeU32, beBytes]

@[simp] theorem writeU32_length (value : Nat) : (writeU32 value).length = 4 := rfl

theorem readU32_cons (a b c d : UInt8) (rest : List UInt8) :
    readU32 (a :: b :: c :: d :: rest) = beNat [a, b, c, d] := by
  simp only [readU32, byteAt_cons_zero, byteAt_cons_succ]
  rw [shiftLeft_or_four b.toNat_lt c.toNat_lt d.toNat_lt, beNat_four]

theorem readU31_cons (a b c d : UInt8) (rest : List UInt8) :
    readU31 (a :: b :: c :: d :: rest) = beNat [a, b, c, d] % 2 ^ 31 := by
  have hb := b.toNat_lt
  have hc := c.toNat_lt
  have hd := d.toNat_lt
  have hmask : a.toNat &&& 0x7f = a.toNat % 128 := Nat.and_two_pow_sub_one_eq_mod _ 7
  simp only [readU31, byteAt_cons_zero, byteAt_cons_succ, hmask]
  rw [shiftLeft_or_four hb hc hd, beNat_four]
  omega

theorem readU32_writeU32 (value : Nat) (rest : List UInt8) :
    readU32 (writeU32 value ++ rest) = value % 2 ^ 32 := by
  show readU32 (_ :: _ :: _ :: _ :: rest) = _
  rw [readU32_cons]
  exact beNat_beBytes 4 value

theorem readU31_writeU32 (value : Nat) (rest : List UInt8) :
    readU31 (writeU32 value ++ rest) = value % 2 ^ 31 := by
  show readU31 (_ :: _ :: _ :: _ :: rest) = _
  rw [readU31_cons]
  show beNat (beBytes 4 value) % 2 ^ 31 = _
  rw [beNat_beBytes]
  omega

/-! ## Frames -/

/-- A complete frame. Length and stream id fit the 24 and 31 bits they have on the wire. -/
structure Frame where
  type : UInt8
  flags : UInt8
  streamId : Nat
  payload : List UInt8
  streamId_lt : streamId < 2 ^ 31
  payload_le : payload.length ≤ maxFrameSizeLimit
  deriving DecidableEq

namespace Frame

/-- The frame with the given fields, cut to what fits the wire. -/
def of (type flags : UInt8) (streamId : Nat) (payload : List UInt8) : Frame :=
  { type := type
    flags := flags
    streamId := streamId % 2 ^ 31
    payload := payload.take maxFrameSizeLimit
    streamId_lt := Nat.mod_lt _ (by decide)
    payload_le := List.length_take_le _ _ }

/-- The header of a frame. -/
def header (f : Frame) : FrameHeader :=
  { length := f.payload.length, type := f.type, flags := f.flags, streamId := f.streamId }

/-- The bytes of a frame: length, type, flags and stream id, then the payload. -/
def wire (f : Frame) : List UInt8 :=
  beBytes 3 f.payload.length ++ [f.type, f.flags] ++ beBytes 4 f.streamId ++ f.payload

@[simp] theorem header_length (f : Frame) : f.header.length = f.payload.length := rfl
@[simp] theorem header_type (f : Frame) : f.header.type = f.type := rfl
@[simp] theorem header_flags (f : Frame) : f.header.flags = f.flags := rfl
@[simp] theorem header_streamId (f : Frame) : f.header.streamId = f.streamId := rfl

theorem of_streamId {streamId : Nat} (h : streamId < 2 ^ 31) (type flags : UInt8)
    (payload : List UInt8) : (of type flags streamId payload).streamId = streamId :=
  Nat.mod_eq_of_lt h

theorem of_payload {payload : List UInt8} (h : payload.length ≤ maxFrameSizeLimit)
    (type flags : UInt8) (streamId : Nat) : (of type flags streamId payload).payload = payload :=
  List.take_of_length_le h

/-- A frame is cut to itself. -/
theorem of_self (f : Frame) : of f.type f.flags f.streamId f.payload = f := by
  have hid := of_streamId f.streamId_lt f.type f.flags f.payload
  have hpay := of_payload f.payload_le f.type f.flags f.streamId
  cases f
  simp_all [of]

@[simp] theorem of_type (type flags : UInt8) (streamId : Nat) (payload : List UInt8) :
    (of type flags streamId payload).type = type := rfl

@[simp] theorem of_flags (type flags : UInt8) (streamId : Nat) (payload : List UInt8) :
    (of type flags streamId payload).flags = flags := rfl

@[simp] theorem wire_length (f : Frame) : f.wire.length = frameHeaderLen + f.payload.length := by
  simp [wire, frameHeaderLen]
  omega

theorem wire_eq_cons (f : Frame) (tail : List UInt8) :
    f.wire ++ tail = UInt8.ofNat (f.payload.length >>> 16) :: UInt8.ofNat (f.payload.length >>> 8)
      :: UInt8.ofNat f.payload.length :: f.type :: f.flags
      :: (writeU32 f.streamId ++ (f.payload ++ tail)) := by
  simp [wire, beBytes, writeU32]

theorem parseHeader_wire (f : Frame) (tail : List UInt8) :
    parseHeader (f.wire ++ tail) = .ok f.header := by
  have hlen : ¬ (f.wire ++ tail).length < frameHeaderLen := by simp; omega
  have hp : f.payload.length < 256 ^ 3 := by
    have := f.payload_le
    simp only [maxFrameSizeLimit] at this
    omega
  have hread : beNat (beBytes 3 f.payload.length) = f.payload.length := beNat_beBytes_of_lt hp
  rw [parseHeader, if_neg hlen, wire_eq_cons]
  congr 1
  rw [header, FrameHeader.mk.injEq]
  refine ⟨?_, rfl, rfl, ?_⟩
  · simp only [byteAt_cons_zero, byteAt_cons_succ]
    rw [shiftLeft_or_three (UInt8.toNat_lt _) (UInt8.toNat_lt _), ← beNat_three]
    exact hread
  · show readU31 (writeU32 f.streamId ++ (f.payload ++ tail)) = f.streamId
    rw [readU31_writeU32, Nat.mod_eq_of_lt f.streamId_lt]

theorem drop_wire (f : Frame) (tail : List UInt8) :
    (f.wire ++ tail).drop frameHeaderLen = f.payload ++ tail := by
  rw [wire_eq_cons]
  rfl

end Frame

/-- A raw encoder with enough capacity writes the wire form of its frame. -/
theorem encodeRaw_eq_wire {cap : Nat} {payload : List UInt8}
    (hlen : payload.length ≤ maxFrameSizeLimit) (hcap : frameHeaderLen + payload.length ≤ cap)
    (type : FrameType) (flags : UInt8) (streamId : Nat) :
    encodeRaw cap type flags streamId payload
      = some (Frame.of type.toByte flags streamId payload).wire := by
  have hmask : streamId &&& 0x7fffffff = streamId % 2 ^ 31 := Nat.and_two_pow_sub_one_eq_mod _ 31
  have h1 : ¬ (payload.length > maxFrameSizeLimit ∨ cap < frameHeaderLen + payload.length) := by
    omega
  have h2 : ¬ (cap < frameHeaderLen ∨ payload.length > maxFrameSizeLimit) := by omega
  rw [encodeRaw, if_neg h1]
  simp only [writeHeader, if_neg h2, hmask]
  simp [Frame.wire, Frame.of, beBytes, writeU32, List.take_of_length_le hlen]

/-! ## Cutting a byte stream into frames -/

theorem byteAt_or_lt (wire : List UInt8) :
    byteAt wire 0 <<< 16 ||| byteAt wire 1 <<< 8 ||| byteAt wire 2 < 2 ^ 24 := by
  have h0 := byteAt_lt wire 0
  have h1 := byteAt_lt wire 1
  have h2 := byteAt_lt wire 2
  rw [shiftLeft_or_three h1 h2]
  omega

theorem readU31_lt (wire : List UInt8) : readU31 wire < 2 ^ 31 := by
  have h0 : byteAt wire 0 &&& 0x7f < 128 := by
    rw [show (0x7f : Nat) = 2 ^ 7 - 1 from rfl, Nat.and_two_pow_sub_one_eq_mod]
    omega
  have h1 := byteAt_lt wire 1
  have h2 := byteAt_lt wire 2
  have h3 := byteAt_lt wire 3
  rw [readU31, shiftLeft_or_four h1 h2 h3]
  omega

/-- The frame at the front of a byte string, read with `h2_frame_parse_header`, and the bytes
behind it. -/
def cutFrame (bytes : List UInt8) : Option (Frame × List UInt8) :=
  match parseHeader bytes with
  | .error _ => none
  | .ok header =>
      if frameHeaderLen + header.length > bytes.length then none
      else some
        (Frame.of header.type header.flags header.streamId
          ((bytes.drop frameHeaderLen).take header.length),
          bytes.drop (frameHeaderLen + header.length))

theorem parseHeader_ok {bytes : List UInt8} {header : FrameHeader}
    (h : parseHeader bytes = .ok header) :
    frameHeaderLen ≤ bytes.length ∧ header.length ≤ maxFrameSizeLimit ∧ header.streamId < 2 ^ 31 := by
  have h0 := byteAt_or_lt bytes
  have h1 := readU31_lt (bytes.drop 5)
  unfold parseHeader at h
  split at h
  · cases h
  · obtain rfl := Except.ok.inj h
    refine ⟨by omega, ?_, h1⟩
    simp only [maxFrameSizeLimit]
    omega

theorem parseHeader_append {bytes : List UInt8} {header : FrameHeader}
    (h : parseHeader bytes = .ok header) (tail : List UInt8) :
    parseHeader (bytes ++ tail) = .ok header := by
  have hlen := (parseHeader_ok h).1
  obtain ⟨front, rest, rfl, hfront⟩ : ∃ front rest, bytes = front ++ rest ∧ front.length = 9 :=
    ⟨bytes.take 9, bytes.drop 9, (List.take_append_drop _ _).symm, by
      simp [frameHeaderLen] at hlen; simp; omega⟩
  match front, hfront with
  | [b0, b1, b2, b3, b4, b5, b6, b7, b8], _ =>
      have h1 : ¬ ([b0, b1, b2, b3, b4, b5, b6, b7, b8] ++ rest ++ tail).length < frameHeaderLen := by
        simp [frameHeaderLen]
      have h2 : ¬ ([b0, b1, b2, b3, b4, b5, b6, b7, b8] ++ rest).length < frameHeaderLen := by
        simp [frameHeaderLen]
      rw [← h, parseHeader, parseHeader, if_neg h1, if_neg h2]
      rfl

/-- The frame cut off has the header that was parsed and the payload that follows it. -/
theorem cutFrame_eq_some {bytes rest : List UInt8} {f : Frame} (h : cutFrame bytes = some (f, rest)) :
    parseHeader bytes = .ok f.header ∧ bytes.drop frameHeaderLen = f.payload ++ rest
      ∧ frameHeaderLen + f.payload.length ≤ bytes.length
      ∧ rest = bytes.drop (frameHeaderLen + f.payload.length) := by
  unfold cutFrame at h
  rcases hp : parseHeader bytes with e | header
  · simp [hp] at h
  · simp only [hp] at h
    split at h
    · cases h
    · obtain ⟨rfl, rfl⟩ := Prod.mk.inj (Option.some.inj h)
      obtain ⟨-, hlen, hid⟩ := parseHeader_ok hp
      have htake : ((bytes.drop frameHeaderLen).take header.length).length = header.length := by
        simp; omega
      have hle : ((bytes.drop frameHeaderLen).take header.length).length ≤ maxFrameSizeLimit := by
        rw [htake]; exact hlen
      have hpay := Frame.of_payload hle header.type header.flags header.streamId
      rw [Frame.header, hpay, htake, Frame.of_streamId hid]
      refine ⟨rfl, ?_, by omega, rfl⟩
      rw [← List.drop_drop, List.take_append_drop]

theorem cutFrame_wire (f : Frame) (tail : List UInt8) : cutFrame (f.wire ++ tail) = some (f, tail) := by
  have hlen : ¬ frameHeaderLen + f.header.length > (f.wire ++ tail).length := by simp
  rw [cutFrame, f.parseHeader_wire tail]
  simp only [if_neg hlen]
  rw [← List.drop_drop, f.drop_wire tail, Frame.header_length, List.take_left, List.drop_left]
  exact congrArg some (Prod.ext f.of_self rfl)

/-- `h2_frame_parse_header` cuts a byte stream into frames. -/
def frameFraming : Framing UInt8 Frame where
  cut := cutFrame
  cut_length_lt := by
    intro bytes f rest h
    obtain ⟨-, -, hle, rfl⟩ := cutFrame_eq_some h
    simp [frameHeaderLen] at hle ⊢
    omega
  cut_append := by
    intro bytes f rest h tail
    obtain ⟨hp, hdrop, hle, -⟩ := cutFrame_eq_some h
    have hparse := parseHeader_append hp tail
    have hlen : ¬ frameHeaderLen + f.header.length > (bytes ++ tail).length := by simp; omega
    have hd : (bytes ++ tail).drop frameHeaderLen = f.payload ++ (rest ++ tail) := by
      rw [List.drop_append_of_le_length (by omega), hdrop, List.append_assoc]
    rw [cutFrame, hparse]
    simp only [if_neg hlen]
    rw [← List.drop_drop, hd, Frame.header_length, List.take_left, List.drop_left]
    exact congrArg some (Prod.ext f.of_self rfl)

/-- The beginning of a frame is not a frame. -/
theorem cutFrame_incomplete {xs tail : List UInt8} {f : Frame}
    (hwhole : cutFrame (xs ++ tail) = some (f, [])) (hne : tail ≠ []) : cutFrame xs = none := by
  rcases hcut : cutFrame xs with _ | ⟨g, rest⟩
  · rfl
  · have hfront : cutFrame (xs ++ tail) = some (g, rest ++ tail) := frameFraming.cut_append hcut tail
    rw [hwhole] at hfront
    have hnil := (Prod.mk.inj (Option.some.inj hfront)).2
    exact absurd (List.append_eq_nil_iff.mp hnil.symm).2 hne

/-- The bytes of the frame at the front. -/
theorem cutFrame_front {bytes rest : List UInt8} {f : Frame}
    (h : cutFrame bytes = some (f, rest)) :
    ∃ front, bytes = front ++ rest ∧ cutFrame front = some (f, []) := by
  obtain ⟨hparse, hdrop, hle, hrest⟩ := cutFrame_eq_some h
  have hsplit := List.take_append_drop (frameHeaderLen + f.payload.length) bytes
  rw [← hrest] at hsplit
  have hlen : (bytes.take (frameHeaderLen + f.payload.length)).length
      = frameHeaderLen + f.payload.length := by
    rw [List.length_take]
    omega
  refine ⟨bytes.take (frameHeaderLen + f.payload.length), hsplit.symm, ?_⟩
  rcases hfront : parseHeader (bytes.take (frameHeaderLen + f.payload.length)) with ret | header
  · -- there are enough bytes for a header
    rw [parseHeader, if_neg (by omega)] at hfront
    cases hfront
  · have hsame := parseHeader_append hfront rest
    rw [hsplit, hparse] at hsame
    obtain rfl := Except.ok.inj hsame
    have hpay : (bytes.take (frameHeaderLen + f.payload.length)).drop frameHeaderLen
        = f.payload := by
      rw [List.drop_take, hdrop, Nat.add_sub_cancel_left, List.take_left]
    rw [cutFrame, hfront]
    simp only
    rw [if_neg (by rw [Frame.header_length]; omega), hpay, Frame.header_length, List.take_length,
      List.drop_of_length_le (by omega)]
    exact congrArg some (Prod.ext f.of_self rfl)

/-- The complete frames at the front of a byte string. -/
def framesOf (bytes : List UInt8) : List Frame := (frameFraming.split bytes).1

/-- The wire form of a list of frames. -/
def wireOf (fs : List Frame) : List UInt8 := fs.flatMap Frame.wire

@[simp] theorem wireOf_nil : wireOf [] = [] := rfl

@[simp] theorem wireOf_append (fs gs : List Frame) : wireOf (fs ++ gs) = wireOf fs ++ wireOf gs :=
  List.flatMap_append

@[simp] theorem wireOf_singleton (f : Frame) : wireOf [f] = f.wire := by simp [wireOf]

/-- What was written as a list of frames is read back as that list. -/
@[simp] theorem framesOf_wireOf (fs : List Frame) : framesOf (wireOf fs) = fs := by
  have hcut : ∀ (f : Frame) (tail : List UInt8), frameFraming.cut (f.wire ++ tail) = some (f, tail) :=
    cutFrame_wire
  rw [framesOf, wireOf, frameFraming.split_flatMap hcut]

/-! ## What the payload parsers read

The parsers get a pointer into the input buffer, with more input behind the payload. With the
length in the header they read the payload only. -/

theorem readU16_append {p : List UInt8} (h : 2 ≤ p.length) (tail : List UInt8) :
    readU16 (p ++ tail) = readU16 p := by
  rw [readU16, readU16, byteAt_append_left (by omega), byteAt_append_left (by omega)]

theorem readU31_append {p : List UInt8} (h : 4 ≤ p.length) (tail : List UInt8) :
    readU31 (p ++ tail) = readU31 p := by
  rw [readU31, readU31, byteAt_append_left (by omega), byteAt_append_left (by omega),
    byteAt_append_left (by omega), byteAt_append_left (by omega)]

theorem readU32_append {p : List UInt8} (h : 4 ≤ p.length) (tail : List UInt8) :
    readU32 (p ++ tail) = readU32 p := by
  rw [readU32, readU32, byteAt_append_left (by omega), byteAt_append_left (by omega),
    byteAt_append_left (by omega), byteAt_append_left (by omega)]

theorem slice_append {p : List UInt8} {pos len : Nat} (h : pos + len ≤ p.length)
    (tail : List UInt8) : ((p ++ tail).drop pos).take len = (p.drop pos).take len := by
  rw [List.drop_append_of_le_length (by omega),
    List.take_append_of_le_length (by rw [List.length_drop]; omega)]

/-- Five bytes are enough for the priority fields, whatever the header says. -/
theorem parsePriority_append {p : List UInt8} (h5 : 5 ≤ p.length) (tail : List UInt8)
    (header : FrameHeader) : parsePriority header (p ++ tail) = parsePriority header p := by
  rw [parsePriority, parsePriority, readU31_append (by omega), byteAt_append_left (by omega),
    byteAt_append_left (by omega)]

/-- The payload length of a frame type that has only one. -/
def fixedLength : FrameType → Option Nat
  | .priority => some 5
  | .rstStream => some 4
  | .ping => some 8
  | .windowUpdate => some 4
  | _ => none

theorem validatePayload_fixedLength {header : FrameHeader} {t : FrameType} {n : Nat}
    (htype : header.type = t.toByte) (hvalid : validatePayload header = .ok)
    (hn : fixedLength t = some n) : header.length = n := by
  rw [validatePayload, htype, FrameType.ofByte?_toByte] at hvalid
  cases t <;> simp only [fixedLength, Option.some.injEq, reduceCtorEq] at hn <;> subst hn <;>
    simp only at hvalid <;> split_ifs at hvalid <;> assumption

section Locality

variable {header : FrameHeader} {p : List UInt8} (hlen : p.length = header.length)
include hlen

theorem parseData_append (tail : List UInt8) :
    parseData header (p ++ tail) = parseData header p := by
  unfold parseData
  split
  · rfl
  · split
    · by_cases h0 : header.length = 0
      · simp [h0]
      · have hbyte : byteAt (p ++ tail) 0 = byteAt p 0 := byteAt_append_left (by omega) tail
        simp only [if_neg h0, hbyte]
        split
        · rfl
        · rw [slice_append (by omega)]
    · rw [List.take_append_of_le_length (by omega)]

omit hlen in
theorem parseHeadersBlock_append {pos blockLen : Nat} (hpos : pos + blockLen ≤ p.length)
    (padLen : Nat) (tail : List UInt8) :
    parseHeadersBlock header (p ++ tail) pos blockLen padLen
      = parseHeadersBlock header p pos blockLen padLen := by
  unfold parseHeadersBlock
  split
  · split
    · rfl
    · rw [List.drop_append_of_le_length (by omega),
        parsePriority_append (by rw [List.length_drop]; omega), slice_append (by omega)]
  · rw [slice_append hpos]

theorem parseHeaders_append (tail : List UInt8) :
    parseHeaders header (p ++ tail) = parseHeaders header p := by
  unfold parseHeaders
  split
  · rfl
  · split
    · by_cases h0 : header.length = 0
      · simp [h0]
      · have hbyte : byteAt (p ++ tail) 0 = byteAt p 0 := byteAt_append_left (by omega) tail
        simp only [if_neg h0, hbyte]
        split
        · rfl
        · exact parseHeadersBlock_append (by omega) _ tail
    · exact parseHeadersBlock_append (by omega) _ tail

theorem parseSettings_append (maxSettings : Nat) (tail : List UInt8) :
    parseSettings header (p ++ tail) maxSettings = parseSettings header p maxSettings := by
  have hitems : ((List.range (header.length / 6)).map fun i =>
        (⟨readU16 ((p ++ tail).drop (i * 6)), readU32 ((p ++ tail).drop (i * 6 + 2))⟩ : Setting))
      = (List.range (header.length / 6)).map fun i =>
        ⟨readU16 (p.drop (i * 6)), readU32 (p.drop (i * 6 + 2))⟩ := by
    refine List.map_congr_left fun i hi => ?_
    have hi' : i < header.length / 6 := List.mem_range.mp hi
    rw [List.drop_append_of_le_length (by omega), List.drop_append_of_le_length (by omega),
      readU16_append (by rw [List.length_drop]; omega),
      readU32_append (by rw [List.length_drop]; omega)]
  rw [parseSettings, parseSettings, hitems]

theorem parsePriority_frame_append (tail : List UInt8) :
    parsePriority header (p ++ tail) = parsePriority header p := by
  by_cases hv : header.type = FrameType.priority.toByte ∧ validatePayload header = .ok
  · have h5 : header.length = 5 := validatePayload_fixedLength hv.1 hv.2 rfl
    exact parsePriority_append (by omega) tail header
  · have hne : header.type ≠ FrameType.priority.toByte ∨ validatePayload header ≠ .ok :=
      not_and_or.mp hv
    rw [parsePriority, parsePriority, if_pos hne, if_pos hne]

theorem parseWindowUpdate_append (tail : List UInt8) :
    parseWindowUpdate header (p ++ tail) = parseWindowUpdate header p := by
  unfold parseWindowUpdate
  by_cases htype : header.type = FrameType.windowUpdate.toByte
  · by_cases hvalid : validatePayload header = .ok
    · have h4 : header.length = 4 := validatePayload_fixedLength htype hvalid rfl
      rw [readU31_append (by omega)]
    · simp [htype, hvalid]
  · simp [htype]

theorem parsePing_append (tail : List UInt8) :
    parsePing header (p ++ tail) = parsePing header p := by
  unfold parsePing
  by_cases htype : header.type = FrameType.ping.toByte
  · by_cases hvalid : validatePayload header = .ok
    · have h8 : header.length = 8 := validatePayload_fixedLength htype hvalid rfl
      rw [List.take_append_of_le_length (by omega)]
    · simp [htype, hvalid]
  · simp [htype]

theorem parseRstStream_append (tail : List UInt8) :
    parseRstStream header (p ++ tail) = parseRstStream header p := by
  unfold parseRstStream
  by_cases htype : header.type = FrameType.rstStream.toByte
  · by_cases hvalid : validatePayload header = .ok
    · have h4 : header.length = 4 := validatePayload_fixedLength htype hvalid rfl
      rw [readU32_append (by omega)]
    · simp [htype, hvalid]
  · simp [htype]

theorem parseContinuation_append (tail : List UInt8) :
    parseContinuation header (p ++ tail) = parseContinuation header p := by
  rw [parseContinuation, parseContinuation, List.take_append_of_le_length (by omega)]

end Locality

/-! ## How the parsers refuse

A malformed frame is a protocol error or a frame size error. -/

theorem validatePayload_cases (header : FrameHeader) :
    validatePayload header = .ok ∨ validatePayload header = .protocolError
      ∨ validatePayload header = .frameSizeError := by
  unfold validatePayload validateStreamNonzero
  repeat' split
  all_goals simp

section Errors

variable {header : FrameHeader} {payload : List UInt8} {ret : ErrorCode}

theorem parseData_error (h : parseData header payload = .error ret) :
    ret = .protocolError ∨ ret = .frameSizeError := by
  unfold parseData at h
  split_ifs at h <;> cases h <;> simp

theorem parsePriority_error (h : parsePriority header payload = .error ret) :
    ret = .protocolError ∨ ret = .frameSizeError := by
  unfold parsePriority at h
  split_ifs at h <;> cases h <;> simp

theorem parseHeadersBlock_error {pos blockLen padLen : Nat}
    (h : parseHeadersBlock header payload pos blockLen padLen = .error ret) :
    ret = .protocolError ∨ ret = .frameSizeError := by
  unfold parseHeadersBlock at h
  split_ifs at h
  · cases h
    simp
  · split at h
    · next hpriority =>
        cases h
        exact parsePriority_error hpriority
    · cases h

theorem parseHeaders_error (h : parseHeaders header payload = .error ret) :
    ret = .protocolError ∨ ret = .frameSizeError := by
  unfold parseHeaders at h
  split_ifs at h
  · cases h
    simp
  · cases h
    simp
  · cases h
    simp
  · exact parseHeadersBlock_error h
  · exact parseHeadersBlock_error h

theorem parseContinuation_error (h : parseContinuation header payload = .error ret) :
    ret = .protocolError ∨ ret = .frameSizeError := by
  unfold parseContinuation at h
  split_ifs at h
  cases h
  exact Or.inl rfl

theorem parseWindowUpdate_error (h : parseWindowUpdate header payload = .error ret) :
    ret = .protocolError ∨ ret = .frameSizeError := by
  unfold parseWindowUpdate at h
  split_ifs at h with h1 h2
  · cases h
    simp
  · cases h
    exact (validatePayload_cases header).resolve_left h2
  · cases h
    simp

theorem parsePing_error (h : parsePing header payload = .error ret) :
    ret = .protocolError ∨ ret = .frameSizeError := by
  unfold parsePing at h
  split_ifs at h with h1 h2
  · cases h
    simp
  · cases h
    exact (validatePayload_cases header).resolve_left h2

theorem parseRstStream_error (h : parseRstStream header payload = .error ret) :
    ret = .protocolError ∨ ret = .frameSizeError := by
  unfold parseRstStream at h
  split_ifs at h with h1 h2
  · cases h
    simp
  · cases h
    exact (validatePayload_cases header).resolve_left h2

end Errors

end C11Omo.Http2
