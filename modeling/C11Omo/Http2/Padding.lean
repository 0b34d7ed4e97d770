import C11Omo.Http2.RoundTrip

set_option autoImplicit false

/-! # Padded payloads

DATA, HEADERS and PUSH_PROMISE frames may carry padding: the payload is an octet with the length of
the padding, a body, and the padding (`PaddedAs`). The body of a HEADERS frame may start with five
priority octets, that of a PUSH_PROMISE frame starts with the promised stream id. Each of the three
parsers accepts a payload exactly if it can be split this way, and returns the parts
(`padded_payloads_split`). The payload may have any bytes behind it in memory.
-/

namespace C11Omo.Http2

open C11Omo.Lib

/-! ## The parts of a payload -/

/-- The pad length octet if the frame is PADDED, a body, and padding of that length. -/
def PaddedAs (flags : UInt8) (payload : List UInt8) (padLen : Nat) (body : List UInt8) : Prop :=
  ∃ front padding, payload = front ++ body ++ padding ∧ padding.length = padLen
    ∧ if hasFlag flags flagPadded then ∃ octet : UInt8, front = [octet] ∧ octet.toNat = padLen
      else front = [] ∧ padLen = 0

/-- The fields are written in five octets: the exclusive bit above the 31 bits of the dependency, and
the weight. -/
def PriorityPayload.ReadFrom (fields : PriorityPayload) (octets : List UInt8) : Prop :=
  octets.length = 5 ∧ fields.streamDependency < 2 ^ 31
    ∧ beNat (octets.take 4) = (if fields.exclusive then 2 ^ 31 else 0) + fields.streamDependency
    ∧ byteAt octets 4 = fields.weight

/-- The priority octets if the frame has them, with a dependency on another stream. -/
def PriorityOctets (header : FrameHeader) (octets : List UInt8)
    (priority : Option PriorityPayload) : Prop :=
  if hasFlag header.flags flagPriority then
    ∃ fields, priority = some fields ∧ fields.ReadFrom octets
      ∧ fields.streamDependency ≠ header.streamId
  else octets = [] ∧ priority = none

/-- The parts of a DATA payload. -/
def DataParts (header : FrameHeader) (payload : List UInt8) (p : DataPayload) : Prop :=
  PaddedAs header.flags payload p.padLen p.data

/-- The parts of a HEADERS payload. -/
def HeadersParts (header : FrameHeader) (payload : List UInt8) (p : HeadersPayload) : Prop :=
  ∃ octets, PaddedAs header.flags payload p.padLen (octets ++ p.headerBlock)
    ∧ PriorityOctets header octets p.priority

/-- The parts of a PUSH_PROMISE payload: the four octets of the promised stream id, of which the top
bit does not count, and the header block. -/
def PushPromiseParts (header : FrameHeader) (payload : List UInt8) (p : PushPromisePayload) :
    Prop :=
  ∃ octets, PaddedAs header.flags payload p.padLen (octets ++ p.headerBlock)
    ∧ octets.length = 4 ∧ p.promisedStreamId = beNat octets % 2 ^ 31

/-! ## Padding -/

section

variable {flags : UInt8} {payload body : List UInt8} {padLen : Nat}

theorem paddedAs_plain (h : hasFlag flags flagPadded = false) :
    PaddedAs flags payload padLen body ↔ padLen = 0 ∧ body = payload := by
  constructor
  · rintro ⟨front, padding, hsplit, hlen, hfront⟩
    rw [if_neg (by simp [h])] at hfront
    obtain ⟨rfl, hzero⟩ := hfront
    have hnil : padding = [] := List.eq_nil_of_length_eq_zero (by omega)
    rw [hnil, List.nil_append, List.append_nil] at hsplit
    exact ⟨hzero, hsplit.symm⟩
  · rintro ⟨rfl, rfl⟩
    refine ⟨[], [], by simp, rfl, ?_⟩
    rw [if_neg (by simp [h])]
    exact ⟨rfl, rfl⟩

/-- With padding, the octet must not ask for more than what follows it. -/
theorem paddedAs_padded (h : hasFlag flags flagPadded = true) :
    PaddedAs flags payload padLen body
      ↔ payload.length ≠ 0 ∧ byteAt payload 0 ≤ payload.length - 1 ∧ padLen = byteAt payload 0
        ∧ body = (payload.drop 1).take (payload.length - 1 - byteAt payload 0) := by
  constructor
  · rintro ⟨front, padding, hsplit, hlen, hfront⟩
    rw [if_pos h] at hfront
    obtain ⟨octet, rfl, hoctet⟩ := hfront
    have hcons : payload = octet :: (body ++ padding) := by simpa using hsplit
    subst hcons
    have hbyte : byteAt (octet :: (body ++ padding)) 0 = padLen := hoctet
    have hlength : (octet :: (body ++ padding)).length = body.length + padLen + 1 := by
      simp only [List.length_cons, List.length_append, hlen]
    rw [hbyte, hlength]
    refine ⟨by omega, by omega, rfl, ?_⟩
    rw [show body.length + padLen + 1 - 1 - padLen = body.length by omega]
    exact List.take_left.symm
  · -- the octet is in front, and the padding is what is left at the end
    rintro ⟨hne, hle, hpad, hbody⟩
    cases payload with
    | nil => exact absurd rfl hne
    | cons octet rest =>
        have hbyte : byteAt (octet :: rest) 0 = octet.toNat := rfl
        rw [hbyte, List.length_cons, Nat.add_sub_cancel] at hle hbody
        rw [hbyte] at hpad
        rw [List.drop_succ_cons, List.drop_zero] at hbody
        refine ⟨[octet], rest.drop (rest.length - octet.toNat), ?_, ?_, ?_⟩
        · rw [hbody, List.append_assoc, List.take_append_drop]
          rfl
        · rw [List.length_drop, hpad]
          omega
        · rw [if_pos h]
          exact ⟨octet, rfl, hpad.symm⟩

end

/-! ## The fields in front of the header block -/

/-- Four octets as a stream id. -/
theorem readU31_four {octets : List UInt8} (h : octets.length = 4) (tail : List UInt8) :
    readU31 (octets ++ tail) = beNat octets % 2 ^ 31 := by
  match octets, h with
  | [a, b, c, d], _ => exact readU31_cons a b c d tail

/-- Five octets as priority fields. -/
theorem readFrom_iff {octets : List UInt8} (h : octets.length = 5) (tail : List UInt8)
    (fields : PriorityPayload) :
    fields.ReadFrom octets
      ↔ { exclusive := byteAt (octets ++ tail) 0 &&& 0x80 ≠ 0
          streamDependency := readU31 (octets ++ tail)
          weight := byteAt (octets ++ tail) 4 } = fields := by
  obtain ⟨a, b, c, d, w, rfl⟩ : ∃ a b c d w, octets = [a, b, c, d, w] := by
    match octets, h with
    | [a, b, c, d, w], _ => exact ⟨a, b, c, d, w, rfl⟩
  have ha := a.toNat_lt
  have hb := b.toNat_lt
  have hc := c.toNat_lt
  have hd := d.toNat_lt
  have hread : readU31 ([a, b, c, d, w] ++ tail) = beNat [a, b, c, d] % 2 ^ 31 :=
    readU31_cons a b c d (w :: tail)
  have htop : byteAt ([a, b, c, d, w] ++ tail) 0 &&& 0x80 = 0 ↔ a.toNat < 128 :=
    and_128_eq_zero ha
  have hweight : byteAt ([a, b, c, d, w] ++ tail) 4 = w.toNat := rfl
  have hfour : ([a, b, c, d, w] : List UInt8).take 4 = [a, b, c, d] := rfl
  have hlast : byteAt [a, b, c, d, w] 4 = w.toNat := rfl
  rw [PriorityPayload.ReadFrom, hread, hweight, hfour, hlast, beNat_four]
  obtain ⟨exclusive, dependency, weight⟩ := fields
  simp only [PriorityPayload.mk.injEq, List.length_cons, List.length_nil, true_and]
  -- the top bit of the first octet is the flag, the other 31 are the stream
  cases exclusive with
  | true =>
      rw [decide_eq_true_iff, Ne, htop, if_pos rfl]
      omega
  | false =>
      rw [decide_eq_false_iff_not, Ne, not_not, htop, if_neg Bool.false_ne_true]
      omega

/-- `h2_frame_parse_priority`, as `h2_frame_parse_headers` calls it. -/
theorem parsePriority_ok_iff {octets : List UInt8} (h : octets.length = 5) (tail : List UInt8)
    {streamId : Nat} (hid : streamId ≠ 0) (fields : PriorityPayload) :
    parsePriority { length := 5, type := FrameType.priority.toByte, flags := 0, streamId := streamId }
        (octets ++ tail) = .ok fields
      ↔ fields.ReadFrom octets ∧ fields.streamDependency ≠ streamId := by
  have hvalid : validatePayload
      { length := 5, type := FrameType.priority.toByte, flags := 0, streamId := streamId } = .ok :=
    (@validatePayload_ok_iff _ .priority rfl (show 5 ≤ maxFrameSizeLimit by decide)).mpr ⟨hid, rfl⟩
  rw [parsePriority, if_neg (by simp [hvalid]), readFrom_iff h tail]
  split_ifs with hself
  · refine iff_of_false (by simp) ?_
    rintro ⟨rfl, hne⟩
    exact hne hself
  · rw [Except.ok.injEq, iff_self_and]
    rintro rfl
    exact hself

section

variable {header : FrameHeader} {payload : List UInt8} {pos blockLen padLen : Nat}

/-- The body of a HEADERS payload: the priority octets and the header block. -/
theorem parseHeadersBlock_ok_iff (hid : header.streamId ≠ 0)
    (hpos : pos + blockLen ≤ payload.length) (p : HeadersPayload) :
    parseHeadersBlock header payload pos blockLen padLen = .ok p
      ↔ p.padLen = padLen ∧ ∃ octets, octets ++ p.headerBlock = (payload.drop pos).take blockLen
        ∧ PriorityOctets header octets p.priority := by
  have hbody : ((payload.drop pos).take blockLen).length = blockLen := by
    rw [List.length_take, List.length_drop]
    omega
  obtain ⟨block, pad, priority⟩ := p
  rw [parseHeadersBlock]
  -- the PRIORITY flag takes five octets off the front of the block
  by_cases hprio : hasFlag header.flags flagPriority
  · simp only [if_pos hprio, PriorityOctets]
    by_cases hshort : blockLen < 5
    · rw [if_pos hshort]
      refine iff_of_false (by simp) ?_
      rintro ⟨-, octets, hsplit, fields, -, hread, -⟩
      have hlen := congrArg List.length hsplit
      rw [hbody, List.length_append, hread.1] at hlen
      omega
    · rw [if_neg hshort]
      have hfront : (payload.drop pos).take 5 = ((payload.drop pos).take blockLen).take 5 := by
        rw [List.take_take, Nat.min_eq_left (by omega)]
      have hblock : (payload.drop (pos + 5)).take (blockLen - 5)
          = ((payload.drop pos).take blockLen).drop 5 := by
        rw [List.drop_take, List.drop_drop]
      have hfive : ((payload.drop pos).take 5).length = 5 := by
        rw [List.length_take, List.length_drop]
        omega
      have hparse := fun fields => parsePriority_ok_iff hfive ((payload.drop pos).drop 5) hid fields
      rw [List.take_append_drop] at hparse
      rw [hblock]
      generalize (payload.drop pos).take blockLen = body at *
      constructor
      · intro hok
        split at hok
        · cases hok
        · rename_i fields hfields
          obtain ⟨rfl, rfl, rfl⟩ : body.drop 5 = block ∧ padLen = pad ∧ some fields = priority := by
            simpa using hok
          refine ⟨rfl, body.take 5, List.take_append_drop 5 body, fields, rfl, ?_⟩
          rw [← hfront]
          exact (hparse fields).mp hfields
      · rintro ⟨rfl, octets, hsplit, fields, rfl, hread⟩
        have htake : body.take 5 = octets := by
          rw [← hsplit, List.take_left' hread.1.1]
        have hdrop : body.drop 5 = block := by
          rw [← hsplit, List.drop_left' hread.1.1]
        rw [(hparse fields).mpr (by rw [hfront, htake]; exact hread), hdrop]
  · simp only [if_neg hprio, PriorityOctets, Except.ok.injEq, HeadersPayload.mk.injEq]
    constructor
    · rintro ⟨rfl, rfl, rfl⟩
      exact ⟨rfl, [], rfl, rfl, rfl⟩
    · rintro ⟨rfl, octets, hsplit, rfl, rfl⟩
      exact ⟨hsplit.symm, rfl, rfl⟩

/-- The body of a PUSH_PROMISE payload: the promised stream id and the header block. -/
theorem parsePushPromiseBlock_ok_iff (hpos : pos + blockLen ≤ payload.length)
    (p : PushPromisePayload) :
    parsePushPromiseBlock payload pos blockLen padLen = .ok p
      ↔ p.padLen = padLen ∧ ∃ octets, octets ++ p.headerBlock = (payload.drop pos).take blockLen
        ∧ octets.length = 4 ∧ p.promisedStreamId = beNat octets % 2 ^ 31 := by
  have hbody : ((payload.drop pos).take blockLen).length = blockLen := by
    rw [List.length_take, List.length_drop]
    omega
  obtain ⟨promised, block, pad⟩ := p
  rw [parsePushPromiseBlock]
  by_cases hshort : blockLen < 4
  · rw [if_pos hshort]
    refine iff_of_false (by simp) ?_
    rintro ⟨-, octets, hsplit, hfour, -⟩
    have hlen := congrArg List.length hsplit
    rw [hbody, List.length_append, hfour] at hlen
    omega
  · have hblock : (payload.drop (pos + 4)).take (blockLen - 4)
        = ((payload.drop pos).take blockLen).drop 4 := by
      rw [List.drop_take, List.drop_drop]
    have hread : readU31 (payload.drop pos)
        = beNat (((payload.drop pos).take blockLen).take 4) % 2 ^ 31 := by
      have hfour : ((payload.drop pos).take 4).length = 4 := by
        rw [List.length_take, List.length_drop]
        omega
      have hread := readU31_four hfour ((payload.drop pos).drop 4)
      rwa [List.take_append_drop, ← Nat.min_eq_left (show 4 ≤ blockLen by omega),
        ← List.take_take] at hread
    rw [if_neg hshort, hblock, hread, Except.ok.injEq, PushPromisePayload.mk.injEq]
    -- everything is said about the body now, the place in the payload is gone
    generalize (payload.drop pos).take blockLen = body at *
    constructor
    · rintro ⟨rfl, rfl, rfl⟩
      refine ⟨rfl, body.take 4, List.take_append_drop 4 body, ?_, rfl⟩
      rw [List.length_take]
      omega
    · rintro ⟨rfl, octets, hsplit, hfour, rfl⟩
      have htake : body.take 4 = octets := by rw [← hsplit, List.take_left' hfour]
      have hdrop : body.drop 4 = block := by rw [← hsplit, List.drop_left' hfour]
      exact ⟨by rw [htake], hdrop, rfl⟩

end

/-! ## The parsers -/

section

variable {header : FrameHeader} {payload : List UInt8}

theorem parseData_ok_iff (htype : header.type = FrameType.data.toByte)
    (hlen : payload.length = header.length) (hmax : header.length ≤ maxFrameSizeLimit)
    (p : DataPayload) :
    parseData header payload = .ok p ↔ header.streamId ≠ 0 ∧ DataParts header payload p := by
  have hvalid : validatePayload header = .ok ↔ header.streamId ≠ 0 :=
    validatePayload_ok_iff htype hmax
  obtain ⟨bytes, pad⟩ := p
  rw [parseData]
  by_cases hid : header.streamId = 0
  · rw [if_pos (.inr (mt hvalid.mp (not_not.mpr hid)))]
    exact iff_of_false (by simp) (fun h => h.1 hid)
  · rw [if_neg (by simp [htype, hvalid.mpr hid]), DataParts, ← hlen, and_iff_right hid]
    cases hpadded : hasFlag header.flags flagPadded with
    | false =>
        rw [paddedAs_plain hpadded, if_neg Bool.false_ne_true, List.take_length]
        simp only [Except.ok.injEq, DataPayload.mk.injEq]
        constructor
        · rintro ⟨rfl, rfl⟩
          exact ⟨rfl, rfl⟩
        · rintro ⟨rfl, rfl⟩
          exact ⟨rfl, rfl⟩
    | true =>
        rw [paddedAs_padded hpadded, if_pos rfl]
        split_ifs with hempty hlong
        · exact iff_of_false (by simp) (fun h => h.1 hempty)
        · exact iff_of_false (by simp) (fun h => absurd h.2.1 (not_le.mpr hlong))
        · simp only [Except.ok.injEq, DataPayload.mk.injEq]
          constructor
          · rintro ⟨rfl, rfl⟩
            exact ⟨hempty, not_lt.mp hlong, rfl, rfl⟩
          · rintro ⟨-, -, rfl, rfl⟩
            exact ⟨rfl, rfl⟩

/-- What the parsers of header blocks do about the padding, in front of a parser of the body. -/
theorem unpad_ok_iff {α : Type} {block : Nat → Nat → Nat → Except ErrorCode α} {a : α} {pad : Nat}
    {Body : List UInt8 → Prop}
    (hblock : ∀ pos blockLen padLen, pos + blockLen ≤ payload.length →
      (block pos blockLen padLen = .ok a
        ↔ pad = padLen ∧ Body ((payload.drop pos).take blockLen)))
    (flags : UInt8) (hne : hasFlag flags flagPadded = true → payload.length ≠ 0) :
    (if hasFlag flags flagPadded then
        if byteAt payload 0 > payload.length - 1 then .error .protocolError
        else block 1 (payload.length - 1 - byteAt payload 0) (byteAt payload 0)
      else block 0 payload.length 0) = .ok a
      ↔ ∃ body, PaddedAs flags payload pad body ∧ Body body := by
  cases hpadded : hasFlag flags flagPadded with
  | false =>
      rw [if_neg Bool.false_ne_true, hblock 0 payload.length 0 (by omega), List.drop_zero,
        List.take_length]
      simp only [paddedAs_plain hpadded]
      constructor
      · rintro ⟨hpad, hbody⟩
        exact ⟨payload, ⟨hpad, rfl⟩, hbody⟩
      · rintro ⟨body, ⟨hpad, rfl⟩, hbody⟩
        exact ⟨hpad, hbody⟩
  | true =>
      have hnonempty := hne hpadded
      rw [if_pos rfl]
      simp only [paddedAs_padded hpadded]
      -- the octet asks for more than there is, or the padding is cut off
      split_ifs with hlong
      · refine iff_of_false (by simp) ?_
        rintro ⟨body, ⟨-, hle, -⟩, -⟩
        omega
      · rw [hblock _ _ _ (by omega)]
        constructor
        · rintro ⟨hpad, hbody⟩
          exact ⟨_, ⟨hnonempty, not_lt.mp hlong, hpad, rfl⟩, hbody⟩
        · rintro ⟨body, ⟨-, -, hpad, rfl⟩, hbody⟩
          exact ⟨hpad, hbody⟩

/-- The front octets of a body, and the header block behind them. -/
theorem exists_body {flags : UInt8} {padLen : Nat} {block : List UInt8} {Q : List UInt8 → Prop} :
    (∃ body, PaddedAs flags payload padLen body ∧ ∃ octets, octets ++ block = body ∧ Q octets)
      ↔ ∃ octets, PaddedAs flags payload padLen (octets ++ block) ∧ Q octets := by
  constructor
  · rintro ⟨_, hpadded, octets, rfl, hq⟩
    exact ⟨octets, hpadded, hq⟩
  · rintro ⟨octets, hpadded, hq⟩
    exact ⟨_, hpadded, octets, rfl, hq⟩

theorem parseHeaders_ok_iff (htype : header.type = FrameType.headers.toByte)
    (hlen : payload.length = header.length) (hmax : header.length ≤ maxFrameSizeLimit)
    (p : HeadersPayload) :
    parseHeaders header payload = .ok p
      ↔ header.streamId ≠ 0 ∧ HeadersParts header payload p := by
  have hvalid : validatePayload header = .ok ↔ header.streamId ≠ 0 :=
    validatePayload_ok_iff htype hmax
  rw [parseHeaders]
  by_cases hid : header.streamId = 0
  · rw [if_pos (.inr (mt hvalid.mp (not_not.mpr hid)))]
    exact iff_of_false (by simp) (fun h => h.1 hid)
  · rw [if_neg (by simp [htype, hvalid.mpr hid]), HeadersParts, ← hlen, and_iff_right hid,
      ← exists_body]
    by_cases hempty : payload.length = 0
    · cases hpadded : hasFlag header.flags flagPadded with
      | true =>
          rw [if_pos rfl, if_pos hempty]
          refine iff_of_false (by simp) ?_
          rintro ⟨body, hparts, -⟩
          exact ((paddedAs_padded hpadded).mp hparts).1 hempty
      | false =>
          rw [← unpad_ok_iff (fun _ _ _ hpos => parseHeadersBlock_ok_iff hid hpos p) header.flags
            (by simp [hpadded]), hpadded, if_neg Bool.false_ne_true, if_neg Bool.false_ne_true]
    · rw [if_neg hempty, ← unpad_ok_iff (fun _ _ _ hpos => parseHeadersBlock_ok_iff hid hpos p)
        header.flags (fun _ => hempty)]

/-- A PUSH_PROMISE payload has its pad length octet and the four octets of the stream id. -/
theorem PushPromiseParts.length_le {p : PushPromisePayload}
    (h : PushPromiseParts header payload p) :
    (if hasFlag header.flags flagPadded then 5 else 4) ≤ payload.length := by
  obtain ⟨octets, ⟨front, padding, hsplit, hpad, hfront⟩, hfour, -⟩ := h
  have hlen := congrArg List.length hsplit
  simp only [List.length_append, hfour] at hlen
  split_ifs at hfront ⊢
  · obtain ⟨octet, rfl, -⟩ := hfront
    rw [List.length_singleton] at hlen
    omega
  · omega

theorem parsePushPromise_ok_iff (htype : header.type = FrameType.pushPromise.toByte)
    (hlen : payload.length = header.length) (hmax : header.length ≤ maxFrameSizeLimit)
    (p : PushPromisePayload) :
    parsePushPromise header payload = .ok p
      ↔ header.streamId ≠ 0 ∧ PushPromiseParts header payload p := by
  have hvalid : validatePayload header = .ok ↔ header.streamId ≠ 0
      ∧ (if hasFlag header.flags flagPadded then 5 else 4) ≤ header.length :=
    validatePayload_ok_iff htype hmax
  rw [parsePushPromise]
  by_cases hok : header.streamId ≠ 0
      ∧ (if hasFlag header.flags flagPadded then 5 else 4) ≤ header.length
  · have hne : hasFlag header.flags flagPadded = true → payload.length ≠ 0 := by
      intro hpadded
      rw [if_pos hpadded] at hok
      omega
    rw [if_neg (by simp [htype, hvalid.mpr hok]), ← hlen, PushPromiseParts, and_iff_right hok.1,
      ← exists_body, ← unpad_ok_iff (fun _ _ _ hpos => parsePushPromiseBlock_ok_iff hpos p)
        header.flags hne]
  · rw [if_pos (.inr (mt hvalid.mp hok))]
    refine iff_of_false (by simp) ?_
    rintro ⟨hid, hparts⟩
    exact hok ⟨hid, hlen ▸ hparts.length_le⟩

theorem parsePushPromiseBlock_append {pos blockLen : Nat} (hpos : pos + blockLen ≤ payload.length)
    (padLen : Nat) (tail : List UInt8) :
    parsePushPromiseBlock (payload ++ tail) pos blockLen padLen
      = parsePushPromiseBlock payload pos blockLen padLen := by
  unfold parsePushPromiseBlock
  split_ifs with hshort
  · rfl
  · rw [List.drop_append_of_le_length (by omega),
      readU31_append (by rw [List.length_drop]; omega), slice_append (by omega)]

theorem parsePushPromise_append (htype : header.type = FrameType.pushPromise.toByte)
    (hlen : payload.length = header.length) (hmax : header.length ≤ maxFrameSizeLimit)
    (tail : List UInt8) :
    parsePushPromise header (payload ++ tail) = parsePushPromise header payload := by
  unfold parsePushPromise
  by_cases hvalid : header.type ≠ FrameType.pushPromise.toByte ∨ validatePayload header ≠ .ok
  · rw [if_pos hvalid, if_pos hvalid]
  · rw [if_neg hvalid, if_neg hvalid]
    -- a valid header counts the pad length octet
    have hok : header.streamId ≠ 0
        ∧ (if hasFlag header.flags flagPadded then 5 else 4) ≤ header.length :=
      (validatePayload_ok_iff htype hmax).mp (not_not.mp (not_or.mp hvalid).2)
    by_cases hpadded : hasFlag header.flags flagPadded
    · rw [if_pos hpadded] at hok
      have hbyte : byteAt (payload ++ tail) 0 = byteAt payload 0 :=
        byteAt_append_left (by omega) tail
      rw [if_pos hpadded, if_pos hpadded, hbyte]
      split_ifs
      · rfl
      · exact parsePushPromiseBlock_append (by omega) _ tail
    · rw [if_neg hpadded, if_neg hpadded]
      exact parsePushPromiseBlock_append (by omega) _ tail

end

/-- **Padded payloads are split exactly.** Whatever stands behind the payload in memory, the three
parsers accept it if and only if the frame is on a stream and the payload can be split into its
parts, and the parts are what they return. -/
theorem padded_payloads_split {header : FrameHeader} {payload : List UInt8}
    (hlen : payload.length = header.length) (hmax : header.length < 2 ^ 24) (tail : List UInt8) :
    (header.type = FrameType.data.toByte → ∀ p, parseData header (payload ++ tail) = .ok p
      ↔ header.streamId ≠ 0 ∧ DataParts header payload p)
    ∧ (header.type = FrameType.headers.toByte → ∀ p, parseHeaders header (payload ++ tail) = .ok p
      ↔ header.streamId ≠ 0 ∧ HeadersParts header payload p)
    ∧ (header.type = FrameType.pushPromise.toByte →
      ∀ p, parsePushPromise header (payload ++ tail) = .ok p
        ↔ header.streamId ≠ 0 ∧ PushPromiseParts header payload p) := by
  have hmax' : header.length ≤ maxFrameSizeLimit := Nat.le_of_lt_succ hmax
  refine ⟨fun htype p => ?_, fun htype p => ?_, fun htype p => ?_⟩
  · rw [parseData_append hlen tail]
    exact parseData_ok_iff htype hlen hmax' p
  · rw [parseHeaders_append hlen tail]
    exact parseHeaders_ok_iff htype hlen hmax' p
  · rw [parsePushPromise_append htype hlen hmax' tail]
    exact parsePushPromise_ok_iff htype hlen hmax' p

/-- A HEADERS frame with two octets of padding, priority fields, and three octets of header
block. -/
def paddedHeaders : FrameHeader := { length := 11, type := 1, flags := 0x28, streamId := 5 }

theorem padded_headers_split :
    parseHeaders paddedHeaders [2, 0x80, 0, 0, 3, 15, 0x82, 0x84, 0x86, 0, 0]
      = .ok { headerBlock := [0x82, 0x84, 0x86]
              padLen := 2
              priority := some { exclusive := true, streamDependency := 3, weight := 15 } } := by
  have hsplit := (@padded_payloads_split paddedHeaders
    [2, 0x80, 0, 0, 3, 15, 0x82, 0x84, 0x86, 0, 0] rfl (by decide) []).2.1 rfl
  refine (hsplit _).mpr ⟨by decide, [0x80, 0, 0, 3, 15], ⟨[2], [0, 0], rfl, rfl, ?_⟩, ?_⟩
  · rw [if_pos (by decide)]
    exact ⟨2, rfl, rfl⟩
  · rw [PriorityOctets, if_pos (by decide)]
    exact ⟨_, rfl, ⟨rfl, by decide, by decide, rfl⟩, by decide⟩

end C11Omo.Http2
