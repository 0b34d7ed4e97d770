import C11Omo.Http2.Frame

set_option autoImplicit false

/-! # HPACK

`src/hpack_static.c` and `src/hpack.c`. A decoder position `wire + pos` with the remaining
length `wire_len - pos` is the list of the remaining bytes, and a `char` buffer is the list of
bytes written before its terminating zero. Such a list may itself contain zero bytes: what
`strlen`, `strcmp` and `%s` see of it is `cstr`.
-/

namespace C11Omo.Http2

open C11Omo.Lib

/-! ## The static table -/

/-- `h2_hpack_static_entry`. -/
structure StaticEntry where
  name : List UInt8
  value : List UInt8
  deriving DecidableEq, Repr

/-- `h2_static_table` from index `1` on. -/
def staticTable : List StaticEntry :=
  [ (":authority", ""), (":method", "GET"), (":method", "POST"), (":path", "/"),
    (":path", "/index.html"), (":scheme", "http"), (":scheme", "https"), (":status", "200"),
    (":status", "204"), (":status", "206"), (":status", "304"), (":status", "400"),
    (":status", "404"), (":status", "500"), ("accept-charset", ""),
    ("accept-encoding", "gzip, deflate"), ("accept-language", ""), ("accept-ranges", ""),
    ("accept", ""), ("access-control-allow-origin", ""), ("age", ""), ("allow", ""),
    ("authorization", ""), ("cache-control", ""), ("content-disposition", ""),
    ("content-encoding", ""), ("content-language", ""), ("content-length", ""),
    ("content-location", ""), ("content-range", ""), ("content-type", ""), ("cookie", ""),
    ("date", ""), ("etag", ""), ("expect", ""), ("expires", ""), ("from", ""), ("host", ""),
    ("if-match", ""), ("if-modified-since", ""), ("if-none-match", ""), ("if-range", ""),
    ("if-unmodified-since", ""), ("last-modified", ""), ("link", ""), ("location", ""),
    ("max-forwards", ""), ("proxy-authenticate", ""), ("proxy-authorization", ""), ("range", ""),
    ("referer", ""), ("refresh", ""), ("retry-after", ""), ("server", ""), ("set-cookie", ""),
    ("strict-transport-security", ""), ("transfer-encoding", ""), ("user-agent", ""),
    ("vary", ""), ("via", ""), ("www-authenticate", "") ].map
    (fun e => { name := ascii e.1, value := ascii e.2 })

def staticTableLen : Nat := 61

/-- `h2_hpack_static_get`. -/
def staticGet (index : Nat) : Option StaticEntry :=
  if index = 0 ∨ index > staticTableLen then none else staticTable[index - 1]?

def headerNameCap : Nat := 64
def headerValueCap : Nat := 256

/-- `h2_header_field`. -/
structure HeaderField where
  name : List UInt8
  value : List UInt8
  deriving DecidableEq, Repr

/-- `h2_copy_text`: the text copied, or the error with `dst` untouched. -/
def copyText (dstCap : Nat) (src : List UInt8) : Except ErrorCode (List UInt8) :=
  if dstCap = 0 then .error .compressionError
  else if (cstr src).length ≥ dstCap then .error .refusedStream
  else .ok (cstr src)

/-! ## Integers -/

/-- The loop of `h2_hpack_decode_integer`, on the bytes from `pos` on. -/
def decodeIntegerLoop : List UInt8 → (pos shift result : Nat) → Except ErrorCode (Nat × Nat)
  | [], _, _, _ => .error .compressionError
  | byte :: rest, pos, shift, result =>
      if pos > 5 then .error .compressionError
      else if shift ≥ 32 then .error .compressionError
      else if byte.toNat &&& 0x7f > 0xffffffff >>> shift then .error .compressionError
      else if result > 0xffffffff - (byte.toNat &&& 0x7f) <<< shift then .error .compressionError
      else if byte.toNat &&& 0x80 = 0 then
        .ok (result + (byte.toNat &&& 0x7f) <<< shift, pos + 1)
      else decodeIntegerLoop rest (pos + 1) (shift + 7) (result + (byte.toNat &&& 0x7f) <<< shift)

/-- `h2_hpack_decode_integer`: the value and the number of bytes used. -/
def decodeInteger (wire : List UInt8) (prefixBits : Nat) : Except ErrorCode (Nat × Nat) :=
  match wire with
  | [] => .error .compressionError
  | first :: rest =>
      if prefixBits = 0 ∨ prefixBits > 8 then .error .compressionError
      else
        let prefixMax := 1 <<< prefixBits - 1
        if first.toNat &&& prefixMax < prefixMax then .ok (first.toNat &&& prefixMax, 1)
        else decodeIntegerLoop rest 1 0 (first.toNat &&& prefixMax)

/-- The loop of `h2_hpack_encode_integer` and the write after it; `room` is `cap - pos`. -/
def encodeIntegerDigits : (room value : Nat) → Option (List UInt8)
  | 0, _ => none
  | room + 1, value =>
      if value ≥ 128 then
        (encodeIntegerDigits room (value >>> 7)).map (UInt8.ofNat (value &&& 0x7f ||| 0x80) :: ·)
      else some [UInt8.ofNat value]

/-- `h2_hpack_encode_integer`. -/
def encodeInteger (cap prefixBits highBits value : Nat) : Option (List UInt8) :=
  if cap = 0 ∨ prefixBits = 0 ∨ prefixBits > 8 then none
  else
    let prefixMax := 1 <<< prefixBits - 1
    if value < prefixMax then some [UInt8.ofNat (highBits ||| value)]
    else (encodeIntegerDigits (cap - 1) (value - prefixMax)).map
      (UInt8.ofNat (highBits ||| prefixMax) :: ·)

/-! ## Encoders -/

/-- `h2_hpack_encode_indexed`. -/
def encodeIndexed (cap staticIndex : Nat) : Option (List UInt8) :=
  match staticGet staticIndex with
  | none => none
  | some _ => encodeInteger cap 7 0x80 staticIndex

/-- `h2_hpack_encode_string`. -/
def encodeString (cap : Nat) (text : List UInt8) : Option (List UInt8) :=
  let bytes := cstr text
  if bytes.length > 0xffffffff then none
  else
    match encodeInteger cap 7 0x00 bytes.length with
    | none => none
    | some lenPrefix =>
        if lenPrefix.length + bytes.length > cap then none else some (lenPrefix ++ bytes)

/-- `h2_hpack_encode_literal_new_name`. -/
def encodeLiteralNewName (cap : Nat) (name value : List UInt8) : Option (List UInt8) :=
  if cap = 0 then none
  else
    match encodeString (cap - 1) name with
    | none => none
    | some nameBytes =>
        match encodeString (cap - (1 + nameBytes.length)) value with
        | none => none
        | some valueBytes => some (0x00 :: nameBytes ++ valueBytes)

/-! ## Decoders -/

/-- `h2_hpack_decode_string`: the bytes written to `out` and the number of bytes used. -/
def decodeString (wire : List UInt8) (outCap : Nat) : Except ErrorCode (List UInt8 × Nat) :=
  if outCap = 0 ∨ wire.length = 0 then .error .compressionError
  else if byteAt wire 0 &&& 0x80 ≠ 0 then .error .compressionError
  else
    match decodeInteger wire 7 with
    | .error _ => .error .compressionError
    | .ok (valueLen, prefixLen) =>
        if prefixLen + valueLen > wire.length then .error .compressionError
        else if valueLen ≥ outCap then .error .refusedStream
        else .ok ((wire.drop prefixLen).take valueLen, prefixLen + valueLen)

/-- `h2_hpack_skip_string_capped`: the number of bytes used. -/
def skipStringCapped (wire : List UInt8) (valueCap : Nat) : Except ErrorCode Nat :=
  if wire.length = 0 then .error .compressionError
  else
    match decodeInteger wire 7 with
    | .error _ => .error .compressionError
    | .ok (valueLen, prefixLen) =>
        if prefixLen + valueLen > wire.length then .error .compressionError
        else if valueLen ≥ valueCap then .error .refusedStream
        else .ok (prefixLen + valueLen)

/-- `h2_hpack_decode_indexed_literal_name`: the name and the number of bytes used. -/
def decodeIndexedLiteralName (wire : List UInt8) (prefixBits nameCap : Nat) :
    Except ErrorCode (List UInt8 × Nat) :=
  match decodeInteger wire prefixBits with
  | .error _ => .error .compressionError
  | .ok (nameIndex, used) =>
      if nameIndex = 0 then
        match decodeString (wire.drop used) nameCap with
        | .error ret => .error ret
        | .ok (name, nameUsed) => .ok (name, used + nameUsed)
      else
        match staticGet nameIndex with
        | none => .error .compressionError
        | some entry =>
            match copyText nameCap entry.name with
            | .error ret => .error ret
            | .ok name => .ok (name, used)

/-- The prefix of a literal representation whose first byte is `first`: six bits with
incremental indexing, four without. -/
def literalPrefixBits (first : UInt8) : Nat := if first &&& 0x40 ≠ 0 then 6 else 4

/-- The loop of `h2_hpack_decode_headers`. Every iteration uses at least one byte, so `fuel`
equal to the number of bytes is enough; `fieldCap` counts the free entries of `fields`. -/
def decodeHeadersLoop : (fuel : Nat) → List UInt8 → (fieldCap : Nat) →
    Except ErrorCode (List HeaderField)
  | 0, _, _ => .ok []
  | fuel + 1, wire, fieldCap =>
      match wire with
      | [] => .ok []
      | first :: _ =>
          if fieldCap = 0 then .error .refusedStream
          else if first &&& 0x80 ≠ 0 then
            match decodeInteger wire 7 with
            | .error _ => .error .compressionError
            | .ok (index, used) =>
                match staticGet index with
                | none => .error .compressionError
                | some entry =>
                    match copyText headerNameCap entry.name, copyText headerValueCap entry.value with
                    | .ok name, .ok value =>
                        (decodeHeadersLoop fuel (wire.drop used) (fieldCap - 1)).map
                          ({ name := name, value := value } :: ·)
                    | _, _ => .error .refusedStream
          else if first &&& 0xe0 = 0x20 then
            match decodeInteger wire 5 with
            | .error _ => .error .compressionError
            | .ok (_, used) => decodeHeadersLoop fuel (wire.drop used) fieldCap
          else
            match decodeIndexedLiteralName wire (literalPrefixBits first) headerNameCap with
            | .error ret => .error ret
            | .ok (name, nameUsed) =>
                match decodeString (wire.drop nameUsed) headerValueCap with
                | .error ret => .error ret
                | .ok (value, used) =>
                    (decodeHeadersLoop fuel (wire.drop (nameUsed + used)) (fieldCap - 1)).map
                      ({ name := name, value := value } :: ·)

/-- `h2_hpack_decode_headers`. -/
def decodeHeaders (wire : List UInt8) (fieldCap : Nat) : Except ErrorCode (List HeaderField) :=
  decodeHeadersLoop wire.length wire fieldCap

/-- `h2_maybe_copy_path`: the return code and the path buffer. -/
def maybeCopyPath (name value path : List UInt8) (pathCap : Nat) : ErrorCode × List UInt8 :=
  if cstr name = ascii ":path" then
    match copyText pathCap value with
    | .error ret => (ret, path)
    | .ok path => (.ok, path)
  else (.ok, path)

/-- The value part of one literal in `h2_hpack_extract_path`: the return code, the path buffer
and the number of bytes used. -/
def extractPathValue (name wire path : List UInt8) (pathCap : Nat) :
    ErrorCode × List UInt8 × Nat :=
  if cstr name = ascii ":path" then
    match decodeString wire headerValueCap with
    | .error ret => (ret, path, 0)
    | .ok (value, used) =>
        match copyText pathCap value with
        | .error ret => (ret, path, 0)
        | .ok path => (.ok, path, used)
  else
    match skipStringCapped wire headerValueCap with
    | .error ret => (ret, path, 0)
    | .ok used => (.ok, path, used)

/-- The loop of `h2_hpack_extract_path`, with the same fuel as `decodeHeadersLoop`. -/
def extractPathLoop : (fuel : Nat) → List UInt8 → (path : List UInt8) → (pathCap : Nat) →
    ErrorCode × List UInt8
  | 0, _, path, _ => (.ok, path)
  | fuel + 1, wire, path, pathCap =>
      match wire with
      | [] => (.ok, path)
      | first :: _ =>
          if first &&& 0x80 ≠ 0 then
            match decodeInteger wire 7 with
            | .error _ => (.compressionError, path)
            | .ok (index, used) =>
                match staticGet index with
                | none => (.compressionError, path)
                | some entry =>
                    match maybeCopyPath entry.name entry.value path pathCap with
                    | (.ok, path) => extractPathLoop fuel (wire.drop used) path pathCap
                    | (ret, path) => (ret, path)
          else if first &&& 0xe0 = 0x20 then
            match decodeInteger wire 5 with
            | .error _ => (.compressionError, path)
            | .ok (_, used) => extractPathLoop fuel (wire.drop used) path pathCap
          else
            match decodeIndexedLiteralName wire (literalPrefixBits first) headerNameCap with
            | .error ret => (ret, path)
            | .ok (name, nameUsed) =>
                match extractPathValue name (wire.drop nameUsed) path pathCap with
                | (.ok, path, used) =>
                    extractPathLoop fuel (wire.drop (nameUsed + used)) path pathCap
                | (ret, path, _) => (ret, path)

/-- `h2_hpack_extract_path`: the return code and the path buffer, which is written also when
the code is an error. -/
def extractPath (wire : List UInt8) (pathCap : Nat) : ErrorCode × List UInt8 :=
  if pathCap = 0 then (.compressionError, [])
  else
    match extractPathLoop wire.length wire [] pathCap with
    | (.ok, path) => if path = [] then (.protocolError, path) else (.ok, path)
    | (ret, path) => (ret, path)

end C11Omo.Http2
