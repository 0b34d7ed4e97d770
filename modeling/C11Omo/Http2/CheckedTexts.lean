import C11Omo.Http2.Handlers
import C11Omo.Http2.HpackIntegers

set_option autoImplicit false

/-! # HPACK texts with every access checked

The rest of `src/hpack.c` that handles a header block, over the operations of `Lib.Checked`: a
`char` array is the bytes that were written to it, the terminating zero among them, and the length
`wire_len - pos` of what is left is a checked subtraction. The functions return what those of
`Hpack` return.
-/

namespace C11Omo.Http2.Checked

open C11Omo.Lib C11Omo.Lib.Checked

/-! ## Copying texts -/

/-- `h2_hpack_static_get`. -/
def staticGet (index : Nat) : Option (Option StaticEntry) :=
  if index = 0 ∨ index > staticTableLen then pure none
  else (read staticTable (index - 1)).map some

/-- `h2_copy_text`. -/
def copyText (dstCap : Nat) (src : List UInt8) : Option (Except ErrorCode (List UInt8)) :=
  if dstCap = 0 then pure (.error .compressionError)
  else do
    let srcLen ← strlen src
    if srcLen ≥ dstCap then pure (.error .refusedStream)
    else
      let bytes ← slice src 0 (srcLen + 1)
      let dst ← write dstCap [] bytes
      pure (.ok dst)

theorem staticGet_eq (index : Nat) : staticGet index = some (Http2.staticGet index) := by
  rw [staticGet, Http2.staticGet]
  by_cases h : index = 0 ∨ index > staticTableLen
  · rw [if_pos h, if_pos h]
    rfl
  · have hlt : index - 1 < staticTable.length := by
      have hlen : staticTable.length = staticTableLen := rfl
      omega
    rw [if_neg h, if_neg h, read_of_lt hlt, List.getElem?_eq_getElem hlt]
    rfl

theorem copyText_eq (dstCap : Nat) (src : List UInt8) :
    copyText dstCap (src ++ [0]) = some ((Http2.copyText dstCap src).map (· ++ [0])) := by
  rw [copyText, Http2.copyText]
  by_cases hcap : dstCap = 0
  · rw [if_pos hcap, if_pos hcap]
    rfl
  · rw [if_neg hcap, if_neg hcap, strlen_terminated]
    simp only [Option.bind_eq_bind, Option.bind_some]
    by_cases hlen : (cstr src).length ≥ dstCap
    · rw [if_pos hlen, if_pos hlen]
      rfl
    · -- the text and its zero are one byte longer than what `strlen` counts
      obtain ⟨tail, hsplit⟩ := terminated_split src
      have htake : ((src ++ [0]).drop 0).take ((cstr src).length + 1) = cstr src ++ [0] := by
        rw [List.drop_zero, hsplit, List.take_append, List.take_of_length_le (by omega),
          Nat.add_sub_cancel_left]
        rfl
      have hin : 0 + ((cstr src).length + 1) ≤ (src ++ [0]).length := by
        have hle := cstr_length_le src
        rw [List.length_append, List.length_singleton]
        omega
      have hroom : ([] : List UInt8).length + (cstr src ++ [0]).length ≤ dstCap := by
        rw [List.length_append, List.length_singleton, List.length_nil]
        omega
      rw [if_neg hlen, if_neg hlen, slice_of_le hin, htake]
      simp only [Option.bind_some]
      rw [write_of_le hroom]
      rfl

/-! ## Decoding strings -/

/-- `h2_hpack_decode_string`. -/
def decodeString (wire : List UInt8) (outCap : Nat) :
    Option (Except ErrorCode (List UInt8 × Nat)) :=
  if outCap = 0 ∨ wire.length = 0 then pure (.error .compressionError)
  else do
    let first ← byte wire 0
    if first &&& 0x80 ≠ 0 then pure (.error .compressionError)
    else
      match ← decodeInteger wire 7 with
      | .error _ => pure (.error .compressionError)
      | .ok (valueLen, prefixLen) =>
          let used ← add 64 prefixLen valueLen
          if used > wire.length then pure (.error .compressionError)
          else if valueLen ≥ outCap then pure (.error .refusedStream)
          else
            let bytes ← slice wire prefixLen valueLen
            let out ← write outCap [] bytes
            let out ← write outCap out [0]
            pure (.ok (out, used))

/-- `h2_hpack_skip_string_capped`. -/
def skipStringCapped (wire : List UInt8) (valueCap : Nat) : Option (Except ErrorCode Nat) :=
  if wire.length = 0 then pure (.error .compressionError)
  else do
    match ← decodeInteger wire 7 with
    | .error _ => pure (.error .compressionError)
    | .ok (valueLen, prefixLen) =>
        let used ← add 64 prefixLen valueLen
        if used > wire.length then pure (.error .compressionError)
        else if valueLen ≥ valueCap then pure (.error .refusedStream)
        else pure (.ok used)

/-- An integer is in the octets that were there to read, and fits 32 bits. -/
theorem decodeInteger_bounds {wire : List UInt8} {bits value used : Nat} (h1 : 1 ≤ bits)
    (h8 : bits ≤ 8) (h : Http2.decodeInteger wire bits = .ok (value, used)) :
    1 ≤ used ∧ used ≤ 6 ∧ used ≤ wire.length ∧ value ≤ 0xffffffff := by
  obtain ⟨octets, tail, rfl, rfl, h6, hint, hvalue⟩ := (decodeInteger_ok_iff h1 h8).mp h
  have hpos := hint.length_pos
  rw [List.length_append]
  omega

theorem decodeString_eq (wire : List UInt8) (outCap : Nat) :
    decodeString wire outCap
      = some ((Http2.decodeString wire outCap).map fun r => (r.1 ++ [0], r.2)) := by
  rw [decodeString, Http2.decodeString]
  by_cases h0 : outCap = 0 ∨ wire.length = 0
  · rw [if_pos h0, if_pos h0]
    rfl
  · rw [if_neg h0, if_neg h0, byte_of_lt (by omega)]
    simp only [Option.bind_eq_bind, Option.bind_some]
    by_cases hhuffman : byteAt wire 0 &&& 0x80 ≠ 0
    · rw [if_pos hhuffman, if_pos hhuffman]
      rfl
    · rw [if_neg hhuffman, if_neg hhuffman, decodeInteger_eq]
      simp only [Option.bind_some]
      rcases hint : Http2.decodeInteger wire 7 with ret | ⟨valueLen, prefixLen⟩
      · rfl
      · -- an integer takes at most six bytes, so the sum does not wrap
        obtain ⟨-, h6, -, hvalue⟩ := decodeInteger_bounds (by decide) (by decide) hint
        simp only
        rw [add_of_lt (by omega)]
        simp only [Option.bind_some]
        by_cases hlong : prefixLen + valueLen > wire.length
        · rw [if_pos hlong, if_pos hlong]
          rfl
        · rw [if_neg hlong, if_neg hlong]
          by_cases hcap : valueLen ≥ outCap
          · rw [if_pos hcap, if_pos hcap]
            rfl
          · have hlen : ((wire.drop prefixLen).take valueLen).length = valueLen := by
              rw [List.length_take, List.length_drop]
              omega
            rw [if_neg hcap, if_neg hcap, slice_of_le (by omega)]
            simp only [Option.bind_some]
            rw [write_of_le (by rw [hlen, List.length_nil]; omega)]
            simp only [Option.bind_some, List.nil_append]
            rw [write_of_le (by rw [hlen, List.length_singleton]; omega)]
            rfl

theorem skipStringCapped_eq (wire : List UInt8) (valueCap : Nat) :
    skipStringCapped wire valueCap = some (Http2.skipStringCapped wire valueCap) := by
  rw [skipStringCapped, Http2.skipStringCapped]
  by_cases h0 : wire.length = 0
  · rw [if_pos h0, if_pos h0]
    rfl
  · rw [if_neg h0, if_neg h0, decodeInteger_eq]
    simp only [Option.bind_eq_bind, Option.bind_some]
    rcases hint : Http2.decodeInteger wire 7 with ret | ⟨valueLen, prefixLen⟩
    · rfl
    · obtain ⟨-, h6, -, hvalue⟩ := decodeInteger_bounds (by decide) (by decide) hint
      simp only
      rw [add_of_lt (by omega)]
      simp only [Option.bind_some]
      split_ifs <;> rfl

/-! ## Header blocks -/

/-- `h2_hpack_decode_indexed_literal_name`, from `*pos` on: the name and the new `*pos`. -/
def decodeIndexedLiteralName (wire : List UInt8) (pos prefixBits nameCap : Nat) :
    Option (Except ErrorCode (List UInt8 × Nat)) := do
  let tail ← rest wire pos
  match ← decodeInteger tail prefixBits with
  | .error _ => pure (.error .compressionError)
  | .ok (nameIndex, used) =>
      if nameIndex = 0 then
        let tail ← rest wire (pos + used)
        match ← decodeString tail nameCap with
        | .error ret => pure (.error ret)
        | .ok (name, nameUsed) => pure (.ok (name, pos + used + nameUsed))
      else
        match ← staticGet nameIndex with
        | none => pure (.error .compressionError)
        | some entry =>
            match ← copyText nameCap (entry.name ++ [0]) with
            | .error ret => pure (.error ret)
            | .ok name => pure (.ok (name, pos + used))

/-- `h2_maybe_copy_path`. -/
def maybeCopyPath (name value path : List UInt8) (pathCap : Nat) :
    Option (ErrorCode × List UInt8) := do
  if ← strcmp name (ascii ":path" ++ [0]) then
    match ← copyText pathCap value with
    | .error ret => pure (ret, path)
    | .ok path => pure (.ok, path)
  else pure (.ok, path)

/-- The value part of one literal in `h2_hpack_extract_path`. -/
def extractPathValue (name wire : List UInt8) (pos : Nat) (path : List UInt8) (pathCap : Nat) :
    Option (ErrorCode × List UInt8 × Nat) := do
  if ← strcmp name (ascii ":path" ++ [0]) then
    let tail ← rest wire pos
    match ← decodeString tail headerValueCap with
    | .error ret => pure (ret, path, pos)
    | .ok (value, used) =>
        match ← copyText pathCap value with
        | .error ret => pure (ret, path, pos)
        | .ok path => pure (.ok, path, pos + used)
  else
    let tail ← rest wire pos
    match ← skipStringCapped tail headerValueCap with
    | .error ret => pure (ret, path, pos)
    | .ok used => pure (.ok, path, pos + used)

/-- The loop of `h2_hpack_extract_path`. -/
def extractPathLoop (wire : List UInt8) (pathCap : Nat) : (fuel pos : Nat) → (path : List UInt8) →
    Option (ErrorCode × List UInt8)
  | 0, _, _ => none
  | fuel + 1, pos, path =>
      if pos < wire.length then do
        let first ← read wire pos
        if first &&& 0x80 ≠ 0 then
          let tail ← rest wire pos
          match ← decodeInteger tail 7 with
          | .error _ => pure (.compressionError, path)
          | .ok (index, used) =>
              match ← staticGet index with
              | none => pure (.compressionError, path)
              | some entry =>
                  match ← maybeCopyPath (entry.name ++ [0]) (entry.value ++ [0]) path pathCap with
                  | (.ok, path) => extractPathLoop wire pathCap fuel (pos + used) path
                  | (ret, path) => pure (ret, path)
        else if first &&& 0xe0 = 0x20 then
          let tail ← rest wire pos
          match ← decodeInteger tail 5 with
          | .error _ => pure (.compressionError, path)
          | .ok (_, used) => extractPathLoop wire pathCap fuel (pos + used) path
        else
          match ← decodeIndexedLiteralName wire pos (literalPrefixBits first) headerNameCap with
          | .error ret => pure (ret, path)
          | .ok (name, namePos) =>
              match ← extractPathValue name wire namePos path pathCap with
              | (.ok, path, pos) => extractPathLoop wire pathCap fuel pos path
              | (ret, path, _) => pure (ret, path)
      else pure (.ok, path)

/-- `h2_hpack_extract_path`. -/
def extractPath (wire : List UInt8) (pathCap : Nat) : Option (ErrorCode × List UInt8) :=
  if pathCap = 0 then pure (.compressionError, [])
  else do
    let path ← write pathCap [] [0]
    match ← extractPathLoop wire pathCap (wire.length + 1) 0 path with
    | (.ok, path) =>
        let first ← read path 0
        if first = 0 then pure (.protocolError, path) else pure (.ok, path)
    | (ret, path) => pure (ret, path)

theorem decodeString_bounds {wire value : List UInt8} {cap used : Nat}
    (h : Http2.decodeString wire cap = .ok (value, used)) : used ≤ wire.length := by
  rw [Http2.decodeString] at h
  split_ifs at h
  rcases hint : Http2.decodeInteger wire 7 with ret | ⟨valueLen, prefixLen⟩
  · rw [hint] at h
    cases h
  · rw [hint] at h
    simp only at h
    split_ifs at h with hlong hcap
    obtain ⟨-, rfl⟩ := Prod.mk.inj (Except.ok.inj h)
    omega

theorem skipStringCapped_bounds {wire : List UInt8} {cap used : Nat}
    (h : Http2.skipStringCapped wire cap = .ok used) : used ≤ wire.length := by
  rw [Http2.skipStringCapped] at h
  split_ifs at h
  rcases hint : Http2.decodeInteger wire 7 with ret | ⟨valueLen, prefixLen⟩
  · rw [hint] at h
    cases h
  · rw [hint] at h
    simp only at h
    split_ifs at h with hlong hcap
    obtain rfl := Except.ok.inj h
    omega

theorem decodeIndexedLiteralName_bounds {wire name : List UInt8} {bits cap used : Nat}
    (h1 : 1 ≤ bits) (h8 : bits ≤ 8)
    (h : Http2.decodeIndexedLiteralName wire bits cap = .ok (name, used)) :
    1 ≤ used ∧ used ≤ wire.length := by
  rw [Http2.decodeIndexedLiteralName] at h
  rcases hint : Http2.decodeInteger wire bits with ret | ⟨nameIndex, intUsed⟩
  · rw [hint] at h
    cases h
  · obtain ⟨hone, -, hle, -⟩ := decodeInteger_bounds h1 h8 hint
    rw [hint] at h
    simp only at h
    split_ifs at h
    · -- a name that is spelled out
      rcases hstr : Http2.decodeString (wire.drop intUsed) cap with ret | ⟨text, nameUsed⟩
      · rw [hstr] at h
        cases h
      · have htext := decodeString_bounds hstr
        rw [List.length_drop] at htext
        rw [hstr] at h
        obtain ⟨-, rfl⟩ := Prod.mk.inj (Except.ok.inj h)
        omega
    · -- a name of the static table
      rcases hget : Http2.staticGet nameIndex with _ | entry
      · rw [hget] at h
        cases h
      · rw [hget] at h
        simp only at h
        rcases hcopy : Http2.copyText cap entry.name with ret | text
        · rw [hcopy] at h
          cases h
        · rw [hcopy] at h
          obtain ⟨-, rfl⟩ := Prod.mk.inj (Except.ok.inj h)
          exact ⟨hone, hle⟩

theorem literalPrefixBits_range (first : UInt8) :
    1 ≤ literalPrefixBits first ∧ literalPrefixBits first ≤ 8 := by
  rw [literalPrefixBits]
  split_ifs <;> omega

theorem decodeIndexedLiteralName_eq {wire : List UInt8} {pos bits : Nat} (hpos : pos ≤ wire.length)
    (h1 : 1 ≤ bits) (h8 : bits ≤ 8) (nameCap : Nat) :
    decodeIndexedLiteralName wire pos bits nameCap
      = some ((Http2.decodeIndexedLiteralName (wire.drop pos) bits nameCap).map
        fun r => (r.1 ++ [0], pos + r.2)) := by
  rw [decodeIndexedLiteralName, Http2.decodeIndexedLiteralName, rest_of_le hpos]
  simp only [Option.bind_eq_bind, Option.bind_some]
  rw [decodeInteger_eq]
  simp only [Option.bind_some]
  rcases hint : Http2.decodeInteger (wire.drop pos) bits with ret | ⟨nameIndex, used⟩
  · rfl
  · obtain ⟨-, -, hle, -⟩ := decodeInteger_bounds h1 h8 hint
    rw [List.length_drop] at hle
    simp only
    by_cases hzero : nameIndex = 0
    · rw [if_pos hzero, if_pos hzero, rest_of_le (by omega), List.drop_drop]
      simp only [Option.bind_some]
      rw [decodeString_eq]
      rcases Http2.decodeString (wire.drop (pos + used)) nameCap with ret | ⟨name, nameUsed⟩
      · rfl
      · show some (Except.ok (name ++ [0], pos + used + nameUsed)) = _
        rw [Nat.add_assoc]
        rfl
    · rw [if_neg hzero, if_neg hzero, staticGet_eq]
      simp only [Option.bind_some]
      rcases Http2.staticGet nameIndex with _ | entry
      · rfl
      · simp only
        rw [copyText_eq]
        rcases Http2.copyText nameCap entry.name with ret | name
        · rfl
        · rfl

/-! ## The path -/

theorem maybeCopyPath_eq (name value path : List UInt8) (pathCap : Nat) :
    maybeCopyPath (name ++ [0]) (value ++ [0]) (path ++ [0]) pathCap
      = some ((Http2.maybeCopyPath name value path pathCap).1,
        (Http2.maybeCopyPath name value path pathCap).2 ++ [0]) := by
  have hpath : cstr (ascii ":path") = ascii ":path" := by decide
  rw [maybeCopyPath, Http2.maybeCopyPath, strcmp_terminated, hpath]
  simp only [Option.bind_eq_bind, Option.bind_some, decide_eq_true_eq]
  by_cases hname : cstr name = ascii ":path"
  · rw [if_pos hname, if_pos hname, copyText_eq]
    rcases Http2.copyText pathCap value with ret | text
    · rfl
    · rfl
  · rw [if_neg hname, if_neg hname]
    rfl

theorem extractPathValue_eq {wire : List UInt8} {pos : Nat} (hpos : pos ≤ wire.length)
    (name path : List UInt8) (pathCap : Nat) {ret : ErrorCode} {path' : List UInt8} {used : Nat}
    (h : Http2.extractPathValue name (wire.drop pos) path pathCap = (ret, path', used)) :
    extractPathValue (name ++ [0]) wire pos (path ++ [0]) pathCap
        = some (ret, path' ++ [0], pos + used)
      ∧ pos + used ≤ wire.length := by
  have hpath : cstr (ascii ":path") = ascii ":path" := by decide
  rw [Http2.extractPathValue] at h
  rw [extractPathValue, strcmp_terminated, hpath, rest_of_le hpos]
  simp only [Option.bind_eq_bind, Option.bind_some, decide_eq_true_eq]
  -- the value is read into the buffer of the caller, or skipped
  by_cases hname : cstr name = ascii ":path"
  · rw [if_pos hname] at h ⊢
    rw [decodeString_eq]
    rcases hstr : Http2.decodeString (wire.drop pos) headerValueCap with err | ⟨value, len⟩
    · rw [hstr] at h
      cases h
      exact ⟨rfl, hpos⟩
    · have hlen := decodeString_bounds hstr
      rw [List.length_drop] at hlen
      rw [hstr] at h
      simp only [Option.bind_some, Except.map] at h ⊢
      rw [copyText_eq]
      rcases hcopy : Http2.copyText pathCap value with err | text
      · rw [hcopy] at h
        cases h
        exact ⟨rfl, hpos⟩
      · rw [hcopy] at h
        cases h
        exact ⟨rfl, by omega⟩
  · rw [if_neg hname] at h ⊢
    rw [skipStringCapped_eq]
    rcases hskip : Http2.skipStringCapped (wire.drop pos) headerValueCap with err | len
    · rw [hskip] at h
      cases h
      exact ⟨rfl, hpos⟩
    · have hlen := skipStringCapped_bounds hskip
      rw [List.length_drop] at hlen
      rw [hskip] at h
      cases h
      exact ⟨rfl, by omega⟩

/-- **The loop stays in the block**: each iteration ends behind where it started, and inside. -/
theorem extractPathLoop_eq {wire : List UInt8} {fuel pos : Nat} (hfuel : wire.length ≤ fuel + pos)
    (hpos : pos ≤ wire.length) (path : List UInt8) (pathCap : Nat) :
    extractPathLoop wire pathCap (fuel + 1) pos (path ++ [0])
      = some ((Http2.extractPathLoop fuel (wire.drop pos) path pathCap).1,
        (Http2.extractPathLoop fuel (wire.drop pos) path pathCap).2 ++ [0]) := by
  -- on the bytes left: every iteration reads at least one
  induction fuel generalizing pos path with
  | zero =>
      rw [extractPathLoop, if_neg (by omega), Http2.extractPathLoop]
      rfl
  | succ fuel ih =>
      rw [extractPathLoop]
      by_cases hmore : pos < wire.length
      · have hdrop : wire.drop pos = wire[pos] :: wire.drop (pos + 1) :=
          List.drop_eq_getElem_cons hmore
        rw [if_pos hmore, read_of_lt hmore, rest_of_le hpos]
        simp only [Option.bind_eq_bind, Option.bind_some]
        -- an integer is read from the octets that are left
        have hint : ∀ {bits value used : Nat}, 1 ≤ bits → bits ≤ 8 →
            Http2.decodeInteger (wire.drop pos) bits = .ok (value, used) →
            1 ≤ used ∧ pos + used ≤ wire.length := by
          intro bits value used h1 h8 h
          obtain ⟨hone, -, hle, -⟩ := decodeInteger_bounds h1 h8 h
          rw [List.length_drop] at hle
          omega
        have hloop : Http2.extractPathLoop (fuel + 1) (wire.drop pos) path pathCap
            = Http2.extractPathLoop (fuel + 1) (wire[pos] :: wire.drop (pos + 1)) path pathCap := by
          rw [hdrop]
        rw [hloop, Http2.extractPathLoop, ← hdrop]
        generalize wire[pos] = first
        by_cases hindexed : first &&& 0x80 ≠ 0
        · rw [if_pos hindexed, if_pos hindexed, decodeInteger_eq]
          rcases hres : Http2.decodeInteger (wire.drop pos) 7 with ret | ⟨index, used⟩
          · rfl
          · obtain ⟨hone, hle⟩ := hint (by decide) (by decide) hres
            simp only [Option.bind_some]
            rw [staticGet_eq]
            rcases Http2.staticGet index with _ | entry
            · rfl
            · simp only [Option.bind_some]
              rw [maybeCopyPath_eq]
              rcases Http2.maybeCopyPath entry.name entry.value path pathCap with ⟨ret, path'⟩
              cases ret <;> try rfl
              simp only [Option.bind_some]
              rw [ih (by omega) hle, List.drop_drop]
        · rw [if_neg hindexed, if_neg hindexed]
          by_cases hupdate : first &&& 0xe0 = 0x20
          · rw [if_pos hupdate, if_pos hupdate, decodeInteger_eq]
            rcases hres : Http2.decodeInteger (wire.drop pos) 5 with ret | ⟨index, used⟩
            · rfl
            · obtain ⟨hone, hle⟩ := hint (by decide) (by decide) hres
              simp only [Option.bind_some]
              rw [ih (by omega) hle, List.drop_drop]
          · -- a literal: a name, then a value behind it
            obtain ⟨h1, h8⟩ := literalPrefixBits_range first
            rw [if_neg hupdate, if_neg hupdate, decodeIndexedLiteralName_eq hpos h1 h8]
            rcases hname : Http2.decodeIndexedLiteralName (wire.drop pos) (literalPrefixBits first)
              headerNameCap with ret | ⟨name, nameUsed⟩
            · rfl
            · obtain ⟨hone, hle⟩ := decodeIndexedLiteralName_bounds h1 h8 hname
              rw [List.length_drop] at hle
              simp only [Option.bind_some, Except.map]
              rw [List.drop_drop]
              rcases hvalue : Http2.extractPathValue name (wire.drop (pos + nameUsed)) path pathCap
                with ⟨ret, path', used⟩
              obtain ⟨heq, hin⟩ := extractPathValue_eq (by omega) name path pathCap hvalue
              rw [heq]
              cases ret <;> try rfl
              simp only [Option.bind_some]
              rw [ih (by omega) hin, List.drop_drop, Nat.add_assoc]
      · have hnil : wire.drop pos = [] := List.drop_of_length_le (by omega)
        rw [if_neg hmore, hnil, Http2.extractPathLoop]
        rfl

/-- **The path of a stream** is extracted without a failing check. -/
theorem extractPath_eq (wire : List UInt8) :
    extractPath wire streamPathCap
      = some ((Http2.extractPath wire streamPathCap).1,
        (Http2.extractPath wire streamPathCap).2 ++ [0]) := by
  have hne : ¬ streamPathCap = 0 := by decide
  rw [extractPath, Http2.extractPath, if_neg hne, if_neg hne, write_of_le (by decide)]
  simp only [Option.bind_eq_bind, Option.bind_some]
  have hloop := @extractPathLoop_eq wire wire.length 0 (by omega) (Nat.zero_le _) [] streamPathCap
  have htext := extractPathLoop_pathText wire.length wire PathText.nil
  rw [List.drop_zero] at hloop
  rw [hloop]
  rcases hres : Http2.extractPathLoop wire.length wire [] streamPathCap with ⟨ret, path⟩
  rw [hres] at htext
  cases ret <;> try rfl
  simp only [Option.bind_some]
  cases path with
  | nil => rfl
  | cons b bs =>
      -- a text has no zero before its end
      have hb : b ≠ 0 := fun hb => htext.2 (hb ▸ List.mem_cons_self ..)
      rw [List.cons_append, read_cons_zero]
      simp only [Option.bind_some]
      rw [if_neg hb, if_neg (List.cons_ne_nil b bs)]
      rfl

/-! ## Header lists -/

/-- The loop of `h2_hpack_decode_headers`; `count` is the number of fields written. -/
def decodeHeadersLoop (wire : List UInt8) (fieldCap : Nat) :
    (fuel pos : Nat) → (fields : List HeaderField) → Option (Except ErrorCode (List HeaderField))
  | 0, _, _ => none
  | fuel + 1, pos, fields =>
      if pos < wire.length then
        if fields.length ≥ fieldCap then pure (.error .refusedStream)
        else do
          let first ← read wire pos
          if first &&& 0x80 ≠ 0 then
            let tail ← rest wire pos
            match ← decodeInteger tail 7 with
            | .error _ => pure (.error .compressionError)
            | .ok (index, used) =>
                match ← staticGet index with
                | none => pure (.error .compressionError)
                | some entry =>
                    match ← copyText headerNameCap (entry.name ++ [0]) with
                    | .error _ => pure (.error .refusedStream)
                    | .ok name =>
                        match ← copyText headerValueCap (entry.value ++ [0]) with
                        | .error _ => pure (.error .refusedStream)
                        | .ok value =>
                            let fields ← write fieldCap fields [{ name := name, value := value }]
                            decodeHeadersLoop wire fieldCap fuel (pos + used) fields
          else if first &&& 0xe0 = 0x20 then
            let tail ← rest wire pos
            match ← decodeInteger tail 5 with
            | .error _ => pure (.error .compressionError)
            | .ok (_, used) => decodeHeadersLoop wire fieldCap fuel (pos + used) fields
          else
            match ← decodeIndexedLiteralName wire pos (literalPrefixBits first) headerNameCap with
            | .error ret => pure (.error ret)
            | .ok (name, namePos) =>
                let tail ← rest wire namePos
                match ← decodeString tail headerValueCap with
                | .error ret => pure (.error ret)
                | .ok (value, used) =>
                    let fields ← write fieldCap fields [{ name := name, value := value }]
                    decodeHeadersLoop wire fieldCap fuel (namePos + used) fields
      else pure (.ok fields)

/-- `h2_hpack_decode_headers`. -/
def decodeHeaders (wire : List UInt8) (fieldCap : Nat) :
    Option (Except ErrorCode (List HeaderField)) :=
  decodeHeadersLoop wire fieldCap (wire.length + 1) 0 []

/-- The two arrays of a field, with their terminating zeros. -/
def terminated (field : HeaderField) : HeaderField :=
  { name := field.name ++ [0], value := field.value ++ [0] }

/-- What the fields of the rest of the block are after one more field. -/
theorem map_terminated (fields : List HeaderField) (field : HeaderField)
    (result : Except ErrorCode (List HeaderField)) :
    (result.map (field :: ·)).map (fun tail => fields ++ tail.map terminated)
      = result.map fun tail => fields ++ [terminated field] ++ tail.map terminated := by
  cases result with
  | error ret => rfl
  | ok tail =>
      show Except.ok (fields ++ (field :: tail).map terminated) = _
      rw [List.map_cons, List.append_cons]
      rfl

/-- **The loop over a header list** stays in the block and in the array of fields. -/
theorem decodeHeadersLoop_eq {wire : List UInt8} {fieldCap fuel pos : Nat}
    (hfuel : wire.length ≤ fuel + pos) (hpos : pos ≤ wire.length) {fields : List HeaderField}
    (hfields : fields.length ≤ fieldCap) :
    decodeHeadersLoop wire fieldCap (fuel + 1) pos fields
      = some ((Http2.decodeHeadersLoop fuel (wire.drop pos) (fieldCap - fields.length)).map
        fun tail => fields ++ tail.map terminated) := by
  induction fuel generalizing pos fields with
  | zero =>
      rw [decodeHeadersLoop, if_neg (by omega), Http2.decodeHeadersLoop]
      show _ = some (Except.ok (fields ++ []))
      rw [List.append_nil]
      rfl
  | succ fuel ih =>
      rw [decodeHeadersLoop]
      by_cases hmore : pos < wire.length
      · have hdrop : wire.drop pos = wire[pos] :: wire.drop (pos + 1) :=
          List.drop_eq_getElem_cons hmore
        have hloop : Http2.decodeHeadersLoop (fuel + 1) (wire.drop pos) (fieldCap - fields.length)
            = Http2.decodeHeadersLoop (fuel + 1) (wire[pos] :: wire.drop (pos + 1))
              (fieldCap - fields.length) := by
          rw [hdrop]
        rw [if_pos hmore, hloop, Http2.decodeHeadersLoop, ← hdrop]
        -- the room is tested before the byte is read
        by_cases hfull : fields.length ≥ fieldCap
        · rw [if_pos hfull, if_pos (by omega)]
          rfl
        · have hroom : ¬ fieldCap - fields.length = 0 := by omega
          -- so that a field can be written, and the room of the rest is one less
          have hnext : ∀ field : HeaderField, (fields ++ [field]).length ≤ fieldCap
              ∧ fieldCap - (fields ++ [field]).length = fieldCap - fields.length - 1 := by
            intro field
            rw [List.length_append, List.length_singleton]
            omega
          rw [if_neg hfull, if_neg hroom, read_of_lt hmore, rest_of_le hpos]
          simp only [Option.bind_eq_bind, Option.bind_some]
          generalize wire[pos] = first
          by_cases hindexed : first &&& 0x80 ≠ 0
          · rw [if_pos hindexed, if_pos hindexed, decodeInteger_eq]
            rcases hres : Http2.decodeInteger (wire.drop pos) 7 with ret | ⟨index, used⟩
            · rfl
            · obtain ⟨hone, -, hle, -⟩ := decodeInteger_bounds (by decide) (by decide) hres
              rw [List.length_drop] at hle
              simp only [Option.bind_some]
              rw [staticGet_eq]
              rcases Http2.staticGet index with _ | entry
              · rfl
              · simp only [Option.bind_some]
                rw [copyText_eq, copyText_eq]
                rcases Http2.copyText headerNameCap entry.name with ret | name
                · rfl
                · rcases Http2.copyText headerValueCap entry.value with ret | value
                  · rfl
                  · simp only [Option.bind_some, Except.map]
                    rw [write_of_le (by rw [List.length_singleton]; omega)]
                    simp only [Option.bind_some]
                    obtain ⟨hin, hleft⟩ := hnext { name := name ++ [0], value := value ++ [0] }
                    rw [ih (by omega) (by omega) hin, hleft, List.drop_drop]
                    exact congrArg some (map_terminated fields ⟨name, value⟩ _).symm
          · rw [if_neg hindexed, if_neg hindexed]
            by_cases hupdate : first &&& 0xe0 = 0x20
            · rw [if_pos hupdate, if_pos hupdate, decodeInteger_eq]
              rcases hres : Http2.decodeInteger (wire.drop pos) 5 with ret | ⟨index, used⟩
              · rfl
              · obtain ⟨hone, -, hle, -⟩ := decodeInteger_bounds (by decide) (by decide) hres
                rw [List.length_drop] at hle
                simp only [Option.bind_some]
                rw [ih (by omega) (by omega) hfields, List.drop_drop]
            · obtain ⟨h1, h8⟩ := literalPrefixBits_range first
              rw [if_neg hupdate, if_neg hupdate, decodeIndexedLiteralName_eq hpos h1 h8]
              rcases hname : Http2.decodeIndexedLiteralName (wire.drop pos)
                (literalPrefixBits first) headerNameCap with ret | ⟨name, nameUsed⟩
              · rfl
              · obtain ⟨hone, hle⟩ := decodeIndexedLiteralName_bounds h1 h8 hname
                rw [List.length_drop] at hle
                simp only [Option.bind_some, Except.map]
                rw [rest_of_le (by omega)]
                simp only [Option.bind_some]
                rw [decodeString_eq, List.drop_drop]
                rcases hvalue : Http2.decodeString (wire.drop (pos + nameUsed)) headerValueCap
                  with ret | ⟨value, used⟩
                · rfl
                · have hin := decodeString_bounds hvalue
                  rw [List.length_drop] at hin
                  simp only [Option.bind_some, Except.map]
                  rw [write_of_le (by rw [List.length_singleton]; omega)]
                  simp only [Option.bind_some]
                  obtain ⟨hin', hleft⟩ := hnext { name := name ++ [0], value := value ++ [0] }
                  rw [ih (by omega) (by omega) hin', hleft, List.drop_drop, Nat.add_assoc]
                  exact congrArg some (map_terminated fields ⟨name, value⟩ _).symm
      · have hnil : wire.drop pos = [] := List.drop_of_length_le (by omega)
        rw [if_neg hmore, hnil, Http2.decodeHeadersLoop]
        show _ = some (Except.ok (fields ++ []))
        rw [List.append_nil]
        rfl

theorem decodeHeaders_eq (wire : List UInt8) (fieldCap : Nat) :
    decodeHeaders wire fieldCap
      = some ((Http2.decodeHeaders wire fieldCap).map (·.map terminated)) := by
  have hloop := @decodeHeadersLoop_eq wire fieldCap wire.length 0 (by omega) (Nat.zero_le _) []
    (Nat.zero_le _)
  rw [List.drop_zero] at hloop
  exact hloop

/-! ## Encoding -/

/-- The loop of `h2_hpack_encode_integer` and the write behind it; `pos` is the length of what has
been written. -/
def encodeIntegerLoop (cap : Nat) : (fuel : Nat) → (wire : List UInt8) → (value : Nat) →
    Option (Option (List UInt8))
  | 0, _, _ => none
  | fuel + 1, wire, value =>
      if value ≥ 128 then
        if wire.length ≥ cap then pure none
        else do
          let wire ← write cap wire [UInt8.ofNat (value &&& 0x7f ||| 0x80)]
          let value ← shr 32 value 7
          encodeIntegerLoop cap fuel wire value
      else if wire.length ≥ cap then pure none
      else do
        let wire ← write cap wire [UInt8.ofNat value]
        pure (some wire)

/-- `h2_hpack_encode_integer`. -/
def encodeInteger (cap prefixBits highBits value : Nat) : Option (Option (List UInt8)) :=
  if cap = 0 ∨ prefixBits = 0 ∨ prefixBits > 8 then pure none
  else do
    let power ← shl 32 1 prefixBits
    let prefixMax ← sub power 1
    if value < prefixMax then
      let wire ← write cap [] [UInt8.ofNat (highBits ||| value)]
      pure (some wire)
    else
      let wire ← write cap [] [UInt8.ofNat (highBits ||| prefixMax)]
      let value ← sub value prefixMax
      encodeIntegerLoop cap cap wire value

/-- `h2_hpack_encode_indexed`. -/
def encodeIndexed (cap staticIndex : Nat) : Option (Option (List UInt8)) := do
  match ← staticGet staticIndex with
  | none => pure none
  | some _ => encodeInteger cap 7 0x80 staticIndex

/-- `h2_hpack_encode_string`. -/
def encodeString (cap : Nat) (text : List UInt8) : Option (Option (List UInt8)) := do
  let textLen ← strlen text
  if textLen > 0xffffffff then pure none
  else
    match ← encodeInteger cap 7 0x00 textLen with
    | none => pure none
    | some lenPrefix =>
        let total ← add 64 lenPrefix.length textLen
        if total > cap then pure none
        else
          let bytes ← slice text 0 textLen
          let wire ← write cap lenPrefix bytes
          pure (some wire)

/-- `h2_hpack_encode_literal_new_name`. -/
def encodeLiteralNewName (cap : Nat) (name value : List UInt8) : Option (Option (List UInt8)) :=
  if cap = 0 then pure none
  else do
    let wire ← write cap [] [0x00]
    let room ← sub cap wire.length
    match ← encodeString room name with
    | none => pure none
    | some nameBytes =>
        let wire ← write cap wire nameBytes
        let room ← sub cap wire.length
        match ← encodeString room value with
        | none => pure none
        | some valueBytes =>
            let wire ← write cap wire valueBytes
            pure (some wire)

theorem encodeIntegerLoop_eq {cap fuel : Nat} {wire : List UInt8}
    (hfuel : cap < fuel + wire.length) (hwire : wire.length ≤ cap) (value : Nat) :
    encodeIntegerLoop cap fuel wire value
      = some ((encodeIntegerDigits (cap - wire.length) value).map (wire ++ ·)) := by
  induction fuel generalizing wire value with
  | zero => omega
  | succ fuel ih =>
      rw [encodeIntegerLoop]
      by_cases hfull : wire.length ≥ cap
      · have hroom : cap - wire.length = 0 := by omega
        rw [if_pos hfull, if_pos hfull, ite_self, hroom]
        rfl
      · obtain ⟨room, hroom⟩ : ∃ room, cap - wire.length = room + 1 :=
          ⟨cap - wire.length - 1, by omega⟩
        -- each digit is written after the test of `len >= cap`
        have hone : ∀ b : UInt8, wire.length + [b].length ≤ cap := by
          intro b
          rw [List.length_singleton]
          omega
        rw [if_neg hfull, if_neg hfull, hroom, encodeIntegerDigits]
        simp only [Option.bind_eq_bind]
        by_cases hhigh : value ≥ 128
        · rw [if_pos hhigh, if_pos hhigh, write_of_le (hone _)]
          simp only [Option.bind_some]
          rw [shr_of_lt (by decide)]
          simp only [Option.bind_some]
          have hnext : ∀ b : UInt8, cap - (wire ++ [b]).length = room := by
            intro b
            rw [List.length_append, List.length_singleton]
            omega
          rw [ih (by rw [List.length_append, List.length_singleton]; omega)
            (by rw [List.length_append]; exact hone _), hnext]
          rcases encodeIntegerDigits room (value >>> 7) with _ | octets
          · rfl
          · simp
        · rw [if_neg hhigh, if_neg hhigh, write_of_le (hone _)]
          rfl

theorem encodeInteger_checked (cap prefixBits highBits value : Nat) :
    encodeInteger cap prefixBits highBits value
      = some (Http2.encodeInteger cap prefixBits highBits value) := by
  rw [encodeInteger, Http2.encodeInteger]
  by_cases h0 : cap = 0 ∨ prefixBits = 0 ∨ prefixBits > 8
  · rw [if_pos h0, if_pos h0]
    rfl
  · obtain ⟨-, hpower, hone⟩ := @prefixMax_eq prefixBits (by omega)
    have hroom : ∀ b : UInt8, ([] : List UInt8).length + [b].length ≤ cap := by
      intro b
      rw [List.length_singleton, List.length_nil]
      omega
    rw [if_neg h0, if_neg h0, shl_of_lt (by omega) hpower]
    simp only [Option.bind_eq_bind, Option.bind_some]
    rw [sub_of_le hone]
    simp only [Option.bind_some]
    by_cases hshort : value < 1 <<< prefixBits - 1
    · rw [if_pos hshort, if_pos hshort, write_of_le (hroom _)]
      rfl
    · rw [if_neg hshort, if_neg hshort, write_of_le (hroom _)]
      simp only [Option.bind_some, List.nil_append]
      rw [sub_of_le (by omega)]
      simp only [Option.bind_some]
      rw [encodeIntegerLoop_eq (by rw [List.length_singleton]; omega)
        (by rw [List.length_singleton]; omega)]
      rfl

theorem encodeIndexed_eq (cap staticIndex : Nat) :
    encodeIndexed cap staticIndex = some (Http2.encodeIndexed cap staticIndex) := by
  rw [encodeIndexed, Http2.encodeIndexed, staticGet_eq]
  simp only [Option.bind_eq_bind, Option.bind_some]
  rcases Http2.staticGet staticIndex with _ | entry
  · rfl
  · exact encodeInteger_checked cap 7 0x80 staticIndex

theorem encodeString_checked (cap : Nat) (text : List UInt8) :
    encodeString cap (text ++ [0]) = some (Http2.encodeString cap text) := by
  rw [encodeString, Http2.encodeString, strlen_terminated]
  simp only [Option.bind_eq_bind, Option.bind_some]
  by_cases hlong : (cstr text).length > 0xffffffff
  · rw [if_pos hlong, if_pos hlong]
    rfl
  · have hint := @encodeInteger_eq 7 0x00 (by decide) (by decide) (by decide) cap
      (cstr text).length
    have h6 := @encodePrefix_length_le 7 0x00 (cstr text).length (by omega)
    rw [if_neg hlong, if_neg hlong, encodeInteger_checked]
    simp only [Option.bind_some]
    rcases hres : Http2.encodeInteger cap 7 0x00 (cstr text).length with _ | octets
    · rfl
    · rw [hres] at hint
      split_ifs at hint
      obtain rfl := Option.some.inj hint
      simp only
      rw [add_of_lt (by omega)]
      simp only [Option.bind_some]
      by_cases hbig : (encodePrefix 7 0x00 (cstr text).length).length + (cstr text).length > cap
      · rw [if_pos hbig, if_pos hbig]
        rfl
      · -- what is copied is the text up to its terminator
        obtain ⟨tail, hsplit⟩ := terminated_split text
        have htake : ((text ++ [0]).drop 0).take (cstr text).length = cstr text := by
          rw [List.drop_zero, hsplit, List.take_left]
        rw [if_neg hbig, if_neg hbig, slice_of_le (by rw [hsplit, List.length_append]; omega), htake]
        simp only [Option.bind_some]
        rw [write_of_le (by omega)]
        rfl

theorem encodeString_length {cap : Nat} {text bytes : List UInt8}
    (h : Http2.encodeString cap text = some bytes) : bytes.length ≤ cap := by
  rw [Http2.encodeString] at h
  split_ifs at h
  rcases hint : Http2.encodeInteger cap 7 0x00 (cstr text).length with _ | octets
  · rw [hint] at h
    cases h
  · rw [hint] at h
    simp only at h
    split_ifs at h with hbig
    obtain rfl := Option.some.inj h
    rw [List.length_append]
    omega

theorem encodeLiteralNewName_eq (cap : Nat) (name value : List UInt8) :
    encodeLiteralNewName cap (name ++ [0]) (value ++ [0])
      = some (Http2.encodeLiteralNewName cap name value) := by
  rw [encodeLiteralNewName, Http2.encodeLiteralNewName]
  by_cases h0 : cap = 0
  · rw [if_pos h0, if_pos h0]
    rfl
  · rw [if_neg h0, if_neg h0, write_of_le (by rw [List.length_nil, List.length_singleton]; omega)]
    simp only [Option.bind_eq_bind, Option.bind_some, List.nil_append, List.length_singleton]
    rw [sub_of_le (by omega)]
    simp only [Option.bind_some]
    rw [encodeString_checked]
    simp only [Option.bind_some]
    rcases hname : Http2.encodeString (cap - 1) name with _ | nameBytes
    · rfl
    · have hlen := encodeString_length hname
      simp only
      rw [write_of_le (by rw [List.length_singleton]; omega)]
      simp only [Option.bind_some, List.length_append, List.length_singleton]
      rw [sub_of_le (by omega)]
      simp only [Option.bind_some]
      rw [encodeString_checked]
      simp only [Option.bind_some]
      rcases hvalue : Http2.encodeString (cap - (1 + nameBytes.length)) value with _ | valueBytes
      · rfl
      · have hlen' := encodeString_length hvalue
        simp only
        rw [write_of_le (by rw [List.length_append, List.length_singleton]; omega)]
        rfl

end C11Omo.Http2.Checked
