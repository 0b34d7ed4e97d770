import C11Omo.Http2.HeaderGrammar
import C11Omo.Http2.HeaderLists

set_option autoImplicit false

/-! # The path of a request

The server takes the path out of a header block with `h2_hpack_extract_path`, a second copy of the
loop of `h2_hpack_decode_headers` that decodes the values of `:path` fields only. Where the full
decoder accepts a block, the two agree (`decoders_agree`).

What a block says is defined apart from both, by the grammar of header blocks (`Block`). The
decoder compares and copies C strings, so a field counts as `:path` when its name is `:path` up to
its first zero byte, and its value is cut at its first zero byte: the extracted path is the one
that was transmitted exactly if the last such field has no zero byte in either
(`extracted_path_exact`).
-/

namespace C11Omo.Http2

open C11Omo.Lib

/-- The text `:path`. -/
abbrev pathName : List UInt8 := ascii ":path"

/-! ## The two decoders -/

/-- The path buffer after one more field, as the C strings are compared and copied. -/
def takePath (path : List UInt8) (f : HeaderField) : List UInt8 :=
  if cstr f.name = pathName then cstr f.value else path

/-- The last field named `:path`, as C strings. -/
def takenField (fields : List HeaderField) : Option HeaderField :=
  (fields.filter fun f => cstr f.name = pathName).getLast?

/-- The value of the last field named `:path`, as C strings. -/
def lastPath (fields : List HeaderField) : Option (List UInt8) :=
  (takenField fields).map fun f => cstr f.value

theorem lastPath_concat (fields : List HeaderField) (f : HeaderField) :
    lastPath (fields ++ [f])
      = if cstr f.name = pathName then some (cstr f.value) else lastPath fields := by
  unfold lastPath takenField
  by_cases hname : cstr f.name = pathName
  · simp [List.filter_append, hname]
  · simp [List.filter_append, hname]

theorem copyText_ok {cap : Nat} {src text : List UInt8} (h : copyText cap src = .ok text) :
    text = cstr src := by
  rw [copyText] at h
  split_ifs at h
  exact (Except.ok.inj h).symm

theorem copyText_fits {cap : Nat} {src : List UInt8} (hlen : src.length < cap) :
    copyText cap src = .ok (cstr src) := by
  have hle := cstr_length_le src
  rw [copyText, if_neg (by omega), if_neg (by omega)]

theorem decodeString_ok {wire value : List UInt8} {cap used : Nat}
    (h : decodeString wire cap = .ok (value, used)) :
    value.length < cap ∧ skipStringCapped wire cap = .ok used := by
  rw [decodeString] at h
  rw [skipStringCapped]
  split_ifs at h with h0 hplain
  rw [if_neg (not_or.mp h0).2]
  rcases hint : decodeInteger wire 7 with ret | ⟨valueLen, prefixLen⟩
  · simp only [hint] at h
    cases h
  · simp only [hint] at h ⊢
    split_ifs at h with hend hcap
    obtain ⟨rfl, rfl⟩ := Prod.mk.inj (Except.ok.inj h)
    rw [if_neg hend, if_neg hcap]
    refine ⟨?_, rfl⟩
    rw [List.length_take, List.length_drop]
    omega

theorem maybeCopyPath_fits {name value path : List UInt8} {pathCap : Nat}
    (hlen : value.length < pathCap) : maybeCopyPath name value path pathCap
      = (.ok, takePath path { name := name, value := value }) := by
  rw [maybeCopyPath, takePath]
  split
  · rw [copyText_fits hlen]
  · rfl

theorem extractPathValue_ok {name wire path value : List UInt8} {pathCap used : Nat}
    (hcap : headerValueCap ≤ pathCap) (h : decodeString wire headerValueCap = .ok (value, used)) :
    extractPathValue name wire path pathCap
      = (.ok, takePath path { name := name, value := value }, used) := by
  obtain ⟨hlen, hskip⟩ := decodeString_ok h
  rw [extractPathValue, takePath]
  split
  · rw [h]
    simp only
    rw [copyText_fits (by omega)]
  · rw [hskip]

/-- **The two loops stay in step** as long as the full decoder accepts what it reads. -/
theorem extractPathLoop_of_decodeHeadersLoop {pathCap : Nat} (hcap : headerValueCap ≤ pathCap)
    {fuel fieldCap : Nat} {wire : List UInt8} {fields : List HeaderField}
    (h : decodeHeadersLoop fuel wire fieldCap = .ok fields) (path : List UInt8) :
    extractPathLoop fuel wire path pathCap = (.ok, fields.foldl takePath path) := by
  induction fuel generalizing wire fieldCap fields path with
  | zero =>
      obtain rfl : [] = fields := Except.ok.inj h
      rfl
  | succ fuel ih =>
      -- the rest of the block behind a field
      have hrest : ∀ {rest : List UInt8} {f : HeaderField},
          (decodeHeadersLoop fuel rest (fieldCap - 1)).map (f :: ·) = .ok fields →
          extractPathLoop fuel rest (takePath path f) pathCap = (.ok, fields.foldl takePath path) := by
        intro rest f hmap
        rcases hloop : decodeHeadersLoop fuel rest (fieldCap - 1) with ret | tail
        · rw [hloop] at hmap
          cases hmap
        · rw [hloop] at hmap
          obtain rfl : f :: tail = fields := Except.ok.inj hmap
          exact ih hloop (takePath path f)
      rcases wire with _ | ⟨first, tail⟩
      · obtain rfl : [] = fields := Except.ok.inj h
        rfl
      · rw [decodeHeadersLoop] at h
        rw [extractPathLoop]
        by_cases hfull : fieldCap = 0
        · rw [if_pos hfull] at h
          cases h
        · rw [if_neg hfull] at h
          by_cases hindexed : first &&& 0x80 ≠ 0
          · rw [if_pos hindexed] at h ⊢
            rcases hint : decodeInteger (first :: tail) 7 with ret | ⟨index, used⟩
            · simp only [hint] at h
              cases h
            · simp only [hint] at h ⊢
              rcases hentry : staticGet index with _ | entry
              · simp only [hentry] at h
                cases h
              · obtain ⟨hname, hvalue⟩ := staticTable_text entry (staticGet_mem hentry)
                simp only [hentry, copyText_text hname.1 hname.2, copyText_text hvalue.1 hvalue.2]
                  at h ⊢
                rw [maybeCopyPath_fits (hvalue.2.trans_le hcap)]
                exact hrest h
          · rw [if_neg hindexed] at h ⊢
            -- a size update is skipped by both
            by_cases hsize : first &&& 0xe0 = 0x20
            · rw [if_pos hsize] at h ⊢
              rcases hint : decodeInteger (first :: tail) 5 with ret | ⟨size, used⟩
              · simp only [hint] at h
                cases h
              · simp only [hint] at h ⊢
                exact ih h path
            · rw [if_neg hsize] at h ⊢
              rcases hname : decodeIndexedLiteralName (first :: tail) (literalPrefixBits first)
                headerNameCap with ret | ⟨name, nameUsed⟩
              · simp only [hname] at h
                cases h
              · simp only [hname] at h ⊢
                rcases hvalue : decodeString ((first :: tail).drop nameUsed) headerValueCap
                  with ret | ⟨value, used⟩
                · simp only [hvalue] at h
                  cases h
                · simp only [hvalue] at h
                  rw [extractPathValue_ok hcap hvalue]
                  exact hrest h

theorem foldl_takePath (fields : List HeaderField) (path : List UInt8) :
    fields.foldl takePath path = (lastPath fields).getD path := by
  induction fields using List.reverseRecOn with
  | nil => rfl
  | append_singleton fields f ih =>
      rw [List.foldl_append, ih, lastPath_concat, List.foldl_cons, List.foldl_nil, takePath]
      split <;> rfl

/-- **The two decoders agree**: on a block that the full decoder accepts, the path is the value of
the last field named `:path`, as C strings, and there is a protocol error if there is none or it is
empty; so there is no other error. -/
theorem decoders_agree {wire : List UInt8} {fieldCap pathCap : Nat} {fields : List HeaderField}
    (hcap : 256 ≤ pathCap) (h : decodeHeaders wire fieldCap = .ok fields) :
    (extractPath wire pathCap
      = match lastPath fields with
        | some path => if path = [] then (.protocolError, []) else (.ok, path)
        | none => (.protocolError, []))
    ∧ ((extractPath wire pathCap).1 = .ok ∨ (extractPath wire pathCap).1 = .protocolError) := by
  have hloop := extractPathLoop_of_decodeHeadersLoop hcap h []
  rw [extractPath, if_neg (by omega), hloop, foldl_takePath]
  rcases lastPath fields with _ | path
  · exact ⟨rfl, Or.inr rfl⟩
  · simp only [Option.getD_some]
    by_cases hnil : path = []
    · rw [if_pos hnil, if_pos hnil, hnil]
      exact ⟨rfl, Or.inr rfl⟩
    · rw [if_neg hnil, if_neg hnil]
      exact ⟨rfl, Or.inl rfl⟩

/-- An indexed path, a literal one behind it and a field with another name. -/
theorem decoders_agree_last :
    (extractPath [0x84, 0x04, 0x02, 0x2f, 0x61, 0x86] 256
      = match lastPath [{ name := pathName, value := ascii "/" },
          { name := pathName, value := ascii "/a" },
          { name := ascii ":scheme", value := ascii "http" }] with
        | some path => if path = [] then (.protocolError, []) else (.ok, path)
        | none => (.protocolError, []))
    ∧ ((extractPath [0x84, 0x04, 0x02, 0x2f, 0x61, 0x86] 256).1 = .ok
      ∨ (extractPath [0x84, 0x04, 0x02, 0x2f, 0x61, 0x86] 256).1 = .protocolError) :=
  @decoders_agree [0x84, 0x04, 0x02, 0x2f, 0x61, 0x86] 3 256
    [{ name := pathName, value := ascii "/" }, { name := pathName, value := ascii "/a" },
      { name := ascii ":scheme", value := ascii "http" }] le_rfl (by decide)

/-! ## The grammar read by the code -/

/-- The text of a string; `huff` is what decompresses. -/
def WireString.text (huff : List UInt8 → List UInt8) (s : WireString) : List UInt8 :=
  if s.huffman then huff s.octets else s.octets

/-- A field with its strings decoded. -/
def WireField.decoded (huff : List UInt8 → List UInt8) (f : WireField) : HeaderField :=
  { name := f.name.text huff, value := f.value.text huff }

theorem top_bit : ∀ first : UInt8, first &&& 0x80 ≠ 0 ↔ 128 ≤ first.toNat :=
  forall_octet (by decide +kernel)

theorem size_update_bits : ∀ first : UInt8, first &&& 0xe0 = 0x20 ↔ first.toNat / 32 = 1 :=
  forall_octet (by decide +kernel)

theorem indexing_bit : ∀ first : UInt8, first &&& 0x40 ≠ 0 ↔ first.toNat / 64 % 2 = 1 :=
  forall_octet (by decide +kernel)

theorem literalPrefix_of_bits {first : UInt8} (hlow : ¬ 128 ≤ first.toNat)
    (hsize : ¬ first.toNat / 32 = 1) : LiteralPrefix first (literalPrefixBits first) := by
  rw [literalPrefixBits]
  by_cases hbit : first &&& 0x40 ≠ 0
  · have hodd := (indexing_bit first).mp hbit
    rw [if_pos hbit]
    exact .indexing (by omega)
  · have heven := mt (indexing_bit first).mpr hbit
    rw [if_neg hbit]
    exact .plain (by omega)

theorem decodeInteger_split {wire : List UInt8} {bits value used : Nat} (h1 : 1 ≤ bits)
    (h8 : bits ≤ 8) (h : decodeInteger wire bits = .ok (value, used)) :
    ∃ octets, wire = octets ++ wire.drop used ∧ PrefixInt bits octets value := by
  obtain ⟨octets, rest, rfl, rfl, -, hint, -⟩ := (decodeInteger_ok_iff h1 h8).mp h
  exact ⟨octets, by rw [List.drop_left], hint⟩

theorem skipStringCapped_literal {wire : List UInt8} {cap used : Nat}
    (h : skipStringCapped wire cap = .ok used) :
    ∃ octets s, wire = octets ++ wire.drop used ∧ StringLiteral octets s := by
  rw [skipStringCapped] at h
  split_ifs at h
  rcases hint : decodeInteger wire 7 with ret | ⟨len, prefixLen⟩
  · simp only [hint] at h
    cases h
  · simp only [hint] at h
    split_ifs at h with hend hcap
    obtain rfl := Except.ok.inj h
    obtain ⟨octets, hwire, hlen⟩ := decodeInteger_split (by decide) (by decide) hint
    obtain ⟨first, tail, rfl⟩ := List.exists_cons_of_length_pos hlen.length_pos
    have hdata : ((wire.drop prefixLen).take len).length = len := by
      rw [List.length_take, List.length_drop]
      omega
    refine ⟨first :: tail ++ (wire.drop prefixLen).take len, _, ?_, .mk (by rwa [hdata])⟩
    rw [List.append_assoc, ← List.drop_drop, List.take_append_drop]
    exact hwire

theorem decodeString_literal {wire value : List UInt8} {cap used : Nat}
    (h : decodeString wire cap = .ok (value, used)) :
    ∃ octets, wire = octets ++ wire.drop used ∧ StringLiteral octets (.plain value) := by
  rw [decodeString] at h
  split_ifs at h with h0 hplain
  rcases hint : decodeInteger wire 7 with ret | ⟨len, prefixLen⟩
  · simp only [hint] at h
    cases h
  · simp only [hint] at h
    split_ifs at h with hend hcap
    obtain ⟨rfl, rfl⟩ := Prod.mk.inj (Except.ok.inj h)
    obtain ⟨octets, hwire, hlen⟩ := decodeInteger_split (by decide) (by decide) hint
    obtain ⟨first, tail, rfl⟩ := List.exists_cons_of_length_pos hlen.length_pos
    have hdata : ((wire.drop prefixLen).take len).length = len := by
      rw [List.length_take, List.length_drop]
      omega
    have hlow : ¬ 128 ≤ first.toNat := by
      rw [hwire, List.cons_append, byteAt_cons_zero, not_not, and_128_eq_zero first.toNat_lt]
        at hplain
      omega
    have hliteral := @StringLiteral.mk first tail ((wire.drop prefixLen).take len) (by rwa [hdata])
    rw [decide_eq_false hlow] at hliteral
    refine ⟨_, ?_, hliteral⟩
    rw [List.append_assoc, ← List.drop_drop, List.take_append_drop]
    exact hwire

theorem decodeIndexedLiteralName_literal {first : UInt8} {tail name : List UInt8} {bits cap used : Nat}
    (hbits : LiteralPrefix first bits)
    (h : decodeIndexedLiteralName (first :: tail) bits cap = .ok (name, used)) :
    ∃ octets, first :: tail = octets ++ (first :: tail).drop used
      ∧ NameLiteral octets (.plain name) := by
  have hrange : 1 ≤ bits ∧ bits ≤ 8 := by
    cases hbits with
    | indexing h => decide
    | plain h => decide
  rw [decodeIndexedLiteralName] at h
  rcases hint : decodeInteger (first :: tail) bits with ret | ⟨index, indexLen⟩
  · simp only [hint] at h
    cases h
  · simp only [hint] at h
    obtain ⟨octets, hwire, hindex⟩ := decodeInteger_split hrange.1 hrange.2 hint
    obtain ⟨first', tail', rfl⟩ := List.exists_cons_of_length_pos hindex.length_pos
    obtain ⟨rfl, -⟩ := List.cons.inj hwire
    -- index 0: the name is spelled out
    split_ifs at h with hzero
    · subst hzero
      rcases hstring : decodeString ((first :: tail).drop indexLen) cap with ret | ⟨text, nameLen⟩
      · simp only [hstring] at h
        cases h
      · simp only [hstring] at h
        obtain ⟨rfl, rfl⟩ := Prod.mk.inj (Except.ok.inj h)
        obtain ⟨octets', hrest, hname⟩ := decodeString_literal hstring
        refine ⟨_, ?_, .new hbits hindex hname⟩
        rw [List.append_assoc, ← List.drop_drop, ← hrest]
        exact hwire
    · rcases hentry : staticGet index with _ | entry
      · simp only [hentry] at h
        cases h
      · simp only [hentry] at h
        rcases hcopy : copyText cap entry.name with ret | text
        · simp only [hcopy] at h
          cases h
        · simp only [hcopy] at h
          obtain ⟨rfl, rfl⟩ := Prod.mk.inj (Except.ok.inj h)
          have htext := (staticTable_text entry (staticGet_mem hentry)).1.1
          rw [copyText_ok hcopy, cstr_eq_self htext]
          exact ⟨_, hwire, .static hbits hindex hentry⟩

/-! ## The extracted path

An error of one of the parts is not the code of success. -/

theorem copyText_error {cap : Nat} {src : List UInt8} {ret : ErrorCode}
    (h : copyText cap src = .error ret) : ret ≠ .ok := by
  rintro rfl
  rw [copyText] at h
  split_ifs at h <;> cases h

theorem skipStringCapped_error {wire : List UInt8} {cap : Nat} {ret : ErrorCode}
    (h : skipStringCapped wire cap = .error ret) : ret ≠ .ok := by
  rintro rfl
  rw [skipStringCapped] at h
  split_ifs at h
  · cases h
  · rcases hint : decodeInteger wire 7 with ret | ⟨len, prefixLen⟩
    · simp only [hint] at h
      cases h
    · simp only [hint] at h
      split_ifs at h <;> cases h

theorem decodeString_error {wire : List UInt8} {cap : Nat} {ret : ErrorCode}
    (h : decodeString wire cap = .error ret) : ret ≠ .ok := by
  rintro rfl
  rw [decodeString] at h
  split_ifs at h
  · cases h
  · cases h
  · rcases hint : decodeInteger wire 7 with ret | ⟨len, prefixLen⟩
    · simp only [hint] at h
      cases h
    · simp only [hint] at h
      split_ifs at h <;> cases h

theorem decodeIndexedLiteralName_error {wire : List UInt8} {bits cap : Nat} {ret : ErrorCode}
    (h : decodeIndexedLiteralName wire bits cap = .error ret) : ret ≠ .ok := by
  rintro rfl
  rw [decodeIndexedLiteralName] at h
  rcases hint : decodeInteger wire bits with ret | ⟨index, indexLen⟩
  · simp only [hint] at h
    cases h
  · simp only [hint] at h
    split_ifs at h
    · rcases hstring : decodeString (wire.drop indexLen) cap with ret | ⟨text, nameLen⟩
      · simp only [hstring, Except.error.injEq] at h
        exact decodeString_error hstring h
      · simp only [hstring] at h
        cases h
    · rcases hentry : staticGet index with _ | entry
      · simp only [hentry] at h
        cases h
      · simp only [hentry] at h
        rcases hcopy : copyText cap entry.name with ret | text
        · simp only [hcopy, Except.error.injEq] at h
          exact copyText_error hcopy h
        · simp only [hcopy] at h
          cases h

theorem maybeCopyPath_ok {name value path path' : List UInt8} {pathCap : Nat}
    (h : maybeCopyPath name value path pathCap = (.ok, path')) :
    path' = takePath path { name := name, value := value } := by
  rw [maybeCopyPath] at h
  rw [takePath]
  split at h
  · next hname =>
      rw [if_pos hname]
      rcases hcopy : copyText pathCap value with ret | text
      · simp only [hcopy, Prod.mk.injEq] at h
        exact absurd h.1 (copyText_error hcopy)
      · simp only [hcopy, Prod.mk.injEq] at h
        rw [← h.2, copyText_ok hcopy]
  · next hname =>
      rw [if_neg hname]
      exact (Prod.mk.inj h).2.symm

/-- The value of a literal is skipped where it is not copied, and may be compressed there. -/
theorem extractPathValue_literal {name wire path path' : List UInt8} {pathCap used : Nat}
    (h : extractPathValue name wire path pathCap = (.ok, path', used)) :
    ∃ octets value, wire = octets ++ wire.drop used ∧ StringLiteral octets value
      ∧ ∀ huff, path' = takePath path { name := name, value := value.text huff } := by
  rw [extractPathValue] at h
  split at h
  · next hname =>
      rcases hvalue : decodeString wire headerValueCap with ret | ⟨value, valueLen⟩
      · simp only [hvalue, Prod.mk.injEq] at h
        exact absurd h.1 (decodeString_error hvalue)
      · simp only [hvalue] at h
        rcases hcopy : copyText pathCap value with ret | text
        · simp only [hcopy, Prod.mk.injEq] at h
          exact absurd h.1 (copyText_error hcopy)
        · simp only [hcopy, Prod.mk.injEq] at h
          obtain ⟨-, rfl, rfl⟩ := h
          obtain ⟨octets, hwire, hliteral⟩ := decodeString_literal hvalue
          refine ⟨octets, _, hwire, hliteral, fun huff => ?_⟩
          rw [takePath, if_pos hname, copyText_ok hcopy]
          rfl
  · next hname =>
      rcases hskip : skipStringCapped wire headerValueCap with ret | valueLen
      · simp only [hskip, Prod.mk.injEq] at h
        exact absurd h.1 (skipStringCapped_error hskip)
      · simp only [hskip, Prod.mk.injEq] at h
        obtain ⟨-, rfl, rfl⟩ := h
        obtain ⟨octets, value, hwire, hliteral⟩ := skipStringCapped_literal hskip
        refine ⟨octets, value, hwire, hliteral, fun huff => ?_⟩
        rw [takePath, if_neg hname]

/-- **The loop reads the grammar**: a block that it accepts stands for a list of fields, and the
path buffer has been through all of them. -/
theorem extractPathLoop_ok {pathCap fuel : Nat} {wire path path' : List UInt8}
    (hfuel : wire.length ≤ fuel) (h : extractPathLoop fuel wire path pathCap = (.ok, path')) :
    ∃ fields, Block wire fields
      ∧ ∀ huff, path' = (fields.map (WireField.decoded huff)).foldl takePath path := by
  induction fuel generalizing wire path with
  | zero =>
      obtain rfl := List.eq_nil_of_length_eq_zero (Nat.le_zero.mp hfuel)
      exact ⟨[], .nil, fun _ => (Prod.mk.inj h).2.symm⟩
  | succ fuel ih =>
      -- one representation, and the rest of the block by induction
      have hstep : ∀ {octets mid : List UInt8} {used : Nat} {f : Option WireField},
          Represents octets f → wire = octets ++ wire.drop used →
          (∀ huff, mid = (f.toList.map (WireField.decoded huff)).foldl takePath path) →
          extractPathLoop fuel (wire.drop used) mid pathCap = (.ok, path') →
          ∃ fields, Block wire fields
            ∧ ∀ huff, path' = (fields.map (WireField.decoded huff)).foldl takePath path := by
        intro octets mid used f hrep hwire hmid hloop
        have hpos := List.length_pos_iff.mpr hrep.ne_nil
        have hlength := congrArg List.length hwire
        rw [List.length_append] at hlength
        obtain ⟨fields, hblock, hpath⟩ := ih (by omega) hloop
        refine ⟨f.toList ++ fields, ?_, fun huff => ?_⟩
        · rw [hwire]
          exact .cons hrep hblock
        · rw [List.map_append, List.foldl_append, ← hmid huff]
          exact hpath huff
      rcases wire with _ | ⟨first, tail⟩
      · exact ⟨[], .nil, fun _ => (Prod.mk.inj h).2.symm⟩
      · rw [extractPathLoop] at h
        simp only [top_bit, size_update_bits] at h
        -- the three kinds of representation, as the loop tells them apart
        by_cases hindexed : 128 ≤ first.toNat
        · rw [if_pos hindexed] at h
          rcases hint : decodeInteger (first :: tail) 7 with ret | ⟨index, used⟩
          · simp only [hint] at h
            cases h
          · simp only [hint] at h
            obtain ⟨octets, hwire, hindex⟩ := decodeInteger_split (by decide) (by decide) hint
            obtain ⟨first', tail', rfl⟩ := List.exists_cons_of_length_pos hindex.length_pos
            obtain ⟨rfl, -⟩ := List.cons.inj hwire
            rcases hentry : staticGet index with _ | entry
            · simp only [hentry] at h
              cases h
            · simp only [hentry] at h
              rcases hcopy : maybeCopyPath entry.name entry.value path pathCap with ⟨ret, mid⟩
              cases ret with
              | ok =>
                  simp only [hcopy] at h
                  exact hstep (.indexed hindexed hindex hentry) hwire
                    (fun _ => maybeCopyPath_ok hcopy) h
              | _ =>
                  simp only [hcopy] at h
                  cases (Prod.mk.inj h).1
        · rw [if_neg hindexed] at h
          by_cases hsize : first.toNat / 32 = 1
          · rw [if_pos hsize] at h
            rcases hint : decodeInteger (first :: tail) 5 with ret | ⟨size, used⟩
            · simp only [hint] at h
              cases h
            · simp only [hint] at h
              obtain ⟨octets, hwire, hupdate⟩ := decodeInteger_split (by decide) (by decide) hint
              obtain ⟨first', tail', rfl⟩ := List.exists_cons_of_length_pos hupdate.length_pos
              obtain ⟨rfl, -⟩ := List.cons.inj hwire
              exact hstep (.update hsize hupdate) hwire (fun _ => rfl) h
          · rw [if_neg hsize] at h
            rcases hname : decodeIndexedLiteralName (first :: tail) (literalPrefixBits first)
              headerNameCap with ret | ⟨name, nameUsed⟩
            · simp only [hname, Prod.mk.injEq] at h
              exact absurd h.1 (decodeIndexedLiteralName_error hname)
            · simp only [hname] at h
              obtain ⟨octets, hwire, hliteral⟩ :=
                decodeIndexedLiteralName_literal (literalPrefix_of_bits hindexed hsize) hname
              rcases hcopy : extractPathValue name ((first :: tail).drop nameUsed) path pathCap
                with ⟨ret, mid, used⟩
              cases ret with
              | ok =>
                  simp only [hcopy] at h
                  obtain ⟨octets', value, hrest, hvalue, hmid⟩ := extractPathValue_literal hcopy
                  refine hstep (.literal hliteral hvalue) ?_ hmid h
                  rw [List.append_assoc, ← List.drop_drop, ← hrest]
                  exact hwire
              | _ =>
                  simp only [hcopy] at h
                  cases (Prod.mk.inj h).1

/-- A block that is accepted stands for one list of fields, and the path is the value of the last
one named `:path`, as C strings. -/
theorem extractPath_ok {wire path : List UInt8} {pathCap : Nat}
    (h : extractPath wire pathCap = (.ok, path)) :
    ∃ fields, (∀ fields', Block wire fields' ↔ fields' = fields)
      ∧ ∀ huff, lastPath (fields.map (WireField.decoded huff)) = some path := by
  rw [extractPath] at h
  split_ifs at h
  · cases (Prod.mk.inj h).1
  · rcases hloop : extractPathLoop wire.length wire [] pathCap with ⟨ret, path'⟩
    cases ret with
    | ok =>
        simp only [hloop] at h
        split_ifs at h with hempty
        · cases (Prod.mk.inj h).1
        · obtain rfl := (Prod.mk.inj h).2
          obtain ⟨fields, hblock, hpath⟩ := extractPathLoop_ok le_rfl hloop
          refine ⟨fields, fun fields' => ⟨fun h' => h'.unique hblock, ?_⟩, fun huff => ?_⟩
          · rintro rfl
            exact hblock
          · have hlast := hpath huff
            rw [foldl_takePath] at hlast
            rcases hsome : lastPath (fields.map (WireField.decoded huff)) with _ | last
            · rw [hsome] at hlast
              exact absurd hlast hempty
            · rw [hlast, hsome]
              rfl
    | _ =>
        simp only [hloop] at h
        cases (Prod.mk.inj h).1

/-- The last field named `:path`. -/
def namedField (fields : List HeaderField) : Option HeaderField :=
  (fields.filter fun f => f.name = pathName).getLast?

/-- The path is, in full, the value of the last field named `:path`, and that field is the one it
was taken from. -/
def PathTransmitted (fields : List HeaderField) (path : List UInt8) : Prop :=
  ∃ f, namedField fields = some f ∧ takenField fields = some f ∧ path = f.value

/-- There is no zero byte in the field that the path is taken from. -/
def PathPlain (fields : List HeaderField) : Prop :=
  ∀ f, takenField fields = some f → (0 : UInt8) ∉ f.name ∧ (0 : UInt8) ∉ f.value

theorem takenField_concat (fields : List HeaderField) (f : HeaderField) :
    takenField (fields ++ [f]) = if cstr f.name = pathName then some f else takenField fields := by
  unfold takenField
  by_cases hname : cstr f.name = pathName
  · simp [List.filter_append, hname]
  · simp [List.filter_append, hname]

theorem namedField_concat (fields : List HeaderField) (f : HeaderField) :
    namedField (fields ++ [f]) = if f.name = pathName then some f else namedField fields := by
  unfold namedField
  by_cases hname : f.name = pathName
  · simp [List.filter_append, hname]
  · simp [List.filter_append, hname]

theorem takenField_name {fields : List HeaderField} {f : HeaderField}
    (h : takenField fields = some f) : cstr f.name = pathName := by
  have hmem := List.mem_of_getLast? h
  rw [List.mem_filter] at hmem
  exact of_decide_eq_true hmem.2

theorem namedField_name {fields : List HeaderField} {f : HeaderField}
    (h : namedField fields = some f) : f.name = pathName := by
  have hmem := List.mem_of_getLast? h
  rw [List.mem_filter] at hmem
  exact of_decide_eq_true hmem.2

/-- The field that is taken is the last one named `:path` if that is its name. -/
theorem namedField_of_takenField {fields : List HeaderField} {f : HeaderField}
    (h : takenField fields = some f) (hname : f.name = pathName) : namedField fields = some f := by
  induction fields using List.reverseRecOn with
  | nil => cases h
  | append_singleton fields g ih =>
      rw [takenField_concat] at h
      rw [namedField_concat]
      by_cases htaken : cstr g.name = pathName
      · rw [if_pos htaken] at h
        obtain rfl := Option.some.inj h
        rw [if_pos hname]
      · have hother : g.name ≠ pathName := by
          intro heq
          rw [heq] at htaken
          exact htaken (by decide)
        rw [if_neg htaken] at h
        rw [if_neg hother]
        exact ih h

/-- **The extracted path**: in a block that is accepted, the path is the one that was transmitted
exactly if there is no zero byte in the field that it is taken from. -/
theorem extracted_path_exact {wire path : List UInt8} {pathCap : Nat}
    (h : extractPath wire pathCap = (.ok, path)) :
    ∃ fields, (∀ fields', Block wire fields' ↔ fields' = fields)
      ∧ ∀ huff, PathTransmitted (fields.map (WireField.decoded huff)) path
        ↔ PathPlain (fields.map (WireField.decoded huff)) := by
  obtain ⟨fields, hblock, hpath⟩ := extractPath_ok h
  refine ⟨fields, hblock, fun huff => ?_⟩
  have hlast := hpath huff
  rw [lastPath, Option.map_eq_some_iff] at hlast
  obtain ⟨f, htaken, rfl⟩ := hlast
  constructor
  · rintro ⟨g, hnamed, htaken', hvalue⟩ f' htaken''
    obtain rfl := Option.some.inj (htaken.symm.trans htaken')
    obtain rfl := Option.some.inj (htaken.symm.trans htaken'')
    constructor
    · rw [namedField_name hnamed]
      decide
    · rw [← hvalue]
      exact zero_notMem_cstr f.value
  · intro hplain
    obtain ⟨hname, hvalue⟩ := hplain f htaken
    refine ⟨f, namedField_of_takenField htaken ?_, htaken, cstr_eq_self hvalue⟩
    rw [← takenField_name htaken, cstr_eq_self hname]

theorem extracted_path_exact_indexed :
    ∃ fields, (∀ fields', Block [0x84] fields' ↔ fields' = fields)
      ∧ ∀ huff, PathTransmitted (fields.map (WireField.decoded huff)) (ascii "/")
        ↔ PathPlain (fields.map (WireField.decoded huff)) :=
  @extracted_path_exact [0x84] (ascii "/") 256 (by decide)

/-- The path `/a`, a zero byte and `b` are transmitted, and `/a` is extracted. -/
theorem extracted_path_cut :
    extractPath [0x04, 0x04, 0x2f, 0x61, 0x00, 0x62] 256 = (.ok, ascii "/a")
    ∧ (∃ fields, Block [0x04, 0x04, 0x2f, 0x61, 0x00, 0x62] fields)
    ∧ ∀ fields, Block [0x04, 0x04, 0x2f, 0x61, 0x00, 0x62] fields →
      ∀ huff, ¬ PathTransmitted (fields.map (WireField.decoded huff)) (ascii "/a") := by
  have hname : NameLiteral [0x04] (.plain pathName) :=
    .static (.plain (by decide)) (.short 0x04 (by decide)) rfl
  have hvalue : StringLiteral [0x04, 0x2f, 0x61, 0x00, 0x62] (.plain [0x2f, 0x61, 0x00, 0x62]) :=
    @StringLiteral.mk 0x04 [] [0x2f, 0x61, 0x00, 0x62] (.short 0x04 (by decide))
  have hblock := Block.cons (.literal hname hvalue) .nil
  refine ⟨by decide, ⟨_, hblock⟩, fun fields h huff => ?_⟩
  obtain rfl := h.unique hblock
  rintro ⟨f, hnamed, -, hpath⟩
  obtain rfl := Option.some.inj hnamed
  have hfull : ascii "/a" ≠ [0x2f, 0x61, 0x00, 0x62] := by decide
  exact hfull hpath

end C11Omo.Http2
