import C11Omo.Http2.HeaderPaths
import C11Omo.Lib.Items

set_option autoImplicit false

/-! # Which header blocks are accepted

The grammar of header blocks has no bounds; the code has several. Here is the part of the grammar
that the code reads: integers of six octets at most and 32 bits, strings of which some must not be
compressed, names and values that fit their buffers (`ReadRep`), and the literals that do not fit
(`Oversize`). Both decoders are loops over these representations, so each accepts, refuses and
rejects exactly the blocks that the grammar says (`extract_path_exact`, `decode_headers_exact`).
-/

namespace C11Omo.Http2

open C11Omo.Lib

/-! ## The grammar within the limits -/

/-- An integer that is read: six octets at most, and 32 bits. -/
structure ReadInt (bits : Nat) (octets : List UInt8) (value : Nat) : Prop where
  int : PrefixInt bits octets value
  short : octets.length ≤ 6
  small : value ≤ 0xffffffff

/-- A string that is read; where it has to be plain it must not be compressed. -/
inductive ReadString (plain : Prop) : List UInt8 → WireString → Prop
  | mk {first : UInt8} {tail octets : List UInt8} (hlen : ReadInt 7 (first :: tail) octets.length)
      (hplain : plain → first.toNat < 128) :
      ReadString plain (first :: tail ++ octets)
        { huffman := decide (128 ≤ first.toNat), octets := octets }

/-- The name of a literal that is read, of any length. -/
inductive ReadName : List UInt8 → List UInt8 → Prop
  | static {first : UInt8} {tail : List UInt8} {bits index : Nat} {entry : StaticEntry}
      (hbits : LiteralPrefix first bits) (hindex : ReadInt bits (first :: tail) index)
      (hentry : staticGet index = some entry) : ReadName (first :: tail) entry.name
  | new {first : UInt8} {tail octets : List UInt8} {bits : Nat} {name : WireString}
      (hbits : LiteralPrefix first bits) (hindex : ReadInt bits (first :: tail) 0)
      (hname : ReadString True octets name) : ReadName (first :: tail ++ octets) name.octets

/-- A representation that is read. The values of some names have to be plain. -/
inductive ReadRep (plain : List UInt8 → Prop) : List UInt8 → Option WireField → Prop
  | indexed {first : UInt8} {tail : List UInt8} {index : Nat} {entry : StaticEntry}
      (hfirst : 128 ≤ first.toNat) (hindex : ReadInt 7 (first :: tail) index)
      (hentry : staticGet index = some entry) :
      ReadRep plain (first :: tail)
        (some { name := .plain entry.name, value := .plain entry.value })
  | update {first : UInt8} {tail : List UInt8} {size : Nat} (hfirst : first.toNat / 32 = 1)
      (hsize : ReadInt 5 (first :: tail) size) : ReadRep plain (first :: tail) none
  | literal {octets octets' name : List UInt8} {value : WireString} (hname : ReadName octets name)
      (hshort : name.length < headerNameCap) (hvalue : ReadString (plain name) octets' value)
      (hfits : value.octets.length < headerValueCap) :
      ReadRep plain (octets ++ octets') (some { name := .plain name, value := value })

/-- A block that starts with a literal whose name or value does not fit. -/
inductive Oversize (plain : List UInt8 → Prop) : List UInt8 → Prop
  | name {octets name : List UInt8} (rest : List UInt8) (hname : ReadName octets name)
      (hlong : headerNameCap ≤ name.length) : Oversize plain (octets ++ rest)
  | value {octets octets' name : List UInt8} {value : WireString} (rest : List UInt8)
      (hname : ReadName octets name) (hshort : name.length < headerNameCap)
      (hvalue : ReadString (plain name) octets' value)
      (hlong : headerValueCap ≤ value.octets.length) : Oversize plain (octets ++ (octets' ++ rest))

/-- A field with the octets of its strings, compressed or not. -/
def WireField.raw (f : WireField) : HeaderField :=
  { name := f.name.octets, value := f.value.octets }

/-- The fields among the representations of a block. -/
def fieldsOf (reps : List (Option WireField)) : List HeaderField :=
  reps.reduceOption.map WireField.raw

@[simp] theorem fieldsOf_nil : fieldsOf [] = [] := rfl

@[simp] theorem fieldsOf_none (reps : List (Option WireField)) :
    fieldsOf (none :: reps) = fieldsOf reps := rfl

@[simp] theorem fieldsOf_some (f : WireField) (reps : List (Option WireField)) :
    fieldsOf (some f :: reps) = f.raw :: fieldsOf reps := by
  simp [fieldsOf]

/-! ## Inside the grammar -/

theorem ReadString.literal {plain : Prop} {octets : List UInt8} {s : WireString}
    (h : ReadString plain octets s) : StringLiteral octets s := by
  cases h with
  | mk hlen hplain => exact .mk hlen.int

/-- A string that has to be plain is not compressed. -/
theorem ReadString.eq_plain {octets : List UInt8} {s : WireString} (h : ReadString True octets s) :
    s = .plain s.octets := by
  cases h with
  | mk hlen hplain =>
      rw [decide_eq_false (not_le.mpr (hplain trivial))]
      rfl

theorem ReadName.literal {octets name : List UInt8} (h : ReadName octets name) :
    NameLiteral octets (.plain name) := by
  cases h with
  | static hbits hindex hentry => exact .static hbits hindex.int hentry
  | new hbits hindex hname =>
      rw [← hname.eq_plain]
      exact .new hbits hindex.int hname.literal

theorem ReadRep.represents {plain : List UInt8 → Prop} {octets : List UInt8} {f : Option WireField}
    (h : ReadRep plain octets f) : Represents octets f := by
  cases h with
  | indexed hfirst hindex hentry => exact .indexed hfirst hindex.int hentry
  | update hfirst hsize => exact .update hfirst hsize.int
  | literal hname hshort hvalue hfits => exact .literal hname.literal hvalue.literal

theorem Oversize.ne_nil {plain : List UInt8 → Prop} {wire : List UInt8} (h : Oversize plain wire) :
    wire ≠ [] := by
  have hname : ∀ {octets name rest : List UInt8}, ReadName octets name → octets ++ rest ≠ [] := by
    intro octets name rest h
    obtain ⟨first, tail, rfl, -⟩ := h.literal.first
    exact List.cons_ne_nil _ _
  cases h with
  | name rest h => exact hname h
  | value rest h => exact hname h

/-- A sequence of representations is a block of the grammar. -/
theorem items_block {σ : Type} {r : Reading UInt8 (Option WireField) σ}
    (hitem : ∀ octets f, r.item octets f → Represents octets f) {wire : List UInt8}
    {reps : List (Option WireField)} (h : r.Items wire reps) : Block wire reps.reduceOption := by
  induction h with
  | nil => exact .nil
  | @cons octets rest f reps head tail ih =>
      have hfields : (f :: reps).reduceOption = f.toList ++ reps.reduceOption := by
        cases f with
        | none => rfl
        | some f => simp
      rw [hfields]
      exact .cons (hitem octets f head) ih

/-! ## Integers and strings -/

theorem decodeInteger_read {bits value : Nat} {octets : List UInt8} (h1 : 1 ≤ bits) (h8 : bits ≤ 8)
    (h : ReadInt bits octets value) (rest : List UInt8) :
    decodeInteger (octets ++ rest) bits = .ok (value, octets.length) := by
  rw [decodeInteger_ok_iff h1 h8]
  exact ⟨octets, rest, rfl, rfl, h.short, h.int, h.small⟩

theorem decodeInteger_cases {bits : Nat} (h1 : 1 ≤ bits) (h8 : bits ≤ 8) (wire : List UInt8) :
    decodeInteger wire bits = .error .compressionError
      ∨ ∃ octets rest value, wire = octets ++ rest ∧ ReadInt bits octets value := by
  rcases hint : decodeInteger wire bits with ret | ⟨value, used⟩
  · rw [decodeInteger_error hint]
    exact .inl rfl
  · obtain ⟨octets, rest, hwire, rfl, hshort, hprefix, hsmall⟩ :=
      (decodeInteger_ok_iff h1 h8).mp hint
    exact .inr ⟨octets, rest, value, hwire, hprefix, hshort, hsmall⟩

/-- A length with enough octets behind it starts a string. -/
theorem ReadInt.string {plain : Prop} {octets rest : List UInt8} {len : Nat}
    (h : ReadInt 7 octets len) (hplain : plain → byteAt octets 0 < 128) (hlen : len ≤ rest.length) :
    ∃ octets' rest' s, octets ++ rest = octets' ++ rest' ∧ ReadString plain octets' s := by
  obtain ⟨first, tail, rfl⟩ := List.exists_cons_of_length_pos h.int.length_pos
  have htake : (rest.take len).length = len := List.length_take_of_le hlen
  refine ⟨first :: tail ++ rest.take len, rest.drop len, _, ?_, .mk (by rwa [htake]) hplain⟩
  rw [List.append_assoc, List.take_append_drop]

theorem decodeString_read {cap : Nat} {octets : List UInt8} {s : WireString} (hcap : 0 < cap)
    (h : ReadString True octets s) (rest : List UInt8) :
    decodeString (octets ++ rest) cap
      = if s.octets.length ≥ cap then .error .refusedStream
        else .ok (s.octets, octets.length) := by
  cases h with
  | @mk first tail data hlen hplain =>
      have hint := decodeInteger_read (by decide) (by decide) hlen (data ++ rest)
      have h0 : ¬ (cap = 0 ∨ (first :: tail ++ (data ++ rest)).length = 0) := by
        simp only [List.cons_append, List.length_cons]
        omega
      have hbit : ¬ byteAt (first :: tail ++ (data ++ rest)) 0 &&& 0x80 ≠ 0 := by
        rw [not_not, List.cons_append, byteAt_cons_zero, and_128_eq_zero first.toNat_lt]
        exact hplain trivial
      have hend : ¬ (first :: tail).length + data.length
          > (first :: tail ++ (data ++ rest)).length := by
        simp only [List.length_append]
        omega
      rw [List.append_assoc, decodeString, if_neg h0, if_neg hbit, hint]
      simp only
      rw [if_neg hend, List.drop_left, List.take_left, List.length_append]

theorem decodeString_cases (cap : Nat) (wire : List UInt8) :
    decodeString wire cap = .error .compressionError
      ∨ ∃ octets rest s, wire = octets ++ rest ∧ ReadString True octets s := by
  rw [decodeString]
  split_ifs with h0 hbit
  · exact .inl rfl
  · exact .inl rfl
  · rcases @decodeInteger_cases 7 (by decide) (by decide) wire with
      hint | ⟨octets, rest, len, rfl, hint⟩
    · rw [hint]
      exact .inl rfl
    · rw [decodeInteger_read (by decide) (by decide) hint rest]
      simp only
      by_cases hend : octets.length + len > (octets ++ rest).length
      · rw [if_pos hend]
        exact .inl rfl
      · right
        rw [List.length_append] at hend
        apply hint.string _ (by omega)
        intro _
        obtain ⟨first, tail, rfl⟩ := List.exists_cons_of_length_pos hint.int.length_pos
        rw [not_not, List.cons_append, byteAt_cons_zero, and_128_eq_zero first.toNat_lt] at hbit
        exact hbit

theorem skipStringCapped_read {cap : Nat} {octets : List UInt8} {s : WireString} {plain : Prop}
    (h : ReadString plain octets s) (rest : List UInt8) :
    skipStringCapped (octets ++ rest) cap
      = if s.octets.length ≥ cap then .error .refusedStream else .ok octets.length := by
  cases h with
  | @mk first tail data hlen hplain =>
      have hint := decodeInteger_read (by decide) (by decide) hlen (data ++ rest)
      have h0 : ¬ (first :: tail ++ (data ++ rest)).length = 0 := by
        simp only [List.cons_append, List.length_cons]
        omega
      have hend : ¬ (first :: tail).length + data.length
          > (first :: tail ++ (data ++ rest)).length := by
        simp only [List.length_append]
        omega
      rw [List.append_assoc, skipStringCapped, if_neg h0, hint]
      simp only
      rw [if_neg hend, List.length_append]

theorem skipStringCapped_cases {plain : Prop} (hplain : ¬ plain) (cap : Nat) (wire : List UInt8) :
    skipStringCapped wire cap = .error .compressionError
      ∨ ∃ octets rest s, wire = octets ++ rest ∧ ReadString plain octets s := by
  rw [skipStringCapped]
  split_ifs with h0
  · exact .inl rfl
  · rcases @decodeInteger_cases 7 (by decide) (by decide) wire with
      hint | ⟨octets, rest, len, rfl, hint⟩
    · rw [hint]
      exact .inl rfl
    · rw [decodeInteger_read (by decide) (by decide) hint rest]
      simp only
      by_cases hend : octets.length + len > (octets ++ rest).length
      · rw [if_pos hend]
        exact .inl rfl
      · right
        rw [List.length_append] at hend
        exact hint.string (fun h => absurd h hplain) (by omega)

/-! ## Names and values of literals -/

theorem LiteralPrefix.bits_eq {first : UInt8} {bits : Nat} (h : LiteralPrefix first bits) :
    literalPrefixBits first = bits ∧ 1 ≤ bits ∧ bits ≤ 8 := by
  rw [literalPrefixBits]
  simp only [indexing_bit]
  cases h with
  | indexing h => exact ⟨if_pos (by omega), by decide, by decide⟩
  | plain h => exact ⟨if_neg (by omega), by decide, by decide⟩

theorem staticGet_zero : staticGet 0 = none := rfl

theorem decodeIndexedLiteralName_read {cap : Nat} {first : UInt8} {tail name : List UInt8}
    (hcap : 0 < cap) (h : ReadName (first :: tail) name) (rest : List UInt8) :
    decodeIndexedLiteralName (first :: tail ++ rest) (literalPrefixBits first) cap
      = if name.length ≥ cap then .error .refusedStream
        else .ok (name, (first :: tail).length) := by
  generalize hwire : first :: tail = octets at h
  cases h with
  | @static first' tail' bits index entry hbits hindex hentry =>
      obtain ⟨rfl, rfl⟩ := List.cons.inj hwire
      obtain ⟨rfl, h1, h8⟩ := hbits.bits_eq
      have hzero : ¬ index = 0 := by
        rintro rfl
        rw [staticGet_zero] at hentry
        cases hentry
      have htext := (staticTable_text entry (staticGet_mem hentry)).1.1
      rw [decodeIndexedLiteralName, decodeInteger_read h1 h8 hindex rest]
      simp only [if_neg hzero, hentry]
      rw [copyText, if_neg (by omega), cstr_eq_self htext]
      split_ifs <;> rfl
  | @new first' tail' octets' bits name hbits hindex hname =>
      obtain ⟨rfl, rfl⟩ := List.cons.inj hwire
      obtain ⟨rfl, h1, h8⟩ := hbits.bits_eq
      rw [List.append_assoc, decodeIndexedLiteralName,
        decodeInteger_read h1 h8 hindex (octets' ++ rest)]
      simp only [if_true, List.drop_left]
      rw [decodeString_read hcap hname rest]
      split_ifs
      · rfl
      · rw [List.length_append]

theorem decodeIndexedLiteralName_cases (cap : Nat) {first : UInt8} {tail : List UInt8}
    (hlow : ¬ 128 ≤ first.toNat) (hsize : ¬ first.toNat / 32 = 1) :
    decodeIndexedLiteralName (first :: tail) (literalPrefixBits first) cap
        = .error .compressionError
      ∨ ∃ octets rest name, first :: tail = octets ++ rest ∧ ReadName octets name := by
  have hbits := literalPrefix_of_bits hlow hsize
  obtain ⟨-, h1, h8⟩ := hbits.bits_eq
  rw [decodeIndexedLiteralName]
  rcases decodeInteger_cases h1 h8 (first :: tail) with hint | ⟨octets, rest, index, hwire, hint⟩
  · rw [hint]
    exact .inl rfl
  · obtain ⟨first', tail', rfl⟩ := List.exists_cons_of_length_pos hint.int.length_pos
    obtain ⟨rfl, -⟩ := List.cons.inj hwire
    rw [hwire, decodeInteger_read h1 h8 hint rest]
    simp only
    by_cases hzero : index = 0
    · subst hzero
      rw [if_pos rfl, List.drop_left]
      rcases decodeString_cases cap rest with herr | ⟨octets, rest, name, rfl, hname⟩
      · rw [herr]
        exact .inl rfl
      · exact .inr ⟨_, rest, name.octets, (List.append_assoc _ _ _).symm, .new hbits hint hname⟩
    · rw [if_neg hzero]
      rcases hentry : staticGet index with _ | entry
      · exact .inl rfl
      · exact .inr ⟨_, rest, entry.name, rfl, .static hbits hint hentry⟩

/-- The names whose values the extraction copies. -/
def NamesPath (name : List UInt8) : Prop := cstr name = pathName

theorem extractPathValue_read {name octets path : List UInt8} {value : WireString} {pathCap : Nat}
    (hcap : headerValueCap ≤ pathCap) (h : ReadString (NamesPath name) octets value)
    (rest : List UInt8) : extractPathValue name (octets ++ rest) path pathCap
      = if value.octets.length ≥ headerValueCap then (.refusedStream, path, 0)
        else (.ok, takePath path { name := name, value := value.octets }, octets.length) := by
  rw [extractPathValue, takePath]
  by_cases hname : cstr name = pathName
  · have hplain : ReadString True octets value := by
      rwa [NamesPath, eq_true hname] at h
    rw [if_pos hname, if_pos hname, decodeString_read (by decide) hplain]
    split_ifs with hlong
    · rfl
    · simp only
      rw [copyText_fits (by omega)]
  · rw [if_neg hname, if_neg hname, skipStringCapped_read h]
    split_ifs with hlong
    · rfl
    · rfl

theorem extractPathValue_cases (name wire path : List UInt8) (pathCap : Nat) :
    extractPathValue name wire path pathCap = (.compressionError, path, 0)
      ∨ ∃ octets rest s, wire = octets ++ rest ∧ ReadString (NamesPath name) octets s := by
  rw [extractPathValue]
  by_cases hname : cstr name = pathName
  · rw [if_pos hname, NamesPath, eq_true hname]
    rcases decodeString_cases headerValueCap wire with herr | hread
    · rw [herr]
      exact .inl rfl
    · exact .inr hread
  · rw [if_neg hname]
    rcases @skipStringCapped_cases (NamesPath name) hname headerValueCap wire with herr | hread
    · rw [herr]
      exact .inl rfl
    · exact .inr hread

theorem ReadName.head {octets name : List UInt8} (h : ReadName octets name) :
    ∃ first tail, octets = first :: tail ∧ ¬ 128 ≤ first.toNat ∧ ¬ first.toNat / 32 = 1 := by
  obtain ⟨first, tail, rfl, hlow⟩ := h.literal.first
  exact ⟨first, tail, rfl, by omega, by omega⟩

/-! ## The start of a block -/

/-- No representation starts here: a part of it is not there. -/
inductive Unreadable (plain : List UInt8 → Prop) : List UInt8 → Prop
  | index {first : UInt8} {tail : List UInt8} (hfirst : 128 ≤ first.toNat)
      (h : decodeInteger (first :: tail) 7 = .error .compressionError) :
      Unreadable plain (first :: tail)
  | entry {first : UInt8} {tail : List UInt8} {index used : Nat} (hfirst : 128 ≤ first.toNat)
      (h : decodeInteger (first :: tail) 7 = .ok (index, used))
      (hentry : staticGet index = none) : Unreadable plain (first :: tail)
  | size {first : UInt8} {tail : List UInt8} (hfirst : first.toNat / 32 = 1)
      (h : decodeInteger (first :: tail) 5 = .error .compressionError) :
      Unreadable plain (first :: tail)
  | name {first : UInt8} {tail : List UInt8} (hlow : ¬ 128 ≤ first.toNat)
      (hsize : ¬ first.toNat / 32 = 1)
      (h : decodeIndexedLiteralName (first :: tail) (literalPrefixBits first) headerNameCap
        = .error .compressionError) : Unreadable plain (first :: tail)
  | value {first : UInt8} {tail name : List UInt8} {used : Nat} (hlow : ¬ 128 ≤ first.toNat)
      (hsize : ¬ first.toNat / 32 = 1)
      (h : decodeIndexedLiteralName (first :: tail) (literalPrefixBits first) headerNameCap
        = .ok (name, used))
      (hno : ∀ octets rest s, (first :: tail).drop used = octets ++ rest →
        ¬ ReadString (plain name) octets s) : Unreadable plain (first :: tail)

/-- **A block starts** with a representation that is read, or with a literal that does not fit, or
with neither. -/
theorem start_cases (plain : List UInt8 → Prop) {wire : List UInt8} (hne : wire ≠ []) :
    Unreadable plain wire ∨ Oversize plain wire
      ∨ ∃ octets rest f, wire = octets ++ rest ∧ ReadRep plain octets f := by
  obtain ⟨first, tail, rfl⟩ := List.exists_cons_of_ne_nil hne
  -- the top bits of the first byte decide, in the order in which the loop tests them
  by_cases hindexed : 128 ≤ first.toNat
  · rcases @decodeInteger_cases 7 (by decide) (by decide) (first :: tail) with
      hint | ⟨octets, rest, index, hwire, hindex⟩
    · exact .inl (.index hindexed hint)
    · obtain ⟨first', tail', rfl⟩ := List.exists_cons_of_length_pos hindex.int.length_pos
      obtain ⟨rfl, -⟩ := List.cons.inj hwire
      have hint := decodeInteger_read (by decide) (by decide) hindex rest
      rw [← hwire] at hint
      rcases hentry : staticGet index with _ | entry
      · exact .inl (.entry hindexed hint hentry)
      · exact .inr (.inr ⟨_, rest, _, hwire, .indexed hindexed hindex hentry⟩)
  by_cases hupdate : first.toNat / 32 = 1
  · rcases @decodeInteger_cases 5 (by decide) (by decide) (first :: tail) with
      hint | ⟨octets, rest, size, hwire, hsize⟩
    · exact .inl (.size hupdate hint)
    · obtain ⟨first', tail', rfl⟩ := List.exists_cons_of_length_pos hsize.int.length_pos
      obtain ⟨rfl, -⟩ := List.cons.inj hwire
      exact .inr (.inr ⟨_, rest, _, hwire, .update hupdate hsize⟩)
  rcases @decodeIndexedLiteralName_cases headerNameCap first tail hindexed hupdate with
    herr | ⟨octets, rest, name, hwire, hname⟩
  · exact .inl (.name hindexed hupdate herr)
  -- a name was read; it may be too long for its buffer
  by_cases hlong : headerNameCap ≤ name.length
  · rw [hwire]
    exact .inr (.inl (.name rest hname hlong))
  obtain ⟨first', tail', rfl, -⟩ := hname.head
  obtain ⟨rfl, -⟩ := List.cons.inj hwire
  -- behind the name, a string that is read or not
  by_cases hvalue : ∃ octets' rest' s, rest = octets' ++ rest' ∧ ReadString (plain name) octets' s
  · obtain ⟨octets', rest', value, rfl, hvalue⟩ := hvalue
    rw [hwire]
    by_cases hvaluelong : headerValueCap ≤ value.octets.length
    · exact .inr (.inl (.value rest' hname (not_le.mp hlong) hvalue hvaluelong))
    · refine .inr (.inr ⟨_, rest', some { name := .plain name, value := value },
        (List.append_assoc _ _ _).symm, ?_⟩)
      exact .literal hname (not_le.mp hlong) hvalue (not_le.mp hvaluelong)
  · have hread := @decodeIndexedLiteralName_read headerNameCap first tail' name (by decide) hname rest
    rw [if_neg hlong, ← hwire] at hread
    refine .inl (.value hindexed hupdate hread ?_)
    rw [hwire, List.drop_left]
    exact fun octets' rest' s hrest h => hvalue ⟨octets', rest', s, hrest, h⟩

/-! ## The extraction of the path -/

/-- What `h2_hpack_extract_path` reads. -/
def pathReading : Reading UInt8 (Option WireField) (List UInt8) where
  item := ReadRep NamesPath
  bad := Oversize NamesPath
  full _ := False
  next path f := f.elim path fun f => takePath path f.raw

theorem pathReading_foldl (reps : List (Option WireField)) (path : List UInt8) :
    reps.foldl pathReading.next path = (lastPath (fieldsOf reps)).getD path := by
  rw [← foldl_takePath]
  induction reps generalizing path with
  | nil => rfl
  | cons f reps ih =>
      rw [List.foldl_cons, ih]
      cases f with
      | none => rfl
      | some f =>
          rw [fieldsOf_some]
          rfl

theorem extractPathLoop_step {pathCap : Nat} (hcap : headerValueCap ≤ pathCap)
    {octets : List UInt8} {f : Option WireField} (h : ReadRep NamesPath octets f) (fuel : Nat)
    (rest path : List UInt8) : extractPathLoop (fuel + 1) (octets ++ rest) path pathCap
      = extractPathLoop fuel rest (pathReading.next path f) pathCap := by
  cases h with
  -- texts of the static table always fit
  | @indexed first tail index entry hfirst hindex hentry =>
      obtain ⟨-, hvalue⟩ := staticTable_text entry (staticGet_mem hentry)
      have hint := decodeInteger_read (by decide) (by decide) hindex rest
      rw [List.cons_append] at hint ⊢
      rw [extractPathLoop]
      simp only [top_bit, if_pos hfirst, hint, hentry, maybeCopyPath_fits (hvalue.2.trans_le hcap)]
      rw [← List.cons_append, List.drop_left]
      rfl
  | @update first tail size hfirst hsize =>
      have hlow : ¬ 128 ≤ first.toNat := by omega
      have hint := decodeInteger_read (by decide) (by decide) hsize rest
      rw [List.cons_append] at hint ⊢
      rw [extractPathLoop]
      simp only [top_bit, size_update_bits, if_neg hlow, if_pos hfirst, hint]
      rw [← List.cons_append, List.drop_left]
      rfl
  -- with indexing, without it or never indexed: the three prefixes are read alike
  | @literal octets octets' name value hname hshort hvalue hfits =>
      obtain ⟨first, tail, rfl, hlow, hsize⟩ := hname.head
      have hread := @decodeIndexedLiteralName_read headerNameCap first tail name (by decide) hname
        (octets' ++ rest)
      rw [if_neg (not_le.mpr hshort)] at hread
      rw [List.append_assoc]
      rw [List.cons_append] at hread ⊢
      rw [extractPathLoop]
      simp only [top_bit, size_update_bits, if_neg hlow, if_neg hsize, hread]
      rw [← List.cons_append, List.drop_left, extractPathValue_read hcap hvalue,
        if_neg (not_le.mpr hfits)]
      simp only
      rw [← List.drop_drop, List.drop_left, List.drop_left]
      rfl

theorem extractPathLoop_oversize {pathCap : Nat} (hcap : headerValueCap ≤ pathCap)
    {wire : List UInt8} (h : Oversize NamesPath wire) (fuel : Nat) (path : List UInt8) :
    extractPathLoop (fuel + 1) wire path pathCap = (.refusedStream, path) := by
  cases h with
  | name rest hname hlong =>
      obtain ⟨first, tail, rfl, hlow, hsize⟩ := hname.head
      have hread := @decodeIndexedLiteralName_read headerNameCap first tail _ (by decide) hname rest
      rw [if_pos hlong] at hread
      rw [List.cons_append] at hread ⊢
      rw [extractPathLoop]
      simp only [top_bit, size_update_bits, if_neg hlow, if_neg hsize, hread]
  | @value octets octets' name value rest hname hshort hvalue hlong =>
      obtain ⟨first, tail, rfl, hlow, hsize⟩ := hname.head
      have hread := @decodeIndexedLiteralName_read headerNameCap first tail name (by decide) hname
        (octets' ++ rest)
      rw [if_neg (not_le.mpr hshort)] at hread
      rw [List.cons_append] at hread ⊢
      rw [extractPathLoop]
      simp only [top_bit, size_update_bits, if_neg hlow, if_neg hsize, hread]
      rw [← List.cons_append, List.drop_left, extractPathValue_read hcap hvalue, if_pos hlong]

theorem extractPathLoop_unreadable {wire : List UInt8} (h : Unreadable NamesPath wire) (fuel : Nat)
    (path : List UInt8) (pathCap : Nat) :
    (extractPathLoop (fuel + 1) wire path pathCap).1 = .compressionError := by
  cases h with
  | index hfirst h =>
      rw [extractPathLoop]
      simp only [top_bit, if_pos hfirst, h]
  | entry hfirst h hentry =>
      rw [extractPathLoop]
      simp only [top_bit, if_pos hfirst, h, hentry]
  | @size first tail hfirst h =>
      have hlow : ¬ 128 ≤ first.toNat := by omega
      rw [extractPathLoop]
      simp only [top_bit, size_update_bits, if_neg hlow, if_pos hfirst, h]
  | name hlow hsize h =>
      rw [extractPathLoop]
      simp only [top_bit, size_update_bits, if_neg hlow, if_neg hsize, h]
  | @value first tail name used hlow hsize h hno =>
      rw [extractPathLoop]
      simp only [top_bit, size_update_bits, if_neg hlow, if_neg hsize, h]
      rcases extractPathValue_cases name ((first :: tail).drop used) path pathCap with
        herr | ⟨octets, rest, s, hwire, hvalue⟩
      · rw [herr]
      · exact absurd hvalue (hno octets rest s hwire)

/-- The loop of `h2_hpack_extract_path` reads this. -/
theorem pathReading_loop {pathCap : Nat} (hcap : headerValueCap ≤ pathCap) :
    pathReading.Loop (fun fuel wire path => extractPathLoop fuel wire path pathCap)
      (fun path => (.ok, path)) (·.1 = .refusedStream) (·.1 = .compressionError) where
  item_ne_nil h := h.represents.ne_nil
  finish := by
    intro fuel path
    cases fuel with
    | zero => rfl
    | succ fuel => rfl
  stop := by
    rintro fuel path wire - (hfull | hbad)
    · exact absurd hfull not_false
    · rw [extractPathLoop_oversize hcap hbad]
  step fuel path octets f rest _ h := extractPathLoop_step hcap h fuel rest path
  other := by
    intro fuel path wire hne _
    rcases start_cases NamesPath hne with hno | hread
    · exact .inl (extractPathLoop_unreadable hno fuel path pathCap)
    · exact .inr hread
  done_open _ := ⟨by simp, by simp⟩
  refused_ok := by
    rintro ⟨ret, path⟩ rfl
    simp

section

variable {wire : List UInt8} {pathCap : Nat}

/-- A block that is read to its end has the path of its last field named `:path`. -/
theorem extractPath_items (hcap : headerValueCap ≤ pathCap) {reps : List (Option WireField)}
    (h : pathReading.Items wire reps) : extractPath wire pathCap
      = if (lastPath (fieldsOf reps)).getD [] = [] then (.protocolError, [])
        else (.ok, (lastPath (fieldsOf reps)).getD []) := by
  have hcap0 : ¬ pathCap = 0 := by
    have : 0 < headerValueCap := by decide
    omega
  have hread := (pathReading_loop hcap).of_items h (s := []) (fun _ _ _ _ => not_false)
    (le_refl wire.length)
  simp only [pathReading_foldl] at hread
  rw [extractPath, if_neg hcap0, hread]
  split_ifs with hnil
  · simp only [hnil, if_true]
  · simp only [hnil, if_false]

theorem extractPath_stops (hcap : headerValueCap ≤ pathCap) (h : pathReading.Stops [] wire) :
    (extractPath wire pathCap).1 = .refusedStream := by
  have hcap0 : ¬ pathCap = 0 := by
    have : 0 < headerValueCap := by decide
    omega
  have href := (pathReading_loop hcap).of_stops h (le_refl wire.length)
  rw [extractPath, if_neg hcap0]
  rcases hres : extractPathLoop wire.length wire [] pathCap with ⟨ret, path⟩
  simp only [hres] at href
  subst href
  rfl

theorem extractPath_ends (hcap : headerValueCap ≤ pathCap) (wire : List UInt8) :
    (∃ reps, pathReading.Items wire reps) ∨ pathReading.Stops [] wire
      ∨ (extractPath wire pathCap).1 = .compressionError := by
  have hcap0 : ¬ pathCap = 0 := by
    have : 0 < headerValueCap := by decide
    omega
  rcases (pathReading_loop hcap).ends (le_refl wire.length) (s := []) with
    ⟨reps, hitems, -⟩ | ⟨hstops, -⟩ | hfail
  · exact .inl ⟨reps, hitems⟩
  · exact .inr (.inl hstops)
  · rw [extractPath, if_neg hcap0]
    rcases hres : extractPathLoop wire.length wire [] pathCap with ⟨ret, path⟩
    simp only [hres] at hfail
    subst hfail
    exact .inr (.inr rfl)

/-- **What the extraction accepts.** A block is a sequence of representations within the limits, and
then the path is the value of the last field named `:path`, or there is a protocol error if there is
none or it is empty; or the limits of a buffer are exceeded by the first literal that is not such a
representation, and the stream is refused; and everything else is a compression error. The blocks of
the first kind are blocks of the grammar. -/
theorem extract_path_exact (hcap : headerValueCap ≤ pathCap) (wire : List UInt8) :
    (∀ reps, pathReading.Items wire reps → Block wire reps.reduceOption)
    ∧ (∀ path, extractPath wire pathCap = (.ok, path)
      ↔ path ≠ [] ∧ ∃ reps, pathReading.Items wire reps ∧ lastPath (fieldsOf reps) = some path)
    ∧ ((extractPath wire pathCap).1 = .protocolError
      ↔ ∃ reps, pathReading.Items wire reps ∧ (lastPath (fieldsOf reps)).getD [] = [])
    ∧ ((extractPath wire pathCap).1 = .refusedStream ↔ pathReading.Stops [] wire)
    ∧ (extractPath wire pathCap).1 ∈
        [ErrorCode.ok, .protocolError, .refusedStream, .compressionError] := by
  -- the three ends exclude one another, since their codes differ
  have hends := extractPath_ends hcap wire
  refine ⟨fun reps => items_block fun _ _ h => ReadRep.represents h, fun path => ⟨fun h => ?_, ?_⟩,
    ⟨fun h => ?_, ?_⟩, ⟨fun h => ?_, extractPath_stops hcap⟩, ?_⟩
  · rcases hends with ⟨reps, hitems⟩ | hstops | hfail
    · rw [extractPath_items hcap hitems] at h
      split_ifs at h with hnil
      · cases h
      · obtain ⟨-, rfl⟩ := Prod.mk.inj h
        refine ⟨hnil, reps, hitems, ?_⟩
        rcases hlast : lastPath (fieldsOf reps) with _ | path
        · exact absurd (by rw [hlast]; rfl) hnil
        · rfl
    · have href := extractPath_stops hcap hstops
      rw [h] at href
      cases href
    · rw [h] at hfail
      cases hfail
  · rintro ⟨hne, reps, hitems, hlast⟩
    rw [extractPath_items hcap hitems, hlast]
    exact if_neg hne
  · rcases hends with ⟨reps, hitems⟩ | hstops | hfail
    · rw [extractPath_items hcap hitems] at h
      split_ifs at h with hnil
      exact ⟨reps, hitems, hnil⟩
    · rw [extractPath_stops hcap hstops] at h
      cases h
    · rw [h] at hfail
      cases hfail
  · rintro ⟨reps, hitems, hnil⟩
    rw [extractPath_items hcap hitems, if_pos hnil]
  · rcases hends with ⟨reps, hitems⟩ | hstops | hfail
    · rw [extractPath_items hcap hitems] at h
      split_ifs at h
    · exact hstops
    · rw [h] at hfail
      cases hfail
  · rcases hends with ⟨reps, hitems⟩ | hstops | hfail
    · rw [extractPath_items hcap hitems]
      split_ifs
      · decide
      · exact List.mem_cons_self
    · rw [extractPath_stops hcap hstops]
      decide
    · rw [hfail]
      decide

/-- A request for `/`. -/
theorem extract_path_exact_root : ascii "/" ≠ []
    ∧ ∃ reps, pathReading.Items [0x84] reps ∧ lastPath (fieldsOf reps) = some (ascii "/") :=
  ((@extract_path_exact 256 (by decide) [0x84]).2.1 (ascii "/")).mp (by decide)

end

/-! ## The list of fields -/

/-- What `h2_hpack_decode_headers` reads, into the fields so far and the room for more. -/
def headerReading : Reading UInt8 (Option WireField) (List HeaderField × Nat) where
  item := ReadRep fun _ => True
  bad := Oversize fun _ => True
  full s := s.2 = 0
  next s f := (s.1 ++ fieldsOf [f], s.2 - (fieldsOf [f]).length)

theorem headerReading_foldl (reps : List (Option WireField)) (s : List HeaderField × Nat) :
    reps.foldl headerReading.next s = (s.1 ++ fieldsOf reps, s.2 - (fieldsOf reps).length) := by
  induction reps generalizing s with
  | nil => simp
  | cons f reps ih =>
      rw [List.foldl_cons, ih]
      cases f with
      | none => simp [headerReading]
      | some f =>
          simp only [headerReading, fieldsOf_some, fieldsOf_nil, List.length_cons, List.length_nil,
            Prod.mk.injEq, List.append_assoc, List.cons_append, List.nil_append, true_and]
          omega

theorem decodeHeadersLoop_step {octets : List UInt8} {f : Option WireField}
    (h : ReadRep (fun _ => True) octets f) (fuel : Nat) (rest : List UInt8) {fieldCap : Nat}
    (hroom : ¬ fieldCap = 0) : decodeHeadersLoop (fuel + 1) (octets ++ rest) fieldCap
      = (decodeHeadersLoop fuel rest (fieldCap - (fieldsOf [f]).length)).map (fieldsOf [f] ++ ·) := by
  cases h with
  | @indexed first tail index entry hfirst hindex hentry =>
      obtain ⟨hname, hvalue⟩ := staticTable_text entry (staticGet_mem hentry)
      have hint := decodeInteger_read (by decide) (by decide) hindex rest
      rw [List.cons_append] at hint ⊢
      rw [decodeHeadersLoop]
      simp only [if_neg hroom, top_bit, if_pos hfirst, hint, hentry, copyText_text hname.1 hname.2,
        copyText_text hvalue.1 hvalue.2]
      rw [← List.cons_append, List.drop_left]
      rfl
  -- no field, so no room is used
  | @update first tail size hfirst hsize =>
      have hlow : ¬ 128 ≤ first.toNat := by omega
      have hint := decodeInteger_read (by decide) (by decide) hsize rest
      rw [List.cons_append] at hint ⊢
      rw [decodeHeadersLoop]
      simp only [if_neg hroom, top_bit, size_update_bits, if_neg hlow, if_pos hfirst, hint]
      rw [← List.cons_append, List.drop_left, fieldsOf_none, fieldsOf_nil]
      rcases decodeHeadersLoop fuel rest fieldCap with ret | fields
      · rfl
      · rfl
  | @literal octets octets' name value hname hshort hvalue hfits =>
      obtain ⟨first, tail, rfl, hlow, hsize⟩ := hname.head
      have hread := @decodeIndexedLiteralName_read headerNameCap first tail name (by decide) hname
        (octets' ++ rest)
      rw [if_neg (not_le.mpr hshort)] at hread
      rw [List.append_assoc]
      rw [List.cons_append] at hread ⊢
      rw [decodeHeadersLoop]
      simp only [if_neg hroom, top_bit, size_update_bits, if_neg hlow, if_neg hsize, hread]
      rw [← List.cons_append, List.drop_left, decodeString_read (by decide) hvalue,
        if_neg (not_le.mpr hfits)]
      simp only
      rw [← List.drop_drop, List.drop_left, List.drop_left]
      rfl

theorem decodeHeadersLoop_oversize {wire : List UInt8} (h : Oversize (fun _ => True) wire)
    (fuel fieldCap : Nat) :
    decodeHeadersLoop (fuel + 1) wire fieldCap = .error .refusedStream := by
  by_cases hroom : fieldCap = 0
  · obtain ⟨first, tail, rfl⟩ := List.exists_cons_of_ne_nil h.ne_nil
    rw [decodeHeadersLoop, if_pos hroom]
  cases h with
  | name rest hname hlong =>
      obtain ⟨first, tail, rfl, hlow, hsize⟩ := hname.head
      have hread := @decodeIndexedLiteralName_read headerNameCap first tail _ (by decide) hname rest
      rw [if_pos hlong] at hread
      rw [List.cons_append] at hread ⊢
      rw [decodeHeadersLoop]
      simp only [if_neg hroom, top_bit, size_update_bits, if_neg hlow, if_neg hsize, hread]
  | @value octets octets' name value rest hname hshort hvalue hlong =>
      obtain ⟨first, tail, rfl, hlow, hsize⟩ := hname.head
      have hread := @decodeIndexedLiteralName_read headerNameCap first tail name (by decide) hname
        (octets' ++ rest)
      rw [if_neg (not_le.mpr hshort)] at hread
      rw [List.cons_append] at hread ⊢
      rw [decodeHeadersLoop]
      simp only [if_neg hroom, top_bit, size_update_bits, if_neg hlow, if_neg hsize, hread]
      rw [← List.cons_append, List.drop_left, decodeString_read (by decide) hvalue, if_pos hlong]

theorem decodeHeadersLoop_unreadable {wire : List UInt8} (h : Unreadable (fun _ => True) wire)
    (fuel : Nat) {fieldCap : Nat} (hroom : ¬ fieldCap = 0) :
    decodeHeadersLoop (fuel + 1) wire fieldCap = .error .compressionError := by
  cases h with
  | index hfirst h =>
      rw [decodeHeadersLoop]
      simp only [if_neg hroom, top_bit, if_pos hfirst, h]
  | entry hfirst h hentry =>
      rw [decodeHeadersLoop]
      simp only [if_neg hroom, top_bit, if_pos hfirst, h, hentry]
  | @size first tail hfirst h =>
      have hlow : ¬ 128 ≤ first.toNat := by omega
      rw [decodeHeadersLoop]
      simp only [if_neg hroom, top_bit, size_update_bits, if_neg hlow, if_pos hfirst, h]
  | name hlow hsize h =>
      rw [decodeHeadersLoop]
      simp only [if_neg hroom, top_bit, size_update_bits, if_neg hlow, if_neg hsize, h]
  | @value first tail name used hlow hsize h hno =>
      rw [decodeHeadersLoop]
      simp only [if_neg hroom, top_bit, size_update_bits, if_neg hlow, if_neg hsize, h]
      rcases decodeString_cases headerValueCap ((first :: tail).drop used) with
        herr | ⟨octets, rest, s, hwire, hvalue⟩
      · rw [herr]
      · exact absurd hvalue (hno octets rest s hwire)

/-- The loop of `h2_hpack_decode_headers`, behind the fields so far, reads this. -/
theorem headerReading_loop : headerReading.Loop
    (fun fuel wire s => (decodeHeadersLoop fuel wire s.2).map (s.1 ++ ·)) (fun s => .ok s.1)
    (· = .error .refusedStream) (· = .error .compressionError) where
  item_ne_nil h := h.represents.ne_nil
  finish := by
    rintro fuel ⟨fields, fieldCap⟩
    cases fuel with
    | zero => exact congrArg Except.ok (List.append_nil fields)
    | succ fuel => exact congrArg Except.ok (List.append_nil fields)
  stop := by
    -- the array of fields is full, or a text is too long for its buffer
    rintro fuel ⟨fields, fieldCap⟩ wire hne (hfull | hbad)
    · obtain rfl : fieldCap = 0 := hfull
      obtain ⟨first, tail, rfl⟩ := List.exists_cons_of_ne_nil hne
      rw [decodeHeadersLoop, if_pos rfl]
      rfl
    · rw [decodeHeadersLoop_oversize hbad]
      rfl
  step := by
    rintro fuel ⟨fields, fieldCap⟩ octets f rest hroom h
    rw [decodeHeadersLoop_step h fuel rest hroom, headerReading]
    simp only
    rcases decodeHeadersLoop fuel rest (fieldCap - (fieldsOf [f]).length) with ret | fields'
    · rfl
    · exact congrArg Except.ok (List.append_assoc _ _ _).symm
  other := by
    rintro fuel ⟨fields, fieldCap⟩ wire hne hroom
    rcases start_cases (fun _ => True) hne with hno | hread
    · rw [decodeHeadersLoop_unreadable hno fuel hroom]
      exact .inl rfl
    · exact .inr hread
  done_open _ := ⟨by simp, by simp⟩
  refused_ok := by
    rintro p rfl
    simp

theorem headerReading_room {reps : List (Option WireField)} {fieldCap : Nat} :
    headerReading.Room ([], fieldCap) reps ↔ ∀ before after, reps = before ++ after → after ≠ [] →
      (fieldsOf before).length < fieldCap := by
  have hfull : ∀ before, ¬ headerReading.full (before.foldl headerReading.next ([], fieldCap))
      ↔ (fieldsOf before).length < fieldCap := by
    intro before
    rw [headerReading_foldl]
    exact Nat.sub_ne_zero_iff_lt
  rw [Reading.Room]
  simp only [hfull]

/-- **What the decoder of header lists accepts.** It gives the fields of the representations of a
block, if there is room for a field before each of them, also before one that is not a field; it
refuses the stream where there is no room or a string is too long; and everything else is a
compression error. Such a block is one of the grammar. -/
theorem decode_headers_exact (wire : List UInt8) (fieldCap : Nat) :
    (∀ reps, headerReading.Items wire reps → Block wire reps.reduceOption)
    ∧ (∀ fields, decodeHeaders wire fieldCap = .ok fields
      ↔ ∃ reps, headerReading.Items wire reps ∧ fieldsOf reps = fields
        ∧ ∀ before after, reps = before ++ after → after ≠ [] →
          (fieldsOf before).length < fieldCap)
    ∧ (decodeHeaders wire fieldCap = .error .refusedStream
      ↔ headerReading.Stops ([], fieldCap) wire)
    ∧ ∀ ret, decodeHeaders wire fieldCap = .error ret →
        ret = .refusedStream ∨ ret = .compressionError := by
  have hloop := headerReading_loop
  have hmap : (decodeHeadersLoop wire.length wire fieldCap).map (fun fields => fields)
      = decodeHeaders wire fieldCap := by
    rw [decodeHeaders]
    rcases decodeHeadersLoop wire.length wire fieldCap with ret | fields
    · rfl
    · rfl
  refine ⟨fun reps => items_block fun _ _ h => ReadRep.represents h, fun fields => ?_, ?_,
    fun ret h => ?_⟩
  · have hdone := hloop.done_iff (s := ([], fieldCap)) (le_refl wire.length)
      (p := .ok fields) ⟨by simp, by simp⟩
    simp only [List.nil_append, hmap, headerReading_foldl, headerReading_room, Except.ok.injEq]
      at hdone
    rw [hdone]
    constructor
    · rintro ⟨reps, hitems, hroom, rfl⟩
      exact ⟨reps, hitems, rfl, hroom⟩
    · rintro ⟨reps, hitems, rfl, hroom⟩
      exact ⟨reps, hitems, hroom, rfl⟩
  · have href := hloop.refused_iff (s := ([], fieldCap)) (le_refl wire.length)
    simp only [List.nil_append, hmap] at href
    exact href
  · -- an error is the one of `stop` or the one of `other`
    have hends := hloop.ends (s := ([], fieldCap)) (le_refl wire.length)
    simp only [List.nil_append, hmap, h] at hends
    rcases hends with ⟨reps, -, -, heq⟩ | ⟨-, href⟩ | hfail
    · cases heq
    · exact .inl (Except.error.inj href)
    · exact .inr (Except.error.inj hfail)

end C11Omo.Http2
