import C11Omo.Http2.Hpack
import C11Omo.Lib.PrefixInt

set_option autoImplicit false

/-! # What a header block says

The grammar of header blocks, apart from the code that reads them: a block is a sequence of
representations, each of a header field or of a change of the size of the dynamic table. There are
no bounds on numbers and lengths here, and the static table is the only one, since a field that
refers to the dynamic table is never accepted. A string may be compressed; its octets are then
the compressed ones.

The grammar is unambiguous: a block stands for one list of fields (`Block.unique`).
-/

namespace C11Omo.Http2

open C11Omo.Lib

/-- A string as it is transmitted. -/
structure WireString where
  huffman : Bool
  octets : List UInt8
  deriving DecidableEq, Repr

/-- A header field as it is transmitted. -/
structure WireField where
  name : WireString
  value : WireString
  deriving DecidableEq, Repr

/-- The string of a table entry, which is not compressed. -/
def WireString.plain (octets : List UInt8) : WireString := { huffman := false, octets := octets }

/-! ## The grammar -/

/-- A string literal: a bit that says whether it is compressed, its length and its octets. -/
inductive StringLiteral : List UInt8 → WireString → Prop
  | mk {first : UInt8} {tail octets : List UInt8}
      (hlen : PrefixInt 7 (first :: tail) octets.length) :
      StringLiteral (first :: tail ++ octets)
        { huffman := decide (128 ≤ first.toNat), octets := octets }

/-- The width of the index of a literal: with incremental indexing (`01`), and without indexing or
never indexed (`000`). -/
inductive LiteralPrefix (first : UInt8) : Nat → Prop
  | indexing (h : first.toNat / 64 = 1) : LiteralPrefix first 6
  | plain (h : first.toNat / 32 = 0) : LiteralPrefix first 4

/-- The name of a literal: an entry of the static table, or a string after the index zero. -/
inductive NameLiteral : List UInt8 → WireString → Prop
  | static {first : UInt8} {tail : List UInt8} {bits index : Nat} {entry : StaticEntry}
      (hbits : LiteralPrefix first bits) (hindex : PrefixInt bits (first :: tail) index)
      (hentry : staticGet index = some entry) :
      NameLiteral (first :: tail) (.plain entry.name)
  | new {first : UInt8} {tail octets : List UInt8} {bits : Nat} {name : WireString}
      (hbits : LiteralPrefix first bits) (hindex : PrefixInt bits (first :: tail) 0)
      (hname : StringLiteral octets name) :
      NameLiteral (first :: tail ++ octets) name

/-- A representation: of a field, or of a size update. -/
inductive Represents : List UInt8 → Option WireField → Prop
  | indexed {first : UInt8} {tail : List UInt8} {index : Nat} {entry : StaticEntry}
      (hfirst : 128 ≤ first.toNat) (hindex : PrefixInt 7 (first :: tail) index)
      (hentry : staticGet index = some entry) :
      Represents (first :: tail)
        (some { name := .plain entry.name, value := .plain entry.value })
  | update {first : UInt8} {tail : List UInt8} {size : Nat} (hfirst : first.toNat / 32 = 1)
      (hsize : PrefixInt 5 (first :: tail) size) : Represents (first :: tail) none
  | literal {octets octets' : List UInt8} {name value : WireString}
      (hname : NameLiteral octets name) (hvalue : StringLiteral octets' value) :
      Represents (octets ++ octets') (some { name := name, value := value })

/-- A header block and its fields in order. -/
inductive Block : List UInt8 → List WireField → Prop
  | nil : Block [] []
  | cons {octets rest : List UInt8} {f : Option WireField} {fields : List WireField}
      (hrep : Represents octets f) (hrest : Block rest fields) :
      Block (octets ++ rest) (f.toList ++ fields)

/-! ## The first octet -/

theorem NameLiteral.first {octets : List UInt8} {name : WireString} (h : NameLiteral octets name) :
    ∃ first tail, octets = first :: tail ∧ (first.toNat / 64 = 1 ∨ first.toNat / 32 = 0) := by
  have hbits : ∀ {first : UInt8} {bits : Nat}, LiteralPrefix first bits →
      first.toNat / 64 = 1 ∨ first.toNat / 32 = 0 := by
    intro first bits hprefix
    cases hprefix with
    | indexing h => exact Or.inl h
    | plain h => exact Or.inr h
  cases h with
  | static hprefix hindex hentry => exact ⟨_, _, rfl, hbits hprefix⟩
  | new hprefix hindex hname => exact ⟨_, _, rfl, hbits hprefix⟩

theorem Represents.ne_nil {octets : List UInt8} {f : Option WireField}
    (h : Represents octets f) : octets ≠ [] := by
  cases h with
  | indexed hfirst hindex hentry => exact List.cons_ne_nil _ _
  | update hfirst hsize => exact List.cons_ne_nil _ _
  | literal hname hvalue =>
      obtain ⟨first, tail, rfl, -⟩ := hname.first
      exact List.cons_ne_nil _ _

/-! ## No two readings -/

theorem LiteralPrefix.unique {first : UInt8} {bits bits' : Nat} (h : LiteralPrefix first bits)
    (h' : LiteralPrefix first bits') : bits = bits' := by
  cases h with
  | indexing h =>
      cases h' with
      | indexing h' => rfl
      | plain h' => omega
  | plain h =>
      cases h' with
      | indexing h' => omega
      | plain h' => rfl

theorem StringLiteral.append_inj {octets octets' rest rest' : List UInt8} {s s' : WireString}
    (h : StringLiteral octets s) (h' : StringLiteral octets' s')
    (heq : octets ++ rest = octets' ++ rest') : octets = octets' ∧ s = s' := by
  obtain ⟨hlen⟩ := h
  obtain ⟨hlen'⟩ := h'
  rw [List.append_assoc, List.append_assoc] at heq
  obtain ⟨hhead, hlength⟩ := hlen.append_inj hlen' heq
  obtain ⟨rfl, rfl⟩ := List.cons.inj hhead
  obtain ⟨rfl, -⟩ := List.append_inj (List.append_cancel_left heq) hlength
  exact ⟨rfl, rfl⟩

theorem NameLiteral.append_inj {octets octets' rest rest' : List UInt8} {s s' : WireString}
    (h : NameLiteral octets s) (h' : NameLiteral octets' s')
    (heq : octets ++ rest = octets' ++ rest') : octets = octets' ∧ s = s' := by
  -- the index zero is not in the static table
  have hzero : ∀ {entry : StaticEntry}, staticGet 0 ≠ some entry := by
    intro entry hentry
    cases hentry
  cases h with
  | static hbits hindex hentry =>
      cases h' with
      | static hbits' hindex' hentry' =>
          obtain ⟨rfl, -⟩ := List.cons.inj heq
          obtain rfl := hbits.unique hbits'
          obtain ⟨hoctets, rfl⟩ := hindex.append_inj hindex' heq
          obtain rfl := Option.some.inj (hentry.symm.trans hentry')
          exact ⟨hoctets, rfl⟩
      | new hbits' hindex' hname' =>
          rw [List.append_assoc] at heq
          obtain ⟨rfl, -⟩ := List.cons.inj heq
          obtain rfl := hbits.unique hbits'
          obtain ⟨-, rfl⟩ := hindex.append_inj hindex' heq
          exact absurd hentry hzero
  | new hbits hindex hname =>
      rw [List.append_assoc] at heq
      cases h' with
      | static hbits' hindex' hentry' =>
          obtain ⟨rfl, -⟩ := List.cons.inj heq
          obtain rfl := hbits.unique hbits'
          obtain ⟨-, rfl⟩ := hindex.append_inj hindex' heq
          exact absurd hentry' hzero
      | new hbits' hindex' hname' =>
          rw [List.append_assoc] at heq
          obtain ⟨rfl, -⟩ := List.cons.inj heq
          obtain rfl := hbits.unique hbits'
          obtain ⟨hoctets, -⟩ := hindex.append_inj hindex' heq
          obtain ⟨-, rfl⟩ := List.cons.inj hoctets
          obtain ⟨rfl, rfl⟩ := hname.append_inj hname' (List.append_cancel_left heq)
          exact ⟨rfl, rfl⟩

/-- **A representation says where it ends.** -/
theorem Represents.append_inj {octets octets' rest rest' : List UInt8} {f f' : Option WireField}
    (h : Represents octets f) (h' : Represents octets' f')
    (heq : octets ++ rest = octets' ++ rest') : octets = octets' ∧ f = f' := by
  cases h with
  | indexed hfirst hindex hentry =>
      cases h' with
      | indexed hfirst' hindex' hentry' =>
          obtain ⟨hoctets, rfl⟩ := hindex.append_inj hindex' heq
          obtain rfl := Option.some.inj (hentry.symm.trans hentry')
          exact ⟨hoctets, rfl⟩
      | update hfirst' hsize' =>
          obtain ⟨rfl, -⟩ := List.cons.inj heq
          omega
      | literal hname' hvalue' =>
          obtain ⟨first', tail', rfl, hlow⟩ := hname'.first
          obtain ⟨rfl, -⟩ := List.cons.inj heq
          omega
  | update hfirst hsize =>
      cases h' with
      | indexed hfirst' hindex' hentry' =>
          obtain ⟨rfl, -⟩ := List.cons.inj heq
          omega
      | update hfirst' hsize' => exact ⟨(hsize.append_inj hsize' heq).1, rfl⟩
      | literal hname' hvalue' =>
          obtain ⟨first', tail', rfl, hlow⟩ := hname'.first
          obtain ⟨rfl, -⟩ := List.cons.inj heq
          omega
  | literal hname hvalue =>
      cases h' with
      | indexed hfirst' hindex' hentry' =>
          obtain ⟨first, tail, rfl, hlow⟩ := hname.first
          obtain ⟨rfl, -⟩ := List.cons.inj heq
          omega
      | update hfirst' hsize' =>
          obtain ⟨first, tail, rfl, hlow⟩ := hname.first
          obtain ⟨rfl, -⟩ := List.cons.inj heq
          omega
      | literal hname' hvalue' =>
          rw [List.append_assoc, List.append_assoc] at heq
          obtain ⟨rfl, rfl⟩ := hname.append_inj hname' heq
          obtain ⟨rfl, rfl⟩ := hvalue.append_inj hvalue' (List.append_cancel_left heq)
          exact ⟨rfl, rfl⟩

/-- **A block stands for one list of fields.** -/
theorem Block.unique {wire : List UInt8} {fields fields' : List WireField} (h : Block wire fields)
    (h' : Block wire fields') : fields = fields' := by
  induction h generalizing fields' with
  | nil =>
      generalize hwire : ([] : List UInt8) = wire at h'
      cases h' with
      | nil => rfl
      | cons hrep hrest => exact absurd (List.append_eq_nil_iff.mp hwire.symm).1 hrep.ne_nil
  | @cons octets rest f fields hrep hrest ih =>
      generalize hwire : octets ++ rest = wire at h'
      cases h' with
      | nil => exact absurd (List.append_eq_nil_iff.mp hwire).1 hrep.ne_nil
      | cons hrep' hrest' =>
          obtain ⟨rfl, rfl⟩ := hrep.append_inj hrep' hwire
          obtain rfl := List.append_cancel_left hwire
          rw [ih hrest']

end C11Omo.Http2
