import C11Omo.Lib.Bytes

set_option autoImplicit false

/-! # Prefix integers

A prefix integer is a number written into the low `N` bits of an octet. A number that does not
fit there fills the `N` bits with ones, and what is left of it follows in octets of seven bits,
least significant first, each but the last with its top bit set. `PrefixInt` says which octets
stand for which number, without a bound on either; `encodePrefix` is the shortest way to write a
number.
-/

namespace C11Omo.Lib

/-- The octets of a continuation and the number they stand for. -/
inductive Continuation : List UInt8 → Nat → Prop
  | last (b : UInt8) (h : b.toNat < 128) : Continuation [b] b.toNat
  | more (b : UInt8) (h : 128 ≤ b.toNat) {bs : List UInt8} {v : Nat} (rest : Continuation bs v) :
      Continuation (b :: bs) (b.toNat % 128 + 128 * v)

/-- The octets of a prefix integer with a prefix of `N` bits and the number they stand for. -/
inductive PrefixInt (N : Nat) : List UInt8 → Nat → Prop
  | short (first : UInt8) (h : first.toNat % 2 ^ N < 2 ^ N - 1) :
      PrefixInt N [first] (first.toNat % 2 ^ N)
  | long (first : UInt8) (h : first.toNat % 2 ^ N = 2 ^ N - 1) {cont : List UInt8} {v : Nat}
      (hcont : Continuation cont v) : PrefixInt N (first :: cont) (2 ^ N - 1 + v)

/-! ## Reading -/

theorem Continuation.length_pos {bs : List UInt8} {v : Nat} (h : Continuation bs v) :
    0 < bs.length := by
  cases h with
  | last b h => exact Nat.one_pos
  | more b h rest => exact Nat.succ_pos _

/-- A continuation that starts with a low octet ends there. -/
theorem Continuation.cons_low_iff {b : UInt8} (hb : b.toNat < 128) {bs : List UInt8} {v : Nat} :
    Continuation (b :: bs) v ↔ bs = [] ∧ v = b.toNat := by
  constructor
  · intro h
    cases h with
    | last _ _ => exact ⟨rfl, rfl⟩
    | more _ hhigh _ => omega
  · rintro ⟨rfl, rfl⟩
    exact .last b hb

/-- A continuation that starts with a high octet goes on. -/
theorem Continuation.cons_high_iff {b : UInt8} (hb : 128 ≤ b.toNat) {bs : List UInt8} {v : Nat} :
    Continuation (b :: bs) v ↔ ∃ w, Continuation bs w ∧ v = b.toNat % 128 + 128 * w := by
  constructor
  · intro h
    cases h with
    | last _ hlow => omega
    | more _ _ rest => exact ⟨_, rest, rfl⟩
  · rintro ⟨w, hrest, rfl⟩
    exact .more b hb hrest

theorem PrefixInt.length_pos {N : Nat} {bs : List UInt8} {v : Nat} (h : PrefixInt N bs v) :
    0 < bs.length := by
  cases h with
  | short first h => exact Nat.one_pos
  | long first h hcont => exact Nat.succ_pos _

theorem PrefixInt.cons_short_iff {N : Nat} {first : UInt8}
    (hfirst : first.toNat % 2 ^ N < 2 ^ N - 1) {bs : List UInt8} {v : Nat} :
    PrefixInt N (first :: bs) v ↔ bs = [] ∧ v = first.toNat % 2 ^ N := by
  constructor
  · intro h
    cases h with
    | short _ _ => exact ⟨rfl, rfl⟩
    | long _ hfull _ => omega
  · rintro ⟨rfl, rfl⟩
    exact .short first hfirst

theorem PrefixInt.cons_long_iff {N : Nat} {first : UInt8}
    (hfirst : first.toNat % 2 ^ N = 2 ^ N - 1) {bs : List UInt8} {v : Nat} :
    PrefixInt N (first :: bs) v ↔ ∃ w, Continuation bs w ∧ v = 2 ^ N - 1 + w := by
  constructor
  · intro h
    cases h with
    | short _ hshort => omega
    | long _ _ hcont => exact ⟨_, hcont, rfl⟩
  · rintro ⟨w, hcont, rfl⟩
    exact .long first hfirst hcont

/-- Two continuations at the start of the same octets are the same. -/
theorem Continuation.append_inj {bs : List UInt8} {v : Nat} (h : Continuation bs v)
    {bs' rest rest' : List UInt8} {v' : Nat} (h' : Continuation bs' v')
    (heq : bs ++ rest = bs' ++ rest') : bs = bs' ∧ v = v' := by
  induction h generalizing bs' v' with
  | last b hb =>
      cases h' with
      | last b' hb' =>
          obtain ⟨rfl, -⟩ := List.cons.inj heq
          exact ⟨rfl, rfl⟩
      | more b' hb' hrest' =>
          obtain ⟨rfl, -⟩ := List.cons.inj heq
          omega
  | more b hb hrest ih =>
      cases h' with
      | last b' hb' =>
          obtain ⟨rfl, -⟩ := List.cons.inj heq
          omega
      | more b' hb' hrest' =>
          obtain ⟨rfl, htail⟩ := List.cons.inj heq
          obtain ⟨rfl, rfl⟩ := ih hrest' htail
          exact ⟨rfl, rfl⟩

/-- **A prefix integer says where it ends**: two of them at the start of the same octets are the
same. -/
theorem PrefixInt.append_inj {N : Nat} {bs bs' rest rest' : List UInt8} {v v' : Nat}
    (h : PrefixInt N bs v) (h' : PrefixInt N bs' v') (heq : bs ++ rest = bs' ++ rest') :
    bs = bs' ∧ v = v' := by
  cases h with
  | short first hfirst =>
      cases h' with
      | short first' hfirst' =>
          obtain ⟨rfl, -⟩ := List.cons.inj heq
          exact ⟨rfl, rfl⟩
      | long first' hfirst' hcont' =>
          obtain ⟨rfl, -⟩ := List.cons.inj heq
          omega
  | long first hfirst hcont =>
      cases h' with
      | short first' hfirst' =>
          obtain ⟨rfl, -⟩ := List.cons.inj heq
          omega
      | long first' hfirst' hcont' =>
          obtain ⟨rfl, htail⟩ := List.cons.inj heq
          obtain ⟨rfl, rfl⟩ := hcont.append_inj hcont' htail
          exact ⟨rfl, rfl⟩

/-! ## Writing -/

/-- The shortest continuation for a number. -/
def continuationOctets (v : Nat) : List UInt8 :=
  if v < 128 then [UInt8.ofNat v]
  else UInt8.ofNat (v % 128 + 128) :: continuationOctets (v / 128)
termination_by v
decreasing_by omega

/-- The shortest prefix integer for a number; `high` goes into the bits above the prefix. -/
def encodePrefix (N high v : Nat) : List UInt8 :=
  if v < 2 ^ N - 1 then [UInt8.ofNat (high + v)]
  else UInt8.ofNat (high + (2 ^ N - 1)) :: continuationOctets (v - (2 ^ N - 1))

theorem continuationOctets_low {v : Nat} (h : v < 128) :
    continuationOctets v = [UInt8.ofNat v] := by
  rw [continuationOctets, if_pos h]

theorem continuationOctets_high {v : Nat} (h : 128 ≤ v) :
    continuationOctets v = UInt8.ofNat (v % 128 + 128) :: continuationOctets (v / 128) := by
  rw [continuationOctets, if_neg (by omega)]

/-- What is written is read back. -/
theorem continuation_encode (v : Nat) : Continuation (continuationOctets v) v := by
  induction v using Nat.strong_induction_on with
  | _ v ih =>
      by_cases hlow : v < 128
      · have hbyte : (UInt8.ofNat v).toNat = v := by
          rw [UInt8.toNat_ofNat']
          omega
        rw [continuationOctets_low hlow, Continuation.cons_low_iff (by omega)]
        exact ⟨rfl, hbyte.symm⟩
      · have hbyte : (UInt8.ofNat (v % 128 + 128)).toNat = v % 128 + 128 := by
          rw [UInt8.toNat_ofNat']
          omega
        rw [continuationOctets_high (by omega), Continuation.cons_high_iff (by omega)]
        refine ⟨v / 128, ih (v / 128) (by omega), ?_⟩
        rw [hbyte]
        omega

/-- A number of `7 * k` bits takes at most `k` octets. -/
theorem continuationOctets_length_le {k v : Nat} (h : v < 128 ^ (k + 1)) :
    (continuationOctets v).length ≤ k + 1 := by
  induction k generalizing v with
  | zero =>
      rw [continuationOctets_low (by omega)]
      exact Nat.le_refl _
  | succ k ih =>
      by_cases hlow : v < 128
      · rw [continuationOctets_low hlow, List.length_singleton]
        omega
      · have hdiv : v / 128 < 128 ^ (k + 1) := by
          rw [Nat.div_lt_iff_lt_mul (by omega)]
          rwa [pow_succ] at h
        have hrest := ih hdiv
        rw [continuationOctets_high (by omega), List.length_cons]
        omega

/-- **What is written is read back**, if `high` keeps out of the prefix. -/
theorem prefixInt_encode {N high : Nat} (hN : N ≤ 8) (hhigh : high < 256)
    (hover : 2 ^ N ∣ high) (v : Nat) : PrefixInt N (encodePrefix N high v) v := by
  have hpow : (2 : Nat) ^ N ∣ 256 := Nat.pow_dvd_pow_iff_le_right'.mpr hN
  -- the first octet is not cut: `high` leaves room for the prefix
  have hroom : high + (2 ^ N - 1) < 256 := by
    obtain ⟨a, rfl⟩ := hover
    obtain ⟨b, hb⟩ := hpow
    have hab : a < b := by
      rw [hb] at hhigh
      exact Nat.lt_of_mul_lt_mul_left hhigh
    have hle : 2 ^ N * (a + 1) ≤ 2 ^ N * b := Nat.mul_le_mul_left _ hab
    have hpos : 0 < 2 ^ N := Nat.two_pow_pos N
    rw [Nat.mul_add, Nat.mul_one] at hle
    omega
  have hmod : ∀ u, u < 2 ^ N → high + u < 256 →
      (UInt8.ofNat (high + u)).toNat % 2 ^ N = u := by
    intro u hu hlt
    obtain ⟨a, rfl⟩ := hover
    rw [UInt8.toNat_ofNat', Nat.mod_eq_of_lt hlt, Nat.mul_add_mod, Nat.mod_eq_of_lt hu]
  have hpos : 0 < 2 ^ N := Nat.two_pow_pos N
  rw [encodePrefix]
  by_cases hlow : v < 2 ^ N - 1
  · have hfirst := hmod v (by omega) (by omega)
    rw [if_pos hlow, PrefixInt.cons_short_iff (by omega)]
    exact ⟨rfl, hfirst.symm⟩
  · have hfirst := hmod (2 ^ N - 1) (by omega) hroom
    rw [if_neg hlow, PrefixInt.cons_long_iff hfirst]
    exact ⟨_, continuation_encode _, by omega⟩

end C11Omo.Lib
