import C11Omo.IoUring.Ring

set_option autoImplicit false

/-! # user_data

A completion names its descriptor, the generation of its registration and its kind in one
`uint64_t`: the descriptor in the low half, the generation in 30 bits above it, and one of the
flags above that for a cancellation or a timeout. The parts do not overlap, so what is packed is
read back, for every descriptor and every generation, and the generations wrap around within their
30 bits.
-/

namespace C11Omo.IoUring

open C11Omo.Http2 C11Omo.Lib

section

variable {fd fd' : Int} {generation generation' userData : Nat}

theorem toUInt32_lt (fd : Int) : toUInt32 fd < 2 ^ 32 := by
  rw [toUInt32]
  have hpos := Int.emod_nonneg fd (show (4294967296 : Int) ≠ 0 by decide)
  have hlt := Int.emod_lt_of_pos fd (show (0 : Int) < 4294967296 by decide)
  omega

/-- The descriptor and the generation side by side. -/
theorem pollUserData_eq (fd : Int) (generation : Nat) :
    pollUserData fd generation = generation % 2 ^ 30 * 2 ^ 32 + toUInt32 fd := by
  have hmask : generation &&& uringGenerationMask = generation % 2 ^ 30 :=
    Nat.and_two_pow_sub_one_eq_mod generation 30
  rw [pollUserData, hmask, shiftLeft_or (toUInt32_lt fd)]

theorem pollUserData_lt (fd : Int) (generation : Nat) : pollUserData fd generation < 2 ^ 62 := by
  have hfd := toUInt32_lt fd
  have hgen := Nat.mod_lt generation (show 0 < 2 ^ 30 by decide)
  rw [pollUserData_eq]
  omega

/-- A cancellation is a poll with the topmost bit. -/
theorem cancelUserData_eq (fd : Int) (generation : Nat) :
    cancelUserData fd generation = 2 ^ 63 + pollUserData fd generation := by
  have hlt : pollUserData fd generation < 2 ^ 63 := by
    have h := pollUserData_lt fd generation
    omega
  have hflag : uringCancelFlag = 2 ^ 63 * 1 := rfl
  rw [cancelUserData, hflag, ← Nat.two_pow_add_eq_or_of_lt hlt, Nat.mul_one]

theorem and_flag_ne_zero (userData i : Nat) :
    (userData &&& 2 ^ i ≠ 0) ↔ userData.testBit i = true := by
  rw [Nat.and_two_pow]
  rcases userData.testBit i with _ | _
  · simp
  · simp

theorem isCancelUserData_eq (userData : Nat) :
    isCancelUserData userData = userData.testBit 63 := by
  rw [Bool.eq_iff_iff, isCancelUserData, decide_eq_true_iff]
  exact and_flag_ne_zero userData 63

theorem isTimeoutUserData_eq (userData : Nat) :
    isTimeoutUserData userData = userData.testBit 62 := by
  rw [Bool.eq_iff_iff, isTimeoutUserData, decide_eq_true_iff]
  exact and_flag_ne_zero userData 62

theorem userDataGeneration_eq (userData : Nat) :
    userDataGeneration userData = userData / 2 ^ 32 % 2 ^ 30 := by
  rw [userDataGeneration, Nat.shiftRight_and_distrib, Nat.shiftRight_eq_div_pow]
  exact Nat.and_two_pow_sub_one_eq_mod _ 30

theorem userDataFd_eq (userData : Nat) : userDataFd userData = toInt32 (userData % 2 ^ 32) := by
  rw [userDataFd]
  exact congrArg toInt32 (Nat.and_two_pow_sub_one_eq_mod userData 32)

/-! ## The three kinds -/

@[simp] theorem isCancelUserData_poll (fd : Int) (generation : Nat) :
    isCancelUserData (pollUserData fd generation) = false := by
  have hlt := pollUserData_lt fd generation
  rw [isCancelUserData_eq]
  exact Nat.testBit_lt_two_pow (by omega)

@[simp] theorem isTimeoutUserData_poll (fd : Int) (generation : Nat) :
    isTimeoutUserData (pollUserData fd generation) = false := by
  rw [isTimeoutUserData_eq]
  exact Nat.testBit_lt_two_pow (pollUserData_lt fd generation)

@[simp] theorem isCancelUserData_cancel (fd : Int) (generation : Nat) :
    isCancelUserData (cancelUserData fd generation) = true := by
  have hlt := pollUserData_lt fd generation
  rw [isCancelUserData_eq, cancelUserData_eq, Nat.testBit_two_pow_add_eq,
    Nat.testBit_lt_two_pow (by omega)]
  rfl

@[simp] theorem isTimeoutUserData_cancel (fd : Int) (generation : Nat) :
    isTimeoutUserData (cancelUserData fd generation) = false := by
  rw [isTimeoutUserData_eq, cancelUserData_eq, Nat.testBit_two_pow_add_gt (show 62 < 63 by omega)]
  exact Nat.testBit_lt_two_pow (pollUserData_lt fd generation)

@[simp] theorem isTimeoutUserData_timeout : isTimeoutUserData uringTimeoutFlag = true := by
  have hflag : uringTimeoutFlag = 2 ^ 62 := rfl
  rw [isTimeoutUserData_eq, hflag, Nat.testBit_two_pow_self]

/-! ## What is packed is read back -/

theorem toInt32_toUInt32 (hfd : -2 ^ 31 ≤ fd ∧ fd < 2 ^ 31) : toInt32 (toUInt32 fd) = fd := by
  have hpos := Int.emod_nonneg fd (show (4294967296 : Int) ≠ 0 by decide)
  have hcast : ((toUInt32 fd : Nat) : Int) = fd % 4294967296 := by
    rw [toUInt32, Int.toNat_of_nonneg hpos]
  show Int.bmod ((toUInt32 fd : Nat) : Int) 4294967296 = fd
  rw [Int.bmod_eq_iff (by decide), hcast]
  refine ⟨by norm_num; omega, by norm_num; omega, ?_⟩
  exact Int.dvd_self_sub_emod

theorem userDataFd_poll (hfd : -2 ^ 31 ≤ fd ∧ fd < 2 ^ 31) (generation : Nat) :
    userDataFd (pollUserData fd generation) = fd := by
  have hlow : pollUserData fd generation % 2 ^ 32 = toUInt32 fd := by
    have hlt := toUInt32_lt fd
    rw [pollUserData_eq]
    omega
  rw [userDataFd_eq, hlow, toInt32_toUInt32 hfd]

theorem userDataFd_cancel (hfd : -2 ^ 31 ≤ fd ∧ fd < 2 ^ 31) (generation : Nat) :
    userDataFd (cancelUserData fd generation) = fd := by
  have hlow : cancelUserData fd generation % 2 ^ 32 = toUInt32 fd := by
    have hlt := toUInt32_lt fd
    rw [cancelUserData_eq, pollUserData_eq]
    omega
  rw [userDataFd_eq, hlow, toInt32_toUInt32 hfd]

theorem userDataGeneration_poll (fd : Int) (generation : Nat) :
    userDataGeneration (pollUserData fd generation) = generation % 2 ^ 30 := by
  have hlt := toUInt32_lt fd
  have hgen := Nat.mod_lt generation (show 0 < 2 ^ 30 by decide)
  rw [userDataGeneration_eq, pollUserData_eq]
  omega

theorem userDataGeneration_cancel (fd : Int) (generation : Nat) :
    userDataGeneration (cancelUserData fd generation) = generation % 2 ^ 30 := by
  have hlt := toUInt32_lt fd
  have hgen := Nat.mod_lt generation (show 0 < 2 ^ 30 by decide)
  rw [userDataGeneration_eq, cancelUserData_eq, pollUserData_eq]
  omega

/-- Polls are told apart by descriptor and generation. -/
theorem pollUserData_inj (hfd : -2 ^ 31 ≤ fd ∧ fd < 2 ^ 31) (hfd' : -2 ^ 31 ≤ fd' ∧ fd' < 2 ^ 31) :
    pollUserData fd generation = pollUserData fd' generation'
      ↔ fd = fd' ∧ generation % 2 ^ 30 = generation' % 2 ^ 30 := by
  constructor
  · intro h
    have hslot := congrArg userDataFd h
    have hgen := congrArg userDataGeneration h
    rw [userDataFd_poll hfd, userDataFd_poll hfd'] at hslot
    rw [userDataGeneration_poll, userDataGeneration_poll] at hgen
    exact ⟨hslot, hgen⟩
  · rintro ⟨rfl, hgen⟩
    rw [pollUserData_eq, pollUserData_eq, hgen]

theorem pollUserData_ne_cancel (fd fd' : Int) (generation generation' : Nat) :
    pollUserData fd generation ≠ cancelUserData fd' generation' := by
  intro h
  have hkind := congrArg isCancelUserData h
  rw [isCancelUserData_poll, isCancelUserData_cancel] at hkind
  cases hkind

end

/-! ## The index of a descriptor -/

theorem slot_range (i : Fin uringMaxFds) : -2 ^ 31 ≤ (i : Int) ∧ (i : Int) < 2 ^ 31 := by
  have hlt : (i : Nat) < 4096 := i.isLt
  omega

@[simp] theorem fdSlot_slot (i : Fin uringMaxFds) : fdSlot (i : Int) = some i := by
  have hlt : (i : Nat) < 4096 := i.isLt
  rw [fdSlot, dif_pos ⟨by omega, by omega⟩]
  rfl

theorem fdSlot_eq_some {fd : Int} {i : Fin uringMaxFds} : fdSlot fd = some i ↔ fd = i := by
  constructor
  · intro h
    rw [fdSlot] at h
    split_ifs at h with hfd
    rw [← Option.some.inj h]
    exact (Int.toNat_of_nonneg hfd.1).symm
  · rintro rfl
    exact fdSlot_slot i

end C11Omo.IoUring
