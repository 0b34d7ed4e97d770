import C11Omo.Lib.Bytes
import C11Omo.Lib.Items

set_option autoImplicit false

/-! # The command line of the server

`main` of `src/main.c` up to the call of `h2_server_run`, and the two functions that read numbers
from arguments. These rely on `strtoul`, which skips blanks, takes a sign and wraps a negative number
around, so the exact statement of what they accept has more in it than digits
(`parse_number_exact`). How wide an `unsigned long` is depends on the platform; its largest value is
a parameter.
-/

namespace C11Omo.Http2

open C11Omo.Lib

/-! ## Numbers -/

/-- `isspace` in the C locale. -/
def isSpace (byte : UInt8) : Bool := byte = 0x20 ∨ (0x09 ≤ byte ∧ byte ≤ 0x0d)

/-- A digit to base ten. -/
def isDecimal (byte : UInt8) : Bool := 0x30 ≤ byte ∧ byte ≤ 0x39

/-- The number that some digits stand for. -/
def digitsValue (digits : List UInt8) : Nat := digits.foldl (fun n d => 10 * n + (d.toNat - 48)) 0

/-- The blanks that `strtoul` skips. -/
def leadingBlanks (text : List UInt8) : List UInt8 := text.takeWhile isSpace

/-- The sign behind them, if there is one. -/
def leadingSign (text : List UInt8) : List UInt8 :=
  ((text.drop (leadingBlanks text).length).take 1).filter fun b => b = 0x2b ∨ b = 0x2d

/-- The digits behind that. -/
def leadingDigits (text : List UInt8) : List UInt8 :=
  (text.drop ((leadingBlanks text).length + (leadingSign text).length)).takeWhile isDecimal

/-- `strtoul(text, &end, 10)`: the value, the number of characters before `end`, and whether it sets
`errno` to `ERANGE`. The text is the one before the zero byte. -/
def strtoul (ulongMax : Nat) (text : List UInt8) : Nat × Nat × Bool :=
  let used := (leadingBlanks text).length + (leadingSign text).length + (leadingDigits text).length
  if leadingDigits text = [] then (0, 0, false)
  else if digitsValue (leadingDigits text) > ulongMax then (ulongMax, used, true)
  else if leadingSign text = [0x2d] then
    ((ulongMax + 1 - digitsValue (leadingDigits text)) % (ulongMax + 1), used, false)
  else (digitsValue (leadingDigits text), used, false)

/-- The body of `h2_parse_u16` and `h2_parse_unsigned`, for a text that is there. -/
def parseNumber (ulongMax limit : Nat) (text : List UInt8) : Option Nat :=
  if text.head? = some 0x2d then none
  else
    let (value, used, erange) := strtoul ulongMax text
    if erange ∨ used = 0 ∨ used ≠ text.length ∨ value > limit then none else some value

/-- `h2_parse_u16`. -/
def parseU16 (ulongMax : Nat) (text : List UInt8) : Option Nat := parseNumber ulongMax 65535 text

/-- `h2_parse_unsigned`; an `unsigned` has 32 bits. -/
def parseUnsigned (ulongMax : Nat) (text : List UInt8) : Option Nat :=
  parseNumber ulongMax 4294967295 text

/-- A text that `strtoul` reads to its end: blanks, a sign or none, and digits. -/
structure Numeral where
  blanks : List UInt8
  sign : List UInt8
  digits : List UInt8
  blanks_space : ∀ b ∈ blanks, isSpace b = true
  sign_cases : sign = [] ∨ sign = [0x2b] ∨ sign = [0x2d]
  digits_ne_nil : digits ≠ []
  digits_decimal : ∀ b ∈ digits, isDecimal b = true

namespace Numeral

def text (n : Numeral) : List UInt8 := n.blanks ++ (n.sign ++ n.digits)

/-- The value that `strtoul` gives, unless the digits are out of range. -/
def value (ulongMax : Nat) (n : Numeral) : Nat :=
  if n.sign = [0x2d] then (ulongMax + 1 - digitsValue n.digits) % (ulongMax + 1) else digitsValue n.digits

variable (n : Numeral)

theorem digits_head : ∃ d ds, n.digits = d :: ds ∧ isDecimal d = true := by
  obtain ⟨d, ds, heq⟩ := List.exists_cons_of_ne_nil n.digits_ne_nil
  exact ⟨d, ds, heq, n.digits_decimal d (by rw [heq]; exact List.mem_cons_self)⟩

/-- A digit is neither a blank nor a sign. -/
theorem isDecimal_spec : ∀ b : UInt8, isDecimal b = true →
    isSpace b = false ∧ b ≠ 0x2b ∧ b ≠ 0x2d :=
  forall_octet (by decide +kernel)

theorem leadingBlanks_text : leadingBlanks n.text = n.blanks := by
  have hrest : (n.sign ++ n.digits).takeWhile isSpace = [] := by
    obtain ⟨d, ds, heq, hd⟩ := n.digits_head
    rcases n.sign_cases with h | h | h
    · rw [h, heq, List.nil_append, List.takeWhile_cons_of_neg (by simp [(isDecimal_spec d hd).1])]
    · rw [h]
      rfl
    · rw [h]
      rfl
  rw [leadingBlanks, text, List.takeWhile_append_of_pos n.blanks_space, hrest, List.append_nil]

theorem leadingSign_text : leadingSign n.text = n.sign := by
  rw [leadingSign, leadingBlanks_text, text, List.drop_left]
  obtain ⟨d, ds, heq, hd⟩ := n.digits_head
  obtain ⟨-, hplus, hminus⟩ := isDecimal_spec d hd
  rcases n.sign_cases with h | h | h
  · rw [h, heq]
    simp [hplus, hminus]
  · rw [h]
    rfl
  · rw [h]
    rfl

theorem leadingDigits_text : leadingDigits n.text = n.digits := by
  rw [leadingDigits, leadingSign_text, leadingBlanks_text, text, ← List.drop_drop, List.drop_left,
    List.drop_left, List.takeWhile_eq_self_iff]
  exact n.digits_decimal

/-- **`strtoul` reads a numeral** to its end. -/
theorem strtoul_text (ulongMax : Nat) : strtoul ulongMax n.text
    = if digitsValue n.digits > ulongMax then (ulongMax, n.text.length, true)
      else (n.value ulongMax, n.text.length, false) := by
  have hlength : n.blanks.length + n.sign.length + n.digits.length = n.text.length := by
    rw [text, List.length_append, List.length_append, Nat.add_assoc]
  rw [strtoul, leadingDigits_text, leadingSign_text, leadingBlanks_text]
  simp only [if_neg n.digits_ne_nil, hlength, value]
  split_ifs <;> rfl

/-- A numeral starts with a minus sign if it has one and no blanks. -/
theorem head_text : n.text.head? = some 0x2d ↔ n.blanks = [] ∧ n.sign = [0x2d] := by
  obtain ⟨d, ds, heq, hd⟩ := n.digits_head
  obtain ⟨-, -, hminus⟩ := isDecimal_spec d hd
  rw [text]
  cases hblanks : n.blanks with
  | nil =>
      rcases n.sign_cases with h | h | h
      · rw [h, heq]
        simp [hminus]
      · rw [h]
        simp
      · rw [h]
        simp
  | cons b bs =>
      have hspace := n.blanks_space b (by rw [hblanks]; exact List.mem_cons_self)
      have hb : b ≠ 0x2d := by
        rintro rfl
        exact absurd hspace (by decide)
      simp [hb]

end Numeral

/-- The parts of a text that `strtoul` looks at, and what is left. -/
theorem text_parts (text : List UInt8) : ∃ rest,
    text = leadingBlanks text ++ (leadingSign text ++ (leadingDigits text ++ rest)) := by
  have hsign : ∀ signed : List UInt8, ((signed.take 1).filter fun b => b = 0x2b ∨ b = 0x2d)
      ++ signed.drop ((signed.take 1).filter fun b => b = 0x2b ∨ b = 0x2d).length = signed := by
    intro signed
    cases signed with
    | nil => rfl
    | cons b bs =>
        by_cases hb : b = 0x2b ∨ b = 0x2d
        · simp [hb]
        · simp [hb]
  have hblanks : leadingBlanks text ++ text.drop (leadingBlanks text).length = text :=
    List.prefix_iff_eq_append.mp (List.takeWhile_prefix isSpace)
  have hdigits := List.prefix_iff_eq_append.mp (List.takeWhile_prefix isDecimal
    (l := text.drop ((leadingBlanks text).length + (leadingSign text).length)))
  have hrest := hsign (text.drop (leadingBlanks text).length)
  rw [← leadingDigits] at hdigits
  rw [← leadingSign, List.drop_drop, ← hdigits] at hrest
  exact ⟨_, hblanks.symm.trans (congrArg _ hrest.symm)⟩

/-- Whatever `strtoul` reads to its end is a numeral. -/
theorem exists_numeral {ulongMax value used : Nat} {erange : Bool} {text : List UInt8}
    (h : strtoul ulongMax text = (value, used, erange)) (h0 : used ≠ 0)
    (hend : used = text.length) : ∃ n : Numeral, n.text = text := by
  have hused : leadingDigits text ≠ [] ∧ used
      = (leadingBlanks text).length + (leadingSign text).length + (leadingDigits text).length := by
    rw [strtoul] at h
    split_ifs at h with hnil
    · exact absurd (Prod.mk.inj (Prod.mk.inj h).2).1.symm h0
    · exact ⟨hnil, (Prod.mk.inj (Prod.mk.inj h).2).1.symm⟩
    · exact ⟨hnil, (Prod.mk.inj (Prod.mk.inj h).2).1.symm⟩
    · exact ⟨hnil, (Prod.mk.inj (Prod.mk.inj h).2).1.symm⟩
  obtain ⟨rest, hparts⟩ := text_parts text
  have hlength := congrArg List.length hparts
  simp only [List.length_append] at hlength
  have hrest : rest = [] := List.eq_nil_of_length_eq_zero (by omega)
  rw [hrest, List.append_nil] at hparts
  refine ⟨{ blanks := leadingBlanks text, sign := leadingSign text, digits := leadingDigits text
            blanks_space := fun b hb => List.mem_takeWhile_imp hb
            sign_cases := ?_, digits_ne_nil := hused.1
            digits_decimal := fun b hb => List.mem_takeWhile_imp hb }, hparts.symm⟩
  rw [leadingSign]
  cases text.drop (leadingBlanks text).length with
  | nil => exact .inl rfl
  | cons b bs =>
      by_cases hplus : b = 0x2b
      · exact .inr (.inl (by simp [hplus]))
      · by_cases hminus : b = 0x2d
        · exact .inr (.inr (by simp [hminus]))
        · exact .inl (by simp [hplus, hminus])

/-- A text denotes a number within a limit: it is a numeral of at most `ulongMax` with this value. It
does not start with a minus sign; but behind a blank there may be one, and then the number wraps
around. -/
def Denotes (ulongMax limit : Nat) (text : List UInt8) (value : Nat) : Prop :=
  ∃ n : Numeral, n.text = text ∧ ¬ (n.blanks = [] ∧ n.sign = [0x2d])
    ∧ digitsValue n.digits ≤ ulongMax ∧ n.value ulongMax = value ∧ value ≤ limit

/-- **Which numbers are read.** -/
theorem parseNumber_iff {ulongMax limit value : Nat} {text : List UInt8} :
    parseNumber ulongMax limit text = some value ↔ Denotes ulongMax limit text value := by
  rw [parseNumber]
  constructor
  · intro h
    split_ifs at h with hminus
    rcases hres : strtoul ulongMax text with ⟨value', used, erange⟩
    simp only [hres] at h
    split_ifs at h with hbad
    obtain rfl := Option.some.inj h
    simp only [not_or, not_not, not_lt] at hbad
    obtain ⟨hrange, h0, hend, hlimit⟩ := hbad
    obtain ⟨n, rfl⟩ := exists_numeral hres h0 hend
    rw [n.head_text] at hminus
    rw [n.strtoul_text] at hres
    split_ifs at hres with hbig
    · exact absurd (Prod.mk.inj (Prod.mk.inj hres).2).2.symm hrange
    · exact ⟨n, rfl, hminus, not_lt.mp hbig, (Prod.mk.inj hres).1, hlimit⟩
  · rintro ⟨n, rfl, hminus, hbig, rfl, hlimit⟩
    have hne : n.text.length ≠ 0 := by
      have := List.length_pos_iff.mpr n.digits_ne_nil
      rw [Numeral.text, List.length_append, List.length_append]
      omega
    rw [if_neg (mt n.head_text.mp hminus), n.strtoul_text, if_neg (not_lt.mpr hbig)]
    simp only
    rw [if_neg (by simp [hne, hlimit])]

/-- A minus sign behind a blank, in front of a number that wraps around to one. -/
example : parseU16 18446744073709551615 (ascii " -18446744073709551615") = some 1 := by
  decide +kernel

/-! ## The arguments -/

/-- `h2_server_config`. -/
structure Config where
  host : List UInt8 := ascii "127.0.0.1"
  port : Nat := 8080
  readyFile : Option (List UInt8) := none
  maxConnections : Nat := 0
  deriving DecidableEq, Repr

/-- What `main` does about its arguments: it runs the server, or it prints the usage and returns. -/
inductive Start
  | serve (config : Config)
  | usage (exitCode : Nat)
  deriving DecidableEq, Repr

/-- The loop of `main`, with the arguments from index `pos` on. -/
def optionsLoop (ulongMax : Nat) (config : Config) : List (List UInt8) → Start
  | [] => .serve config
  | [arg] => if arg = ascii "--help" then .usage 0 else .usage 2
  | arg :: value :: args =>
      if arg = ascii "--host" then optionsLoop ulongMax { config with host := value } args
      else if arg = ascii "--port" then
        match parseU16 ulongMax value with
        | none => .usage 2
        | some port => optionsLoop ulongMax { config with port := port } args
      else if arg = ascii "--ready-file" then
        optionsLoop ulongMax { config with readyFile := some value } args
      else if arg = ascii "--max-connections" then
        match parseUnsigned ulongMax value with
        | none => .usage 2
        | some n => optionsLoop ulongMax { config with maxConnections := n } args
      else if arg = ascii "--help" then .usage 0
      else .usage 2

/-- `main`: the exit code. `serverRun` is `h2_server_run`. -/
def main (ulongMax : Nat) (serverRun : Config → Int) (args : List (List UInt8)) : Nat :=
  match optionsLoop ulongMax {} args with
  | .usage exitCode => exitCode
  | .serve config => if serverRun config ≠ 0 then 1 else 0

/-- An option with its value, and the number that this denotes. -/
inductive ServerOption
  | host (value : List UInt8)
  | port (text : List UInt8) (number : Nat)
  | readyFile (path : List UInt8)
  | maxConnections (text : List UInt8) (number : Nat)

namespace ServerOption

def args : ServerOption → List (List UInt8)
  | host value => [ascii "--host", value]
  | port text _ => [ascii "--port", text]
  | readyFile path => [ascii "--ready-file", path]
  | maxConnections text _ => [ascii "--max-connections", text]

/-- Its number is denoted by its text. -/
def Valid (ulongMax : Nat) : ServerOption → Prop
  | port text number => Denotes ulongMax 65535 text number
  | maxConnections text number => Denotes ulongMax 4294967295 text number
  | _ => True

def host? : ServerOption → Option (List UInt8)
  | host value => some value
  | _ => none

def port? : ServerOption → Option Nat
  | port _ number => some number
  | _ => none

def readyFile? : ServerOption → Option (List UInt8)
  | readyFile path => some path
  | _ => none

def maxConnections? : ServerOption → Option Nat
  | maxConnections _ number => some number
  | _ => none

end ServerOption

/-- The setting of one option. -/
def Config.set (config : Config) : ServerOption → Config
  | .host value => { config with host := value }
  | .port _ number => { config with port := number }
  | .readyFile path => { config with readyFile := some path }
  | .maxConnections _ number => { config with maxConnections := number }

/-- The configuration that some options say: the last of each kind counts. -/
def configured (os : List ServerOption) : Config where
  host := (os.filterMap ServerOption.host?).getLast?.getD (ascii "127.0.0.1")
  port := (os.filterMap ServerOption.port?).getLast?.getD 8080
  readyFile := (os.filterMap ServerOption.readyFile?).getLast?
  maxConnections := (os.filterMap ServerOption.maxConnections?).getLast?.getD 0

theorem foldl_set (os : List ServerOption) : os.foldl Config.set {} = configured os := by
  induction os using List.reverseRecOn with
  | nil => rfl
  | append_singleton os o ih =>
      rw [List.foldl_append, ih]
      cases o <;>
        simp [Config.set, configured, ServerOption.host?, ServerOption.port?,
          ServerOption.readyFile?, ServerOption.maxConnections?, List.filterMap_append]

/-- What the loop of `main` reads. -/
def optionReading (ulongMax : Nat) : Reading (List UInt8) ServerOption Config where
  item args o := args = o.args ∧ o.Valid ulongMax
  bad args := args.head? = some (ascii "--help")
  full _ := False
  next := Config.set

theorem optionReading_items {ulongMax : Nat} {args : List (List UInt8)} {os : List ServerOption} :
    (optionReading ulongMax).Items args os
      ↔ (∀ o ∈ os, o.Valid ulongMax) ∧ args = os.flatMap ServerOption.args := by
  constructor
  · intro h
    induction h with
    | nil => exact ⟨by simp, rfl⟩
    | @cons args rest o os head tail ih =>
        obtain ⟨rfl, hvalid⟩ := head
        obtain ⟨hall, rfl⟩ := ih
        exact ⟨List.forall_mem_cons.mpr ⟨hvalid, hall⟩, rfl⟩
  · rintro ⟨hall, rfl⟩
    induction os with
    | nil => exact .nil
    | cons o os ih =>
        obtain ⟨hvalid, hall⟩ := List.forall_mem_cons.mp hall
        exact .cons ⟨rfl, hvalid⟩ (ih hall)

theorem optionsLoop_set {ulongMax : Nat} {o : ServerOption} (h : o.Valid ulongMax)
    (config : Config) (args : List (List UInt8)) :
    optionsLoop ulongMax config (o.args ++ args) = optionsLoop ulongMax (config.set o) args := by
  cases o with
  | host value => rfl
  | readyFile path => rfl
  | port text number =>
      have hread : parseU16 ulongMax text = some number := parseNumber_iff.mpr h
      show optionsLoop ulongMax config (ascii "--port" :: text :: args) = _
      rw [optionsLoop, if_neg (by decide), if_pos rfl, hread]
      rfl
  | maxConnections text number =>
      have hread : parseUnsigned ulongMax text = some number := parseNumber_iff.mpr h
      show optionsLoop ulongMax config (ascii "--max-connections" :: text :: args) = _
      rw [optionsLoop, if_neg (by decide), if_neg (by decide), if_neg (by decide), if_pos rfl, hread]
      rfl

theorem optionsLoop_help (ulongMax : Nat) (config : Config) (args : List (List UInt8)) :
    optionsLoop ulongMax config (ascii "--help" :: args) = .usage 0 := by
  cases args with
  | nil => rfl
  | cons value args => rfl

/-- **Arguments start** with an option, or with `--help`, or with an error. -/
theorem options_start {ulongMax : Nat} {args : List (List UInt8)} (hne : args ≠ [])
    (config : Config) : optionsLoop ulongMax config args = .usage 2
      ∨ args.head? = some (ascii "--help")
      ∨ ∃ front rest o, args = front ++ rest ∧ front = ServerOption.args o
        ∧ o.Valid ulongMax := by
  obtain ⟨arg, args, rfl⟩ := List.exists_cons_of_ne_nil hne
  by_cases hhelp : arg = ascii "--help"
  · exact .inr (.inl (congrArg some hhelp))
  cases args with
  | nil => exact .inl (if_neg hhelp)
  | cons value args =>
      rw [optionsLoop]
      -- every other option needs the argument behind it
      by_cases hhost : arg = ascii "--host"
      · exact .inr (.inr ⟨[arg, value], args, .host value, rfl, by rw [hhost]; rfl, trivial⟩)
      rw [if_neg hhost]
      by_cases hport : arg = ascii "--port"
      · rw [if_pos hport]
        cases hread : parseU16 ulongMax value with
        | none => exact .inl rfl
        | some number =>
            exact .inr (.inr ⟨[arg, value], args, .port value number, rfl, by rw [hport]; rfl,
              parseNumber_iff.mp hread⟩)
      rw [if_neg hport]
      by_cases hready : arg = ascii "--ready-file"
      · exact .inr (.inr ⟨[arg, value], args, .readyFile value, rfl, by rw [hready]; rfl, trivial⟩)
      rw [if_neg hready]
      by_cases hmax : arg = ascii "--max-connections"
      · rw [if_pos hmax]
        cases hread : parseUnsigned ulongMax value with
        | none => exact .inl rfl
        | some number =>
            exact .inr (.inr ⟨[arg, value], args, .maxConnections value number, rfl,
              by rw [hmax]; rfl, parseNumber_iff.mp hread⟩)
      rw [if_neg hmax, if_neg hhelp]
      exact .inl rfl

/-- The loop of `main` reads this; it needs no fuel. -/
theorem optionReading_loop (ulongMax : Nat) : (optionReading ulongMax).Loop
    (fun _ args config => optionsLoop ulongMax config args) .serve (· = .usage 0)
    (· = .usage 2) where
  item_ne_nil := by
    rintro _ o ⟨rfl, -⟩
    cases o <;> exact List.cons_ne_nil _ _
  finish _ config := by rw [optionsLoop]
  stop := by
    rintro _ config args - (hfull | hbad)
    · exact absurd hfull not_false
    · obtain ⟨rest, rfl⟩ := List.head?_eq_some_iff.mp hbad
      exact optionsLoop_help ulongMax config rest
  step := by
    rintro _ config _ o rest - ⟨rfl, hvalid⟩
    exact optionsLoop_set hvalid config rest
  other := by
    intro _ config args hne _
    rcases options_start hne config with hfail | hhelp | ⟨front, rest, o, heq, hfront, hvalid⟩
    · exact .inl hfail
    · exact .inr (.inl hhelp)
    · exact .inr (.inr ⟨front, rest, o, heq, hfront, hvalid⟩)
  done_open _ := ⟨by simp, by simp⟩
  refused_ok := by
    rintro _ rfl
    simp

/-- **Which command lines start a server**, and with which configuration: sequences of options with
their values, where a number has to be denoted by its text. The usage is printed with success exactly
if such options are followed by `--help`, and with an error otherwise. So the exit code is zero
exactly after this help or after a server that has ended well. -/
theorem options_exact (ulongMax : Nat) (args : List (List UInt8)) :
    (∀ config, optionsLoop ulongMax {} args = .serve config ↔ ∃ os : List ServerOption,
      (∀ o ∈ os, o.Valid ulongMax) ∧ args = os.flatMap ServerOption.args ∧ config = configured os)
    ∧ (optionsLoop ulongMax {} args = .usage 0 ↔ ∃ (os : List ServerOption) (rest : _),
      (∀ o ∈ os, o.Valid ulongMax)
        ∧ args = os.flatMap ServerOption.args ++ ascii "--help" :: rest)
    ∧ (∀ exitCode, optionsLoop ulongMax {} args = .usage exitCode → exitCode = 0 ∨ exitCode = 2)
    ∧ ∀ serverRun, main ulongMax serverRun args = 0 ↔ optionsLoop ulongMax {} args = .usage 0
      ∨ ∃ config, optionsLoop ulongMax {} args = .serve config ∧ serverRun config = 0 := by
  have hloop := optionReading_loop ulongMax
  refine ⟨fun config => ?_, ?_, fun exitCode h => ?_, fun serverRun => ?_⟩
  · -- the arguments are used up by options
    have hdone := hloop.done_iff (le_refl args.length) (s := {}) (p := .serve config)
      ⟨by simp, by simp⟩
    rw [hdone]
    constructor
    · rintro ⟨os, hitems, -, heq⟩
      obtain ⟨hvalid, hargs⟩ := optionReading_items.mp hitems
      exact ⟨os, hvalid, hargs, (Start.serve.inj heq).trans (foldl_set os)⟩
    · rintro ⟨os, hvalid, hargs, rfl⟩
      exact ⟨os, optionReading_items.mpr ⟨hvalid, hargs⟩, fun _ _ _ _ => not_false,
        congrArg Start.serve (foldl_set os).symm⟩
  · -- an option list stops at `--help`
    have href := hloop.refused_iff (le_refl args.length) (s := {})
    rw [href]
    constructor
    · rintro ⟨front, rest, os, rfl, hitems, hne, hfull | hhelp⟩
      · exact absurd hfull not_false
      · obtain ⟨hvalid, rfl⟩ := optionReading_items.mp hitems
        obtain ⟨rest, rfl⟩ := List.head?_eq_some_iff.mp hhelp
        exact ⟨os, rest, hvalid, rfl⟩
    · rintro ⟨os, rest, hvalid, rfl⟩
      exact ⟨_, _, os, rfl, optionReading_items.mpr ⟨hvalid, rfl⟩, List.cons_ne_nil _ _, .inr rfl⟩
  · have hends := hloop.ends (le_refl args.length) (s := {})
    simp only [h] at hends
    rcases hends with ⟨os, -, -, heq⟩ | ⟨-, href⟩ | hfail
    · cases heq
    · exact .inl (Start.usage.inj href)
    · exact .inr (Start.usage.inj hfail)
  · rw [main]
    rcases optionsLoop ulongMax {} args with config | exitCode
    · simp
    · simp

end C11Omo.Http2
