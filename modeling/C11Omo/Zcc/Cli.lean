import C11Omo.Lib.Bytes
import C11Omo.Lib.Setters

set_option autoImplicit false

/-! # The command line

`parse` of `phase2/zcc/src/cli.zig`. The arguments are byte strings without a bound on their length,
and the allocator has room for the two lists.

A command line is written from its parts, the option groups and the inputs (`Item`). What the loop
of `parse` does with one part does not depend on the parts around it (`parseLoop_args`), so the
whole command line sets the fields of the configuration one after the other.
-/

namespace C11Omo.Zcc

open C11Omo.Lib

inductive Mode
  | compile
  | preprocess
  deriving DecidableEq, Repr

inductive Optimization
  | O0
  | O2
  deriving DecidableEq, Repr

inductive ParseError
  | missingOutputPath
  | emptySanitizerList
  | unknownOption
  deriving DecidableEq, Repr

@[ext]
structure CliConfig where
  help : Bool := false
  mode : Mode := .compile
  output : Option (List UInt8) := none
  compileOnly : Bool := false
  optimization : Optimization := .O0
  debugInfo : Bool := false
  sanitizers : List (List UInt8) := []
  inputs : List (List UInt8) := []
  deriving DecidableEq, Repr

/-- The loop of `parse`, with the arguments from index `i` on. -/
def parseLoop (config : CliConfig) (sanitizers inputs : List (List UInt8)) :
    List (List UInt8) → Except ParseError CliConfig
  | [] => .ok { config with sanitizers := sanitizers, inputs := inputs }
  | arg :: args =>
      if arg = ascii "-E" then
        parseLoop { config with mode := .preprocess } sanitizers inputs args
      else if arg = ascii "-c" then
        parseLoop { config with compileOnly := true } sanitizers inputs args
      else if arg = ascii "-o" then
        match args with
        | [] => .error .missingOutputPath
        | path :: args => parseLoop { config with output := some path } sanitizers inputs args
      else if arg = ascii "-O0" then
        parseLoop { config with optimization := .O0 } sanitizers inputs args
      else if arg = ascii "-O2" then
        parseLoop { config with optimization := .O2 } sanitizers inputs args
      else if arg = ascii "-g" then
        parseLoop { config with debugInfo := true } sanitizers inputs args
      else if (ascii "-fsanitize=").isPrefixOf arg then
        let value := arg.drop (ascii "-fsanitize=").length
        if value.length = 0 then .error .emptySanitizerList
        else parseLoop config (sanitizers ++ [value]) inputs args
      else if (ascii "-").isPrefixOf arg then .error .unknownOption
      else parseLoop config sanitizers (inputs ++ [arg]) args

/-- `parse`: the help options first, anywhere among the arguments. -/
def parse (args : List (List UInt8)) : Except ParseError CliConfig :=
  if args.any (fun arg => arg = ascii "--help" ∨ arg = ascii "-h") then
    .ok { help := true }
  else parseLoop {} [] [] args

/-! ## Command lines -/

/-- A part of a command line: an option group or an input. -/
inductive Item
  | preprocess
  | compileOnly
  | optimization (level : Optimization)
  | debugInfo
  | output (path : List UInt8)
  | sanitizer (list : List UInt8)
  | input (path : List UInt8)
  deriving DecidableEq, Repr

def Item.args : Item → List (List UInt8)
  | .preprocess => [ascii "-E"]
  | .compileOnly => [ascii "-c"]
  | .optimization .O0 => [ascii "-O0"]
  | .optimization .O2 => [ascii "-O2"]
  | .debugInfo => [ascii "-g"]
  | .output path => [ascii "-o", path]
  | .sanitizer list => [ascii "-fsanitize=" ++ list]
  | .input path => [path]

def Item.sanitizer? : Item → Option (List UInt8)
  | .sanitizer list => some list
  | _ => none

def Item.input? : Item → Option (List UInt8)
  | .input path => some path
  | _ => none

/-- The arguments of the parts, in their order. -/
def commandLine (items : List Item) : List (List UInt8) := items.flatMap Item.args

/-- The parts are those of a configuration, in any order that keeps the sanitizers and the inputs in
theirs. A flag may be there more than once, and `-O0` need not be there at all. -/
structure CliConfig.Arranges (config : CliConfig) (items : List Item) : Prop where
  preprocess : Item.preprocess ∈ items ↔ config.mode = .preprocess
  compileOnly : Item.compileOnly ∈ items ↔ config.compileOnly = true
  optimization : ∀ level, Item.optimization level ∈ items → level = config.optimization
  optimized : config.optimization = .O2 → Item.optimization .O2 ∈ items
  debugInfo : Item.debugInfo ∈ items ↔ config.debugInfo = true
  output : ∀ path, Item.output path ∈ items ↔ config.output = some path
  sanitizers : items.filterMap Item.sanitizer? = config.sanitizers
  inputs : items.filterMap Item.input? = config.inputs

/-! ## One part -/

/-- The field that an option group sets. The lists are not set before the end. -/
def CliConfig.set (config : CliConfig) : Item → CliConfig
  | .preprocess => { config with mode := .preprocess }
  | .compileOnly => { config with compileOnly := true }
  | .optimization level => { config with optimization := level }
  | .debugInfo => { config with debugInfo := true }
  | .output path => { config with output := some path }
  | .sanitizer _ => config
  | .input _ => config

/-- A part that is read as what it is: a sanitizer list that is not empty, an input that does not
start with `-`, an output path that is no help option. -/
def Item.Plain : Item → Prop
  | .sanitizer list => list ≠ []
  | .input path => (ascii "-").isPrefixOf path = false
  | .output path => path ≠ ascii "--help" ∧ path ≠ ascii "-h"
  | _ => True

/-- An input is none of the options. -/
theorem input_ne {path option : List UInt8} (h : (ascii "-").isPrefixOf path = false)
    (hoption : (ascii "-").isPrefixOf option = true) : path ≠ option := by
  rintro rfl
  rw [hoption] at h
  cases h

theorem ascii_fsanitize : ascii "-fsanitize=" = 0x2d :: ascii "fsanitize=" := rfl

theorem input_not_fsanitize {path : List UInt8} (h : (ascii "-").isPrefixOf path = false) :
    (ascii "-fsanitize=").isPrefixOf path = false := by
  cases path with
  | nil => rfl
  | cons b path =>
      have hb : b ≠ 0x2d := by
        rintro rfl
        simp [ascii] at h
      simp [ascii_fsanitize, List.isPrefixOf, hb.symm]

theorem fsanitize_ne {list option : List UInt8}
    (hoption : (ascii "-fsanitize=").isPrefixOf option = false) :
    ascii "-fsanitize=" ++ list ≠ option := by
  rintro rfl
  rw [List.isPrefixOf_iff_prefix.mpr (List.prefix_append _ _)] at hoption
  cases hoption

section

variable {config : CliConfig} {sanitizers inputs args : List (List UInt8)}

theorem parseLoop_sanitizer {list : List UInt8} (h : list ≠ []) :
    parseLoop config sanitizers inputs ((ascii "-fsanitize=" ++ list) :: args)
      = parseLoop config (sanitizers ++ [list]) inputs args := by
  have hprefix : (ascii "-fsanitize=").isPrefixOf (ascii "-fsanitize=" ++ list) = true :=
    List.isPrefixOf_iff_prefix.mpr (List.prefix_append _ _)
  have hvalue : (ascii "-fsanitize=" ++ list).drop (ascii "-fsanitize=").length = list :=
    List.drop_left
  rw [parseLoop.eq_def]
  simp only
  rw [if_neg (fsanitize_ne rfl), if_neg (fsanitize_ne rfl), if_neg (fsanitize_ne rfl),
    if_neg (fsanitize_ne rfl), if_neg (fsanitize_ne rfl), if_neg (fsanitize_ne rfl), if_pos hprefix,
    hvalue, if_neg (by simpa using h)]

theorem parseLoop_input {path : List UInt8} (h : (ascii "-").isPrefixOf path = false) :
    parseLoop config sanitizers inputs (path :: args)
      = parseLoop config sanitizers (inputs ++ [path]) args := by
  rw [parseLoop.eq_def]
  simp only
  rw [if_neg (input_ne h rfl), if_neg (input_ne h rfl), if_neg (input_ne h rfl),
    if_neg (input_ne h rfl), if_neg (input_ne h rfl), if_neg (input_ne h rfl),
    if_neg (by simp [input_not_fsanitize h]), if_neg (by simp [h])]

/-- **One part** of a command line, in front of other arguments. -/
theorem parseLoop_args {item : Item} (h : item.Plain) :
    parseLoop config sanitizers inputs (item.args ++ args)
      = parseLoop (config.set item) (sanitizers ++ item.sanitizer?.toList)
          (inputs ++ item.input?.toList) args := by
  cases item with
  | sanitizer list =>
      simp only [Item.input?, Option.toList_none, List.append_nil]
      exact parseLoop_sanitizer h
  | input path =>
      simp only [Item.sanitizer?, Option.toList_none, List.append_nil]
      exact parseLoop_input h
  | output path =>
      simp only [Item.sanitizer?, Item.input?, Option.toList_none, List.append_nil]
      rfl
  | preprocess | compileOnly | debugInfo =>
      simp only [Item.sanitizer?, Item.input?, Option.toList_none, List.append_nil]
      cases args <;> rfl
  | optimization level =>
      simp only [Item.sanitizer?, Item.input?, Option.toList_none, List.append_nil]
      cases level <;> cases args <;> rfl

end

/-! ## Whole command lines -/

/-- **A command line of plain parts** sets the fields one after the other. -/
theorem parseLoop_commandLine {items : List Item} (h : ∀ item ∈ items, item.Plain)
    (config : CliConfig) (sanitizers inputs : List (List UInt8)) :
    parseLoop config sanitizers inputs (commandLine items)
      = .ok { items.foldl CliConfig.set config with
          sanitizers := sanitizers ++ items.filterMap Item.sanitizer?
          inputs := inputs ++ items.filterMap Item.input? } := by
  induction items generalizing config sanitizers inputs with
  | nil => simp [commandLine, parseLoop]
  | cons item items ih =>
      have hitem := h item List.mem_cons_self
      have hitems : ∀ item' ∈ items, item'.Plain := fun i hi => h i (List.mem_cons_of_mem item hi)
      have hsplit : commandLine (item :: items) = item.args ++ commandLine items :=
        List.flatMap_cons
      have hcons : ∀ pick : Item → Option (List UInt8),
          (item :: items).filterMap pick = (pick item).toList ++ items.filterMap pick := by
        intro pick
        cases hpick : pick item with
        | none => rw [List.filterMap_cons_none hpick]; rfl
        | some text => rw [List.filterMap_cons_some hpick]; rfl
      rw [hsplit, parseLoop_args hitem, ih hitems, List.foldl_cons, hcons, hcons,
        List.append_assoc, List.append_assoc]

/-- No argument of plain parts is a help option. -/
theorem commandLine_no_help {items : List Item} (h : ∀ item ∈ items, item.Plain) :
    (commandLine items).any (fun arg => arg = ascii "--help" ∨ arg = ascii "-h") = false := by
  rw [List.any_eq_false]
  intro arg harg
  obtain ⟨item, hitem, hmem⟩ := List.mem_flatMap.mp harg
  have hplain := h item hitem
  have hne : arg ≠ ascii "--help" ∧ arg ≠ ascii "-h" := by
    cases item with
    | sanitizer list =>
        rw [List.mem_singleton.mp hmem]
        exact ⟨fsanitize_ne rfl, fsanitize_ne rfl⟩
    | input path =>
        rw [List.mem_singleton.mp hmem]
        exact ⟨input_ne hplain rfl, input_ne hplain rfl⟩
    | output path =>
        rcases List.mem_pair.mp hmem with rfl | rfl
        · decide
        · exact hplain
    | preprocess | compileOnly | debugInfo =>
        rw [List.mem_singleton.mp hmem]
        decide
    | optimization level =>
        cases level <;> rw [List.mem_singleton.mp hmem] <;> decide
  simpa using hne

namespace CliConfig.Arranges

variable {config : CliConfig} {items items' : List Item}

/-- Another order of the parts. -/
theorem perm (h : config.Arranges items) (hperm : items'.Perm items)
    (hsanitizers : items'.filterMap Item.sanitizer? = items.filterMap Item.sanitizer?)
    (hinputs : items'.filterMap Item.input? = items.filterMap Item.input?) :
    config.Arranges items' where
  preprocess := by rw [hperm.mem_iff]; exact h.preprocess
  compileOnly := by rw [hperm.mem_iff]; exact h.compileOnly
  optimization level hlevel := h.optimization level (hperm.mem_iff.mp hlevel)
  optimized hO2 := hperm.mem_iff.mpr (h.optimized hO2)
  debugInfo := by rw [hperm.mem_iff]; exact h.debugInfo
  output path := by rw [hperm.mem_iff]; exact h.output path
  sanitizers := by rw [hsanitizers]; exact h.sanitizers
  inputs := by rw [hinputs]; exact h.inputs

theorem plain (h : config.Arranges items)
    (houtput : ∀ path, config.output = some path → path ≠ ascii "--help" ∧ path ≠ ascii "-h")
    (hsanitizers : ∀ list ∈ config.sanitizers, list ≠ [])
    (hinputs : ∀ path ∈ config.inputs, (ascii "-").isPrefixOf path = false) :
    ∀ item ∈ items, item.Plain := by
  intro item hitem
  cases item with
  | output path => exact houtput path ((h.output path).mp hitem)
  | sanitizer list =>
      apply hsanitizers
      rw [← h.sanitizers]
      exact List.mem_filterMap.mpr ⟨_, hitem, rfl⟩
  | input path =>
      apply hinputs
      rw [← h.inputs]
      exact List.mem_filterMap.mpr ⟨_, hitem, rfl⟩
  | preprocess | compileOnly | optimization _ | debugInfo => trivial

theorem foldl_mode (h : config.Arranges items) :
    (items.foldl CliConfig.set {}).mode = config.mode := by
  apply foldl_sets
  · intro item hitem c
    cases item with
    | preprocess => exact .inl (h.preprocess.mp hitem).symm
    | _ => exact .inr rfl
  · cases hmode : config.mode with
    | compile => exact .inl rfl
    | preprocess => exact .inr ⟨.preprocess, h.preprocess.mpr hmode, fun _ => rfl⟩

theorem foldl_output (h : config.Arranges items) :
    (items.foldl CliConfig.set {}).output = config.output := by
  apply foldl_sets
  · intro item hitem c
    cases item with
    | output path => exact .inl ((h.output path).mp hitem).symm
    | _ => exact .inr rfl
  · cases houtput : config.output with
    | none => exact .inl rfl
    | some path => exact .inr ⟨.output path, (h.output path).mpr houtput, fun _ => rfl⟩

theorem foldl_compileOnly (h : config.Arranges items) :
    (items.foldl CliConfig.set {}).compileOnly = config.compileOnly := by
  apply foldl_sets
  · intro item hitem c
    cases item with
    | compileOnly => exact .inl (h.compileOnly.mp hitem).symm
    | _ => exact .inr rfl
  · cases honly : config.compileOnly with
    | false => exact .inl rfl
    | true => exact .inr ⟨.compileOnly, h.compileOnly.mpr honly, fun _ => rfl⟩

theorem foldl_optimization (h : config.Arranges items) :
    (items.foldl CliConfig.set {}).optimization = config.optimization := by
  apply foldl_sets
  · intro item hitem c
    cases item with
    | optimization level => exact .inl (h.optimization level hitem)
    | _ => exact .inr rfl
  · cases hlevel : config.optimization with
    | O0 => exact .inl rfl
    | O2 => exact .inr ⟨.optimization .O2, h.optimized hlevel, fun _ => rfl⟩

theorem foldl_debugInfo (h : config.Arranges items) :
    (items.foldl CliConfig.set {}).debugInfo = config.debugInfo := by
  apply foldl_sets
  · intro item hitem c
    cases item with
    | debugInfo => exact .inl (h.debugInfo.mp hitem).symm
    | _ => exact .inr rfl
  · cases hdebug : config.debugInfo with
    | false => exact .inl rfl
    | true => exact .inr ⟨.debugInfo, h.debugInfo.mpr hdebug, fun _ => rfl⟩

theorem foldl_help (items : List Item) : (items.foldl CliConfig.set {}).help = false :=
  foldl_stays (fun item _ c => by cases item <;> exact .inr rfl) rfl

/-- **The parts of a configuration**, in front of the lists, give the configuration. -/
theorem parse_eq (h : config.Arranges items) (hhelp : config.help = false)
    (hplain : ∀ item ∈ items, item.Plain) : parse (commandLine items) = .ok config := by
  rw [parse, if_neg (by rw [commandLine_no_help hplain]; exact Bool.false_ne_true),
    parseLoop_commandLine hplain, List.nil_append, List.nil_append, h.sanitizers, h.inputs]
  refine congrArg Except.ok (CliConfig.ext ?_ h.foldl_mode h.foldl_output h.foldl_compileOnly
    h.foldl_optimization h.foldl_debugInfo rfl rfl)
  rw [hhelp]
  exact foldl_help items

end CliConfig.Arranges

/-- **Command lines parse back to their configuration.** However the option groups of a configuration
and its inputs are arranged, the arguments are parsed as that configuration, so another order of them
is parsed alike. -/
theorem command_line_roundtrip {config : CliConfig} {items : List Item}
    (hhelp : config.help = false)
    (houtput : ∀ path, config.output = some path → path ≠ ascii "--help" ∧ path ≠ ascii "-h")
    (hsanitizers : ∀ list ∈ config.sanitizers, list ≠ [])
    (hinputs : ∀ path ∈ config.inputs, (ascii "-").isPrefixOf path = false)
    (h : config.Arranges items) :
    parse (commandLine items) = .ok config
      ∧ ∀ items', items'.Perm items →
        items'.filterMap Item.sanitizer? = items.filterMap Item.sanitizer? →
        items'.filterMap Item.input? = items.filterMap Item.input? →
        parse (commandLine items') = parse (commandLine items) := by
  have hparse : ∀ items', config.Arranges items' → parse (commandLine items') = .ok config :=
    fun items' h' => h'.parse_eq hhelp (h'.plain houtput hsanitizers hinputs)
  refine ⟨hparse items h, fun items' hperm hsan hin => ?_⟩
  rw [hparse items h, hparse items' (h.perm hperm hsan hin)]

/-- A configuration whose output path looks like an option. -/
def dashOutput : CliConfig :=
  { mode := .preprocess, output := some (ascii "-c"), optimization := .O2,
    sanitizers := [ascii "address"], inputs := [ascii "a.c", ascii "b.c"] }

/-- Its parts, the output group between the inputs. -/
def dashOutputItems : List Item :=
  [.input (ascii "a.c"), .output (ascii "-c"), .sanitizer (ascii "address"), .input (ascii "b.c"),
    .preprocess, .optimization .O2]

theorem dashOutput_arranges : dashOutput.Arranges dashOutputItems where
  preprocess := by decide
  compileOnly := by decide
  optimization level hlevel := by
    cases level with
    | O0 => exact absurd hlevel (by decide)
    | O2 => rfl
  optimized := by decide
  debugInfo := by decide
  output path := by
    simp [dashOutputItems, dashOutput, eq_comm]
  sanitizers := rfl
  inputs := rfl

theorem dashOutput_roundtrip :
    parse [ascii "a.c", ascii "-o", ascii "-c", ascii "-fsanitize=address", ascii "b.c",
        ascii "-E", ascii "-O2"] = .ok dashOutput := by
  have hpath : ∀ path, dashOutput.output = some path →
      path ≠ ascii "--help" ∧ path ≠ ascii "-h" := by
    rintro path ⟨⟩
    decide
  exact (command_line_roundtrip rfl hpath (by decide) (by decide) dashOutput_arranges).1

end C11Omo.Zcc
