import C11Omo.Zcc.Cli
import C11Omo.Lib.Items

set_option autoImplicit false

/-! # What the parser accepts

The converse of `command_line_roundtrip`: the loop of `parse` reads one part of a command line after
the other, so whatever it accepts has been written from parts, and an error comes from the first
argument that starts none (`parse_exact`). Help options come before all of that.
-/

namespace C11Omo.Zcc

open C11Omo.Lib

/-! ## The configuration of a command line -/

def Item.level? : Item → Option Optimization
  | .optimization level => some level
  | _ => none

def Item.output? : Item → Option (List UInt8)
  | .output path => some path
  | _ => none

/-- The configuration that the parts of a command line say: of the output paths and of the levels
the last one counts, the lists keep their order. -/
def configOf (items : List Item) : CliConfig where
  mode := if .preprocess ∈ items then .preprocess else .compile
  output := (items.filterMap Item.output?).getLast?
  compileOnly := decide (.compileOnly ∈ items)
  optimization := ((items.filterMap Item.level?).getLast?).getD .O0
  debugInfo := decide (.debugInfo ∈ items)
  sanitizers := items.filterMap Item.sanitizer?
  inputs := items.filterMap Item.input?

/-- The state of the loop: the configuration so far and the two lists. -/
structure Parsing where
  config : CliConfig
  sanitizers : List (List UInt8)
  inputs : List (List UInt8)

/-- What the loop returns at the end of the arguments. -/
def Parsing.done (s : Parsing) : CliConfig :=
  { s.config with sanitizers := s.sanitizers, inputs := s.inputs }

def Parsing.next (s : Parsing) (item : Item) : Parsing where
  config := s.config.set item
  sanitizers := s.sanitizers ++ item.sanitizer?.toList
  inputs := s.inputs ++ item.input?.toList

theorem done_foldl (items : List Item) :
    (items.foldl Parsing.next { config := {}, sanitizers := [], inputs := [] }).done
      = configOf items := by
  have hfoldl : items.foldl Parsing.next { config := {}, sanitizers := [], inputs := [] }
      = { config := { configOf items with sanitizers := [], inputs := [] },
          sanitizers := (configOf items).sanitizers, inputs := (configOf items).inputs } := by
    induction items using List.reverseRecOn with
    | nil => rfl
    | append_singleton items item ih =>
        rw [List.foldl_append, ih]
        cases item <;>
          simp [Parsing.next, configOf, CliConfig.set, Item.sanitizer?, Item.input?, Item.output?,
            Item.level?, List.filterMap_append]
  rw [hfoldl]
  rfl

/-! ## The start of the arguments -/

/-- A part that the loop reads as what it is, where help options do not count. -/
def Item.Read : Item → Prop
  | .sanitizer list => list ≠ []
  | .input path => (ascii "-").isPrefixOf path = false
  | _ => True

/-- The options that stand alone, and `-o`. -/
def options : List (List UInt8) :=
  [ascii "-E", ascii "-c", ascii "-o", ascii "-O0", ascii "-O2", ascii "-g"]

/-- The arguments start with one that is an error. -/
def Offends : ParseError → List (List UInt8) → Prop
  | .missingOutputPath, args => args = [ascii "-o"]
  | .emptySanitizerList, args => args.head? = some (ascii "-fsanitize=")
  | .unknownOption, args => ∃ arg, args.head? = some arg ∧ (ascii "-").isPrefixOf arg = true
      ∧ arg ∉ options ∧ (ascii "-fsanitize=").isPrefixOf arg = false

theorem Offends.ne_nil {e : ParseError} {args : List (List UInt8)} (h : Offends e args) :
    args ≠ [] := by
  rintro rfl
  cases e with
  | missingOutputPath => exact absurd h (List.cons_ne_nil _ _).symm
  | emptySanitizerList => cases h
  | unknownOption =>
      obtain ⟨arg, hhead, -⟩ := h
      cases hhead

section

variable {config : CliConfig} {sanitizers inputs args : List (List UInt8)}

theorem parseLoop_read {item : Item} (h : item.Read) :
    parseLoop config sanitizers inputs (item.args ++ args)
      = parseLoop (config.set item) (sanitizers ++ item.sanitizer?.toList)
          (inputs ++ item.input?.toList) args := by
  cases item with
  | output path =>
      simp only [Item.sanitizer?, Item.input?, Option.toList_none, List.append_nil]
      rfl
  | sanitizer list => exact @parseLoop_args _ _ _ _ (.sanitizer list) h
  | input path => exact @parseLoop_args _ _ _ _ (.input path) h
  | preprocess => exact @parseLoop_args _ _ _ _ (.preprocess) trivial
  | compileOnly => exact @parseLoop_args _ _ _ _ (.compileOnly) trivial
  | debugInfo => exact @parseLoop_args _ _ _ _ (.debugInfo) trivial
  | optimization level => exact @parseLoop_args _ _ _ _ (.optimization level) trivial

theorem parseLoop_offends {e : ParseError} (h : Offends e args) :
    parseLoop config sanitizers inputs args = .error e := by
  cases e with
  | missingOutputPath =>
      obtain rfl : args = [ascii "-o"] := h
      rfl
  | emptySanitizerList =>
      obtain ⟨rest, rfl⟩ := List.head?_eq_some_iff.mp h
      cases rest <;> rfl
  | unknownOption =>
      obtain ⟨arg, hhead, hdash, hno, hsan⟩ := h
      obtain ⟨rest, rfl⟩ := List.head?_eq_some_iff.mp hhead
      simp only [options, List.mem_cons, List.not_mem_nil, or_false, not_or] at hno
      obtain ⟨hE, hc, ho, hO0, hO2, hg⟩ := hno
      rw [parseLoop.eq_def]
      simp only [if_neg hE, if_neg hc, if_neg ho, if_neg hO0, if_neg hO2, if_neg hg, hsan, hdash,
        if_true, Bool.false_eq_true, if_false]

end

/-- **Arguments start** with a part of a command line or with one that is an error. -/
theorem arguments_start {args : List (List UInt8)} (hne : args ≠ []) :
    (∃ e, Offends e args) ∨ ∃ front rest item, args = front ++ rest ∧ front = Item.args item
      ∧ item.Read := by
  obtain ⟨arg, rest, rfl⟩ := List.exists_cons_of_ne_nil hne
  by_cases hoption : arg ∈ options
  · simp only [options, List.mem_cons, List.not_mem_nil, or_false] at hoption
    rcases hoption with rfl | rfl | rfl | rfl | rfl | rfl
    · exact .inr ⟨_, rest, .preprocess, rfl, rfl, trivial⟩
    · exact .inr ⟨_, rest, .compileOnly, rfl, rfl, trivial⟩
    · -- the output path is the next argument, if there is one
      cases rest with
      | nil => exact .inl ⟨.missingOutputPath, rfl⟩
      | cons path rest => exact .inr ⟨_, rest, .output path, rfl, rfl, trivial⟩
    · exact .inr ⟨_, rest, .optimization .O0, rfl, rfl, trivial⟩
    · exact .inr ⟨_, rest, .optimization .O2, rfl, rfl, trivial⟩
    · exact .inr ⟨_, rest, .debugInfo, rfl, rfl, trivial⟩
  by_cases hsan : (ascii "-fsanitize=").isPrefixOf arg = true
  · obtain ⟨list, rfl⟩ := List.isPrefixOf_iff_prefix.mp hsan
    by_cases hlist : list = []
    · subst hlist
      exact .inl ⟨.emptySanitizerList, rfl⟩
    · exact .inr ⟨_, rest, .sanitizer list, rfl, rfl, hlist⟩
  by_cases hdash : (ascii "-").isPrefixOf arg = true
  · exact .inl ⟨.unknownOption, arg, rfl, hdash, hoption, Bool.eq_false_of_not_eq_true hsan⟩
  · exact .inr ⟨[arg], rest, .input arg, rfl, rfl, Bool.eq_false_of_not_eq_true hdash⟩

/-! ## All arguments -/

/-- What the loop of `parse` reads, and one of its errors. -/
def argumentReading (e : ParseError) : Reading (List UInt8) Item Parsing where
  item args item := args = item.args ∧ item.Read
  bad := Offends e
  full _ := False
  next := Parsing.next

/-- Arguments that are read are a command line. -/
theorem argumentReading_items {e : ParseError} {args : List (List UInt8)} {items : List Item} :
    (argumentReading e).Items args items ↔ (∀ item ∈ items, item.Read) ∧ args = commandLine items := by
  constructor
  · intro h
    induction h with
    | nil => exact ⟨by simp, rfl⟩
    | @cons args rest item items head tail ih =>
        obtain ⟨rfl, hread⟩ := head
        obtain ⟨hall, rfl⟩ := ih
        exact ⟨List.forall_mem_cons.mpr ⟨hread, hall⟩, rfl⟩
  · rintro ⟨hall, rfl⟩
    induction items with
    | nil => exact .nil
    | cons item items ih =>
        obtain ⟨hread, hall⟩ := List.forall_mem_cons.mp hall
        exact .cons ⟨rfl, hread⟩ (ih hall)

/-- The loop of `parse` reads this; it needs no fuel. -/
theorem argumentReading_loop (e : ParseError) : (argumentReading e).Loop
    (fun _ args s => parseLoop s.config s.sanitizers s.inputs args) (fun s => .ok s.done)
    (· = .error e) (fun p => ∃ e', e' ≠ e ∧ p = .error e') where
  item_ne_nil := by
    rintro _ item ⟨rfl, -⟩
    cases item with
    | optimization level => cases level <;> exact List.cons_ne_nil _ _
    | _ => exact List.cons_ne_nil _ _
  finish _ s := by
    rw [parseLoop]
    rfl
  stop := by
    rintro _ s args - (hfull | hbad)
    · exact absurd hfull not_false
    · exact parseLoop_offends hbad
  step := by
    rintro _ s _ item rest - ⟨rfl, hread⟩
    exact parseLoop_read hread
  other := by
    intro _ s args hne _
    rcases arguments_start hne with ⟨e', hbad⟩ | ⟨front, rest, item, rfl, hfront, hread⟩
    · -- the error is the one in question, or another
      by_cases heq : e' = e
      · rw [heq] at hbad
        exact .inr (.inl hbad)
      · exact .inl ⟨e', heq, parseLoop_offends hbad⟩
    · exact .inr (.inr ⟨front, rest, item, rfl, hfront, hread⟩)
  done_open _ := ⟨by simp, by simp⟩
  refused_ok := by
    rintro _ rfl ⟨e', hne, heq⟩
    exact hne (Except.error.inj heq).symm

/-- Somebody asks for help. -/
def AsksHelp (args : List (List UInt8)) : Prop := ascii "--help" ∈ args ∨ ascii "-h" ∈ args

theorem parse_help {args : List (List UInt8)} (h : AsksHelp args) :
    parse args = .ok { help := true } := by
  rw [parse, if_pos]
  rcases h with h | h
  · exact List.any_eq_true.mpr ⟨_, h, by decide⟩
  · exact List.any_eq_true.mpr ⟨_, h, by decide⟩

theorem parse_no_help {args : List (List UInt8)} (h : ¬ AsksHelp args) :
    parse args = parseLoop {} [] [] args := by
  rw [parse, if_neg]
  intro hany
  obtain ⟨arg, harg, heq⟩ := List.any_eq_true.mp hany
  rcases of_decide_eq_true heq with rfl | rfl
  · exact h (.inl harg)
  · exact h (.inr harg)

/-- Where nobody asks for help no output path is a help option. -/
theorem plain_of_read {items : List Item} {rest : List (List UInt8)}
    (hhelp : ¬ AsksHelp (commandLine items ++ rest)) (hread : ∀ item ∈ items, item.Read) :
    ∀ item ∈ items, item.Plain := by
  intro item hitem
  have hargs : ∀ arg ∈ item.args, arg ∈ commandLine items ++ rest := fun arg harg =>
    List.mem_append_left _ (List.mem_flatMap.mpr ⟨item, hitem, harg⟩)
  have h := hread item hitem
  cases item with
  | output path =>
      have hpath := hargs path (List.mem_cons_of_mem _ List.mem_cons_self)
      constructor
      · rintro rfl
        exact hhelp (.inl hpath)
      · rintro rfl
        exact hhelp (.inr hpath)
  | sanitizer list => exact h
  | input path => exact h
  | preprocess | compileOnly | optimization _ | debugInfo => trivial

theorem read_of_plain {item : Item} (h : item.Plain) : item.Read := by
  cases item with
  | sanitizer list => exact h
  | input path => exact h
  | _ => trivial

theorem no_help_of_plain {items : List Item} (h : ∀ item ∈ items, item.Plain) :
    ¬ AsksHelp (commandLine items) := by
  have hno := commandLine_no_help h
  rw [List.any_eq_false] at hno
  rintro (harg | harg)
  · exact hno _ harg (by decide)
  · exact hno _ harg (by decide)

theorem parse_ok_iff {args : List (List UInt8)} {config : CliConfig} : parse args = .ok config
    ↔ (AsksHelp args ∧ config = { help := true })
      ∨ ∃ items, (∀ item ∈ items, item.Plain) ∧ args = commandLine items
        ∧ config = configOf items := by
  by_cases hhelp : AsksHelp args
  · rw [parse_help hhelp]
    constructor
    · intro h
      exact .inl ⟨hhelp, (Except.ok.inj h).symm⟩
    · rintro (⟨-, rfl⟩ | ⟨items, hplain, rfl, -⟩)
      · rfl
      · exact absurd hhelp (no_help_of_plain hplain)
  · have hdone := (argumentReading_loop .unknownOption).done_iff (le_refl args.length)
      (s := { config := {}, sanitizers := [], inputs := [] }) (p := .ok config) ⟨by simp, by simp⟩
    rw [parse_no_help hhelp, hdone]
    constructor
    · rintro ⟨items, hitems, -, heq⟩
      obtain ⟨hread, rfl⟩ := argumentReading_items.mp hitems
      refine .inr ⟨items, ?_, rfl, (Except.ok.inj heq).trans (done_foldl items)⟩
      exact @plain_of_read items [] (by rwa [List.append_nil]) hread
    · rintro (⟨hasks, -⟩ | ⟨items, hplain, rfl, rfl⟩)
      · exact absurd hasks hhelp
      · refine ⟨items, argumentReading_items.mpr ⟨fun i hi => read_of_plain (hplain i hi), rfl⟩,
          fun _ _ _ _ => not_false, ?_⟩
        exact congrArg Except.ok (done_foldl items).symm

theorem parse_error_iff {args : List (List UInt8)} {e : ParseError} : parse args = .error e
    ↔ ¬ AsksHelp args ∧ ∃ items rest, (∀ item ∈ items, item.Plain)
      ∧ args = commandLine items ++ rest ∧ Offends e rest := by
  by_cases hhelp : AsksHelp args
  · rw [parse_help hhelp]
    exact ⟨by simp, fun h => absurd hhelp h.1⟩
  · have href := (argumentReading_loop e).refused_iff (le_refl args.length)
      (s := { config := {}, sanitizers := [], inputs := [] })
    rw [parse_no_help hhelp, href]
    constructor
    · rintro ⟨front, rest, items, rfl, hitems, hne, hfull | hbad⟩
      · exact absurd hfull not_false
      · obtain ⟨hread, rfl⟩ := argumentReading_items.mp hitems
        exact ⟨hhelp, items, rest, plain_of_read hhelp hread, rfl, hbad⟩
    · rintro ⟨-, items, rest, hplain, rfl, hbad⟩
      exact ⟨_, rest, items, rfl, argumentReading_items.mpr
        ⟨fun i hi => read_of_plain (hplain i hi), rfl⟩, hbad.ne_nil, .inr hbad⟩

/-- **What the parser accepts.** It accepts what asks for help anywhere, and then gives nothing but
that, and the command lines of plain parts, each with the configuration that they say. It gives an
error exactly where nobody asks for help and some plain parts are followed by an argument that is
this error. -/
theorem parse_exact (args : List (List UInt8)) :
    (∀ config, parse args = .ok config ↔ (AsksHelp args ∧ config = { help := true })
      ∨ ∃ items, (∀ item ∈ items, item.Plain) ∧ args = commandLine items
        ∧ config = configOf items)
    ∧ ∀ e, parse args = .error e ↔ ¬ AsksHelp args ∧ ∃ items rest,
        (∀ item ∈ items, item.Plain) ∧ args = commandLine items ++ rest ∧ Offends e rest :=
  ⟨fun _ => parse_ok_iff, fun _ => parse_error_iff⟩

/-- An option that is not known, behind parts that are. -/
example : parse [ascii "-c", ascii "a.c", ascii "-x", ascii "-o"] = .error .unknownOption := by
  decide

end C11Omo.Zcc
