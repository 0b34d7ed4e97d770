import C11Omo.Zcc.Arguments
import C11Omo.Zcc.Tokens

set_option autoImplicit false

/-! # The driver

`main` of `phase2/zcc/src/main.zig` and what it calls. A file is read by a parameter, which stands
for `readFileAlloc` with its limit; the writers take everything that is printed, and nothing fails
for lack of memory.
-/

namespace C11Omo.Zcc

open C11Omo.Lib

/-- `cli.usage`. -/
def usage : List UInt8 :=
  ascii "Usage: zcc [options] file...\n\nOptions:\n"
    ++ ascii "  --help, -h          Print this help and exit\n"
    ++ ascii "  -E                  Run preprocessor-only token dump\n"
    ++ ascii "  -c                  Compile only, do not link\n"
    ++ ascii "  -o <path>           Write output to path\n"
    ++ ascii "  -O0 | -O2           Select optimization level\n"
    ++ ascii "  -g                  Emit debug information\n"
    ++ ascii "  -fsanitize=<list>   Enable sanitizer list\n"

/-- The message that `main` prints for an error of the parser; `errorMessage` has the same. -/
def ParseError.message : ParseError → List UInt8
  | .missingOutputPath => ascii "expected path after -o"
  | .emptySanitizerList => ascii "expected sanitizer list after -fsanitize="
  | .unknownOption => ascii "unknown option"

/-- What a run prints, and its exit code or the error of a file that it returns instead. -/
structure Outcome (ε : Type) where
  stdout : List UInt8 := []
  stderr : List UInt8 := []
  status : Except ε UInt8

variable {ε : Type} (readFile : List UInt8 → Except ε (List UInt8))

/-- `runPreprocessOnly`: what it prints, and the error of the first file that cannot be read. -/
def runPreprocessOnly : List (List UInt8) → List UInt8 × Except ε Unit
  | [] => ([], .ok ())
  | path :: inputs =>
      match readFile path with
      | .error err => ([], .error err)
      | .ok source =>
          (dumpTokens path source ++ (runPreprocessOnly inputs).1, (runPreprocessOnly inputs).2)

/-- `main`, with the arguments behind the name of the program. -/
def main (args : List (List UInt8)) : Outcome ε :=
  match parse args with
  | .error err =>
      { stderr := ascii "zcc: error: " ++ err.message ++ ascii "\n\n" ++ usage, status := .ok 1 }
  | .ok config =>
      if config.help then { stdout := usage, status := .ok 0 }
      else if config.inputs.length = 0 then
        { stderr := ascii "zcc: error: no input files\n\n" ++ usage, status := .ok 1 }
      else
        match config.mode with
        | .compile =>
            { stderr := ascii "zcc: compile pipeline is not implemented yet\n", status := .ok 1 }
        | .preprocess =>
            { stdout := (runPreprocessOnly readFile config.inputs).1
              status := (runPreprocessOnly readFile config.inputs).2.map fun _ => 0 }

/-! ## The token dump of some files -/

/-- The line of a token. -/
def tokenLine (path : List UInt8) (token : Label × List UInt8) : List UInt8 :=
  path ++ ascii ": " ++ token.1.text ++ ascii " " ++ token.2 ++ ascii "\n"

/-- The dump of a file has one line for each of its tokens. -/
theorem dumpTokens_lines (path source : List UInt8) :
    dumpTokens path source = (tokens.lex source).flatMap (tokenLine path) := by
  rw [← labelled_reports, labelled, List.flatMap_map]
  rfl

/-- What is printed for some files that have been read, each with its source. -/
def dumpOf (files : List (List UInt8 × List UInt8)) : List UInt8 :=
  files.flatMap fun file => (tokens.lex file.2).flatMap (tokenLine file.1)

/-- The files in front are read, and then there is none left, or one that cannot be read. -/
theorem runPreprocessOnly_spec (inputs : List (List UInt8)) :
    ∃ files rest, inputs = files.map Prod.fst ++ rest
      ∧ (∀ file ∈ files, readFile file.1 = .ok file.2)
      ∧ (runPreprocessOnly readFile inputs).1 = dumpOf files
      ∧ ((rest = [] ∧ (runPreprocessOnly readFile inputs).2 = .ok ())
        ∨ ∃ path after err, rest = path :: after ∧ readFile path = .error err
          ∧ (runPreprocessOnly readFile inputs).2 = .error err) := by
  induction inputs with
  | nil => exact ⟨[], [], rfl, by simp, rfl, .inl ⟨rfl, rfl⟩⟩
  | cons path inputs ih =>
      rcases hread : readFile path with err | source
      · refine ⟨[], path :: inputs, rfl, by simp, ?_, .inr ⟨path, inputs, err, rfl, hread, ?_⟩⟩
        · simp only [runPreprocessOnly, hread]
          rfl
        · simp only [runPreprocessOnly, hread]
      · obtain ⟨files, rest, rfl, hfiles, hprinted, hends⟩ := ih
        refine ⟨(path, source) :: files, rest, rfl, List.forall_mem_cons.mpr ⟨hread, hfiles⟩, ?_, ?_⟩
        · simp only [runPreprocessOnly, hread, hprinted, dumpTokens_lines]
          rfl
        · simp only [runPreprocessOnly, hread]
          exact hends

/-! ## All runs -/

section

variable {readFile} {items : List Item}

theorem parse_commandLine (hplain : ∀ item ∈ items, item.Plain) :
    parse (commandLine items) = .ok (configOf items) :=
  parse_ok_iff.mpr (.inr ⟨items, hplain, rfl, rfl⟩)

theorem main_help {args : List (List UInt8)} (h : AsksHelp args) :
    main readFile args = { stdout := usage, status := .ok 0 } := by
  rw [main, parse_help h]
  rfl

theorem main_error {args : List (List UInt8)} {e : ParseError} (h : parse args = .error e) :
    (main readFile args).status = .ok 1 := by
  rw [main, h]

theorem main_no_inputs (hplain : ∀ item ∈ items, item.Plain) (h : (configOf items).inputs = []) :
    (main readFile (commandLine items)).status = .ok 1 := by
  rw [main, parse_commandLine hplain]
  simp only
  rw [if_neg (by exact Bool.false_ne_true), if_pos (by rw [h]; rfl)]

theorem main_compile (hplain : ∀ item ∈ items, item.Plain) (h : (configOf items).inputs ≠ [])
    (hE : .preprocess ∉ items) : (main readFile (commandLine items)).status = .ok 1 := by
  have hmode : (configOf items).mode = .compile := if_neg hE
  have hlength : ¬ (configOf items).inputs.length = 0 := mt List.eq_nil_of_length_eq_zero h
  rw [main, parse_commandLine hplain]
  simp only
  rw [if_neg (by exact Bool.false_ne_true), if_neg hlength, hmode]

theorem main_preprocess (hplain : ∀ item ∈ items, item.Plain) (h : (configOf items).inputs ≠ [])
    (hE : .preprocess ∈ items) : main readFile (commandLine items)
      = { stdout := (runPreprocessOnly readFile (configOf items).inputs).1
          status := (runPreprocessOnly readFile (configOf items).inputs).2.map fun _ => 0 } := by
  have hmode : (configOf items).mode = .preprocess := if_pos hE
  have hlength : ¬ (configOf items).inputs.length = 0 := mt List.eq_nil_of_length_eq_zero h
  rw [main, parse_commandLine hplain]
  simp only
  rw [if_neg (by exact Bool.false_ne_true), if_neg hlength, hmode]

/-- The driver returns zero for such a command line exactly if all inputs can be read. -/
theorem preprocess_status (hplain : ∀ item ∈ items, item.Plain) (h : (configOf items).inputs ≠ [])
    (hE : .preprocess ∈ items) : (main readFile (commandLine items)).status = .ok 0
      ↔ ∀ path ∈ (configOf items).inputs, ∃ source, readFile path = .ok source := by
  obtain ⟨files, rest, hinputs, hfiles, -, hends⟩ :=
    runPreprocessOnly_spec readFile (configOf items).inputs
  rw [main_preprocess hplain h hE, hinputs]
  rcases hends with ⟨rfl, hret⟩ | ⟨path, after, err, rfl, hread, hret⟩
  · simp only [← hinputs, hret]
    refine ⟨fun _ path hpath => ?_, fun _ => rfl⟩
    rw [hinputs, List.append_nil] at hpath
    obtain ⟨file, hfile, rfl⟩ := List.mem_map.mp hpath
    exact ⟨file.2, hfiles file hfile⟩
  · simp only [← hinputs, hret]
    constructor
    · intro h
      cases h
    · intro hall
      obtain ⟨source, hsource⟩ := hall path (by rw [hinputs]; simp)
      rw [hread] at hsource
      cases hsource

end

/-- **What the driver does.** It returns zero exactly if somebody asks for help, or the arguments are a
command line with `-E` and some inputs that can all be read. For such a command line it prints
nothing but the tokens of the inputs, input by input, until one cannot be read, which it then
reports. -/
theorem main_exact (args : List (List UInt8)) :
    ((main readFile args).status = .ok 0 ↔ AsksHelp args
      ∨ ∃ items, (∀ item ∈ items, item.Plain) ∧ args = commandLine items ∧ .preprocess ∈ items
        ∧ (configOf items).inputs ≠ []
        ∧ ∀ path ∈ (configOf items).inputs, ∃ source, readFile path = .ok source)
    ∧ ∀ items, (∀ item ∈ items, item.Plain) → args = commandLine items → .preprocess ∈ items →
      (configOf items).inputs ≠ [] → (main readFile args).stderr = []
        ∧ ∃ files rest, (configOf items).inputs = files.map Prod.fst ++ rest
          ∧ (∀ file ∈ files, readFile file.1 = .ok file.2)
          ∧ (main readFile args).stdout = dumpOf files
          ∧ ((rest = [] ∧ (main readFile args).status = .ok 0)
            ∨ ∃ path after err, rest = path :: after ∧ readFile path = .error err
              ∧ (main readFile args).status = .error err) := by
  constructor
  · constructor
    · intro h
      by_cases hhelp : AsksHelp args
      · exact .inl hhelp
      rcases hparse : parse args with e | config
      · rw [main_error hparse] at h
        cases h
      -- the arguments are items: without inputs or without `-E` the driver does not succeed
      rcases parse_ok_iff.mp hparse with ⟨hasks, -⟩ | ⟨items, hplain, rfl, -⟩
      · exact absurd hasks hhelp
      by_cases hinputs : (configOf items).inputs = []
      · rw [main_no_inputs hplain hinputs] at h
        cases h
      by_cases hE : .preprocess ∈ items
      · exact .inr ⟨items, hplain, rfl, hE, hinputs, (preprocess_status hplain hinputs hE).mp h⟩
      · rw [main_compile hplain hinputs hE] at h
        cases h
    · rintro (hhelp | ⟨items, hplain, rfl, hE, hinputs, hread⟩)
      · rw [main_help hhelp]
      · exact (preprocess_status hplain hinputs hE).mpr hread
  · rintro items hplain rfl hE hinputs
    obtain ⟨files, rest, heq, hfiles, hprinted, hends⟩ :=
      runPreprocessOnly_spec readFile (configOf items).inputs
    rw [main_preprocess hplain hinputs hE]
    refine ⟨rfl, files, rest, heq, hfiles, hprinted, ?_⟩
    rcases hends with ⟨hrest, hret⟩ | ⟨path, after, err, hrest, hread, hret⟩
    · exact .inl ⟨hrest, by rw [hret]; rfl⟩
    · exact .inr ⟨path, after, err, hrest, hread, by rw [hret]; rfl⟩

end C11Omo.Zcc
