import PrimalSimplex.CommandLine.Options
import PrimalSimplex.Problem.Json
import PrimalSimplex.ProblemText
import PrimalSimplex.Report
import PrimalSimplex.Settings.Json
import PrimalSimplex.Solve.Json

/-!
# The command line

`CommandLine.run` is the whole program as a function, from the arguments and the files to the
output. Files are a function from names to contents, not an effect, so that the program can be
reasoned about and tested without a file system.

A failure is a chain of causes, the outermost first, and is shown with all of them. The name of the
problem file is announced before the file is read, so it is part of the output also when reading
fails; the settings come before that.
-/

namespace PrimalSimplex

namespace CommandLine

/-- Why a file cannot be read. -/
inductive FileError where
  /-- there is no such file -/
  | missing
  /-- it is a directory -/
  | isDirectory
  /-- anything else, in words -/
  | other (description : String)

/-- The wording of a file error. -/
def FileError.message : FileError → String
  | missing => "No such file or directory (os error 2)"
  | isDirectory => "Is a directory (os error 21)"
  | other description => description

/-- The files that the program can read. -/
abbrev Files := String → Except FileError ByteArray

/-- What the program leaves behind. -/
structure Output where
  /-- zero, one after a failure, two after a misuse -/
  exitCode : Nat
  /-- the answer -/
  stdout : String
  /-- the report of a failure or a misuse -/
  stderr : String := ""
  /-- what there is to tell -/
  events : List Event := []

/-! ## Failures -/

/-- A chain of causes, the outermost first. -/
structure Failure where
  /-- what failed -/
  context : String
  /-- why, and why that -/
  causes : List String

/-- The report of a failure. Several causes are numbered. -/
def Failure.report (failure : Failure) : String :=
  let causes := match failure.causes with
    | [] => ""
    | [cause] => "\n\nCaused by:\n    " ++ cause
    | causes => "\n\nCaused by:" ++
      String.join (causes.mapIdx fun i cause => "\n    " ++ toString i ++ ": " ++ cause)
  "Error: " ++ failure.context ++ causes ++ "\n"

/-- Writes a character of a quoted file name. -/
def escapeChar (c : Char) : List Char :=
  if c = '"' ∨ c = '\\' then ['\\', c]
  else if c = '\n' then ['\\', 'n']
  else if c = '\r' then ['\\', 'r']
  else if c = '\t' then ['\\', 't']
  else if c = '\x00' then ['\\', '0']
  else if c.toNat < 0x20 ∨ c.toNat = 0x7f then
    ['\\', 'u', '\x7b'] ++ Nat.toDigits 16 c.toNat ++ ['\x7d']
  else [c]

/-- Quotes a file name. -/
def quotedFile (file : String) : String :=
  quoted (String.ofList (file.toList.flatMap escapeChar))

/-- The causes of a problem error; a fault of grammar is named once more on its own. -/
def problemCauses : ProblemError → List String
  | .parse line e => [(ProblemError.parse line e).message, e.message]
  | e => [e.message]

/-- Reads a file as text. -/
def readText (files : Files) (file : String) : Except String String :=
  match files file with
  | .error e => .error e.message
  | .ok bytes =>
    match String.fromUTF8? bytes with
    | some text => .ok text
    | none => .error "stream did not contain valid UTF-8"

/-! ## Settings -/

/-- Reads settings from a file. -/
def readSettings (files : Files) (file : String) : Except Failure Settings :=
  match readText files file with
  | .error cause => .error ⟨"Failed to read configuration file: " ++ file, [cause]⟩
  | .ok text =>
    match Settings.ofJsonText? text with
    | some settings => .ok settings
    | none =>
      .error ⟨"Failed to parse configuration file: " ++ file, ["the settings are not well formed"]⟩

/-- The settings of a run: those of the file, or the standard ones, with what the options say put in
their place. -/
def settingsOf (files : Files) (options : Options) : Except Failure Settings := do
  let settings ← match options.config with
    | some file => readSettings files file
    | none => .ok Settings.standard
  return {
    maxIterations := options.maxIterations.getD settings.maxIterations
    epsilon := options.epsilon.getD settings.epsilon
    pivotRule := options.pivotRule.getD settings.pivotRule }

/-! ## Problems -/

/-- Reads the lines of a problem file. -/
def readProblemText (files : Files) (file : String) : Except Failure ProblemText :=
  let context := "Couldn't read the problem from " ++ file
  match readText files file with
  | .error cause => .error ⟨context, ["could not read problem file " ++ quotedFile file, cause]⟩
  | .ok contents =>
    match ProblemText.ofContents? contents with
    | some text => .ok text
    | none =>
      .error ⟨context,
        ["problem file " ++ quotedFile file ++ " does not contain an objective function"]⟩

/-- Reads the problem of some lines. -/
def readProblem (settings : Settings) (file : String) (text : ProblemText) :
    Except Failure (Problem Float) :=
  match settings.readProblem text.objective text.constraints with
  | .ok problem => .ok problem
  | .error e =>
    .error ⟨"Couldn't read the problem from " ++ file,
      ("problem file " ++ quotedFile file ++ " is invalid") :: problemCauses e⟩

/-! ## Answers -/

/-- The announcement of a problem file. -/
def announcement (file : String) : String := "Reading problem file: " ++ quoted file ++ "...\n"

/-- The list of skipped lines, with a blank line after it. -/
def skippedText (skipped : List Skipped) : String :=
  if skipped.isEmpty then ""
  else String.join (skipped.map fun s =>
    "Ignored constraint " ++ quoted s.line ++ ": " ++ s.reason.message ++ "\n") ++ "\n"

/-- The last lines of an answer. -/
def conclusion (settings : Settings) : Outcome Float → String
  | .optimal optimum =>
    "Solution computed after " ++ toString optimum.trace.pivotCount ++ " pivots:\n" ++
      optimum.named.render
  | .unbounded _ => "Problem is unbounded.\n"
  | .nonConvergent _ =>
    "No optimum found within " ++ toString settings.maxIterations ++ " pivots.\n"

/-- The answer for a human reader, after the announcement. -/
def answerText (settings : Settings) (tableaus : Bool) (problem : Problem Float)
    (outcome : Outcome Float) : String :=
  problem.standardForm.render ++ "\n\n" ++ skippedText problem.skipped ++
    outcome.trace.report tableaus ++ "\n" ++ conclusion settings outcome

/-- The answer for a program. -/
def answerJson (settings : Settings) (problem : Problem Float) (outcome : Outcome Float) : Json :=
  .record [
    ("config", settings.toJson),
    ("problem", problem.standardForm.toJson),
    ("skipped", .ofList Skipped.toJson problem.skipped),
    ("solution", .ofOption (fun optimum => optimum.named.toJson) outcome.optimum?),
    ("result", outcome.toJson)]

/-! ## The program -/

/-- The version of the program. -/
def versionText : String := "simplex-trace 0.1.0\n"

/-- How the program is used. -/
def helpText : String :=
  "Solve a maximization linear program and show every Simplex pivot\n\n" ++
  "Usage: simplex-trace [OPTIONS] <PROBLEM_FILE>\n\n" ++
  "Options:\n" ++
  "  -c, --config <FILE>          JSON file with solver settings\n" ++
  "      --pivot-rule <RULE>      \"dantzig\" or \"bland\"\n" ++
  "      --max-iterations <N>     Maximum number of pivots\n" ++
  "      --epsilon <E>            Numerical tolerance\n" ++
  "  -t, --tableaus               Print the tableau of every iteration\n" ++
  "  -f, --format <FORMAT>        \"text\" or \"json\"\n" ++
  "  -v, --verbose                Increase logging verbosity\n" ++
  "  -h, --help                   Print help\n" ++
  "  -V, --version                Print version\n"

/-- Whether an event is told at a verbosity. -/
def isTold (verbosity : Nat) (event : Event) : Bool :=
  match event.level with
  | .warn => true
  | .debug => decide (2 ≤ verbosity)
  | .trace => decide (3 ≤ verbosity)

/-- The output of a failure, after what has already been written. -/
def failed (stdout : String) (failure : Failure) (events : List Event) : Output :=
  { exitCode := 1, stdout, stderr := failure.report, events }

/-- Solves a problem file. -/
def solveFile (files : Files) (file : String) (options : Options) : Output :=
  match settingsOf files options with
  | .error failure => failed "" failure []
  | .ok settings =>
    let format := options.format.getD .text
    let announced := if format = .text then announcement file else ""
    match readProblemText files file with
    | .error failure => failed announced failure []
    | .ok text =>
      let events := (settings.textEvents Float text.objective text.constraints).filter
        (isTold options.verbosity)
      match readProblem settings file text with
      | .error failure => failed announced failure events
      | .ok problem =>
        let outcome := settings.solve problem.standardForm
        let answer := match format with
          | .text => announced ++ answerText settings options.tableaus problem outcome
          | .json => (answerJson settings problem outcome).pretty ++ "\n"
        { exitCode := 0, stdout := answer, events }

/-- Runs the program on its arguments and the files that it can read. -/
def run (files : Files) (arguments : List String) : Output :=
  match request arguments with
  | .error misuse => { exitCode := 2, stdout := "", stderr := "error: " ++ misuse.message ++ "\n" }
  | .ok .version => { exitCode := 0, stdout := versionText }
  | .ok .help => { exitCode := 0, stdout := helpText }
  | .ok (.solve file options) => solveFile files file options

/-- The files that the program may read when it is run on some arguments. -/
def filesOf (arguments : List String) : List String :=
  match request arguments with
  | .ok (.solve file options) => file :: options.config.toList
  | _ => []

end CommandLine

end PrimalSimplex
