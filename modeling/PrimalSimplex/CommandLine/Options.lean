import PrimalSimplex.PivotRule
import PrimalSimplex.Json.Numeral

/-!
# Command line options

The arguments are read from left to right. An option is a word after two hyphens or a letter after
one; letters can be bundled. The value of an option is attached to it (`--format=json`, `-fjson`,
`-f=json`) or is the next argument, which then may not look like an option itself. After a bare `--`
everything is a file name. One file name is expected, and no option but `verbose` is given twice.

Reading stops at the first thing that decides the outcome: an argument that is wrong (`Misuse`), or
an option that asks for something else than solving (`Request`). So what stands after `--version` is
not looked at, and what stands before it is.
-/

namespace PrimalSimplex

namespace CommandLine

/-- The format of the answer. -/
inductive OutputFormat where
  /-- for a human reader -/
  | text
  /-- for a program -/
  | json
  deriving DecidableEq

/-- The options by name. -/
inductive OptionName where
  /-- the file with the settings -/
  | config
  /-- the pivot rule -/
  | pivotRule
  /-- the limit on the number of pivots -/
  | maxIterations
  /-- the tolerance -/
  | epsilon
  /-- show the tableaus -/
  | tableaus
  /-- the format of the answer -/
  | format
  /-- tell more of what happens -/
  | verbose
  /-- show the version -/
  | version
  /-- show how the program is used -/
  | help
  deriving DecidableEq

namespace OptionName

/-- The options with their words. -/
def words : List (String × OptionName) := [
  ("config", config), ("pivot-rule", pivotRule), ("max-iterations", maxIterations),
  ("epsilon", epsilon), ("tableaus", tableaus), ("format", format), ("verbose", verbose),
  ("version", version), ("help", help)]

/-- The options with their letters. -/
def letters : List (Char × OptionName) := [
  ('c', config), ('t', tableaus), ('f', format), ('v', verbose), ('V', version), ('h', help)]

/-- Whether an option has a value. -/
def takesValue : OptionName → Bool
  | config | pivotRule | maxIterations | epsilon | format => true
  | tableaus | verbose | version | help => false

end OptionName

/-- Why arguments are refused. -/
inductive Misuse where
  /-- there is no such option -/
  | unknownOption (argument : String)
  /-- the value of an option is missing -/
  | missingValue (argument : String)
  /-- an option has a value that it does not take -/
  | unexpectedValue (argument : String)
  /-- the value of an option is not one of those it takes -/
  | invalidValue (value : String)
  /-- an option is given twice -/
  | repeated
  /-- there is more than one file name -/
  | secondFile (argument : String)
  /-- there is no file name -/
  | noFile
  deriving DecidableEq

/-- The wording of a misuse. -/
def Misuse.message : Misuse → String
  | unknownOption argument => "unexpected argument '" ++ argument ++ "'"
  | missingValue argument => "a value is required for '" ++ argument ++ "'"
  | unexpectedValue argument => "no value is expected in '" ++ argument ++ "'"
  | invalidValue value => "invalid value '" ++ value ++ "'"
  | repeated => "an option is given more than once"
  | secondFile argument => "unexpected argument '" ++ argument ++ "'"
  | noFile => "no problem file is given"

/-- What the arguments say, as far as they have been read. -/
structure Options where
  /-- the problem file -/
  file : Option String := none
  /-- the file with the settings -/
  config : Option String := none
  /-- the pivot rule -/
  pivotRule : Option PivotRule := none
  /-- the limit on the number of pivots -/
  maxIterations : Option Nat := none
  /-- the tolerance -/
  epsilon : Option Float := none
  /-- whether the tableaus are shown -/
  tableaus : Bool := false
  /-- the format of the answer -/
  format : Option OutputFormat := none
  /-- how often more was asked to be told -/
  verbosity : Nat := 0

/-- What the arguments ask for. -/
inductive Request where
  /-- solve a problem file -/
  | solve (file : String) (options : Options)
  /-- show the version -/
  | version
  /-- show how the program is used -/
  | help

/-! ## Values -/

/-- Reads a count: digits with an optional plus, up to the largest word. -/
def readCount? (text : String) : Option Nat :=
  let digits := match text.toList with
    | '+' :: rest => rest
    | cs => cs
  if digits.isEmpty || !digits.all Char.isDigit then none
  else
    let value := digitsValue digits
    if value ≤ Json.Number.greatestWord then some value else none

/-- Reads the name of an output format. -/
def OutputFormat.read? (text : String) : Option OutputFormat :=
  if text = "text" then some .text else if text = "json" then some .json else none

/-- Reads the name of a file, which is not empty. -/
def readFile? (text : String) : Option String := if text.isEmpty then none else some text

/-- Sets something that was not set before to the value that a text stands for. -/
def setOnce {α : Type} (current : Option α) (value : String) (read : Option α) :
    Except Misuse (Option α) :=
  match current, read with
  | some _, _ => .error .repeated
  | none, some result => .ok (some result)
  | none, none => .error (.invalidValue value)

namespace Options

/-- Gives an option its value. -/
def set (options : Options) (name : OptionName) (value : String) : Except Misuse Options :=
  match name with
  | .config => do
    return { options with config := ← setOnce options.config value (readFile? value) }
  | .pivotRule => do
    let read := (PivotRule.read value).toOption
    return { options with pivotRule := ← setOnce options.pivotRule value read }
  | .maxIterations => do
    return { options with
      maxIterations := ← setOnce options.maxIterations value (readCount? value) }
  | .epsilon => do
    let read := (NumberText.ofChars? value.toList).map Binary64.ofText
    return { options with epsilon := ← setOnce options.epsilon value read }
  | .format => do
    return { options with format := ← setOnce options.format value (OutputFormat.read? value) }
  | .tableaus | .verbose | .version | .help => .error (.unexpectedValue value)

/-- Adds a file name. -/
def addFile (options : Options) (argument : String) : Except Misuse Options :=
  match options.file with
  | some _ => .error (.secondFile argument)
  | none =>
    match readFile? argument with
    | some file => .ok { options with file := some file }
    | none => .error (.invalidValue argument)

/-- The request of a complete list of arguments. -/
def finish (options : Options) : Except Misuse Request :=
  match options.file with
  | some file => .ok (.solve file options)
  | none => .error .noFile

/-- Adds file names, and nothing else. -/
def addFiles (options : Options) : List String → Except Misuse Request
  | [] => options.finish
  | argument :: rest => do (← options.addFile argument).addFiles rest

end Options

/-! ## Arguments -/

/-- Where reading stands after an option. -/
inductive Step where
  /-- the option is complete -/
  | next (options : Options)
  /-- the option decides what is asked for -/
  | stop (request : Request)
  /-- the value of an option is in the next argument -/
  | awaiting (options : Options) (name : OptionName)

/-- Takes notice of an option without a value. -/
def raise (options : Options) : OptionName → Except Misuse Step
  | .tableaus =>
    if options.tableaus then .error .repeated else .ok (.next { options with tableaus := true })
  | .verbose => .ok (.next { options with verbosity := options.verbosity + 1 })
  | .version => .ok (.stop .version)
  | .help => .ok (.stop .help)
  | name => .ok (.awaiting options name)

/-- Reads an option that is given by its word, after the two hyphens. -/
def readWord (argument : String) (options : Options) (cs : List Char) : Except Misuse Step :=
  let word := cs.takeWhile (· ≠ '=')
  match OptionName.words.lookup (String.ofList word), cs.dropWhile (· ≠ '=') with
  | none, _ => .error (.unknownOption argument)
  | some name, [] => raise options name
  | some name, _ :: value =>
    if name.takesValue then (options.set name (String.ofList value)).map .next
    else .error (.unexpectedValue argument)

/-- Reads options that are given by their letters, after the hyphen. -/
def readLetters (argument : String) (options : Options) : List Char → Except Misuse Step
  | [] => .ok (.next options)
  | c :: rest =>
    match OptionName.letters.lookup c with
    | none => .error (.unknownOption argument)
    | some name =>
      if name.takesValue then
        match rest with
        | [] => .ok (.awaiting options name)
        | '=' :: value => (options.set name (String.ofList value)).map .next
        | value => (options.set name (String.ofList value)).map .next
      else do
        match ← raise options name with
        | .next options => readLetters argument options rest
        | step => return step

/-- Whether an argument looks like an option, so that it is not a value. A single hyphen does
not. -/
def looksLikeOption (argument : String) : Bool :=
  match argument.toList with
  | '-' :: _ :: _ => true
  | _ => false

/-- Reads one argument. -/
def readArgument (options : Options) (argument : String) : Except Misuse Step :=
  match argument.toList with
  | '-' :: '-' :: cs => readWord argument options cs
  | '-' :: c :: cs => readLetters argument options (c :: cs)
  | _ => (options.addFile argument).map .next

/-- Reads arguments, given what the ones before them said. -/
def readArguments (options : Options) : List String → Except Misuse Request
  | [] => options.finish
  | argument :: rest =>
    if argument = "--" then options.addFiles rest
    else match readArgument options argument with
      | .error misuse => .error misuse
      | .ok (.next options) => readArguments options rest
      | .ok (.stop request) => .ok request
      | .ok (.awaiting options name) =>
        match rest with
        | [] => .error (.missingValue argument)
        | value :: rest =>
          if looksLikeOption value then .error (.missingValue argument)
          else match options.set name value with
            | .error misuse => .error misuse
            | .ok options => readArguments options rest

/-- What a list of arguments asks for. -/
def request (arguments : List String) : Except Misuse Request := readArguments {} arguments

end CommandLine

end PrimalSimplex
