import DriverHeader.Text

/-! # Arguments

Options and files may be mixed. Short options can be joined in one word, and what follows an
option that takes a value in such a word is its value. After `--` every word is a file.
-/
namespace DriverHeader

structure Settings where
  files : List Text
  output : Text
  kernel : Bool
  check : Bool
  stdout : Bool
  verbose : Bool
  deriving DecidableEq

inductive UsageFault
  | noFile
  | emptyFile
  | unknownOption (word : Text)
  | missingValue (option : Text)
  | unwantedValue (option : Text)
  | repeatedOption (option : Text)
  deriving DecidableEq

def UsageFault.message : UsageFault → Text
  | noFile => "no input file was given"
  | emptyFile => "a file name is empty"
  | unknownOption word => "unexpected argument '" ++ word ++ "'"
  | missingValue option => "a value is required for '" ++ option ++ "'"
  | unwantedValue option => "unexpected value for '" ++ option ++ "'"
  | repeatedOption option => "'" ++ option ++ "' cannot be used multiple times"

inductive Flag
  | kernel
  | check
  | stdout
  | verbose
  deriving DecidableEq

def Flag.word : Flag → Text
  | kernel => "--kernel"
  | check => "--check"
  | stdout => "--stdout"
  | verbose => "--verbose"

structure Arguments where
  files : List Text := []
  output : Option Text := none
  flags : List Flag := []
  help : Bool := false
  deriving DecidableEq

namespace Arguments

def addFile (arguments : Arguments) (word : Text) : Except UsageFault Arguments :=
  if word = [] then .error .emptyFile
  else .ok { arguments with files := arguments.files ++ [word] }

def addFlag (arguments : Arguments) (flag : Flag) : Except UsageFault Arguments :=
  if flag ∈ arguments.flags then .error (.repeatedOption flag.word)
  else .ok { arguments with flags := flag :: arguments.flags }

def setOutput (arguments : Arguments) (value : Text) : Except UsageFault Arguments :=
  if value = [] then .error (.missingValue "--output")
  else if arguments.output.isSome then .error (.repeatedOption "--output")
  else .ok { arguments with output := some value }

/-- Reads the letters of joined short options; true if the last one waits for its value. Letters
after a request for help are not looked at. -/
def addLetters (arguments : Arguments) : Text → Except UsageFault (Arguments × Bool)
  | [] => .ok (arguments, false)
  | 'v' :: letters => do (← arguments.addFlag .verbose).addLetters letters
  | 'h' :: _ => .ok ({ arguments with help := true }, false)
  | 'o' :: letters =>
    match letters with
    | [] => .ok (arguments, true)
    | '=' :: value => do .ok (← arguments.setOutput value, false)
    | value => do .ok (← arguments.setOutput value, false)
  | letter :: _ => .error (.unknownOption ['-', letter])

def addLong (arguments : Arguments) (word : Text) : Except UsageFault (Arguments × Bool) :=
  let name := word.takeWhile (· ≠ '=')
  let value? := if name = word then none else some (word.drop (name.length + 1))
  let addFlag (flag : Flag) : Except UsageFault (Arguments × Bool) :=
    match value? with
    | some _ => .error (.unwantedValue flag.word)
    | none => do .ok (← arguments.addFlag flag, false)
  if name = "output" then
    match value? with
    | some value => do .ok (← arguments.setOutput value, false)
    | none => .ok (arguments, true)
  else if name = "kernel" then addFlag .kernel
  else if name = "check" then addFlag .check
  else if name = "stdout" then addFlag .stdout
  else if name = "verbose" then addFlag .verbose
  else if word = "help" then .ok ({ arguments with help := true }, false)
  else .error (.unknownOption ("--" ++ word))

/-- Whether a word is read as an option; a single dash is a file name. -/
def isOption : Text → Bool
  | '-' :: _ :: _ => true
  | _ => false

def addOption (arguments : Arguments) : Text → Except UsageFault (Arguments × Bool)
  | '-' :: '-' :: word => arguments.addLong word
  | '-' :: letters => arguments.addLetters letters
  | word => .error (.unknownOption word)

def addWords (arguments : Arguments) : List Text → Except UsageFault Arguments
  | [] => .ok arguments
  | word :: words =>
    if word = "--" then words.foldlM addFile arguments
    else if isOption word then do
      match ← arguments.addOption word with
      | (arguments, false) => if arguments.help then .ok arguments else arguments.addWords words
      | (arguments, true) =>
        match words with
        | [] => .error (.missingValue "--output")
        | value :: words =>
          if isOption value then .error (.missingValue "--output")
          else (← arguments.setOutput value).addWords words
    else do (← arguments.addFile word).addWords words

def settings (arguments : Arguments) : Except UsageFault Settings :=
  if arguments.files = [] then .error .noFile
  else
    .ok
      { files := arguments.files
        output := arguments.output.getD "."
        kernel := .kernel ∈ arguments.flags
        check := .check ∈ arguments.flags
        stdout := .stdout ∈ arguments.flags
        verbose := .verbose ∈ arguments.flags }

end Arguments

inductive Request
  | help
  | run (settings : Settings)
  deriving DecidableEq

def helpLines : List Text :=
  ["HDI C interface header generator",
    "",
    "Usage: hdi-gen [OPTIONS] <FILES>...",
    "",
    "Arguments:",
    "  <FILES>...  Input AST files (JSON, as produced by the front end)",
    "",
    "Options:",
    "  -o, --output <OUTPUT>  Output root directory [default: .]",
    "      --kernel           Generate kernel-mode driver code",
    "      --check            Check inputs only (no generation)",
    "      --stdout           Print headers to stdout instead of writing files",
    "  -v, --verbose          Verbose output",
    "  -h, --help             Print help"]

def helpText : Text := helpLines.flatMap (· ++ ['\n'])

def Request.ofWords (words : List Text) : Except UsageFault Request := do
  let arguments ← Arguments.addWords {} words
  if arguments.help then .ok .help else .ok (.run (← arguments.settings))

end DriverHeader
