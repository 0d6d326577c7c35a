import DriverHeader.CommandLine.Run

/-! # The program

Runs over the files of the operating system. What is printed and written is decided by the
settings and the texts read; here are only the reading and the writing.
-/
namespace DriverHeader

def systemError : IO.Error → UInt32 × String
  | .alreadyExists _ code detail => (code, detail)
  | .otherError code detail => (code, detail)
  | .resourceBusy code detail => (code, detail)
  | .resourceVanished code detail => (code, detail)
  | .unsupportedOperation code detail => (code, detail)
  | .hardwareFault code detail => (code, detail)
  | .unsatisfiedConstraints code detail => (code, detail)
  | .illegalOperation code detail => (code, detail)
  | .protocolError code detail => (code, detail)
  | .timeExpired code detail => (code, detail)
  | .interrupted _ code detail => (code, detail)
  | .noFileOrDirectory _ code detail => (code, detail)
  | .invalidArgument _ code detail => (code, detail)
  | .permissionDenied _ code detail => (code, detail)
  | .resourceExhausted _ code detail => (code, detail)
  | .inappropriateType _ code detail => (code, detail)
  | .noSuchThing _ code detail => (code, detail)
  | .unexpectedEof => (0, "unexpected end of file")
  | .userError detail => (0, detail)

/-- The cause behind an error of the operating system, whose number may come negated. -/
def Cause.ofError (error : IO.Error) : Cause :=
  let (code, detail) := systemError error
  match if 2 * code.toNat < UInt32.size then code.toNat else UInt32.size - code.toNat with
  | 2 => .noEntry
  | 17 => .alreadyExists
  | 20 => .notDirectory
  | 21 => .isDirectory
  | 22 => .invalidArgument
  | 36 => .nameTooLong
  | n => .other (detail.capitalize.toList ++ " (os error " ++ Text.decimal n ++ ")")

def attempt (action : IO α) : IO (Except Cause α) := do
  match ← action.toBaseIO with
  | .ok value => return .ok value
  | .error error => return .error (.ofError error)

def showLog (settings : Settings) (log : List LogRecord) : IO Unit :=
  log.forM fun record => do
    if settings.shows record then IO.eprint (String.ofList record.text)

def readInput (path : Text) : IO (Except Cause Text) := do
  match ← attempt (IO.FS.readBinFile (String.ofList path)) with
  | .error cause => return .error cause
  | .ok bytes =>
    match FileContent.ofBytes bytes with
    | .text text => return .ok text
    | .undecodable _ => return .error .notUtf8

def ensureOne (path : Text) : IO (Except Cause Unit) := do
  match ← attempt (IO.FS.createDir (String.ofList path)) with
  | .ok () => return .ok ()
  | .error .noEntry => return .error .noEntry
  | .error cause =>
    match ← attempt (IO.FS.createDirAll (String.ofList path)) with
    | .ok () => return .ok ()
    | .error _ => return .error cause

/-- Makes the first directory of a list. Where its parent is missing, the rest of the list is made
first. -/
def ensureAll : List Text → IO (Except Cause Unit)
  | [] => return .ok ()
  | path :: above => do
    match ← ensureOne path with
    | .error .noEntry =>
      match ← ensureAll above with
      | .ok () => ensureOne path
      | .error cause => return .error cause
    | result => return result

def makeDirectories (directory : Text) : IO (Except Cause Unit) :=
  if directory = [] then return .ok ()
  else
    match Path.ofText directory with
    | .error cause => return .error cause
    | .ok path => ensureAll (directory :: path.ancestors.map Path.text)

/-- Writes a file beside its place and then moves it there, so that it is never there in part. -/
def placeFile (header : RenderedHeader) : IO (Except Cause Unit) := do
  if '\x00' ∈ header.path then return .error .invalidArgument
  let stamp ← IO.monoNanosNow
  let draft := String.ofList (joinPath header.directory (".tmp" ++ Text.decimal stamp))
  let place : IO Unit := do
    IO.FS.writeFile draft (String.ofList header.content)
    IO.FS.rename draft (String.ofList header.path)
  match ← attempt place with
  | .ok () => return .ok ()
  | .error cause =>
    let _ ← attempt (IO.FS.removeFile draft)
    return .error cause

def writeOutput (header : RenderedHeader) : IO (Except EmissionFault Text × List LogRecord) := do
  match ← makeDirectories header.directory with
  | .error cause =>
    return (.error (.directory header.directory cause), [writeRecord .error
      ("create '" ++ header.directory ++ "' failed: " ++ cause.message)])
  | .ok () =>
    match ← placeFile header with
    | .ok () => return (.ok header.path, [writeRecord .info ("wrote " ++ header.path)])
    | .error cause => return (.error (.write header.path cause), [])

def processInput (settings : Settings) (path : Text) : IO (Text × Except Failure Outcome) := do
  showLog settings [processingRecord path]
  match ← readInput path with
  | .error cause => return (path, .error (.unreadable cause))
  | .ok input =>
    let (task, log) := settings.task input
    showLog settings log
    match task with
    | .error failure => return (path, .error failure)
    | .ok (.done outcome) => return (path, .ok outcome)
    | .ok (.write header) =>
      let (result, log) ← writeOutput header
      showLog settings log
      match result with
      | .ok written => return (path, .ok (.written written))
      | .error fault => return (path, .error (.emission fault))

def showReport (report : Report) : IO UInt32 := do
  IO.print (String.ofList report.stdout)
  IO.eprint (String.ofList report.stderr)
  return report.exitCode.toUInt32

def runCommand (arguments : List String) : IO UInt32 := do
  match Request.ofWords (arguments.map String.toList) with
  | .error fault =>
    IO.eprintln ("error: " ++ String.ofList fault.message)
    return 2
  | .ok .help => showReport Report.help
  | .ok (.run settings) =>
    showReport (Report.ofResults (← settings.files.mapM (processInput settings)))

end DriverHeader

def main (arguments : List String) : IO UInt32 := DriverHeader.runCommand arguments
