import DriverHeader.CommandLine.Arguments
import DriverHeader.Document.Parser
import DriverHeader.Emission
import DriverHeader.Text.ControlSequence

/-! # Runs over many documents

Each input is read, decoded and checked, printed or emitted on its own; a failure never stops the
others. The report names the outcomes in the order of the inputs.
-/
namespace DriverHeader

inductive Failure
  | unreadable (cause : Cause)
  | malformed (fault : Json.Fault)
  | emission (fault : EmissionFault)
  deriving DecidableEq

def Failure.message : Failure → Text
  | unreadable cause => "I/O error: " ++ cause.message
  | malformed fault => "AST error: malformed AST document: " ++ fault.message
  | emission fault => "emission error: " ++ fault.message

inductive Outcome
  | checked
  | printed (content : Text)
  | written (path : Text)
  deriving DecidableEq

inductive Task
  | done (outcome : Outcome)
  | write (header : RenderedHeader)

def Settings.options (settings : Settings) : EmissionOptions :=
  { kernel := settings.kernel, root := settings.output }

/-- Decodes and renders a document; a check comes before a request to print. -/
def Settings.task (settings : Settings) (input : Text) : Except Failure Task × List LogRecord :=
  match Document.parse input with
  | .error fault => (.error (.malformed fault), [])
  | .ok document =>
    let log := document.renderLog settings.options
    match document.render settings.options with
    | .error fault => (.error (.emission fault), log)
    | .ok header =>
      if settings.check then (.ok (.done .checked), log)
      else if settings.stdout then (.ok (.done (.printed header.content)), log)
      else (.ok (.write header), log)

structure Processed where
  result : Except Failure Outcome
  log : List LogRecord

def processingRecord (path : Text) : LogRecord :=
  { level := .debug, source := "hdi_gen", message := "processing " ++ path }

def Settings.process (settings : Settings) (path : Text) (tree : FileTree) :
    Processed × FileTree :=
  let start := processingRecord path
  match tree.read path with
  | .error cause => ({ result := .error (.unreadable cause), log := [start] }, tree)
  | .ok input =>
    match settings.task input with
    | (.error failure, log) => ({ result := .error failure, log := start :: log }, tree)
    | (.ok (.done outcome), log) => ({ result := .ok outcome, log := start :: log }, tree)
    | (.ok (.write header), log) =>
      let emission := header.write tree
      let result := match emission.result with
        | .ok path => .ok (.written path)
        | .error fault => .error (.emission fault)
      ({ result, log := start :: log ++ emission.log }, emission.tree)

/-- Consecutive runs of `size` items, of one item if the size is zero; the last run may be
shorter. -/
def batches (size : Nat) : List α → List (List α)
  | [] => []
  | item :: items => (item :: items.take (size - 1)) :: batches size (items.drop (size - 1))
termination_by items => items.length
decreasing_by simp only [List.length_drop, List.length_cons]; omega

def runJobs (job : α → σ → β × σ) : List α → σ → List β × σ
  | [], state => ([], state)
  | item :: items, state =>
    let (result, state) := job item state
    let (results, state) := runJobs job items state
    (result :: results, state)

/-- Runs jobs in batches, one job at a time for each worker and always at least one. The results
are in the order of the items. -/
def runBatches (workers : Nat) (job : α → σ → β × σ) (items : List α) (state : σ) :
    List β × σ :=
  let (results, state) := runJobs (runJobs job) (batches workers items) state
  (results.flatten, state)

structure Report where
  exitCode : Nat
  stdout : Text
  stderr : Text

namespace Report

def outcomeText (path : Text) : Except Failure Outcome → Text
  | .ok .checked => "✓ " ++ path ++ " - OK\n"
  | .ok (.printed content) => content
  | .ok (.written header) => "✓ " ++ path ++ " → " ++ header ++ "\n"
  | .error _ => []

def failureText (path : Text) : Except Failure Outcome → Text
  | .ok _ => []
  | .error failure => "✗ " ++ path ++ ": " ++ failure.message ++ "\n"

def isFailure : Except Failure Outcome → Bool
  | .ok _ => false
  | .error _ => true

def summary (failures inputs : Nat) : Text :=
  "Error: \"" ++ Text.decimal failures ++ " of " ++ Text.decimal inputs ++ " file(s) failed\"\n"

def help : Report := { exitCode := 0, stdout := helpText, stderr := [] }

def ofResults (results : List (Text × Except Failure Outcome)) : Report :=
  let failures := results.countP fun (_, result) => isFailure result
  { exitCode := if failures = 0 then 0 else 1
    stdout := results.flatMap fun (path, result) => outcomeText path result
    stderr :=
      (results.flatMap fun (path, result) => failureText path result)
        ++ (if failures = 0 then [] else summary failures results.length) }

end Report

/-- The records that are shown: only errors, unless a run is verbose. -/
def Settings.shows (settings : Settings) (record : LogRecord) : Bool :=
  settings.verbose || record.level = .error

/-- A record as it is shown, its level padded to five characters. Where the message has more
lines, all but the first are indented. Control sequences are left out, with a line end if one runs
over it. -/
def LogRecord.text (record : LogRecord) : Text :=
  let level := record.level.label
  let lead := "[" ++ level ++ List.replicate (5 - level.length) ' ' ++ " " ++ record.source ++ "] "
  let message := List.intercalate ('\n' :: tab) (record.message.splitOn '\n')
  Text.plain (lead ++ message ++ "\n")

structure ErrorPiece where
  isRecord : Bool
  text : Text

/-- Joins each piece that does not end its line with the piece after it. -/
def joinUnended : List ErrorPiece → List ErrorPiece
  | [] => []
  | piece :: pieces =>
    match joinUnended pieces with
    | [] => [piece]
    | after :: later =>
      if piece.text.getLast? = some '\n' then piece :: after :: later
      else { piece with text := piece.text ++ after.text } :: later

def Report.errorLines (report : Report) (log : List LogRecord) : List Text × List Text :=
  let pieces := joinUnended
    (log.map (fun record => ⟨true, record.text⟩) ++ [⟨false, report.stderr⟩])
  let lines := pieces.flatMap fun piece =>
    piece.text.lines.mapIdx fun n line => (piece.isRecord && n = 0, line)
  ((lines.filter Prod.fst).map Prod.snd, (lines.filter fun line => !line.1).map Prod.snd)

def Settings.run (settings : Settings) (workers : Nat) (tree : FileTree) :
    Report × List LogRecord × FileTree :=
  let (processed, tree) := runBatches workers settings.process settings.files tree
  let results := settings.files.zip (processed.map Processed.result)
  let log := (processed.flatMap Processed.log).filter settings.shows
  (Report.ofResults results, log, tree)

end DriverHeader
