import DriverHeader.FileTree
import DriverHeader.Header
import DriverHeader.Placement

/-! # Emission

Rendering gives the header of a document and its place; emitting also puts it there. Both tell
in a log what they did.
-/
namespace DriverHeader

inductive LogLevel
  | error
  | info
  | debug
  deriving DecidableEq

def LogLevel.label : LogLevel → Text
  | error => "ERROR"
  | info => "INFO"
  | debug => "DEBUG"

structure LogRecord where
  level : LogLevel
  source : Text
  message : Text
  deriving DecidableEq

structure EmissionOptions where
  kernel : Bool := false
  root : Text := "."

def EmissionOptions.target (options : EmissionOptions) : Target := .ofKernelFlag options.kernel

inductive EmissionFault
  | unsupportedKind (kind : DocumentKind)
  | missingInterface (kind : DocumentKind)
  | directory (path : Text) (cause : Cause)
  | write (path : Text) (cause : Cause)
  deriving DecidableEq

def EmissionFault.message : EmissionFault → Text
  | unsupportedKind kind => "cannot emit a C interface header for a " ++ kind.label ++ " file"
  | missingInterface kind => kind.label ++ " file carries no interface declaration"
  | directory path cause => "failed to create directory '" ++ path ++ "': " ++ cause.message
  | write path cause => "failed to write '" ++ path ++ "': " ++ cause.message

structure RenderedHeader where
  directory : Text
  interfaceName : Text
  content : Text
  deriving DecidableEq

def RenderedHeader.path (header : RenderedHeader) : Text :=
  headerPath header.directory header.interfaceName

namespace Document

/-- The interface a header is made for. Only interface and callback documents have one, and in a
callback document it is a callback whatever its own role says. -/
def subject (document : Document) : Except EmissionFault Interface :=
  match document.kind, document.interface with
  | .interface, some interface => .ok interface
  | .callback, some interface => .ok { interface with role := .callback }
  | .interface, none => .error (.missingInterface .interface)
  | .callback, none => .error (.missingInterface .callback)
  | .types, _ => .error (.unsupportedKind .types)
  | .sequenceable, _ => .error (.unsupportedKind .sequenceable)

def render (document : Document) (options : EmissionOptions) :
    Except EmissionFault RenderedHeader := do
  let interface ← document.subject
  .ok
    { directory := packageDirectory options.root interface.package
      interfaceName := interface.name
      content := Header.text document interface options.target }

def renderLog (document : Document) (options : EmissionOptions) : List LogRecord :=
  match document.subject with
  | .error _ => []
  | .ok interface =>
    [{ level := .debug
       source := "hdi_gen::codegen::driver"
       message := "emitting " ++ interface.fullName ++ " (" ++ interface.role.label ++ ", "
         ++ options.target.label ++ " target)" }]

end Document

/-- What became of a header: its path or a fault, the tree afterwards, and the log. -/
structure Emission where
  result : Except EmissionFault Text
  tree : FileTree
  log : List LogRecord

def writeRecord (level : LogLevel) (message : Text) : LogRecord :=
  { level, source := "hdi_gen::codegen::writer", message }

/-- Writes a header: missing directories are made, then the complete file is put in place. -/
def RenderedHeader.write (header : RenderedHeader) (tree : FileTree) : Emission :=
  match tree.createDirectories header.directory with
  | (made, some cause) =>
    { result := .error (.directory header.directory cause)
      tree := made
      log := [writeRecord .error
        ("create '" ++ header.directory ++ "' failed: " ++ cause.message)] }
  | (made, none) =>
    match made.placeFile header.directory header.path (.text header.content) with
    | (left, some cause) => { result := .error (.write header.path cause), tree := left, log := [] }
    | (written, none) =>
      { result := .ok header.path
        tree := written
        log := [writeRecord .info ("wrote " ++ header.path)] }

def Document.emit (document : Document) (options : EmissionOptions) (tree : FileTree) : Emission :=
  match document.render options with
  | .error fault => { result := .error fault, tree, log := [] }
  | .ok header =>
    let emission := header.write tree
    { emission with log := document.renderLog options ++ emission.log }

end DriverHeader
