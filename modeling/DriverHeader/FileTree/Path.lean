import DriverHeader.Text

/-! # Paths and why they fail

A path is a sequence of steps from the root or from the working directory. Empty pieces between
separators are no steps. As texts, paths are never normalized: joining looks only at the first
character of the second path and the last character of the first one.
-/
namespace DriverHeader

inductive Cause
  | noEntry
  | alreadyExists
  | notDirectory
  | isDirectory
  | nameTooLong
  | nulByte
  | invalidArgument
  | notUtf8
  /-- A refusal by the operating system that no file tree shows, in its own words. -/
  | other (detail : Text)
  deriving DecidableEq

def Cause.message : Cause → Text
  | noEntry => "No such file or directory (os error 2)"
  | alreadyExists => "File exists (os error 17)"
  | notDirectory => "Not a directory (os error 20)"
  | isDirectory => "Is a directory (os error 21)"
  | nameTooLong => "File name too long (os error 36)"
  | nulByte => "file name contained an unexpected NUL byte"
  | invalidArgument => "Invalid argument (os error 22)"
  | notUtf8 => "stream did not contain valid UTF-8"
  | other detail => detail

/-- `path` seen from `base`: an absolute path stands for itself, any other is put below `base`
with exactly one separator added where `base` has none at its end. -/
def joinPath (base path : Text) : Text :=
  if path.head? = some '/' then path
  else if base = [] ∨ base.getLast? = some '/' then base ++ path
  else base ++ "/" ++ path

inductive Step
  | here
  | up
  | name (name : Text)
  deriving DecidableEq

def Step.ofPiece (piece : Text) : Step :=
  if piece = "." then here else if piece = ".." then up else name piece

def Step.piece : Step → Text
  | here => "."
  | up => ".."
  | name piece => piece

structure Path where
  absolute : Bool
  steps : List Step
  /-- A separator at the end asks for a directory. -/
  asksDirectory : Bool
  deriving DecidableEq

namespace Path

def byteLimit : Nat := 4096

def stepsOf (t : Text) : List Step := ((t.splitOn '/').filter (· ≠ [])).map Step.ofPiece

def ofText (t : Text) : Except Cause Path :=
  if '\x00' ∈ t then .error .nulByte
  else if byteLimit ≤ t.byteLength then .error .nameTooLong
  else if t = [] then .error .noEntry
  else
    .ok
      { absolute := t.head? = some '/'
        steps := stepsOf t
        asksDirectory := t.getLast? = some '/' }

def text (path : Path) : Text :=
  (if path.absolute then ['/'] else []) ++ List.intercalate ['/'] (path.steps.map Step.piece)

/-- The directories above a path, the nearest first and without the starting point. Steps that
stay in place do not count. -/
def ancestors (path : Path) : List Path :=
  let steps := path.steps.filter (· ≠ .here)
  (List.range' 1 (steps.length - 1)).reverse.map fun n => { path with steps := steps.take n }

end Path
end DriverHeader
