import DriverHeader.Text

/-! # C names derived from interface names

File stems are snake case with one directory for each dotted segment; macro and command names
are upper snake case. Only ASCII letters have case here, every other character is kept.
-/
namespace DriverHeader

/-- Snake case from a position inside a dotted segment. An upper-case letter opens a new word
unless it is one of the first two characters of its segment, so a leading `I` stays glued. -/
def fileStemFrom (position : Nat) : Text → Text
  | [] => []
  | c :: rest =>
    if c = '.' then '/' :: fileStemFrom 0 rest
    else if c.isUpper ∧ 2 ≤ position then '_' :: c.toLower :: fileStemFrom (position + 1) rest
    else c.toLower :: fileStemFrom (position + 1) rest

/-- The path of a header relative to the output root, without its `.h`: `a.IFooBar` is
`a/ifoo_bar`. -/
def fileStem (name : Text) : Text := fileStemFrom 0 name

def upperSnakeStep (c : Char) : Text := if c.isUpper then ['_', c] else [c.toUpper]

/-- Upper snake case; the first two characters never open a new word. -/
def upperSnake (name : Text) : Text :=
  (name.take 2).map Char.toUpper ++ (name.drop 2).flatMap upperSnakeStep

def coreName : Text → Text
  | 'I' :: c :: rest => if c.isUpper then c :: rest else 'I' :: c :: rest
  | name => name

def guardMacro (fullName : Text) : Text :=
  fullName.map (fun c => if c.isAlphanum then c.toUpper else '_') ++ "_H"

def descriptorMacro (name : Text) : Text := name.map Char.toUpper ++ "_INTERFACE_DESC"

def majorVersionMacro (name : Text) : Text := upperSnake name ++ "_MAJOR_VERSION"

def minorVersionMacro (name : Text) : Text := upperSnake name ++ "_MINOR_VERSION"

def bufferSizeMacro (name : Text) : Text := upperSnake (coreName name) ++ "_BUFF_MAX_SIZE"

def commandName (interface method : Text) : Text :=
  "CMD_" ++ upperSnake (coreName interface) ++ "_" ++ upperSnake method

end DriverHeader
