import DriverHeader.FileTree.Path
import Std.Data.ExtTreeMap

/-! # Entries and how they change

What a process sees of the file system: the entries below the root, each at the list of names that
leads to it, and the working directory. The root itself always exists. Nothing here asks that an
entry stands in a directory; the operations keep to that by themselves.
-/
namespace DriverHeader

abbrev Location := List Text

inductive FileContent
  | text (text : Text)
  /-- Bytes that are not UTF-8. -/
  | undecodable (bytes : List UInt8)
  deriving DecidableEq

def FileContent.ofBytes (bytes : ByteArray) : FileContent :=
  match String.fromUTF8? bytes with
  | some s => .text s.toList
  | none => .undecodable bytes.data.toList

inductive Entry
  | directory
  | file (content : FileContent)
  deriving DecidableEq

/-- Entries at any locations, whether or not there is a way to them. -/
structure LooseTree where
  entries : Std.ExtTreeMap Location Entry
  workingDirectory : Location

namespace LooseTree

def empty : LooseTree := ⟨∅, []⟩

def nameLimit : Nat := 255

def lookup? (tree : LooseTree) (location : Location) : Option Entry :=
  if location = [] then some .directory else tree.entries[location]?

def put (tree : LooseTree) (location : Location) (entry : Entry) : LooseTree :=
  { tree with entries := tree.entries.insert location entry }

def erase (tree : LooseTree) (location : Location) : LooseTree :=
  { tree with entries := tree.entries.erase location }

def addWay (tree : LooseTree) (location : Location) : List Text → LooseTree
  | [] => tree
  | name :: names =>
    (tree.put (location ++ [name]) .directory).addWay (location ++ [name]) names

def startingAt (location : Location) : LooseTree :=
  { empty with workingDirectory := location }.addWay [] location

def advance (tree : LooseTree) (location : Location) (step : Step) : Except Cause Location :=
  match tree.lookup? location with
  | none => .error .noEntry
  | some (.file _) => .error .notDirectory
  | some .directory =>
    match step with
    | .here => .ok location
    | .up => .ok location.dropLast
    | .name name =>
      if nameLimit < name.byteLength then .error .nameTooLong else .ok (location ++ [name])

def start (tree : LooseTree) (path : Path) : Location :=
  if path.absolute then [] else tree.workingDirectory

/-- The location of a path. There need not be an entry, but all on the way are directories. -/
def resolve (tree : LooseTree) (path : Path) : Except Cause Location :=
  path.steps.foldlM tree.advance (tree.start path)

def find (tree : LooseTree) (path : Path) : Except Cause Entry := do
  let location ← tree.resolve path
  match tree.lookup? location with
  | none => .error .noEntry
  | some .directory => .ok .directory
  | some (.file content) =>
    if path.asksDirectory then .error .notDirectory else .ok (.file content)

def isDirectory (tree : LooseTree) (path : Path) : Bool := tree.find path matches .ok .directory

def read (tree : LooseTree) (path : Text) : Except Cause Text := do
  match ← tree.find (← Path.ofText path) with
  | .directory => .error .isDirectory
  | .file (.undecodable _) => .error .notUtf8
  | .file (.text text) => .ok text

def makeDirectory (tree : LooseTree) (path : Path) : Except Cause LooseTree := do
  let location ← tree.resolve path
  match tree.lookup? location with
  | some _ => .error .alreadyExists
  | none => .ok (tree.put location .directory)

/-- Where a file can be put, over one that may be there. Moving a file, unlike all else, refuses a
path with a NUL as an invalid argument. -/
def destination (tree : LooseTree) (path : Text) : Except Cause Location :=
  if '\x00' ∈ path then .error .invalidArgument
  else do
    let path ← Path.ofText path
    let location ← tree.resolve path
    if path.asksDirectory ∨ tree.lookup? location = some .directory then .error .isDirectory
    else .ok location

def replaceFile (tree : LooseTree) (path : Text) (content : FileContent) :
    Except Cause LooseTree := do
  let location ← tree.destination path
  .ok (tree.put location (.file content))

abbrev Attempt := LooseTree × Option Cause

def ensureDirectory (tree : LooseTree) (path : Path) : Attempt :=
  match tree.makeDirectory path with
  | .ok made => (made, none)
  | .error cause => (tree, if tree.isDirectory path then none else some cause)

/-- Makes the first directory of a list. Where its parent is missing, the rest of the list is made
first; what was made stays, also if a later step fails. -/
def ensureFirst (tree : LooseTree) : List Path → Attempt
  | [] => (tree, none)
  | path :: above =>
    match tree.ensureDirectory path with
    | (_, some .noEntry) =>
      match tree.ensureFirst above with
      | (made, none) => made.ensureDirectory path
      | stopped => stopped
    | attempt => attempt

def createDirectories (tree : LooseTree) (path : Text) : Attempt :=
  if path = [] then (tree, none)
  else
    match Path.ofText path with
    | .error cause => (tree, some cause)
    | .ok path => tree.ensureFirst (path :: path.ancestors)

def temporaryName (n : Nat) : Text := ".tmp" ++ Text.decimal n

/-- The bytes of the name of a temporary file. The numbers that tell names apart here stand for
random characters, always as many. -/
def temporaryLength : Nat := 10

def fitsTemporary (directory : Text) : Bool :=
  (joinPath directory []).byteLength + temporaryLength < Path.byteLimit

/-- The first name for a temporary file that is free in a directory. Among one more name than the
tree has entries there is one. -/
def freeName? (tree : LooseTree) (location : Location) : Option Text :=
  ((List.range (tree.entries.size + 1)).map temporaryName).find? fun name =>
    tree.lookup? (location ++ [name]) = none

def stagingDirectory (tree : LooseTree) (directory : Text) : Except Cause Location :=
  if fitsTemporary directory then
    (if directory = [] then .ok tree.workingDirectory else Path.ofText directory >>= tree.resolve)
      >>= (tree.advance · .here)
  else .error .nameTooLong

def createTemporary (tree : LooseTree) (directory : Text) :
    Except Cause (Location × LooseTree) := do
  let location ← tree.stagingDirectory directory
  match tree.freeName? location with
  | none => .error .alreadyExists
  | some name =>
    let temporary := location ++ [name]
    .ok (temporary, tree.put temporary (.file (.text [])))

def move (tree : LooseTree) (source : Location) (path : Text) : Except Cause LooseTree := do
  let location ← tree.destination path
  match tree.lookup? source with
  | none => .error .noEntry
  | some entry => .ok ((tree.erase source).put location entry)

/-- Writes a file beside its place and then moves it there, so that it is never there in part. If
it cannot be moved it is taken away. -/
def placeFile (tree : LooseTree) (directory path : Text) (content : FileContent) : Attempt :=
  match tree.createTemporary directory with
  | .error cause => (tree, some cause)
  | .ok (temporary, created) =>
    let written := created.put temporary (.file content)
    match written.move temporary path with
    | .ok moved => (moved, none)
    | .error cause => (written.erase temporary, some cause)

def clear (tree : LooseTree) (location : Location) : LooseTree :=
  { tree with
    entries := tree.entries.filter fun other _ => other = location || !location.isPrefixOf other }

/-- Takes away an entry with nothing below it. Only a name can be taken away. -/
def detach (tree : LooseTree) (path : Path) : Except Cause LooseTree := do
  let location ← tree.resolve path
  match path.steps.getLast? with
  | some (.name _) => .ok (tree.erase location)
  | _ => .error .invalidArgument

/-- Removes an entry. A directory is cleared first and then looked for once more; where the path
leads through what was cleared, the directory stays. -/
def remove (tree : LooseTree) (path : Text) : Attempt :=
  let found : Except Cause (Path × Location × Entry) := do
    let path ← Path.ofText path
    .ok (path, ← tree.resolve path, ← tree.find path)
  match found with
  | .error cause => (tree, some cause)
  | .ok (path, location, _) =>
    let cleared := tree.clear location
    match cleared.detach path with
    | .ok removed => (removed, none)
    | .error .noEntry => (cleared, none)
    | .error cause => (cleared, some cause)

def listing (tree : LooseTree) : List (Text × Entry) :=
  let below := tree.entries.toList.filter fun (location, _) =>
    tree.workingDirectory.isPrefixOf location && location != tree.workingDirectory
  let paths := below.map fun (location, entry) =>
    (List.intercalate "/" (location.drop tree.workingDirectory.length), entry)
  paths.mergeSort fun a b => (compare a.1 b.1).isLE

end LooseTree
end DriverHeader
