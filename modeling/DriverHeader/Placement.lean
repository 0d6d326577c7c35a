import DriverHeader.FileTree.Path
import DriverHeader.Identifier

/-! # Where a header is placed

The dots of a package and of a name separate directories, below the root of the output.
-/
namespace DriverHeader

def packageDirectory (root package : Text) : Text :=
  if package = [] then root else joinPath root (fileStem package)

def headerPath (directory name : Text) : Text := joinPath directory (fileStem name ++ ".h")

end DriverHeader
