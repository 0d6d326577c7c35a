import DriverHeader.FileTree.WellFormed

/-! # File trees

A file tree is what a process sees of the file system, with every entry in a directory. Its
operations are those on loose entries, none of which leaves an entry without a way to it.
-/
namespace DriverHeader

structure FileTree extends LooseTree where
  wellFormed : toLooseTree.WellFormed

namespace FileTree

instance : Coe FileTree LooseTree := ⟨toLooseTree⟩

abbrev Attempt := FileTree × Option Cause

def empty : FileTree := ⟨.empty, LooseTree.wellFormed_empty⟩

def startingAt (location : Location) : FileTree :=
  ⟨.startingAt location, LooseTree.wellFormed_startingAt location⟩

def createDirectories (tree : FileTree) (path : Text) : Attempt :=
  let attempt := tree.toLooseTree.createDirectories path
  (⟨attempt.1, tree.wellFormed.createDirectories path⟩, attempt.2)

def placeFile (tree : FileTree) (directory path : Text) (content : FileContent) : Attempt :=
  let attempt := tree.toLooseTree.placeFile directory path content
  (⟨attempt.1, tree.wellFormed.placeFile directory path content⟩, attempt.2)

def replaceFile (tree : FileTree) (path : Text) (content : FileContent) : Except Cause FileTree :=
  match h : tree.toLooseTree.replaceFile path content with
  | .ok replaced => .ok ⟨replaced, tree.wellFormed.replaceFile h⟩
  | .error cause => .error cause

def remove (tree : FileTree) (path : Text) : Attempt :=
  let attempt := tree.toLooseTree.remove path
  (⟨attempt.1, tree.wellFormed.remove path⟩, attempt.2)

theorem ext_loose {a b : FileTree} (h : (a : LooseTree) = b) : a = b := by
  cases a
  cases b
  cases h
  rfl

end FileTree
end DriverHeader
