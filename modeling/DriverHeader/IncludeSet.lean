import DriverHeader.Text

/-! # Include lists

An include list keeps standard headers before generated ones, each group in the order of first
insertion and without repetition.
-/
namespace DriverHeader

inductive HeaderOrigin
  | standard
  | generated
  deriving DecidableEq

structure Include where
  origin : HeaderOrigin
  path : Text
  deriving DecidableEq

def Include.line : Include → Text
  | ⟨.standard, path⟩ => "#include <" ++ path ++ ".h>"
  | ⟨.generated, path⟩ => "#include \"" ++ path ++ ".h\""

structure IncludeSet where
  standard : List Text
  generated : List Text

namespace IncludeSet

def empty : IncludeSet := ⟨[], []⟩

def paths (set : IncludeSet) : HeaderOrigin → List Text
  | .standard => set.standard
  | .generated => set.generated

/-- Adds a header at the end of its group unless it is there; tells whether it was new. -/
def insert (set : IncludeSet) (header : Include) : Bool × IncludeSet :=
  if header.path ∈ set.paths header.origin then (false, set)
  else
    (true, match header.origin with
      | .standard => { set with standard := set.standard ++ [header.path] }
      | .generated => { set with generated := set.generated ++ [header.path] })

def insertAll (set : IncludeSet) (headers : List Include) : IncludeSet :=
  headers.foldl (fun set header => (set.insert header).2) set

def toList (set : IncludeSet) : List Include :=
  set.standard.map (Include.mk .standard) ++ set.generated.map (Include.mk .generated)

def size (set : IncludeSet) : Nat := set.standard.length + set.generated.length

def isEmpty (set : IncludeSet) : Bool := set.size == 0

def lines (set : IncludeSet) : List Text := set.toList.map Include.line

end IncludeSet
end DriverHeader
