import DriverHeader.Text

/-! # Interface documents

A document describes one driver interface: where it belongs, its version and its methods. It is
handed over as JSON; every enumeration has one word for each of its values there.
-/
namespace DriverHeader

inductive DocumentKind
  | interface
  | callback
  | types
  | sequenceable
  deriving DecidableEq

namespace DocumentKind

def all : List DocumentKind := [interface, callback, types, sequenceable]

def word : DocumentKind → Text
  | interface => "interface"
  | callback => "callback"
  | types => "types"
  | sequenceable => "sequenceable"

def label : DocumentKind → Text
  | interface => "interface"
  | callback => "callback interface"
  | types => "types"
  | sequenceable => "sequenceable"

end DocumentKind

/-- A serializable object crosses process boundaries by value, so it is never constructed in
process. -/
inductive Role
  | normal
  | callback
  | serializable
  deriving DecidableEq

namespace Role

def all : List Role := [normal, callback, serializable]

def word : Role → Text
  | normal => "normal"
  | callback => "callback"
  | serializable => "serializable"

def label : Role → Text
  | normal => "Normal"
  | callback => "Callback"
  | serializable => "Serializable"

end Role

inductive Direction
  | input
  | output
  | inOut
  deriving DecidableEq

namespace Direction

def all : List Direction := [input, output, inOut]

def word : Direction → Text
  | input => "in"
  | output => "out"
  | inOut => "inout"

end Direction

inductive Scalar
  | boolean
  | byte
  | short
  | int
  | long
  | float
  | double
  | uchar
  | ushort
  | uint
  | ulong
  | fileDescriptor
  deriving DecidableEq

namespace Scalar

def all : List Scalar :=
  [boolean, byte, short, int, long, float, double, uchar, ushort, uint, ulong, fileDescriptor]

def word : Scalar → Text
  | boolean => "boolean"
  | byte => "byte"
  | short => "short"
  | int => "int"
  | long => "long"
  | float => "float"
  | double => "double"
  | uchar => "uchar"
  | ushort => "ushort"
  | uint => "uint"
  | ulong => "ulong"
  | fileDescriptor => "fd"

end Scalar

inductive Reference
  | enum
  | struct
  | union
  | interface
  deriving DecidableEq

def Reference.word : Reference → Text
  | enum => "enum"
  | struct => "struct"
  | union => "union"
  | interface => "interface"

inductive Sequence
  | array
  | list
  deriving DecidableEq

def Sequence.word : Sequence → Text
  | array => "array"
  | list => "list"

inductive DataType
  | scalar (scalar : Scalar)
  | string
  | pointer
  | named (reference : Reference) (name : Text)
  | sequence (sequence : Sequence) (element : DataType)
  | remoteService
  deriving DecidableEq

/-- The number of nested objects a type is written with. -/
def DataType.depth : DataType → Nat
  | scalar _ => 0
  | string => 0
  | pointer => 0
  | named _ _ => 1
  | sequence _ element => element.depth + 1
  | remoteService => 0

structure Parameter where
  name : Text
  direction : Direction
  type : DataType
  deriving DecidableEq

structure Method where
  name : Text
  params : List Parameter
  deriving DecidableEq

structure Version where
  major : UInt32
  minor : UInt32
  deriving DecidableEq

structure Interface where
  package : Text
  name : Text
  version : Version
  role : Role
  methods : List Method
  deriving DecidableEq

/-- The dotted name by which other documents import an interface. -/
def Interface.fullName (interface : Interface) : Text :=
  if interface.package = [] then interface.name
  else interface.package ++ "." ++ interface.name

structure Document where
  kind : DocumentKind
  license : Option Text
  imports : List Text
  interface : Option Interface
  deriving DecidableEq

end DriverHeader
