import DriverHeader.Document

/-! # C spellings of types and parameters

Where a type stands decides how it is spelled: results are filled through a pointer, structures
and unions always travel by reference, and elements of a sequence are spelled bare.
-/
namespace DriverHeader

inductive Position
  | bare
  | input
  | output
  deriving DecidableEq

/-- A parameter that carries a result is in output position, whether or not it also carries a
value in. -/
def Direction.position : Direction → Position
  | input => .input
  | output => .output
  | inOut => .output

def Scalar.spelling : Scalar → Text
  | boolean => "bool"
  | byte => "int8_t"
  | short => "int16_t"
  | int => "int32_t"
  | long => "int64_t"
  | float => "float"
  | double => "double"
  | uchar => "uint8_t"
  | ushort => "uint16_t"
  | uint => "uint32_t"
  | ulong => "uint64_t"
  | fileDescriptor => "int"

def remoteServiceName : Text := "HdfRemoteService"

def byValue (type : Text) : Position → Text
  | .output => type ++ "*"
  | _ => type

/-- A value of the given type, always passed through a pointer, which is constant on the way
in. -/
def byReference (type : Text) : Position → Text
  | .bare => type
  | .input => "const " ++ type ++ "*"
  | .output => type ++ "*"

def toElements (element : Text) : Position → Text
  | .input => "const " ++ element ++ "*"
  | _ => element ++ "*"

namespace DataType

def spelling : DataType → Position → Text
  | scalar s, position => byValue s.spelling position
  | string, position => toElements "char" position
  | pointer, position => byValue "void*" position
  | named .enum name, position => byValue ("enum " ++ name) position
  | named .struct name, position => byReference ("struct " ++ name) position
  | named .union name, position => byReference ("union " ++ name) position
  | named .interface name, position => byValue ("struct " ++ name ++ "*") position
  | sequence _ element, position => toElements (element.spelling .bare) position
  | remoteService, position => byValue ("struct " ++ remoteServiceName ++ "*") position

end DataType

namespace Parameter

/-- The type of the length that accompanies a parameter. Sequences always have one, which the
callee fills through a pointer where the sequence is a result; a string has one where the
callee fills its buffer. -/
def lengthType? (parameter : Parameter) : Option Text :=
  match parameter.type, parameter.direction.position with
  | .string, .output => some "uint32_t"
  | .sequence _ _, .input => some "uint32_t"
  | .sequence _ _, _ => some "uint32_t*"
  | _, _ => none

def items (parameter : Parameter) : List Text :=
  (parameter.type.spelling parameter.direction.position ++ " " ++ parameter.name) ::
    (parameter.lengthType?.map fun type => type ++ " " ++ parameter.name ++ "Len").toList

def fragment (parameter : Parameter) : Text := List.intercalate ", " parameter.items

end Parameter
end DriverHeader
