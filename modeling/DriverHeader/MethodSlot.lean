import DriverHeader.CType

/-! # Slots of the method table

A method is declared as a function pointer whose first parameter is the object itself. A
declaration that does not fit on one line gives every parameter a line of its own.
-/
namespace DriverHeader

def tab : Text := "    "

/-- The widest line, in bytes, on which a declaration stays whole. -/
def lineWidth : Nat := 120

namespace Method

def slotHead (method : Method) (owner indent : Text) : Text :=
  indent ++ "int32_t (*" ++ method.name ++ ")(struct " ++ owner ++ " *self"

def slotWith (method : Method) (owner indent separator : Text) : Text :=
  method.slotHead owner indent ++ method.params.flatMap (fun p => separator ++ p.fragment) ++ ");"

def slotLine (method : Method) (owner indent : Text) : Text := method.slotWith owner indent ", "

def lineBreak (indent : Text) : Text := ",\n" ++ indent ++ tab

/-- The declaration of a method in the table of `owner`, wrapped if its single line is too
wide. -/
def slot (method : Method) (owner indent : Text) : Text :=
  if (method.slotLine owner indent).byteLength ≤ lineWidth then method.slotLine owner indent
  else method.slotWith owner indent (lineBreak indent)

end Method

def versionMethod : Method :=
  { name := "GetVersion"
    params := [⟨"majorVer", .output, .scalar .uint⟩, ⟨"minorVer", .output, .scalar .uint⟩] }

end DriverHeader
